import Mathlib.Data.List.Forall2
import ThresholdAlerts.Proofs.Books
/-! The ledger of a rule: which of its events are still to be delivered, the oldest first, how often
each was sent, and when it failed last. It is kept from what happens alone, and knows nothing of
outboxes. Only what is in order can be posted to it: an event is sent only at the head of the line, not
too often and not too early, and it leaves the line when it is accepted, cancelled or given up. Main
statement: every turn on the account of a rule can be posted. -/
namespace ThresholdAlerts

open List (Forall₂)

/-- The time of a move, and the random addition to a delay that is drawn in it. -/
structure Stamp where
  time : Duration
  draw : Option Nat

structure Stamped where
  what : Happening
  stamp : Stamp

structure Entry where
  event : Event
  /-- The calls to the sink that were made with the event. -/
  sends : Nat := 0
  /-- The move in which the last of them failed; none while it is under way. -/
  failed : Option Stamp := none

namespace Entry

def UnderWay (e : Entry) : Prop :=
  e.sends ≠ 0 ∧ e.failed = none

/-- The event was not sent yet, or the delay that was drawn when it failed last has passed. -/
def Ready (p : RetryPolicy) (now : Duration) (e : Entry) : Prop :=
  e.sends ≠ 0 → ∃ stamp draw, e.failed = some stamp ∧ stamp.draw = some draw ∧
    stamp.time + p.backoff e.sends draw ≤ now

end Entry

structure Ledger where
  /-- Events that were handed over, the oldest first. -/
  line : List Entry := []
  /-- Events that were produced and are not handed over yet; they are younger. -/
  todo : List Event := []

namespace Ledger

/-- What may be posted, and how the ledger stands after it. -/
inductive Step (p : RetryPolicy) : Ledger → Stamped → Ledger → Prop
  | produced {line todo stamp} (event : Event) :
      Step p { line, todo } ⟨.produced event, stamp⟩ { line, todo := todo ++ [event] }
  /-- Events are handed over as they were produced; the end of a stray alert comes when none is left. -/
  | handed {line todo stamp event} (next : ∀ first ∈ todo.head?, first = event) :
      Step p { line, todo } ⟨.handed event, stamp⟩
        { line := line ++ [{ event }], todo := todo.tail }
  | sent {oldest line todo stamp} (few : oldest.sends < max 1 p.maxAttempts)
      (ready : oldest.Ready p stamp.time) :
      Step p { line := oldest :: line, todo } ⟨.sent oldest.event, stamp⟩
        { line := { oldest with sends := oldest.sends + 1, failed := none } :: line, todo }
  | accepted {oldest line todo stamp} (underWay : oldest.UnderWay) :
      Step p { line := oldest :: line, todo } ⟨.answered oldest.event (.ok ()), stamp⟩ { line, todo }
  | refused {oldest line todo stamp} (underWay : oldest.UnderWay) (error : SinkError) :
      Step p { line := oldest :: line, todo } ⟨.answered oldest.event (.error error), stamp⟩
        { line := { oldest with failed := some stamp } :: line, todo }
  | cancelled {line opening ending todo stamp} (unsent : opening.sends = 0 ∧ ending.sends = 0)
      (closes : ∃ alert, opening.event = .opened alert ∧ ending.event.closing? = some alert.id) :
      Step p { line := line ++ [opening, ending], todo }
        ⟨.cancelled opening.event ending.event, stamp⟩ { line, todo }
  | givenUp {oldest line todo stamp} (failed : oldest.failed ≠ none) :
      Step p { line := oldest :: line, todo } ⟨.abandoned oldest.event oldest.sends, stamp⟩
        { line, todo }
  | overflow {line youngest todo stamp} (unsent : youngest.sends = 0) :
      Step p { line := line ++ [youngest], todo } ⟨.abandoned youngest.event 0, stamp⟩ { line, todo }

/-- What happened, the newest first, can be posted to an empty ledger and leaves this one. -/
inductive Posted (p : RetryPolicy) : List Stamped → Ledger → Prop
  | nil : Posted p [] {}
  | cons {log l next l'} (posted : Posted p log l) (step : l.Step p next l') :
      Posted p (next :: log) l'

end Ledger

/-! ### Ledger and outbox -/

/-- The entry of a delivery that waits. -/
inductive Entry.Records (p : RetryPolicy) : Entry → Delivery → Prop
  | untried {d} (untried : d.failures = 0) : Records p { event := d.event } d
  | tried {d stamp draw} (again : d.failures < p.maxAttempts) (drawn : stamp.draw = some draw)
      (delay : d.dueAt = stamp.time + p.backoff d.failures draw) :
      Records p { event := d.event, sends := d.failures, failed := some stamp } d

section Records

variable {p : RetryPolicy} {e : Entry} {d : Delivery}

theorem Entry.Records.event (h : e.Records p d) : e.event = d.event := by
  cases h <;> rfl

theorem Entry.Records.sends (h : e.Records p d) : e.sends = d.failures := by
  cases h with
  | untried untried => exact untried.symm
  | tried => rfl

theorem Entry.Records.few (h : e.Records p d) : d.failures < max 1 p.maxAttempts := by
  cases h with
  | untried untried => exact untried ▸ Nat.lt_of_lt_of_le Nat.one_pos (Nat.le_max_left ..)
  | tried again => exact Nat.lt_of_lt_of_le again (Nat.le_max_right ..)

/-- Failures are counted without bound as long as an event is tried again. -/
theorem RetryPolicy.counted {failures : Nat} (range : p.maxAttempts ≤ Delivery.maxFailures)
    (few : failures < max 1 p.maxAttempts) : min (failures + 1) Delivery.maxFailures = failures + 1 := by
  have one : 1 ≤ Delivery.maxFailures := by decide
  exact Nat.min_eq_left (Nat.lt_of_lt_of_le few (Nat.max_le.mpr ⟨one, range⟩))

theorem Moment.Postpones.records {m : Moment} {now : Stamp} (later : m.Postpones d) (time : now.time = m.clock)
    (draw : ∀ drawn ∈ m.draws, now.draw = some drawn) :
    Entry.Records m.policy { event := d.event, sends := d.failures, failed := some now } d := by
  obtain ⟨drawn, mem, dueAt⟩ := later.delay
  refine .tried ?_ (draw drawn mem) (time ▸ dueAt)
  simpa [RetryPolicy.exhausted] using later.again

theorem Entry.Records.ready {now : Duration} (h : e.Records p d) (due : d.isDue now = true) :
    e.Ready p now := by
  intro sent
  cases h with
  | untried => exact absurd rfl sent
  | @tried _ stamp draw again drawn delay =>
      rw [Delivery.isDue, decide_eq_true_eq, delay] at due
      exact ⟨stamp, draw, rfl, drawn, due⟩

end Records

namespace Ledger

variable {p : RetryPolicy} {now : Stamp} {l l' : Ledger} {outbox : Outbox}

/-- The front of the outbox is being tried again. -/
def Tries (p : RetryPolicy) (failed : Option Stamp) (line : List Entry) (outbox : Outbox) : Prop :=
  ∃ front rest behind, outbox = front :: rest ∧
    line = { event := front.event, sends := front.failures + 1, failed } :: behind ∧
    front.failures < max 1 p.maxAttempts ∧ Forall₂ (Entry.Records p) behind rest

theorem Tries.front {failed : Option Stamp} {line : List Entry} {front : Delivery} {rest : Outbox}
    (tries : Tries p failed line outbox) (due : outbox = front :: rest) :
    ∃ behind, line = { event := front.event, sends := front.failures + 1, failed } :: behind ∧
      front.failures < max 1 p.maxAttempts ∧ Forall₂ (Entry.Records p) behind rest := by
  obtain ⟨front', rest', behind, due', shape, few, records⟩ := tries
  obtain ⟨rfl, rfl⟩ := List.cons.inj (due.symm.trans due')
  exact ⟨behind, shape, few, records⟩

/-- How the line stands to the outbox while the holder of the slot is at a stage in this move. -/
def Lines (p : RetryPolicy) (now : Stamp) (line : List Entry) (outbox : Outbox) : Stage → Prop
  | .rest => Forall₂ (Entry.Records p) line outbox
  | .handed event => ∃ before, line = before ++ [{ event }] ∧ Forall₂ (Entry.Records p) before outbox
  | .sending event _ => outbox = [] ∧ line = [{ event, sends := 1 }]
  | .failed event _ => outbox = [] ∧ line = [{ event, sends := 1, failed := some now }]
  | .draining => Forall₂ (Entry.Records p) line outbox
  | .retrying _ => Tries p none line outbox
  | .accepted => Forall₂ (Entry.Records p) line outbox.tail
  | .refused _ => Tries p (some now) line outbox

/-- The ledger of a rule says what its outbox and the holder of its slot know. -/
structure Agrees (p : RetryPolicy) (now : Stamp) (l : Ledger) (outbox : Outbox) (x : Option Work) :
    Prop where
  todo : l.todo = Work.todoOf x
  line : Lines p now l.line outbox (x.getD {}).stage

theorem Agrees.of_steady {x : Option Work} (h : l.Agrees p now outbox x)
    (steady : ∀ work ∈ x, work.Steady) (later : Stamp) : l.Agrees p later outbox x := by
  obtain ⟨todo, line⟩ := h
  refine ⟨todo, ?_⟩
  cases x with
  | none => exact line
  | some work =>
      obtain ⟨todo, stage⟩ := work
      have calm := steady _ rfl
      cases stage with
      | failed => exact calm.elim
      | refused => exact calm.elim
      | _ => exact line

/-- What happens from one account to the next can be posted, and the ledger agrees again. -/
def Follows (p : RetryPolicy) (now : Stamp) (l : Ledger) (a a' : Account) (x' : Option Work) : Prop :=
  ∃ news l', a'.past = news ++ a.past ∧ l'.Agrees p now a'.outbox x' ∧
    ∀ log, Posted p log l → Posted p (news.map (⟨·, now⟩) ++ log) l'

variable {a a' : Account} {x x' : Option Work}

theorem Follows.quiet (past : a'.past = a.past) (agrees : l.Agrees p now a'.outbox x') :
    l.Follows p now a a' x' :=
  ⟨[], l, past, agrees, fun _ posted => posted⟩

theorem Follows.noted {what : Happening} (step : l.Step p ⟨what, now⟩ l')
    (past : a'.past = what :: a.past) (agrees : l'.Agrees p now a'.outbox x') :
    l.Follows p now a a' x' :=
  ⟨[what], l', past, agrees, fun _ posted => posted.cons step⟩

end Ledger

theorem forall₂_concat {α β : Type} {R : α → β → Prop} {l : List α} {l' : List β} {b : β}
    (h : Forall₂ R l (l' ++ [b])) : ∃ before a, l = before ++ [a] ∧ Forall₂ R before l' ∧ R a b := by
  have last := List.forall₂_drop_append l l' [b] h
  generalize rest : l.drop l'.length = behind at last
  obtain _ | ⟨here, _ | _⟩ := last
  exact ⟨_, _, by rw [← rest, List.take_append_drop], List.forall₂_take_append l l' [b] h, here⟩

/-! ### Every turn can be posted -/

namespace Ledger

section Agrees

variable {p : RetryPolicy} {now : Stamp} {l : Ledger} {a : Account} {event : Event} {todo : List Event}
  {flight : Flight (Except SinkError Unit)} {error : SinkError} {d front front' : Delivery} {rest : Outbox}

theorem Agrees.changed (agrees : l.Agrees p now a.outbox (some { todo })) (c : FiringState.Change) :
    l.Follows p now a
      { a with
        state := (a.state.apply c).1
        past := (a.state.apply c).2.toList.map .produced ++ a.past }
      (some { todo := todo ++ (a.state.apply c).2.toList }) := by
  obtain ⟨line, todo⟩ := l
  obtain ⟨rfl, waiting⟩ := agrees
  cases (a.state.apply c).2 with
  | none => exact .quiet rfl ⟨(List.append_nil _).symm, waiting⟩
  | some event => exact .noted (.produced event) rfl ⟨rfl, waiting⟩

theorem Agrees.hand (agrees : l.Agrees p now a.outbox (some { todo := event :: todo })) :
    l.Follows p now a { a with past := .handed event :: a.past } (some { todo, stage := .handed event }) := by
  obtain ⟨line, todo⟩ := l
  obtain ⟨rfl, waiting⟩ := agrees
  refine .noted (.handed ?_) rfl ⟨rfl, line, rfl, waiting⟩
  rintro _ ⟨⟩
  rfl

theorem Agrees.handStray (agrees : l.Agrees p now a.outbox (some {})) :
    l.Follows p now a { a with past := .handed event :: a.past } (some { stage := .handed event }) := by
  obtain ⟨line, _⟩ := l
  obtain ⟨rfl, waiting⟩ := agrees
  exact .noted (.handed nofun) rfl ⟨rfl, line, rfl, waiting⟩

theorem Agrees.queued (agrees : l.Agrees p now a.outbox (some { todo, stage := .handed event }))
    (same : d.event = event) (untried : d.failures = 0) :
    l.Follows p now a { a with outbox := a.outbox ++ [d] } (some { todo }) := by
  obtain ⟨line, todo⟩ := l
  obtain ⟨rfl, before, rfl, waiting⟩ := agrees
  refine .quiet rfl ⟨rfl, List.rel_append waiting (.cons ?_ .nil)⟩
  exact same ▸ .untried untried

theorem Agrees.cancelled (agrees : l.Agrees p now a.outbox (some { todo, stage := .handed event }))
    (cancels : a.outbox.cancelledBy? event = some d) :
    l.Follows p now a
      { a with outbox := a.outbox.dropLast, past := .cancelled d.event event :: a.past } (some { todo }) := by
  obtain ⟨line, todo⟩ := l
  obtain ⟨rfl, before, rfl, waiting⟩ := agrees
  obtain ⟨shape, alert, opening, untried, closes⟩ := Outbox.cancels_last cancels
  rw [← shape] at waiting
  obtain ⟨line, last, rfl, waiting, records⟩ := forall₂_concat waiting
  have step : Step p { line := line ++ [last, { event }], todo } ⟨.cancelled last.event event, now⟩
      { line, todo } :=
    .cancelled ⟨records.sends.trans untried, rfl⟩ ⟨alert, records.event.trans opening, closes⟩
  rw [records.event] at step
  rw [List.append_assoc]
  exact .noted step rfl ⟨rfl, waiting⟩

theorem Agrees.overflow (agrees : l.Agrees p now a.outbox (some { todo, stage := .handed event })) :
    l.Follows p now a { a with past := .abandoned event 0 :: a.past } (some { todo }) := by
  obtain ⟨line, todo⟩ := l
  obtain ⟨rfl, before, rfl, waiting⟩ := agrees
  have step : Step p { line := before ++ [{ event }], todo } ⟨.abandoned event 0, now⟩
      { line := before, todo } := .overflow rfl
  exact .noted step rfl ⟨rfl, waiting⟩

theorem Agrees.sent (agrees : l.Agrees p now a.outbox (some { todo, stage := .handed event }))
    (empty : a.outbox = []) :
    l.Follows p now a { a with past := .sent event :: a.past }
      (some { todo, stage := .sending event flight }) := by
  obtain ⟨line, todo⟩ := l
  obtain ⟨rfl, before, rfl, waiting⟩ := agrees
  rw [empty] at waiting
  cases waiting
  have few : 0 < max 1 p.maxAttempts := Nat.lt_of_lt_of_le Nat.one_pos (Nat.le_max_left ..)
  have step : Step p { line := [{ event }], todo } ⟨.sent event, now⟩
      { line := [{ event, sends := 1 }], todo } := .sent few fun sent => absurd rfl sent
  exact .noted step rfl ⟨rfl, empty, rfl⟩

theorem Agrees.accepted (agrees : l.Agrees p now a.outbox (some { todo, stage := .sending event flight })) :
    l.Follows p now a { a with past := .answered event (.ok ()) :: a.past } (some { todo }) := by
  obtain ⟨line, todo⟩ := l
  obtain ⟨rfl, empty, rfl⟩ := agrees
  have step : Step p { line := [{ event, sends := 1 }], todo } ⟨.answered event (.ok ()), now⟩ { todo } :=
    .accepted ⟨Nat.one_ne_zero, rfl⟩
  exact .noted step rfl ⟨rfl, empty ▸ .nil⟩

theorem Agrees.refused (agrees : l.Agrees p now a.outbox (some { todo, stage := .sending event flight })) :
    l.Follows p now a { a with past := .answered event (.error error) :: a.past }
      (some { todo, stage := .failed event error }) := by
  obtain ⟨line, todo⟩ := l
  obtain ⟨rfl, empty, rfl⟩ := agrees
  have step : Step p { line := [{ event, sends := 1 }], todo } ⟨.answered event (.error error), now⟩
      { line := [{ event, sends := 1, failed := some now }], todo } := .refused ⟨Nat.one_ne_zero, rfl⟩ error
  exact .noted step rfl ⟨rfl, empty, rfl⟩

theorem Agrees.postponed (agrees : l.Agrees p now a.outbox (some { todo, stage := .failed event error }))
    (same : d.event = event) (counted : d.failures = 1)
    (records : Entry.Records p { event := d.event, sends := d.failures, failed := some now } d) :
    l.Follows p now a { a with outbox := [d] } (some { todo }) := by
  obtain ⟨line, todo⟩ := l
  obtain ⟨rfl, -, rfl⟩ := agrees
  rw [same, counted] at records
  exact .quiet rfl ⟨rfl, .cons records .nil⟩

theorem Agrees.dropped (agrees : l.Agrees p now a.outbox (some { todo, stage := .failed event error })) :
    l.Follows p now a { a with past := .abandoned event 1 :: a.past } (some { todo }) := by
  obtain ⟨line, todo⟩ := l
  obtain ⟨rfl, empty, rfl⟩ := agrees
  have step : Step p { line := [{ event, sends := 1, failed := some now }], todo }
      ⟨.abandoned event 1, now⟩ { todo } := .givenUp nofun
  exact .noted step rfl ⟨rfl, empty ▸ .nil⟩

theorem Agrees.resent (agrees : l.Agrees p now a.outbox (some { stage := .draining }))
    (due : a.outbox = front :: rest) (ripe : front.isDue now.time = true) :
    l.Follows p now a { a with past := .sent front.event :: a.past } (some { stage := .retrying flight }) := by
  obtain ⟨line, _⟩ := l
  obtain ⟨rfl, waiting⟩ := agrees
  have waiting : Forall₂ (Entry.Records p) line a.outbox := waiting
  rw [due] at waiting
  obtain _ | @⟨oldest, _, line, _, records, behind⟩ := waiting
  have step : Step p { line := oldest :: line } ⟨.sent oldest.event, now⟩
      { line := { oldest with sends := oldest.sends + 1, failed := none } :: line } :=
    .sent (records.sends ▸ records.few) (records.ready ripe)
  rw [records.event, records.sends] at step
  exact .noted step rfl ⟨rfl, front, rest, line, due, rfl, records.few, behind⟩

theorem Agrees.acceptedAgain (agrees : l.Agrees p now a.outbox (some { stage := .retrying flight }))
    (due : a.outbox = front :: rest) :
    l.Follows p now a { a with past := .answered front.event (.ok ()) :: a.past }
      (some { stage := .accepted }) := by
  obtain ⟨line, _⟩ := l
  obtain ⟨rfl, tries⟩ := agrees
  obtain ⟨line, rfl, few, behind⟩ := Tries.front tries due
  have step : Step p { line := { event := front.event, sends := front.failures + 1 } :: line }
      ⟨.answered front.event (.ok ()), now⟩ { line } := .accepted ⟨Nat.succ_ne_zero _, rfl⟩
  refine .noted step rfl ⟨rfl, ?_⟩
  have tail : a.outbox.tail = rest := congrArg List.tail due
  exact show Forall₂ _ line a.outbox.tail from tail ▸ behind

theorem Agrees.refusedAgain (agrees : l.Agrees p now a.outbox (some { stage := .retrying flight }))
    (due : a.outbox = front :: rest) :
    l.Follows p now a { a with past := .answered front.event (.error error) :: a.past }
      (some { stage := .refused error }) := by
  obtain ⟨line, _⟩ := l
  obtain ⟨rfl, tries⟩ := agrees
  obtain ⟨line, rfl, few, behind⟩ := Tries.front tries due
  have step : Step p { line := { event := front.event, sends := front.failures + 1 } :: line }
      ⟨.answered front.event (.error error), now⟩
      { line := { event := front.event, sends := front.failures + 1, failed := some now } :: line } :=
    .refused ⟨Nat.succ_ne_zero _, rfl⟩ error
  exact .noted step rfl ⟨rfl, front, rest, line, due, rfl, few, behind⟩

theorem Agrees.delivered (agrees : l.Agrees p now a.outbox (some { stage := .accepted }))
    (due : a.outbox = front :: rest) :
    l.Follows p now a { a with outbox := rest } (some { stage := .draining }) := by
  obtain ⟨line, _⟩ := l
  obtain ⟨rfl, waiting⟩ := agrees
  have waiting : Forall₂ (Entry.Records p) line a.outbox.tail := waiting
  rw [due] at waiting
  exact .quiet rfl ⟨rfl, waiting⟩

/-- A failure that is tried again is counted, so the entry and the delivery agree on the sends. -/
theorem Agrees.delayed (range : p.maxAttempts ≤ Delivery.maxFailures)
    (agrees : l.Agrees p now a.outbox (some { stage := .refused error })) (due : a.outbox = front :: rest)
    (same : front'.event = front.event)
    (again : front'.failures = min (front.failures + 1) Delivery.maxFailures)
    (records : Entry.Records p
      { event := front'.event, sends := front'.failures, failed := some now } front') :
    l.Follows p now a { a with outbox := front' :: rest } (some { stage := .draining }) := by
  obtain ⟨line, _⟩ := l
  obtain ⟨rfl, tries⟩ := agrees
  obtain ⟨line, rfl, few, behind⟩ := Tries.front tries due
  rw [same, again, RetryPolicy.counted range few] at records
  exact .quiet rfl ⟨rfl, .cons records behind⟩

theorem Agrees.givenUp (range : p.maxAttempts ≤ Delivery.maxFailures)
    (agrees : l.Agrees p now a.outbox (some { stage := .refused error })) (due : a.outbox = front :: rest) :
    l.Follows p now a
      { a with
        outbox := rest
        past := .abandoned front.event (min (front.failures + 1) Delivery.maxFailures) :: a.past }
      (some { stage := .draining }) := by
  obtain ⟨line, _⟩ := l
  obtain ⟨rfl, tries⟩ := agrees
  obtain ⟨line, rfl, few, behind⟩ := Tries.front tries due
  have step : Step p
      { line := { event := front.event, sends := front.failures + 1, failed := some now } :: line }
      ⟨.abandoned front.event (front.failures + 1), now⟩ { line } := .givenUp nofun
  rw [RetryPolicy.counted range few]
  exact .noted step rfl ⟨rfl, behind⟩

end Agrees

end Ledger

/-- Every turn on an account can be posted. -/
theorem Turn.posted {regime : Regime} {rule : RuleId} {m : Moment} {a a' : Account}
    {x x' : Option Work} {l : Ledger} {now : Stamp} (turn : Turn regime rule m a x a' x')
    (agrees : l.Agrees m.policy now a.outbox x) (time : now.time = m.clock)
    (draw : ∀ drawn ∈ m.draws, now.draw = some drawn) (range : m.policy.maxAttempts ≤ Delivery.maxFailures) :
    l.Follows m.policy now a a' x' := by
  cases turn with
  | taken => exact .quiet rfl ⟨agrees.todo, agrees.line⟩
  | idle => exact .quiet rfl agrees
  | retire => exact .quiet rfl agrees
  | seeded => exact .quiet rfl agrees
  | left => exact .quiet rfl ⟨agrees.todo, agrees.line⟩
  | forgotten retired spent => exact .quiet rfl ⟨agrees.todo, spent ▸ agrees.line⟩
  | acted => exact .quiet rfl ⟨agrees.todo, agrees.line⟩
  | actedAgain => exact .quiet rfl ⟨agrees.todo, agrees.line⟩
  | drains => exact .quiet rfl ⟨agrees.todo, agrees.line⟩
  | drained => exact .quiet rfl ⟨agrees.todo, agrees.line⟩
  | changed c => exact agrees.changed c
  | hand => exact agrees.hand
  | handStray => exact agrees.handStray
  | queued waits kept room same untried => exact agrees.queued same untried
  | cancelled cancels => exact agrees.cancelled cancels
  | overflow => exact agrees.overflow
  | sent empty => exact agrees.sent empty
  | accepted => exact agrees.accepted
  | refused => exact agrees.refused
  | postponed empty same counted later => exact agrees.postponed same counted (later.records time draw)
  | dropped => exact agrees.dropped
  | resent due ripe => exact agrees.resent due (time ▸ ripe)
  | acceptedAgain due => exact agrees.acceptedAgain due
  | refusedAgain due => exact agrees.refusedAgain due
  | delivered due => exact agrees.delivered due
  | delayed due same counted later => exact agrees.delayed range due same counted (later.records time draw)
  | givenUp due => exact agrees.givenUp range due

end ThresholdAlerts
