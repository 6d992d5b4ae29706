import ThresholdAlerts.Engine.Request
import ThresholdAlerts.Proofs.Queues
/-! The account of one rule: its firing state, its outbox and what happened to its events. Whoever
holds the slot of a rule works on its account, one turn after the other, and is at rest or has an event
at hand in between. -/
namespace ThresholdAlerts

/-- The rule that a happening is about. -/
def Happening.ruleId : Happening → RuleId
  | .produced event => event.ruleId
  | .handed event => event.ruleId
  | .sent event => event.ruleId
  | .answered event _ => event.ruleId
  | .cancelled _ event => event.ruleId
  | .abandoned event _ => event.ruleId

structure Account where
  state : FiringState
  outbox : Outbox := []
  retired : Bool := false
  /-- What happened to the events of the rule, the newest first. -/
  past : List Happening := []

def World.account (w : World) (rule : RuleId) : Account where
  state := (w.engine.tracker.slotFor rule).state
  outbox := (w.engine.tracker.slotFor rule).outbox
  retired := (w.engine.tracker.slotFor rule).retired
  past := w.journal.filter (·.ruleId = rule)

theorem World.account_of_untracked {w : World} {rule : RuleId} (absent : rule ∉ w.engine.tracker.ruleIds) :
    (w.account rule).outbox = [] ∧ (w.account rule).state.openAlertId = none := by
  have none : w.engine.tracker.find? rule = none :=
    Classical.not_not.mp fun tracked => absent (Tracker.mem_ruleIds.mpr tracked)
  rw [World.account, Tracker.slotFor_of_absent none]
  exact ⟨rfl, rfl⟩

/-- The flight has acted and has this answer. -/
def Flight.answered (f : Flight α) (answer : α) : Flight α :=
  { f with answer := some answer }

/-- How far the holder of a slot has come with the event at hand. -/
inductive Stage where
  | rest
  /-- The event was handed over and is not sent or queued yet. -/
  | handed (event : Event)
  /-- The event is being sent for the first time. -/
  | sending (event : Event) (flight : Flight (Except SinkError Unit))
  | failed (event : Event) (error : SinkError)
  /-- The outbox is being worked off, and its front is to be looked at. -/
  | draining
  /-- The front of the outbox is being sent. -/
  | retrying (flight : Flight (Except SinkError Unit))
  | accepted
  | refused (error : SinkError)

/-- What the holder of a slot is at. -/
structure Work where
  /-- Events that were produced and are not handed over yet. -/
  todo : List Event := []
  stage : Stage := .rest

/-- Whether others may come in between. -/
def Work.Steady (work : Work) : Prop :=
  match work.stage with
  | .rest => True
  | .sending .. => True
  | .retrying _ => True
  | _ => False

/-- The failure that the holder of a slot has still to count. -/
def Work.debt : Option Work → Nat
  | some { stage := .failed .., .. } => 1
  | some { stage := .refused _, .. } => 1
  | _ => 0

/-- The event at hand. -/
def Stage.events : Stage → List Event
  | .handed event => [event]
  | .sending event _ => [event]
  | .failed event _ => [event]
  | _ => []

/-- The calls that may be under way: all but the recovery, all, or nothing but the recovery. -/
inductive Regime where
  | serving
  | mixed
  | recovering
deriving DecidableEq

/-- Whether a change of the firing state is one that a sample makes by the definition of `rule`. -/
def FiringState.Change.Suits (rule : RuleId) (retired : Bool) : FiringState.Change → Prop
  | .transition _ r _ _ _ => r.id = rule ∧ retired = false
  | _ => True

theorem FiringState.apply_ruleId (s : FiringState) (c : FiringState.Change) :
    (s.apply c).1.ruleId = s.ruleId := by
  cases c with
  | transition fresh r breached value time => rfl
  | force reason time => rfl
  | sync r time =>
      rw [FiringState.apply, FiringState.syncRule]
      repeat' split
      all_goals rfl
  | reset r time =>
      simp only [FiringState.apply, FiringState.resetHysteresis, FiringState.syncRule,
        FiringState.dropPending]
      repeat' split
      all_goals rfl

/-- The supply after this many draws. -/
def Supply.after {α : Type} (s : Supply α) (draws : Nat) : Supply α :=
  { s with taken := s.taken + draws }

def Supply.drawn {α : Type} (s s' : Supply α) : List α :=
  (List.range' s.taken (s'.taken - s.taken)).map s.value

theorem Supply.mem_drawn {α : Type} {s s' : Supply α} {value : α} :
    value ∈ s.drawn s' ↔ ∃ n, s.taken ≤ n ∧ n < s'.taken ∧ s.value n = value := by
  simp only [drawn, List.mem_map, List.mem_range'_1]
  constructor
  · rintro ⟨n, ⟨first, last⟩, rfl⟩
    exact ⟨n, first, by omega, rfl⟩
  · rintro ⟨n, first, last, rfl⟩
    exact ⟨n, ⟨first, by omega⟩, rfl⟩

theorem Supply.next_mem_drawn {α : Type} (s : Supply α) : s.next ∈ s.drawn s.advance :=
  mem_drawn.mpr ⟨s.taken, Nat.le_refl _, Nat.lt_succ_self _, rfl⟩

/-- When a turn is taken, and what is drawn in it. -/
structure Moment where
  /-- Whether the rule is defined. -/
  known : Prop
  clock : Duration
  policy : RetryPolicy
  /-- Random additions to delays. -/
  draws : List Nat

def World.moment (w : World) (rule : RuleId) (w' : World) : Moment where
  known := ∃ r, w.rule? rule = some r
  clock := w.clock
  policy := w.engine.policy
  draws := w.jitter.drawn w'.jitter

/-- A delivery that failed is to be tried again after the delay that is drawn. -/
structure Moment.Postpones (m : Moment) (d : Delivery) : Prop where
  again : m.policy.exhausted d.failures = false
  delay : ∃ draw ∈ m.draws, d.dueAt = m.clock + m.policy.backoff d.failures draw

/-- One turn on the account of a rule, by its holder. -/
inductive Turn (regime : Regime) (rule : RuleId) (m : Moment) :
    Account → Option Work → Account → Option Work → Prop
  | taken {a retired} (revives : retired = a.retired ∨ retired = false) :
      Turn regime rule m a none { a with retired } (some {})
  | changed {a todo} (c : FiringState.Change) (serves : regime ≠ .recovering)
      (suits : c.Suits rule a.retired) :
      Turn regime rule m a (some { todo })
        { a with
          state := (a.state.apply c).1
          past := (a.state.apply c).2.toList.map .produced ++ a.past }
        (some { todo := todo ++ (a.state.apply c).2.toList })
  | idle {a} : Turn regime rule m a (some {}) a (some {})
  | retire {a todo} (spent : a.state.isOpen = false ∨
        regime ≠ .serving ∧ (regime = .recovering → ¬ m.known)) :
      Turn regime rule m a (some { todo }) { a with retired := true } (some { todo })
  | seeded {a} (alertId : AlertId) (recovers : regime ≠ .serving)
      (defined : regime = .recovering → m.known) (kept : a.retired = false)
      (closed : a.state.isOpen = false) :
      Turn regime rule m a (some {}) { a with state := .recovered rule alertId } (some {})
  | hand {a event todo} :
      Turn regime rule m a (some { todo := event :: todo })
        { a with past := .handed event :: a.past } (some { todo, stage := .handed event })
  | handStray {a event} (recovers : regime ≠ .serving) (named : event.ruleId = rule)
      (ends : event.isOpened = false) :
      Turn regime rule m a (some {}) { a with past := .handed event :: a.past }
        (some { stage := .handed event })
  | queued {a event todo d} (waits : a.outbox ≠ []) (kept : a.outbox.cancelledBy? event = none)
      (room : a.outbox.length < Outbox.capacity) (same : d.event = event) (untried : d.failures = 0)
      (ripe : d.isDue m.clock = true) :
      Turn regime rule m a (some { todo, stage := .handed event })
        { a with outbox := a.outbox ++ [d] } (some { todo })
  | cancelled {a event todo d} (cancels : a.outbox.cancelledBy? event = some d) :
      Turn regime rule m a (some { todo, stage := .handed event })
        { a with outbox := a.outbox.dropLast, past := .cancelled d.event event :: a.past }
        (some { todo })
  | overflow {a event todo} (kept : a.outbox.cancelledBy? event = none)
      (full : Outbox.capacity ≤ a.outbox.length) :
      Turn regime rule m a (some { todo, stage := .handed event })
        { a with past := .abandoned event 0 :: a.past } (some { todo })
  | sent {a event todo flight} (empty : a.outbox = []) (waits : flight.answer = none) :
      Turn regime rule m a (some { todo, stage := .handed event })
        { a with past := .sent event :: a.past } (some { todo, stage := .sending event flight })
  | acted {a event todo flight} (answer : Except SinkError Unit) (waits : flight.answer = none) :
      Turn regime rule m a (some { todo, stage := .sending event flight }) a
        (some { todo, stage := .sending event (flight.answered answer) })
  | accepted {a event todo flight} (done : flight.answer = some (.ok ())) :
      Turn regime rule m a (some { todo, stage := .sending event flight })
        { a with past := .answered event (.ok ()) :: a.past } (some { todo })
  | refused {a event todo flight} (error : SinkError) :
      Turn regime rule m a (some { todo, stage := .sending event flight })
        { a with past := .answered event (.error error) :: a.past }
        (some { todo, stage := .failed event error })
  | postponed {a event todo error d} (empty : a.outbox = []) (same : d.event = event)
      (counted : d.failures = 1) (later : m.Postpones d) :
      Turn regime rule m a (some { todo, stage := .failed event error })
        { a with outbox := [d] } (some { todo })
  | dropped {a event todo error} (empty : a.outbox = []) :
      Turn regime rule m a (some { todo, stage := .failed event error })
        { a with past := .abandoned event 1 :: a.past } (some { todo })
  | drains {a} : Turn regime rule m a (some {}) a (some { stage := .draining })
  | drained {a} (tried : ∀ front ∈ a.outbox.head?, 0 < front.failures) :
      Turn regime rule m a (some { stage := .draining }) a (some {})
  | resent {a front rest flight} (due : a.outbox = front :: rest) (ripe : front.isDue m.clock = true)
      (waits : flight.answer = none) :
      Turn regime rule m a (some { stage := .draining }) { a with past := .sent front.event :: a.past }
        (some { stage := .retrying flight })
  | actedAgain {a flight} (answer : Except SinkError Unit) (waits : flight.answer = none) :
      Turn regime rule m a (some { stage := .retrying flight }) a
        (some { stage := .retrying (flight.answered answer) })
  | acceptedAgain {a front rest flight} (due : a.outbox = front :: rest)
      (done : flight.answer = some (.ok ())) :
      Turn regime rule m a (some { stage := .retrying flight })
        { a with past := .answered front.event (.ok ()) :: a.past } (some { stage := .accepted })
  | refusedAgain {a front rest flight} (due : a.outbox = front :: rest) (error : SinkError) :
      Turn regime rule m a (some { stage := .retrying flight })
        { a with past := .answered front.event (.error error) :: a.past }
        (some { stage := .refused error })
  | delivered {a front rest} (due : a.outbox = front :: rest) :
      Turn regime rule m a (some { stage := .accepted }) { a with outbox := rest } (some { stage := .draining })
  | delayed {a front front' rest error} (due : a.outbox = front :: rest)
      (same : front'.event = front.event)
      (counted : front'.failures = min (front.failures + 1) Delivery.maxFailures)
      (later : m.Postpones front') :
      Turn regime rule m a (some { stage := .refused error }) { a with outbox := front' :: rest }
        (some { stage := .draining })
  | givenUp {a front rest error} (due : a.outbox = front :: rest) :
      Turn regime rule m a (some { stage := .refused error })
        { a with
          outbox := rest
          past := .abandoned front.event (min (front.failures + 1) Delivery.maxFailures) :: a.past }
        (some { stage := .draining })
  | left {a} (tidy : a.retired = true → a.outbox ≠ []) : Turn regime rule m a (some {}) a none
  | forgotten {a} (retired : a.retired = true) (spent : a.outbox = []) :
      Turn regime rule m a (some {}) { state := .initial rule, past := a.past } none

/-- A slot that nobody holds stays as long as something is left to deliver there, or its rule is not gone. -/
def Account.Tidy (a : Account) (x : Option Work) : Prop :=
  x = none → a.retired = true → a.outbox ≠ []

theorem Turn.tidy {regime : Regime} {rule : RuleId} {m : Moment} {a a' : Account} {x x' : Option Work}
    (turn : Turn regime rule m a x a' x') : a'.Tidy x' := by
  intro free
  cases turn with
  | left tidy => exact tidy
  | forgotten => exact fun retired => absurd retired Bool.false_ne_true
  | _ => exact absurd free (by simp)

/-! ### Events of a rule are about the rule -/

/-- What comes of a change of a firing state: nothing is opened or closed, the open alert is closed, or
an alert is opened while there is none. -/
inductive FiringState.Outcome (s : FiringState) (c : FiringState.Change) :
    FiringState → Option Event → Prop
  | still {s'} (same : s'.openAlertId = s.openAlertId) : Outcome s c s' none
  | closes {s' id reason time} (was : s.openAlertId = some id) (clear : s'.openAlertId = none) :
      Outcome s c s' (some (.resolved id s.ruleId time reason))
  | opens {s' fresh r breached value time} (made : c = .transition fresh r breached value time)
      (was : s.openAlertId = none) (now : s'.openAlertId = some fresh) :
      Outcome s c s' (some (.opened (.ofRule fresh r value time)))

theorem FiringState.forceResolve_outcome (s : FiringState) (c : FiringState.Change)
    (fingerprint : Option Fingerprint) (reason : ResolveReason) (time : Timestamp) :
    s.Outcome c ({ s with fingerprint }.forceResolve reason time).1
      ({ s with fingerprint }.forceResolve reason time).2 := by
  have same : openAlertId { s with fingerprint } = s.openAlertId := rfl
  rw [forceResolve, same]
  cases was : s.openAlertId with
  | none => exact .still was.symm
  | some id => exact .closes was rfl

theorem FiringState.syncRule_outcome (s : FiringState) (c : FiringState.Change) (r : Rule)
    (time : Timestamp) : s.Outcome c (s.syncRule r time).1 (s.syncRule r time).2 := by
  rw [syncRule]
  repeat' split
  · exact .still rfl
  · exact forceResolve_outcome s c (some r.fingerprint) .ruleChanged time
  · exact .still rfl

theorem FiringState.openAlertId_dropPending (s : FiringState) :
    s.dropPending.openAlertId = s.openAlertId := by
  rw [dropPending]
  split
  next n pending => rw [openAlertId, openAlertId, pending]
  next => rfl

theorem FiringState.apply_outcome (s : FiringState) (c : FiringState.Change) :
    s.Outcome c (s.apply c).1 (s.apply c).2 := by
  cases c with
  | force reason time => exact forceResolve_outcome s _ s.fingerprint reason time
  | sync r time => exact syncRule_outcome s _ r time
  | reset r time =>
      have synced := syncRule_outcome s (.reset r time) r time
      simp only [apply, resetHysteresis]
      generalize s.syncRule r time = result at synced
      obtain ⟨s', event⟩ := result
      cases synced with
      | still same => exact .still ((openAlertId_dropPending s').trans same)
      | closes was clear => exact .closes was ((openAlertId_dropPending s').trans clear)
      | opens made was now => exact absurd made (by simp)
  | transition fresh r breached value time =>
      have counted (n : Nat) (was : s.openAlertId = none) :
          s.Outcome (.transition fresh r breached value time)
            { s with
              phase := (countBreach n fresh r value time).1
              fingerprint := s.fingerprint <|> some r.fingerprint
              lastSampleAt := some time }
            (countBreach n fresh r value time).2 := by
        simp only [countBreach]
        split
        · exact .opens rfl was rfl
        · exact .still was.symm
      simp only [apply, transition, nextPhase]
      cases phase : s.phase with
      | clear =>
          have was : s.openAlertId = none := by rw [openAlertId, phase]
          cases breached with
          | true => exact counted 0 was
          | false => exact .still was.symm
      | pending n =>
          have was : s.openAlertId = none := by rw [openAlertId, phase]
          cases breached with
          | true => exact counted n was
          | false => exact .still was.symm
      | opened id n =>
          have was : s.openAlertId = some id := by rw [openAlertId, phase]
          cases breached with
          | true => exact .still was.symm
          | false => exact .closes was rfl

theorem FiringState.ruleId_of_apply {s : FiringState} {c : FiringState.Change} {retired : Bool}
    (suits : c.Suits s.ruleId retired) {event : Event} (produced : (s.apply c).2 = some event) :
    event.ruleId = s.ruleId := by
  have outcome := s.apply_outcome c
  rw [produced] at outcome
  cases outcome with
  | closes was clear => rfl
  | opens made was now =>
      rw [made] at suits
      exact suits.1

/-- The events that wait and those that the holder is at are about the rule. -/
structure Tagged (rule : RuleId) (outbox : Outbox) (x : Option Work) : Prop where
  outbox : ∀ d ∈ outbox, d.event.ruleId = rule
  work : ∀ work ∈ x, ∀ event ∈ work.todo ++ work.stage.events, event.ruleId = rule

theorem Turn.tagged {regime : Regime} {rule : RuleId} {m : Moment} {a a' : Account}
    {x x' : Option Work} (turn : Turn regime rule m a x a' x') (named : a.state.ruleId = rule)
    (tagged : Tagged rule a.outbox x) : Tagged rule a'.outbox x' := by
  obtain ⟨outbox, work⟩ := tagged
  cases turn with
  | changed c serves suits =>
      refine ⟨outbox, fun work' here event mem => ?_⟩
      obtain rfl := Option.some.inj here
      simp only [Stage.events, List.append_nil, List.mem_append, Option.mem_toList] at mem
      rcases mem with mem | mem
      · exact work _ rfl event (by simpa [Stage.events] using mem)
      · exact (FiringState.ruleId_of_apply (named.symm ▸ suits) mem).trans named
  | queued waits kept room same =>
      refine ⟨fun d mem => ?_, ?_⟩
      · rcases List.mem_append.mp mem with mem | mem
        · exact outbox d mem
        · rw [List.mem_singleton.mp mem, same]
          exact work _ rfl _ (by simp [Stage.events])
      · simp_all [Stage.events]
  | cancelled =>
      exact ⟨fun d mem => outbox d (List.dropLast_subset _ mem), by simp_all [Stage.events]⟩
  | hand =>
      refine ⟨outbox, fun work' here event mem => work _ rfl event ?_⟩
      obtain rfl := Option.some.inj here
      simpa [Stage.events, or_comm] using mem
  | _ => constructor <;> simp_all [Stage.events]

/-- What was not tried yet may be tried at once. -/
def Outbox.Ripe (outbox : Outbox) (now : Duration) : Prop :=
  ∀ d ∈ outbox, d.failures = 0 → d.isDue now = true

theorem Delivery.isDue_of_le {d : Delivery} {now later : Duration} (due : d.isDue now = true)
    (after : now ≤ later) : d.isDue later = true := by
  rw [isDue, decide_eq_true_eq] at due ⊢
  exact Nat.le_trans due after

theorem Delivery.isDue_queued (event : Event) (now : Duration) : (Delivery.queued event now).isDue now = true :=
  decide_eq_true (Nat.le_refl _)

theorem Outbox.Ripe.later {outbox : Outbox} {now later : Duration} (ripe : outbox.Ripe now)
    (after : now ≤ later) : outbox.Ripe later :=
  fun d mem untried => Delivery.isDue_of_le (ripe d mem untried) after

theorem Outbox.Ripe.subset {outbox outbox' : Outbox} {now : Duration} (ripe : outbox.Ripe now)
    (fewer : outbox' ⊆ outbox) : outbox'.Ripe now :=
  fun d mem => ripe d (fewer mem)

theorem Delivery.failures_counted {d front : Delivery}
    (counted : d.failures = min (front.failures + 1) maxFailures) : 0 < d.failures := by
  rw [counted, Nat.lt_min]
  exact ⟨Nat.succ_pos _, by decide⟩

theorem Turn.ripe {regime : Regime} {rule : RuleId} {m : Moment} {a a' : Account} {x x' : Option Work}
    (turn : Turn regime rule m a x a' x') (ripe : a.outbox.Ripe m.clock) : a'.outbox.Ripe m.clock := by
  have rest {front : Delivery} {rest : Outbox} (due : a.outbox = front :: rest) : rest ⊆ a.outbox :=
    due ▸ List.subset_cons_self front rest
  cases turn with
  | queued waits kept room same untried due =>
      intro d mem untried'
      rcases List.mem_append.mp mem with mem | mem
      · exact ripe d mem untried'
      · exact List.mem_singleton.mp mem ▸ due
  | cancelled => exact ripe.subset (List.dropLast_subset _)
  | postponed empty same counted =>
      intro d mem untried
      rw [List.mem_singleton.mp mem, counted] at untried
      exact absurd untried (by decide)
  | delivered due => exact ripe.subset (rest due)
  | delayed due same counted =>
      intro d mem untried
      rcases List.mem_cons.mp mem with here | later
      · exact absurd untried (Nat.ne_of_gt (here ▸ Delivery.failures_counted counted))
      · exact ripe d (rest due later) untried
  | givenUp due => exact ripe.subset (rest due)
  | forgotten => exact fun d mem => absurd mem (by simp)
  | _ => exact ripe

end ThresholdAlerts
