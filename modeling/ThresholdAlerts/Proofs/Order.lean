import Mathlib.Logic.Function.Basic
import ThresholdAlerts.Proofs.Conduct
/-! The order that calls keep among themselves: each slot has one holder, the head of its queue, and
nobody else's slot or place in a queue changes; and whoever stands in a queue is one of the calls. Main
statement: a move of one call keeps the order, and with it every property of the world and its holders that
what happens under a slot keeps. -/
namespace ThresholdAlerts

open Function

abbrev Place := Nat × Option Nat

/-- What calls queue for: a slot, or the turn to refresh the rules. -/
inductive Lock where
  | slot (id : SlotId)
  | refresh
deriving DecidableEq

/-- Whoever has a lock, and behind it those that wait for it. -/
def World.queue (w : World) : Lock → List Ticket
  | .slot id => w.engine.tracker.queues id
  | .refresh => w.turns

namespace Stance

def ticket? : Stance → Option Ticket
  | .free => none
  | .queued c => some c.ticket
  | .holding _ _ ticket _ => some ticket
  | .awaiting ticket => some ticket
  | .refreshing ticket => some ticket

/-- The queue that a call stands in, and what it stands there with. -/
def spot? : Stance → Option (Lock × Ticket)
  | .free => none
  | .queued c => some (.slot c.slot, c.ticket)
  | .holding _ id ticket _ => some (.slot id, ticket)
  | .awaiting ticket => some (.refresh, ticket)
  | .refreshing ticket => some (.refresh, ticket)

/-- The stance is what the queues say. -/
def Stands (w : World) : Stance → Prop
  | .free => True
  | .queued c => w.engine.tracker.Queued c
  | .holding rule id ticket _ =>
    w.engine.tracker.find? rule = some id ∧ (w.slot id).queue.head? = some ticket
  | .awaiting ticket => ticket ∈ w.turns
  | .refreshing ticket => w.turns.head? = some ticket

/-- Whether others may come in between. -/
def Steady : Stance → Prop
  | .holding _ _ _ work => work.Steady
  | _ => True

def Spares (barred : RuleId → Prop) : Stance → Stance → Prop
  | .queued _, .holding rule _ _ _ => ¬ barred rule
  | _, _ => True

/-- The slot that a call holds is as it was. -/
def Undisturbed (w w' : World) : Stance → Prop
  | .holding _ id _ _ => (w.slot id).Alike (w'.slot id)
  | _ => True

end Stance

/-- How the queues change when a call goes from one spot in them to another: it joins a queue at the back, it
leaves one at the front, or both. -/
inductive Requeued (q : Lock → List Ticket) :
    Option (Lock × Ticket) → Option (Lock × Ticket) → (Lock → List Ticket) → Prop
  | stays {s} : Requeued q s s q
  | joins {l t} : Requeued q none (some (l, t)) (update q l (q l ++ [t]))
  | leaves {l t} (front : (q l).head? = some t) : Requeued q (some (l, t)) none (update q l (q l).tail)
  | passes {l l' t q'} (front : (q l).head? = some t) (left : q' = update q l (q l).tail) :
      Requeued q (some (l, t)) (some (l', t)) (update q' l' (q' l' ++ [t]))

/-- Queues move; nothing else that matters does. -/
structure World.Shuffles (ticket : Ticket) (w w' : World) : Prop where
  aside : w.Aside w'
  shifts : w.engine.tracker.Shifts ticket w'.engine.tracker
  rules : w'.engine.rules = w.engine.rules

/-- Nothing changes on the accounts. -/
structure World.Still (regime : Regime) (w w' : World) : Prop where
  aside : w.Aside w'
  reloads : w.Reloads regime w'
  account : ∀ rule, w'.account rule = w.account rule
  stays : ∀ {rule : RuleId} {id : SlotId}, w.engine.tracker.find? rule = some id →
    w'.engine.tracker.find? rule = some id
  marks : w.engine.tracker.KeepsMarks w'.engine.tracker

/-- One move of a call between two moments at which others may come in. -/
inductive Stance.Moves (regime : Regime) : World → Stance → World → Stance → Prop
  | chore {w w' σ} (chore : w.Chore regime w') (turns : w'.turns = w.turns) : Moves regime w σ w' σ
  | asks {w w' ticket} (chore : w.Chore regime w') (new : w.moves ≤ ticket) (early : ticket < w'.moves)
      (turns : w'.turns = w.turns ++ [ticket]) : Moves regime w .free w' (.awaiting ticket)
  | begins {w ticket} (head : w.turns.head? = some ticket) :
      Moves regime w (.awaiting ticket) w (.refreshing ticket)
  | yields {w w' ticket} (chore : w.Chore regime w') (turns : w'.turns = w.turns.tail) :
      Moves regime w (.refreshing ticket) w' .free
  | joins {w w' c} (shuffles : w.Shuffles c.ticket w') (new : w.moves ≤ c.ticket)
      (early : c.ticket < w'.moves) (queued : w'.engine.tracker.Queued c)
      (queue : Requeued w.queue none (Stance.queued c).spot? w'.queue) : Moves regime w .free w' (.queued c)
  | requeues {w w' c c'} (shuffles : w.Shuffles c.ticket w') (same : c'.ticket = c.ticket)
      (queued : w'.engine.tracker.Queued c')
      (queue : Requeued w.queue (Stance.queued c).spot? (Stance.queued c').spot? w'.queue) :
      Moves regime w (.queued c) w' (.queued c')
  | leaves {w w' c} (shuffles : w.Shuffles c.ticket w')
      (queue : Requeued w.queue (Stance.queued c).spot? none w'.queue) : Moves regime w (.queued c) w' .free
  | acquires {w c} (found : w.engine.tracker.find? c.rule = some c.slot)
      (head : (w.slot c.slot).queue.head? = some c.ticket) :
      Moves regime w (.queued c) (w.onTracker (·.take c)) (.holding c.rule c.slot c.ticket {})
  | works {w w' rule id ticket work x} (happens : Happens regime rule id w (some work) w' x) :
      Moves regime w (.holding rule id ticket work) w' (.after rule id ticket x)

structure World.Attended (w : World) (holders : RuleId → Option Work) (rule : RuleId) (id : SlotId) :
    Prop where
  coherent : w.engine.tracker.Coherent
  sound : w.engine.rules.snapshot.Sound
  found : w.engine.tracker.find? rule = some id
  tagged : ∀ rule, Tagged rule (w.account rule).outbox (holders rule)
  steady : ∀ {rule' work}, rule' ≠ rule → holders rule' = some work → work.Steady

/-- What happens under a slot, and what is no business of the slots, keeps a property of the world and
of the holders of the slots. -/
structure Kept (regime : Regime) (I : World → (RuleId → Option Work) → Prop) : Prop where
  still : ∀ {w w' holders}, w.Still regime w' → I w holders → I w' holders
  happens : ∀ {w w' holders rule id x}, w.Attended holders rule id →
    Happens regime rule id w (holders rule) w' x → I w holders → I w' (update holders rule x)

/-- The same, as long as nobody gets the slot of a barred rule. -/
structure KeptBarring (regime : Regime) (barred : RuleId → Prop) (I : World → (RuleId → Option Work) → Prop) :
    Prop where
  still : ∀ {w w' holders}, w.Still regime w' → I w holders → I w' holders
  happens : ∀ {w w' holders rule id x}, w.Attended holders rule id → (holders rule = none → ¬ barred rule) →
    Happens regime rule id w (holders rule) w' x → I w holders → I w' (update holders rule x)

theorem Kept.barring {regime : Regime} {I : World → (RuleId → Option Work) → Prop} (kept : Kept regime I)
    (barred : RuleId → Prop) : KeptBarring regime barred I :=
  ⟨kept.still, fun attended _ => kept.happens attended⟩

/-- Whoever waits or holds does so in a place of its own. -/
structure Lined {P : Type} (w : World) (st : P → Stance) : Prop where
  coherent : w.engine.tracker.Coherent
  stands : ∀ p, (st p).Stands w
  early : ∀ {p t}, (st p).ticket? = some t → t < w.moves
  apart : ∀ {p q t}, (st p).ticket? = some t → (st q).ticket? = some t → p = q

/-- Whoever stands in a queue stands there once, and is one of the calls. -/
structure Manned {P : Type} (q : Lock → List Ticket) (st : P → Stance) : Prop where
  once : ∀ l, (q l).Nodup
  owned : ∀ {l t}, t ∈ q l → ∃ p, (st p).spot? = some (l, t)

/-- The stances of all calls fit together. -/
structure Orderly (w : World) (st : Place → Stance) (holders : RuleId → Option Work) : Prop where
  coherent : w.engine.tracker.Coherent
  sound : w.engine.rules.snapshot.Sound
  stands : ∀ p, (st p).Stands w
  early : ∀ {p t}, (st p).ticket? = some t → t < w.moves
  apart : ∀ {p q t}, (st p).ticket? = some t → (st q).ticket? = some t → p = q
  manned : Manned w.queue st
  held : ∀ {rule work}, holders rule = some work ↔ ∃ p id ticket, st p = .holding rule id ticket work
  tagged : ∀ rule, Tagged rule (w.account rule).outbox (holders rule)
  ripe : ∀ rule, (w.account rule).outbox.Ripe w.clock
  tidy : ∀ rule, (w.account rule).Tidy (holders rule)

variable {regime : Regime} {barred : RuleId → Prop} {w w' : World} {st : Place → Stance}
  {holders : RuleId → Option Work} {ticket : Ticket} {rule : RuleId} {id : SlotId} {σ σ' : Stance} {p q : Place}

/-! ### Nothing changes on the accounts -/

theorem resembles_of_same {t t' : Tracker} (slots : t'.slots = t.slots) (index : t'.index = t.index)
    (nextSlot : t'.nextSlot = t.nextSlot) : t.Resembles t' :=
  ⟨index, nextSlot, fun got => ⟨_, slots ▸ got, rfl, rfl, rfl⟩, fun got attached => ⟨_, slots ▸ got, rfl, attached⟩⟩

theorem shifts_of_same {t t' : Tracker} (c : t.Coherent) (slots : t'.slots = t.slots)
    (index : t'.index = t.index) (nextSlot : t'.nextSlot = t.nextSlot) (marks : t.KeepsMarks t')
    (ticket : Ticket) : t.Shifts ticket t' := by
  have resembles := resembles_of_same slots index nextSlot
  have same (id : SlotId) : t'.slot id = t.slot id := by
    rw [Tracker.slot, slots, Tracker.slot]
  refine ⟨resembles.coherent c, ⟨fun got mem _ => ⟨_, slots ▸ got, rfl, mem⟩,
    fun got head _ => ⟨_, slots ▸ got, head, .refl _⟩,
    fun found _ _ _ => (resembles.find? _).trans found, Nat.le_of_eq nextSlot.symm,
    fun _ gone => slots ▸ gone⟩, ?_, fun found => (resembles.find? _).trans found, marks⟩
  exact Tracker.slotFor_alike resembles.find? fun _ => by rw [same]; exact .refl _

theorem World.Chore.shifts (h : w.Chore regime w') (c : w.engine.tracker.Coherent) (ticket : Ticket) :
    w.engine.tracker.Shifts ticket w'.engine.tracker :=
  shifts_of_same c h.slots h.index h.nextSlot h.marks ticket

theorem still_of_shifts (aside : w.Aside w') (reloads : w.Reloads regime w')
    (shifts : w.engine.tracker.Shifts ticket w'.engine.tracker) : w.Still regime w' :=
  ⟨aside, reloads, fun rule => World.account_of_alike (shifts.alike rule) aside.journal, shifts.stays,
    shifts.marks⟩

theorem World.Shuffles.still (h : w.Shuffles ticket w') : w.Still regime w' :=
  still_of_shifts h.aside (.of_same (congrArg RuleStore.snapshot h.rules)) h.shifts

/-! ### Queues -/

namespace World

theorem queue_of_same (queues : w'.engine.tracker.queues = w.engine.tracker.queues)
    (turns : w'.turns = w.turns) : w'.queue = w.queue := by
  funext l
  cases l with
  | slot id => rw [queue, queues, queue]
  | refresh => rw [queue, turns, queue]

theorem queue_of_slot {l : List Ticket} (queues : w'.engine.tracker.queues = update w.engine.tracker.queues id l)
    (turns : w'.turns = w.turns) : w'.queue = update w.queue (.slot id) l := by
  funext lock
  cases lock with
  | refresh => rw [update_of_ne (by simp), queue, turns, queue]
  | slot id' =>
      rw [queue, queues]
      by_cases same : id' = id
      · subst same
        rw [update_self, update_self]
      · rw [update_of_ne same, update_of_ne (by simpa using same), queue]

theorem queue_of_turns {l : List Ticket} (queues : w'.engine.tracker.queues = w.engine.tracker.queues)
    (turns : w'.turns = l) : w'.queue = update w.queue .refresh l := by
  funext lock
  cases lock with
  | refresh => rw [update_self, queue, turns]
  | slot id => rw [update_of_ne (by simp), queue, queues, queue]

theorem Chore.queues (h : w.Chore regime w') : w'.engine.tracker.queues = w.engine.tracker.queues := by
  funext id
  rw [Tracker.queues, Tracker.queues, Tracker.slot, Tracker.slot, h.slots]

end World

theorem Stance.ticket?_of_spot {l : Lock} {t : Ticket} (here : σ.spot? = some (l, t)) : σ.ticket? = some t := by
  cases σ with
  | free => exact absurd here (by simp [spot?])
  | _ =>
      rw [spot?, Option.some.injEq, Prod.mk.injEq] at here
      exact congrArg some here.2

section Manned

variable {P : Type} [DecidableEq P] {q q' : Lock → List Ticket} {st : P → Stance} {p : P} {l : Lock} {t : Ticket}

theorem Manned.stays (m : Manned q st) (same : σ'.spot? = (st p).spot?) : Manned q (update st p σ') where
  once := m.once
  owned {l t} mem := by
    obtain ⟨r, here⟩ := m.owned mem
    by_cases own : r = p
    · subst own
      exact ⟨r, by rw [update_self, same, here]⟩
    · exact ⟨r, by rw [update_of_ne own, here]⟩

theorem Manned.left (m : Manned q st) (here : (st p).spot? = some (l, t)) (front : (q l).head? = some t)
    (σ' : Stance) : Manned (update q l (q l).tail) (update st p σ') := by
  have split := List.eq_cons_of_mem_head? front
  have fewer {l' : Lock} {u : Ticket} (mem : u ∈ update q l (q l).tail l') : u ∈ q l' ∧ (l', u) ≠ (l, t) := by
    by_cases same : l' = l
    · subst same
      rw [update_self] at mem
      have once := m.once l'
      rw [split, List.nodup_cons] at once
      exact ⟨List.mem_of_mem_tail mem, fun eq => once.1 ((Prod.mk.inj eq).2 ▸ mem)⟩
    · rw [update_of_ne same] at mem
      exact ⟨mem, fun eq => same (Prod.mk.inj eq).1⟩
  refine ⟨fun l' => ?_, fun {l' u} mem => ?_⟩
  · by_cases same : l' = l
    · subst same
      rw [update_self]
      exact (m.once l').tail
    · rw [update_of_ne same]
      exact m.once l'
  · obtain ⟨there, ne⟩ := fewer mem
    obtain ⟨r, owns⟩ := m.owned there
    have other : r ≠ p := fun same => by
      rw [same, here] at owns
      exact ne (Option.some.inj owns).symm
    exact ⟨r, by rw [update_of_ne other, owns]⟩

theorem Manned.joined (m : Manned q st) (here : (st p).spot? = none) (there : σ'.spot? = some (l, t))
    (strange : ∀ r ≠ p, (st r).ticket? ≠ some t) : Manned (update q l (q l ++ [t])) (update st p σ') := by
  have others {l' : Lock} {u : Ticket} (mem : u ∈ q l') : u ≠ t ∧ ∃ r, (update st p σ' r).spot? = some (l', u) := by
    obtain ⟨r, owns⟩ := m.owned mem
    have other : r ≠ p := fun same => by
      rw [same, here] at owns
      exact absurd owns (by simp)
    refine ⟨fun same => strange r other ?_, r, by rw [update_of_ne other, owns]⟩
    rw [← same]
    exact Stance.ticket?_of_spot owns
  refine ⟨fun l' => ?_, fun {l' u} mem => ?_⟩
  · by_cases same : l' = l
    · subst same
      rw [update_self, List.nodup_append]
      refine ⟨m.once l', List.nodup_cons.mpr ⟨by simp, List.nodup_nil⟩, fun u mem u' own => ?_⟩
      rw [List.mem_singleton.mp own]
      exact (others mem).1
    · rw [update_of_ne same]
      exact m.once l'
  · by_cases same : l' = l
    · subst same
      rw [update_self] at mem
      rcases List.mem_append.mp mem with old | new
      · exact (others old).2
      · rw [List.mem_singleton.mp new]
        exact ⟨p, by rw [update_self, there]⟩
    · rw [update_of_ne same] at mem
      exact (others mem).2

theorem Manned.requeued (m : Manned q st) {s' : Option (Lock × Ticket)} (there : σ'.spot? = s')
    (change : Requeued q (st p).spot? s' q')
    (strange : ∀ {t}, σ'.ticket? = some t → ∀ r ≠ p, (st r).ticket? ≠ some t) : Manned q' (update st p σ') := by
  generalize here : (st p).spot? = s at change
  cases change with
  | stays => exact m.stays (there.trans here.symm)
  | joins => exact m.joined here there (strange (Stance.ticket?_of_spot there))
  | leaves front => exact m.left here front σ'
  | passes front left =>
      subst left
      have between := m.left here front .free
      have idle : (update st p Stance.free p).spot? = none := by rw [update_self]; rfl
      have joined := between.joined idle there fun r ne => by
        rw [update_of_ne ne]
        exact strange (Stance.ticket?_of_spot there) r ne
      rwa [update_idem] at joined

end Manned

/-! ### Others -/

/-- What others than the owner of `ticket` hold or wait for stays theirs. -/
structure World.Respects (ticket : Ticket) (w w' : World) : Prop where
  slots : w.engine.tracker.Respects ticket w'.engine.tracker
  waits : ∀ {u}, u ∈ w.turns → u ≠ ticket → u ∈ w'.turns
  refreshes : ∀ {u}, w.turns.head? = some u → u ≠ ticket → w'.turns.head? = some u

theorem World.Respects.of_turns (slots : w.engine.tracker.Respects ticket w'.engine.tracker)
    (turns : w'.turns = w.turns) : w.Respects ticket w' :=
  ⟨slots, fun mem _ => turns ▸ mem, fun head _ => turns ▸ head⟩

theorem World.Respects.of_rules (slots : w.engine.tracker.Respects ticket w'.engine.tracker)
    (rules : w'.engine.rules = w.engine.rules) : w.Respects ticket w' :=
  .of_turns slots (congrArg RuleStore.turns rules)

theorem Stance.Stands.respected (h : σ.Stands w) (r : w.Respects ticket w') (ne : σ.ticket? ≠ some ticket) :
    σ.Stands w' ∧ σ.Undisturbed w w' := by
  cases σ with
  | free => exact ⟨trivial, trivial⟩
  | queued c => exact ⟨h.respected r.slots fun same => ne (congrArg some same), trivial⟩
  | holding rule id u work =>
      obtain ⟨found, head⟩ := h
      have other : u ≠ ticket := fun same => ne (congrArg some same)
      have got : w.engine.tracker.slots[id]? = some (w.slot id) := Tracker.get_of_head head
      obtain ⟨s', got', head', alike⟩ := r.slots.holds got head other
      obtain rfl : w'.slot id = s' := Tracker.slot_of_get got'
      exact ⟨⟨r.slots.found found got head other, head'⟩, alike⟩
  | awaiting u => exact ⟨r.waits h fun same => ne (congrArg some same), trivial⟩
  | refreshing u => exact ⟨r.refreshes h fun same => ne (congrArg some same), trivial⟩

section Lined

variable {P : Type} {st : P → Stance} {p q : P}

theorem Lined.only (l : Lined w st) (found : w.engine.tracker.find? rule = some id)
    (head : (w.slot id).queue.head? = some ticket) (own : (st p).ticket? = some ticket)
    {id' : SlotId} {ticket' : Ticket} {work : Work}
    (other : st q = .holding rule id' ticket' work) : q = p := by
  have stands := l.stands q
  rw [other] at stands
  obtain ⟨found', head'⟩ := stands
  obtain rfl := Option.some.inj (found.symm.trans found')
  obtain rfl := Option.some.inj (head.symm.trans head')
  exact l.apart (by rw [other]; rfl) own

theorem Lined.moved [DecidableEq P] (l : Lined w st) (respects : w.Respects ticket w')
    (strange : ∀ q ≠ p, (st q).ticket? ≠ some ticket) (moves : w.moves ≤ w'.moves)
    (coherent : w'.engine.tracker.Coherent) (stands : σ'.Stands w')
    (own : ∀ {t}, σ'.ticket? = some t → t < w'.moves ∧ ∀ q ≠ p, (st q).ticket? ≠ some t) :
    Lined w' (update st p σ') where
  coherent := coherent
  stands q := by
    by_cases same : q = p
    · subst same
      rw [update_self]
      exact stands
    · rw [update_of_ne same]
      exact ((l.stands q).respected respects (strange q same)).1
  early {q t} here := by
    by_cases same : q = p
    · subst same
      rw [update_self] at here
      exact (own here).1
    · rw [update_of_ne same] at here
      exact Nat.lt_of_lt_of_le (l.early here) moves
  apart {q r t} here there := by
    by_cases same : q = p <;> by_cases same' : r = p
    · exact same.trans same'.symm
    · subst same
      rw [update_self] at here
      rw [update_of_ne same'] at there
      exact absurd there ((own here).2 r same')
    · subst same'
      rw [update_self] at there
      rw [update_of_ne same] at here
      exact absurd here ((own there).2 q same)
    · rw [update_of_ne same] at here
      rw [update_of_ne same'] at there
      exact l.apart here there

end Lined

theorem Orderly.lined (o : Orderly w st holders) : Lined w st :=
  ⟨o.coherent, o.stands, o.early, o.apart⟩

structure Orderly.Passes (st : Place → Stance) (p : Place) (ticket : Ticket) (w w' : World) :
    Prop where
  respects : w.Respects ticket w'
  strange : ∀ q ≠ p, (st q).ticket? ≠ some ticket
  moves : w.moves ≤ w'.moves

theorem Orderly.passes_own (o : Orderly w st holders) (own : (st p).ticket? = some ticket)
    (respects : w.Respects ticket w') (moves : w.moves ≤ w'.moves) :
    Orderly.Passes st p ticket w w' :=
  ⟨respects, fun _ ne other => ne (o.apart other own), moves⟩

theorem Orderly.moved (o : Orderly w st holders) {holders' : RuleId → Option Work}
    (passes : Orderly.Passes st p ticket w w') (coherent : w'.engine.tracker.Coherent)
    (sound : w'.engine.rules.snapshot.Sound) (stands : σ'.Stands w')
    (own : ∀ {t}, σ'.ticket? = some t → t < w'.moves ∧ ∀ q ≠ p, (st q).ticket? ≠ some t)
    (queue : Requeued w.queue (st p).spot? σ'.spot? w'.queue)
    (held : ∀ {rule work}, holders' rule = some work ↔
      ∃ q id ticket, update st p σ' q = .holding rule id ticket work)
    (tagged : ∀ rule, Tagged rule (w'.account rule).outbox (holders' rule))
    (ripe : ∀ rule, (w'.account rule).outbox.Ripe w'.clock)
    (tidy : ∀ rule, (w'.account rule).Tidy (holders' rule)) :
    Orderly w' (update st p σ') holders' := by
  obtain ⟨-, stands, early, apart⟩ :=
    o.lined.moved passes.respects passes.strange passes.moves coherent stands own
  have manned := o.manned.requeued rfl queue fun here => (own here).2
  exact ⟨coherent, sound, stands, early, apart, manned, held, tagged, ripe, tidy⟩

theorem Orderly.undisturbed (o : Orderly w st holders) (passes : Orderly.Passes st p ticket w w')
    (ne : q ≠ p) : (st q).Undisturbed w w' :=
  ((o.stands q).respected passes.respects (passes.strange q ne)).2

theorem held_of_idle (held : ∀ {rule work}, holders rule = some work ↔
      ∃ p id ticket, st p = .holding rule id ticket work)
    (before : ∀ rule id ticket work, st p ≠ .holding rule id ticket work)
    (after : ∀ rule id ticket work, σ' ≠ .holding rule id ticket work) {rule : RuleId} {work : Work} :
    holders rule = some work ↔ ∃ q id ticket, update st p σ' q = .holding rule id ticket work := by
  rw [held]
  constructor
  · rintro ⟨q, id, ticket, here⟩
    have ne : q ≠ p := fun same => before _ _ _ _ (same ▸ here)
    exact ⟨q, id, ticket, (update_of_ne ne _ _).trans here⟩
  · rintro ⟨q, id, ticket, here⟩
    by_cases same : q = p
    · subst same
      rw [update_self] at here
      exact absurd here (after _ _ _ _)
    · rw [update_of_ne same] at here
      exact ⟨q, id, ticket, here⟩

theorem held_of_work (held : ∀ {rule work}, holders rule = some work ↔
      ∃ p id ticket, st p = .holding rule id ticket work) {x : Option Work}
    (only : ∀ {q id ticket work}, st q = .holding rule id ticket work → q = p)
    (before : ∀ {rule' id ticket work}, st p = .holding rule' id ticket work → rule' = rule)
    (after : σ' = .after rule id ticket x) {rule' : RuleId} {work : Work} :
    update holders rule x rule' = some work ↔
      ∃ q id ticket, update st p σ' q = .holding rule' id ticket work := by
  subst after
  constructor
  · intro holds
    by_cases here : rule' = rule
    · subst here
      rw [update_self] at holds
      subst holds
      exact ⟨p, id, ticket, update_self ..⟩
    · rw [update_of_ne here, held] at holds
      obtain ⟨q, id', ticket', there⟩ := holds
      have ne : q ≠ p := fun same => here (before (same ▸ there))
      exact ⟨q, id', ticket', (update_of_ne ne _ _).trans there⟩
  · rintro ⟨q, id', ticket', there⟩
    by_cases same : q = p
    · rw [same, update_self] at there
      obtain ⟨rfl, rfl⟩ := Stance.after_eq_holding there
      exact update_self ..
    · rw [update_of_ne same] at there
      have ne : rule' ≠ rule := by
        rintro rfl
        exact same (only there)
      rw [update_of_ne ne]
      exact held.mpr ⟨q, id', ticket', there⟩

/-- A move that is no business of the accounts. -/
theorem Orderly.moved_aside {I : World → (RuleId → Option Work) → Prop} (kept : KeptBarring regime barred I)
    (o : Orderly w st holders) (i : I w holders) (still : w.Still regime w')
    (passes : Orderly.Passes st p ticket w w') (coherent : w'.engine.tracker.Coherent) (stands : σ'.Stands w')
    (own : ∀ {t}, σ'.ticket? = some t → t < w'.moves ∧ ∀ q ≠ p, (st q).ticket? ≠ some t)
    (queue : Requeued w.queue (st p).spot? σ'.spot? w'.queue)
    (held : ∀ {rule work}, holders rule = some work ↔
      ∃ q id ticket, update st p σ' q = .holding rule id ticket work) :
    ∃ holders', Orderly w' (update st p σ') holders' ∧ I w' holders' ∧
      (∀ q ≠ p, (st q).Undisturbed w w') ∧ w.engine.tracker.Ages w'.engine.tracker := by
  refine ⟨holders, o.moved passes coherent (still.reloads.sound o.sound) stands own queue held (fun rule => ?_)
    (fun rule => ?_) fun rule => ?_, kept.still still i, fun q ne => o.undisturbed passes ne, passes.respects.slots.ages⟩
  · rw [still.account]
    exact o.tagged rule
  · rw [still.account, still.aside.clock]
    exact o.ripe rule
  · rw [still.account]
    exact o.tidy rule

theorem Orderly.moved_happens {I : World → (RuleId → Option Work) → Prop} {x : Option Work}
    (kept : KeptBarring regime barred I) (o : Orderly w st holders) (i : I w holders)
    (steady : ∀ q ≠ p, (st q).Steady) (spot : (st p).spot? = some (.slot id, ticket))
    (found : w.engine.tracker.find? rule = some id)
    (head : (w.slot id).queue.head? = some ticket)
    (before : ∀ {rule' id ticket work}, st p = .holding rule' id ticket work → rule' = rule)
    (spares : holders rule = none → ¬ barred rule) (happens : Happens regime rule id w (holders rule) w' x) :
    Orderly w' (update st p (.after rule id ticket x)) (update holders rule x) ∧
      I w' (update holders rule x) ∧ (∀ q ≠ p, (st q).Undisturbed w w') ∧
      w.engine.tracker.Ages w'.engine.tracker := by
  have defined : ∀ r, w.rule? rule = some r → r.id = rule := fun r got => o.sound.named got
  have advances := happens.advances o.coherent found defined (o.tagged rule)
  have own := Stance.ticket?_of_spot spot
  have passes : Orderly.Passes st p ticket w w' :=
    o.passes_own own (.of_rules (advances.respects head) advances.rules) (Nat.le_of_eq advances.moves.symm)
  have only {q : Place} {id' : SlotId} {ticket' : Ticket} {work : Work}
      (other : st q = .holding rule id' ticket' work) : q = p := o.lined.only found head own other
  have attended : w.Attended holders rule id := by
    refine ⟨o.coherent, o.sound, found, o.tagged, fun {rule' work} ne here => ?_⟩
    obtain ⟨q, id', ticket', there⟩ := o.held.mp here
    have other : q ≠ p := fun same => ne (before (same ▸ there))
    have calm := steady q other
    rw [there] at calm
    exact calm
  refine ⟨?_, kept.happens attended spares happens i, fun q ne => o.undisturbed passes ne,
    passes.respects.slots.ages⟩
  refine o.moved passes advances.coherent (advances.rules ▸ o.sound) ?_ (fun {t} here => ?_) ?_
    (held_of_work o.held only before rfl) ?_ ?_ ?_
  · cases x with
    | none => exact trivial
    | some work =>
        obtain ⟨found', queue⟩ := advances.held (by simp)
        exact ⟨found', queue ▸ head⟩
  · cases x with
    | none => exact absurd here (by simp [Stance.after, Stance.ticket?])
    | some work =>
        obtain rfl := Option.some.inj here
        exact ⟨Nat.lt_of_lt_of_le (o.early own) passes.moves, passes.strange⟩
  · have turns : w'.turns = w.turns := congrArg RuleStore.turns advances.rules
    rw [spot]
    cases x with
    | some work =>
        rw [World.queue_of_same advances.queues turns]
        exact .stays
    | none =>
        rw [World.queue_of_slot advances.queues turns]
        exact .leaves head
  · have named : (w.account rule).state.ruleId = rule := Tracker.slotFor_stateRuleId o.coherent rule
    exact advances.each_work (P := fun rule a x => Tagged rule a.outbox x)
      (advances.turn.tagged named (o.tagged rule)) o.tagged
  · rw [happens.paces.clock]
    exact advances.each_account (P := fun _ a => a.outbox.Ripe w.clock) (advances.turn.ripe (o.ripe rule)) o.ripe
  · exact advances.each_work (P := fun _ a x => a.Tidy x) advances.turn.tidy o.tidy

/-! ### One move -/

theorem Orderly.unheard (o : Orderly w st holders) {t : Ticket} (new : w.moves ≤ t) (q : Place) :
    (st q).ticket? ≠ some t :=
  fun old => Nat.lt_irrefl _ (Nat.lt_of_lt_of_le (o.early old) new)

theorem Orderly.own (o : Orderly w st holders) {t : Ticket} (own : (st p).ticket? = some t)
    (moves : w.moves ≤ w'.moves) : t < w'.moves ∧ ∀ q ≠ p, (st q).ticket? ≠ some t :=
  ⟨Nat.lt_of_lt_of_le (o.early own) moves, fun _ ne other => ne (o.apart other own)⟩

/-- After a move of the call in `p` the stances fit together again, what is kept holds, and nobody else is
disturbed. -/
def Orderly.GoesOn (I : World → (RuleId → Option Work) → Prop) (w : World) (st : Place → Stance) (p : Place)
    (w' : World) (σ' : Stance) : Prop :=
  ∃ holders', Orderly w' (update st p σ') holders' ∧ I w' holders' ∧
    (∀ q ≠ p, (st q).Undisturbed w w') ∧ w.engine.tracker.Ages w'.engine.tracker

section Move

variable {I : World → (RuleId → Option Work) → Prop} {c c' : Claim}

theorem Orderly.chore (o : Orderly w st holders) (kept : KeptBarring regime barred I) (i : I w holders)
    (chore : w.Chore regime w') (turns : w'.turns = w.turns) : Orderly.GoesOn I w st p w' (st p) := by
  have shifts := chore.shifts o.coherent w.moves
  have respects : w.Respects w.moves w' := .of_turns shifts.respects turns
  have same : update st p (st p) = st := update_eq_self ..
  refine o.moved_aside kept i (still_of_shifts chore.aside chore.reloads shifts)
    ⟨respects, fun q _ => o.unheard (Nat.le_refl _) q, chore.aside.moves⟩ shifts.coherent
    ((o.stands p).respected respects (o.unheard (Nat.le_refl _) p)).1
    (fun own => o.own own chore.aside.moves) ?_ (same.symm ▸ o.held)
  rw [World.queue_of_same chore.queues turns]
  exact .stays

/-- A call asks for a turn to refresh the rules, behind those that ask for one already. -/
theorem Orderly.asks (o : Orderly w st holders) (kept : KeptBarring regime barred I) (i : I w holders)
    (here : st p = .free) (chore : w.Chore regime w') (new : w.moves ≤ ticket) (early : ticket < w'.moves)
    (turns : w'.turns = w.turns ++ [ticket]) : Orderly.GoesOn I w st p w' (.awaiting ticket) := by
  have shifts := chore.shifts o.coherent ticket
  have respects : w.Respects ticket w' := by
    refine ⟨shifts.respects, fun mem _ => ?_, fun head _ => ?_⟩
    · exact turns ▸ List.mem_append_left _ mem
    · rw [turns, List.head?_append, head, Option.some_or]
  refine o.moved_aside kept i (still_of_shifts chore.aside chore.reloads shifts)
    ⟨respects, fun q _ => o.unheard new q, chore.aside.moves⟩ shifts.coherent ?_ (fun {t} own => ?_) ?_
    (held_of_idle o.held (by simp [here]) (by simp))
  · rw [Stance.Stands, turns]
    exact List.mem_append_right _ List.mem_cons_self
  · obtain rfl := Option.some.inj own
    exact ⟨early, fun q _ => o.unheard new q⟩
  · rw [World.queue_of_turns chore.queues turns, here]
    exact .joins

theorem Orderly.begins (o : Orderly w st holders) (kept : KeptBarring regime barred I) (i : I w holders)
    (here : st p = .awaiting ticket) (head : w.turns.head? = some ticket) :
    Orderly.GoesOn I w st p w (.refreshing ticket) := by
  have own : (st p).ticket? = some ticket := by rw [here]; rfl
  have shifts := Tracker.Shifts.refl ticket o.coherent
  have still : w.Still regime w :=
    still_of_shifts ⟨rfl, rfl, .refl _, rfl, rfl, Nat.le_refl _, rfl, rfl, rfl⟩ (.of_same rfl) shifts
  refine o.moved_aside kept i still (o.passes_own own (.of_turns shifts.respects rfl) (Nat.le_refl _)) o.coherent
    head (fun {t} same => o.own (own.trans same) (Nat.le_refl _)) ?_
    (held_of_idle o.held (by simp [here]) (by simp))
  rw [here]
  exact .stays

/-- The call that refreshes the rules lets go of its turn. -/
theorem Orderly.yields (o : Orderly w st holders) (kept : KeptBarring regime barred I) (i : I w holders)
    (here : st p = .refreshing ticket) (chore : w.Chore regime w') (turns : w'.turns = w.turns.tail) :
    Orderly.GoesOn I w st p w' .free := by
  have own : (st p).ticket? = some ticket := by rw [here]; rfl
  have stands := o.stands p
  rw [here] at stands
  have shifts := chore.shifts o.coherent ticket
  have split := List.eq_cons_of_mem_head? stands
  have respects : w.Respects ticket w' := by
    refine ⟨shifts.respects, fun mem ne => ?_, fun head ne => ?_⟩
    · rw [split] at mem
      exact turns ▸ (List.mem_cons.mp mem).resolve_left ne
    · exact absurd (Option.some.inj (head.symm.trans stands)) ne
  refine o.moved_aside kept i (still_of_shifts chore.aside chore.reloads shifts)
    (o.passes_own own respects chore.aside.moves) shifts.coherent trivial
    (fun own' => absurd own' (by simp [Stance.ticket?])) ?_ (held_of_idle o.held (by simp [here]) (by simp))
  rw [World.queue_of_turns chore.queues turns, here]
  exact .leaves stands

theorem Orderly.joins (o : Orderly w st holders) (kept : KeptBarring regime barred I) (i : I w holders)
    (here : st p = .free) (shuffles : w.Shuffles c.ticket w') (new : w.moves ≤ c.ticket)
    (early : c.ticket < w'.moves) (queued : w'.engine.tracker.Queued c)
    (queue : Requeued w.queue none (Stance.queued c).spot? w'.queue) :
    Orderly.GoesOn I w st p w' (.queued c) := by
  have spot : (st p).spot? = none := by rw [here]; rfl
  refine o.moved_aside kept i shuffles.still
    ⟨.of_rules shuffles.shifts.respects shuffles.rules, fun q _ => o.unheard new q, shuffles.aside.moves⟩
    shuffles.shifts.coherent queued (fun {t} own => ?_) (spot ▸ queue)
    (held_of_idle o.held (by simp [here]) (by simp))
  obtain rfl := Option.some.inj own
  exact ⟨early, fun q _ => o.unheard new q⟩

theorem Orderly.requeues (o : Orderly w st holders) (kept : KeptBarring regime barred I) (i : I w holders)
    (here : st p = .queued c) (shuffles : w.Shuffles c.ticket w') (same : c'.ticket = c.ticket)
    (queued : w'.engine.tracker.Queued c')
    (queue : Requeued w.queue (Stance.queued c).spot? (Stance.queued c').spot? w'.queue) :
    Orderly.GoesOn I w st p w' (.queued c') := by
  have own : (st p).ticket? = some c.ticket := by rw [here]; rfl
  have passes := o.passes_own own (.of_rules shuffles.shifts.respects shuffles.rules) shuffles.aside.moves
  refine o.moved_aside kept i shuffles.still passes shuffles.shifts.coherent queued (fun {t} own' => ?_)
    (here ▸ queue) (held_of_idle o.held (by simp [here]) (by simp))
  obtain rfl := Option.some.inj own'
  exact same ▸ o.own own passes.moves

theorem Orderly.leaves (o : Orderly w st holders) (kept : KeptBarring regime barred I) (i : I w holders)
    (here : st p = .queued c) (shuffles : w.Shuffles c.ticket w')
    (queue : Requeued w.queue (Stance.queued c).spot? none w'.queue) : Orderly.GoesOn I w st p w' .free := by
  have own : (st p).ticket? = some c.ticket := by rw [here]; rfl
  have passes := o.passes_own own (.of_rules shuffles.shifts.respects shuffles.rules) shuffles.aside.moves
  exact o.moved_aside kept i shuffles.still passes shuffles.shifts.coherent trivial
    (fun own' => absurd own' (by simp [Stance.ticket?])) (here ▸ queue)
    (held_of_idle o.held (by simp [here]) (by simp))

/-- Whoever held the slot would stand at the head of its queue, where the claim stands. -/
theorem Orderly.unheld (o : Orderly w st holders) (here : st p = .queued c)
    (found : w.engine.tracker.find? c.rule = some c.slot)
    (head : (w.slot c.slot).queue.head? = some c.ticket) : holders c.rule = none := by
  have own : (st p).ticket? = some c.ticket := by rw [here]; rfl
  cases held : holders c.rule with
  | none => rfl
  | some work =>
      obtain ⟨q, id', ticket', there⟩ := o.held.mp held
      rw [o.lined.only found head own there, here] at there
      exact absurd there (by simp)

theorem Orderly.acquires (o : Orderly w st holders) (kept : KeptBarring regime barred I) (i : I w holders)
    (steady : ∀ q ≠ p, (st q).Steady) (here : st p = .queued c)
    (found : w.engine.tracker.find? c.rule = some c.slot)
    (head : (w.slot c.slot).queue.head? = some c.ticket) (spares : ¬ barred c.rule) :
    Orderly.GoesOn I w st p (w.onTracker (·.take c)) (.holding c.rule c.slot c.ticket {}) := by
  have happens : Happens regime c.rule c.slot w (holders c.rule) (w.onTracker (·.take c)) (some {}) := by
    rw [o.unheld here found head]
    exact .taken rfl
  exact ⟨_, o.moved_happens kept i steady (congrArg Stance.spot? here) found head (by simp [here])
    (fun _ => spares) happens⟩

theorem Orderly.works {work : Work} {x : Option Work} (o : Orderly w st holders)
    (kept : KeptBarring regime barred I) (i : I w holders) (steady : ∀ q ≠ p, (st q).Steady)
    (here : st p = .holding rule id ticket work) (happens : Happens regime rule id w (some work) w' x) :
    Orderly.GoesOn I w st p w' (.after rule id ticket x) := by
  have held : holders rule = some work := o.held.mpr ⟨p, id, ticket, here⟩
  have stands := o.stands p
  rw [here] at stands
  refine ⟨_, o.moved_happens kept i steady (congrArg Stance.spot? here) stands.1 stands.2 (fun there => ?_)
    (fun nobody => absurd (held.symm.trans nobody) (by simp)) (held ▸ happens)⟩
  rw [here, Stance.holding.injEq] at there
  exact there.1.symm

/-- A move of one call keeps the order, and what is kept by all that happens under slots. -/
theorem Orderly.move (kept : KeptBarring regime barred I)
    (o : Orderly w st holders) (i : I w holders) (steady : ∀ q ≠ p, (st q).Steady)
    (here : st p = σ) (move : Stance.Moves regime w σ w' σ') (spares : σ.Spares barred σ') :
    ∃ holders', Orderly w' (update st p σ') holders' ∧ I w' holders' ∧
      (∀ q ≠ p, (st q).Undisturbed w w') ∧ w.engine.tracker.Ages w'.engine.tracker := by
  cases move with
  | chore chore turns => exact here ▸ o.chore kept i chore turns
  | asks chore new early turns => exact o.asks kept i here chore new early turns
  | begins head => exact o.begins kept i here head
  | yields chore turns => exact o.yields kept i here chore turns
  | joins shuffles new early queued queue => exact o.joins kept i here shuffles new early queued queue
  | requeues shuffles same queued queue => exact o.requeues kept i here shuffles same queued queue
  | leaves shuffles queue => exact o.leaves kept i here shuffles queue
  | acquires found head => exact o.acquires kept i steady here found head spares
  | works happens => exact o.works kept i steady here happens

end Move

/-! ### What is kept -/

theorem World.Attended.advances {x : Option Work} (h : w.Attended holders rule id)
    (happens : Happens regime rule id w (holders rule) w' x) :
    w.Advances regime rule id (holders rule) w' x :=
  happens.advances h.coherent h.found (fun _ got => h.sound.named got) (h.tagged rule)

theorem Tracker.Coherent.account_ruleId (c : w.engine.tracker.Coherent) (rule : RuleId) :
    (w.account rule).state.ruleId = rule :=
  Tracker.slotFor_stateRuleId c rule

theorem Kept.and {I J : World → (RuleId → Option Work) → Prop} (i : Kept regime I)
    (j : Kept regime J) : Kept regime fun w holders => I w holders ∧ J w holders where
  still still both := ⟨i.still still both.1, j.still still both.2⟩
  happens attended happens both :=
    ⟨i.happens attended happens both.1, j.happens attended happens both.2⟩

theorem kept_accounts {P : RuleId → Account → Option Work → Prop}
    (turns : ∀ {rule m a x a' x'}, Turn regime rule m a x a' x' → a.state.ruleId = rule →
      Tagged rule a.outbox x → P rule a x → P rule a' x') :
    Kept regime fun w holders => ∀ rule, P rule (w.account rule) (holders rule) where
  still := fun {w w' holders} still all rule => by
    rw [still.account]
    exact all rule
  happens := fun {w w' holders rule id x} attended happens all => by
    have advances := attended.advances happens
    exact advances.each_work (turns advances.turn (attended.coherent.account_ruleId rule) (attended.tagged rule)
      (all rule)) all

end ThresholdAlerts
