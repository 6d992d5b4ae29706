import Mathlib.Logic.Relation
import ThresholdAlerts.Engine.Call
import ThresholdAlerts.Proofs.Edits
/-! The conduct of a call: it edits the world only under a slot that it holds, hands its events over in
the order in which they were produced, and lets go of the slot with nothing left to do. It fetches rules
only in its turn, and asks for nothing else while it has that. Main statement: the calls of the engine
follow it, whatever others do while they wait. -/
namespace ThresholdAlerts

open Relation

/-- Where a call stands: it holds nothing, queues for a slot or works under one, or waits for its turn to
refresh the rules or has it. -/
inductive Stance where
  | free
  | queued (c : Claim)
  | holding (rule : RuleId) (id : SlotId) (ticket : Ticket) (work : Work)
  | awaiting (ticket : Ticket)
  | refreshing (ticket : Ticket)

/-- The stance of a holder that goes on with this work, or lets go. -/
def Stance.after (rule : RuleId) (id : SlotId) (ticket : Ticket) : Option Work → Stance
  | some work => .holding rule id ticket work
  | none => .free

theorem Stance.after_eq_holding {rule rule' : RuleId} {id id' : SlotId} {ticket ticket' : Ticket} {x : Option Work}
    {work : Work} (holds : Stance.after rule id ticket x = .holding rule' id' ticket' work) :
    rule' = rule ∧ x = some work := by
  cases x with
  | none => exact absurd holds (by simp [after])
  | some work' =>
    rw [after, Stance.holding.injEq] at holds
    exact ⟨holds.1.symm, congrArg some holds.2.2.2⟩

/-- Counters that tell what became of events. -/
structure Stats.Agree (s s' : Stats) : Prop where
  opened : s'.alertsOpened = s.alertsOpened
  resolved : s'.alertsResolved = s.alertsResolved
  failures : s'.sinkFailures = s.sinkFailures
  collapsed : s'.collapsedDeliveries = s.collapsedDeliveries
  deadLettered : s'.deadLettered = s.deadLettered

/-- A rule is kept under its id, and before anything is loaded there is none. -/
structure RuleSnapshot.Sound (s : RuleSnapshot) : Prop where
  named : ∀ {id r}, s.get? id = some r → r.id = id
  blank : s.generation = 0 → ∀ id, s.get? id = none

/-- Nothing changes that is about the events of an alert, and no time passes. -/
structure World.Aside (w w' : World) : Prop where
  journal : w'.journal = w.journal
  deadLetters : w'.engine.deadLetters = w.engine.deadLetters
  stats : w.engine.stats.Agree w'.engine.stats
  store : w'.sink.store = w.sink.store
  ids : w'.ids = w.ids
  moves : w.moves ≤ w'.moves
  clock : w'.clock = w.clock
  policy : w'.engine.policy = w.engine.policy
  jitter : w'.jitter = w.jitter

theorem World.Aside.paces {w w' : World} (h : w.Aside w') : w.Paces w' :=
  .of_same h.clock h.policy h.jitter

/-- The rules may change; while a recovery is under way they are loaded once. -/
structure World.Reloads (regime : Regime) (w w' : World) : Prop where
  sound : w.engine.rules.snapshot.Sound → w'.engine.rules.snapshot.Sound
  once : regime = .recovering → w.engine.rules.snapshot.generation = 0 ∨
    w'.engine.rules.snapshot = w.engine.rules.snapshot

/-- A step that is no business of the slots. -/
structure World.Chore (regime : Regime) (w w' : World) : Prop where
  aside : w.Aside w'
  reloads : w.Reloads regime w'
  slots : w'.engine.tracker.slots = w.engine.tracker.slots
  index : w'.engine.tracker.index = w.engine.tracker.index
  nextSlot : w'.engine.tracker.nextSlot = w.engine.tracker.nextSlot
  marks : w.engine.tracker.KeepsMarks w'.engine.tracker

def World.turns (w : World) : List Ticket :=
  w.engine.rules.turns

/-- One step of a program between two waits. -/
inductive Stance.Step (regime : Regime) : World × Stance → World × Stance → Prop
  | chore {w w' σ} (chore : w.Chore regime w') (turns : w'.turns = w.turns) : Step regime (w, σ) (w', σ)
  | yields {w ticket} : Step regime (w, .refreshing ticket) (w.endTurn, .free)
  | edit {w w' rule id ticket work x} (edit : Edit regime rule id w work w' x) :
      Step regime (w, .holding rule id ticket work) (w', .after rule id ticket x)

/-- Time does not go back, and while a recovery is under way nothing else loads rules. -/
structure World.Relies (regime : Regime) (w w' : World) : Prop where
  clock : w.clock ≤ w'.clock
  rules : regime = .recovering → w'.engine.rules.snapshot = w.engine.rules.snapshot

theorem World.Relies.of_same {regime : Regime} {w w' : World} (clock : w'.clock = w.clock)
    (same : w'.engine.rules.snapshot = w.engine.rules.snapshot) : w.Relies regime w' :=
  ⟨clock ▸ Nat.le_refl _, fun _ => same⟩

theorem World.Relies.of_paces {regime : Regime} {w w' : World} (paces : w.Paces w')
    (rules : regime = .recovering → w'.engine.rules.snapshot = w.engine.rules.snapshot) :
    w.Relies regime w' :=
  ⟨paces.clock ▸ Nat.le_refl _, rules⟩

theorem World.Relies.of_rules {regime : Regime} {w w' : World} (clock : w'.clock = w.clock)
    (same : w'.engine.rules = w.engine.rules) : w.Relies regime w' :=
  .of_same clock (congrArg RuleStore.snapshot same)

theorem World.Relies.trans {regime : Regime} {w₁ w₂ w₃ : World} (h : w₁.Relies regime w₂)
    (h' : w₂.Relies regime w₃) : w₁.Relies regime w₃ :=
  ⟨Nat.le_trans h.clock h'.clock, fun recovers => (h'.rules recovers).trans (h.rules recovers)⟩

/-- An attempt to deliver an event: the first, with events still to be handed over, or a further one
with the front of the outbox. -/
inductive Attempt where
  | first (todo : List Event)
  | again

namespace Attempt

def sending (event : Event) (flight : Flight (Except SinkError Unit)) : Attempt → Work
  | .first todo => { todo, stage := .sending event flight }
  | .again => { stage := .retrying flight }

def accepted : Attempt → Work
  | .first todo => { todo }
  | .again => { stage := .accepted }

def refused (event : Event) (error : SinkError) : Attempt → Work
  | .first todo => { todo, stage := .failed event error }
  | .again => { stage := .refused error }

/-- Whether the attempt is one at this event. -/
def Fits (event : Event) (outbox : Outbox) : Attempt → Prop
  | .first _ => outbox = []
  | .again => ∃ front rest, outbox = front :: rest ∧ front.event = event

end Attempt

section Requests

variable (regime : Regime)

def Attempt.GoesOn (attempt : Attempt) (rule : RuleId) (id : SlotId) (ticket : Ticket) (event : Event)
    (w : World) (next : Except SinkError Unit → Stance → World → Prop) : Prop :=
  ∀ w', w.Relies regime w' → (w.slot id).Alike (w'.slot id) →
    next (.ok ()) (.holding rule id ticket attempt.accepted) w' ∧
      ∀ error, next (.error error) (.holding rule id ticket (attempt.refused event error)) w'

/-- When a request may be made, and how the call has to be able to go on with any answer. -/
def Request.Admits : (r : Request) → Stance → World → (r.Answer → Stance → World → Prop) → Prop
  | .slot rule, σ, w, next => σ = .free ∧ ∀ w' id ticket, w.Relies regime w' →
      (w'.slot id).retired = false → next id (.holding rule id ticket {}) w'
  | .existingSlot rule, σ, w, next => σ = .free ∧ ∀ w', w.Relies regime w' →
      (w'.engine.tracker.find? rule = none → next none .free w') ∧
        ∀ id ticket, (w'.slot id).outbox.Ripe w'.clock → (w'.slot id).Tidy →
          next (some id) (.holding rule id ticket {}) w'
  | .knownSlot id, σ, w, next => σ = .free ∧ id < w.engine.tracker.nextSlot ∧ ∀ w',
      w.Relies regime w' → w.engine.tracker.Ages w'.engine.tracker →
        next false .free w' ∧ ∀ rule ticket, (w'.slot id).Tidy → next true (.holding rule id ticket {}) w'
  | .deliver event, .holding rule id ticket ⟨todo, .handed event'⟩, w, next => event' = event ∧
      (Attempt.first todo).Fits event (w.slot id).outbox ∧
        (Attempt.first todo).GoesOn regime rule id ticket event w next
  | .deliver event, .holding rule id ticket ⟨[], .draining⟩, w, next =>
      Attempt.again.Fits event (w.slot id).outbox ∧
        (∀ front ∈ (w.slot id).outbox.head?, front.isDue w.clock = true) ∧
        Attempt.again.GoesOn regime rule id ticket event w next
  | .deliver _, _, _, _ => False
  | .refreshTurn, σ, w, next => σ = .free ∧ ∀ w' ticket, w.Relies regime w' → next () (.refreshing ticket) w'
  | .fetch, .refreshing ticket, w, next => ∀ answer w', w.Relies regime w' → next answer (.refreshing ticket) w'
  | .fetch, _, _, _ => False
  | .sleep _, _, _, _ => False
  | .findOpen _, σ, w, next => σ = .free ∧ ∀ answers w', w.Relies regime w' → next answers .free w'
  | .findAll, σ, w, next => σ = .free ∧ ∀ answer w', w.Relies regime w' → next answer .free w'

/-- A program keeps to the conduct from a stance in a world on, and ends in one that satisfies
`ends`. -/
def Prog.Follows (tasks : T → Prop) :
    Prog T α → Stance → World → (α → Stance → World → Prop) → Prop
  | .done a, σ, w, ends => ends a σ w
  | .get next, σ, w, ends =>
    ∃ σ', ReflTransGen (Stance.Step regime) (w, σ) (w, σ') ∧ (next w).Follows tasks σ' w ends
  | .set w' next, σ, w, ends =>
    ∃ σ', ReflTransGen (Stance.Step regime) (w, σ) (w', σ') ∧ next.Follows tasks σ' w' ends
  | .ask r next, σ, w, ends =>
    r.Admits regime σ w fun a σ' w' => (next a).Follows tasks σ' w' ends
  | .fork ts next, σ, _, ends => σ = .free ∧ regime ≠ .recovering ∧ (∀ t ∈ ts, tasks t) ∧
      ∀ results w', (next results).Follows tasks .free w' ends

end Requests

def Ends (_ : α) (σ : Stance) (_ : World) : Prop :=
  σ = .free

section Follows

variable {regime : Regime} {T α β : Type} {tasks : T → Prop} {σ σ' : Stance} {w w' : World}
  {ends : β → Stance → World → Prop}

theorem follows_bind (p : Prog T α) (f : α → Prog T β) (σ : Stance) (w : World) :
    (p >>= f).Follows regime tasks σ w ends =
      p.Follows regime tasks σ w fun a σ' w' => (f a).Follows regime tasks σ' w' ends := by
  change (p.bind f).Follows regime tasks σ w ends = _
  induction p generalizing σ w with
  | done a => rfl
  | get next ih => simp only [Prog.bind, Prog.Follows, ih]
  | set w' next ih => simp only [Prog.bind, Prog.Follows, ih]
  | ask r next ih => simp only [Prog.bind, Prog.Follows, ih]
  | fork ts next ih => simp only [Prog.bind, Prog.Follows, ih]

theorem follows_then {p : Prog T α} {f : α → Prog T β}
    (h : p.Follows regime tasks σ w fun a σ' w' => (f a).Follows regime tasks σ' w' ends) :
    (p >>= f).Follows regime tasks σ w ends :=
  (follows_bind p f σ w).symm ▸ h

theorem follows_pure {b : β} (h : ends b σ w) :
    (pure b : Prog T β).Follows regime tasks σ w ends := h

theorem follows_look {f : World → α} {k : α → Prog T β}
    (steps : ReflTransGen (Stance.Step regime) (w, σ) (w, σ'))
    (h : (k (f w)).Follows regime tasks σ' w ends) :
    (Prog.read f >>= k).Follows regime tasks σ w ends := ⟨σ', steps, h⟩

theorem follows_read {f : World → α} {k : α → Prog T β}
    (h : (k (f w)).Follows regime tasks σ w ends) :
    (Prog.read f >>= k).Follows regime tasks σ w ends := follows_look .refl h

theorem follows_request {r : Request} {k : r.Answer → Prog T β}
    (h : r.Admits regime σ w fun a σ' w' => (k a).Follows regime tasks σ' w' ends) :
    (Prog.request r >>= k).Follows regime tasks σ w ends := h

theorem follows_modify {f : World → World} {k : Unit → Prog T β}
    (steps : ReflTransGen (Stance.Step regime) (w, σ) (f w, σ'))
    (h : (k ()).Follows regime tasks σ' (f w) ends) :
    (Prog.modify f >>= k).Follows regime tasks σ w ends := ⟨σ, .refl, σ', steps, h⟩

theorem follows_step {f : World → World × α} {k : α → Prog T β}
    (steps : ReflTransGen (Stance.Step regime) (w, σ) ((f w).1, σ'))
    (h : (k (f w).2).Follows regime tasks σ' (f w).1 ends) :
    (Prog.step f >>= k).Follows regime tasks σ w ends := ⟨σ, .refl, σ', steps, h⟩

end Follows

/-! ### Chores -/

section Chores

variable {regime : Regime} {w : World}

theorem Stance.chore {w' : World} {σ : Stance} (h : w.Chore regime w') (turns : w'.turns = w.turns) :
    ReflTransGen (Stance.Step regime) (w, σ) (w', σ) :=
  ReflTransGen.single (.chore h turns)

theorem Stance.yields {ticket : Ticket} :
    ReflTransGen (Stance.Step regime) (w, .refreshing ticket) (w.endTurn, .free) :=
  ReflTransGen.single .yields

theorem Stance.edit {w' : World} {rule : RuleId} {id : SlotId} {ticket : Ticket} {work : Work}
    {x : Option Work} (h : Edit regime rule id w work w' x) :
    ReflTransGen (Stance.Step regime) (w, .holding rule id ticket work)
      (w', .after rule id ticket x) :=
  ReflTransGen.single (.edit h)

theorem Stats.Agree.refl (s : Stats) : s.Agree s := ⟨rfl, rfl, rfl, rfl, rfl⟩

theorem Stats.Agree.trans {s₁ s₂ s₃ : Stats} (h : s₁.Agree s₂) (h' : s₂.Agree s₃) : s₁.Agree s₃ :=
  ⟨h'.opened.trans h.opened, h'.resolved.trans h.resolved, h'.failures.trans h.failures,
    h'.collapsed.trans h.collapsed, h'.deadLettered.trans h.deadLettered⟩

theorem World.Aside.trans {w₁ w₂ w₃ : World} (h : w₁.Aside w₂) (h' : w₂.Aside w₃) : w₁.Aside w₃ :=
  ⟨h'.journal.trans h.journal, h'.deadLetters.trans h.deadLetters, h.stats.trans h'.stats,
    h'.store.trans h.store, h'.ids.trans h.ids, Nat.le_trans h.moves h'.moves,
    h'.clock.trans h.clock, h'.policy.trans h.policy, h'.jitter.trans h.jitter⟩

theorem World.Reloads.of_same {w' : World}
    (same : w'.engine.rules.snapshot = w.engine.rules.snapshot) : w.Reloads regime w' :=
  ⟨fun sound => same ▸ sound, fun _ => .inr same⟩

theorem chore_count {c : Stats.Count} (agree : w.engine.stats.Agree (w.engine.stats.record c)) :
    w.Chore regime (w.count c) :=
  ⟨⟨rfl, rfl, agree, rfl, rfl, Nat.le_refl _, rfl, rfl, rfl⟩,
    .of_same rfl, rfl, rfl, rfl, .refl _⟩

theorem chore_onRules {f : RuleStore → RuleStore}
    (same : (f w.engine.rules).snapshot = w.engine.rules.snapshot) :
    w.Chore regime (w.onRules f) :=
  ⟨⟨rfl, rfl, .refl _, rfl, rfl, Nat.le_refl _, rfl, rfl, rfl⟩,
    .of_same same, rfl, rfl, rfl, .refl _⟩

theorem chore_endTurn : w.Chore regime w.endTurn :=
  ⟨⟨rfl, rfl, .refl _, rfl, rfl, Nat.le_refl _, rfl, rfl, rfl⟩,
    .of_same rfl, rfl, rfl, rfl, .refl _⟩

theorem chore_readCalendar : w.Chore regime w.readCalendar.1 :=
  ⟨⟨rfl, rfl, .refl _, rfl, rfl, Nat.le_refl _, rfl, rfl, rfl⟩,
    .of_same rfl, rfl, rfl, rfl, .refl _⟩

theorem chore_unmarkBacklogged {rule : RuleId} (absent : w.engine.tracker.find? rule = none) :
    w.Chore regime (w.onTracker (·.unmarkBacklogged rule)) :=
  ⟨⟨rfl, rfl, .refl _, rfl, rfl, Nat.le_refl _, rfl, rfl, rfl⟩,
    .of_same rfl, rfl, rfl, rfl, Tracker.keepsMarks_unmark absent⟩

theorem chore_claimGeneration (generation : Nat) :
    w.Chore regime (w.claimGeneration generation).1 := by
  rw [World.claimGeneration]
  split <;> exact ⟨⟨rfl, rfl, .refl _, rfl, rfl, Nat.le_refl _, rfl, rfl, rfl⟩,
    .of_same rfl, rfl, rfl, rfl, .refl _⟩

theorem rules_claimGeneration (w : World) (generation : Nat) :
    (w.claimGeneration generation).1.engine.rules = w.engine.rules := by
  rw [World.claimGeneration]
  split <;> rfl

theorem RuleSnapshot.generation_add (s : RuleSnapshot) (r : Rule) :
    (s.add r).generation = s.generation := by
  rw [add]
  split <;> rfl

theorem RuleSnapshot.named_add {s : RuleSnapshot} (r : Rule)
    (named : ∀ {id r}, s.get? id = some r → r.id = id) {id : RuleId} {r' : Rule}
    (got : (s.add r).get? id = some r') : r'.id = id := by
  rw [add] at got
  split at got
  · simp only [get?, Std.TreeMap.get?_eq_getElem?, Std.TreeMap.getElem?_insert,
      Std.compare_eq_iff_eq] at got
    split at got
    · next same =>
      obtain rfl := Option.some.inj got
      exact same
    · exact named got
  · exact named got

theorem RuleSnapshot.named_foldl (rules : List Rule) {s : RuleSnapshot}
    (named : ∀ {id r}, s.get? id = some r → r.id = id) {id : RuleId} {r : Rule}
    (got : (rules.foldl add s).get? id = some r) : r.id = id := by
  induction rules generalizing s with
  | nil => exact named got
  | cons r rules ih => exact ih (named_add r named) got

theorem RuleSnapshot.generation_foldl (rules : List Rule) (s : RuleSnapshot) :
    (rules.foldl add s).generation = s.generation := by
  induction rules generalizing s with
  | nil => rfl
  | cons r rules ih => exact (ih (s.add r)).trans (generation_add s r)

theorem RuleSnapshot.sound_build (rules : List Rule) (generation : Nat) (loadedAt : Timestamp) :
    (build rules (generation + 1) loadedAt).Sound := by
  refine ⟨fun {id r} got => ?_, fun blank => ?_⟩
  · refine named_foldl rules (fun {id r} got => absurd got ?_) got
    simp [get?]
  · exact absurd ((generation_foldl rules _).symm.trans blank) (Nat.succ_ne_zero generation)

/-- Taking in rules is a chore; a recovery may do it once. -/
theorem chore_loadRules (rules : List Rule)
    (once : regime = .recovering → w.engine.rules.snapshot.generation = 0) :
    w.Chore regime (w.loadRules rules).1 :=
  ⟨⟨rfl, rfl, .refl _, rfl, rfl, Nat.le_refl _, rfl, rfl, rfl⟩,
    ⟨fun _ => RuleSnapshot.sound_build rules _ _, fun h => .inl (once h)⟩, rfl, rfl, rfl, .refl _⟩

end Chores

end ThresholdAlerts
