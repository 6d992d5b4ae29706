import ThresholdAlerts.Engine.Run
import ThresholdAlerts.Proofs.Edits
import ThresholdAlerts.Proofs.Holdings
/-! Calls that run alone, on a sink that closes what it is asked to close; its queries may fail. What such a call
sees and changes is a view of the world: what the slots hold, the stored alerts and the rules. Main statements:
each request and each step under a slot is a function of the view, and but for deliveries none of them tells
anybody anything. -/
namespace ThresholdAlerts

open Function

/-! ### Running a program -/

namespace Prog

variable {T α β : Type} {task : T → World → World × List Event} {w : World} {post : β → World → Prop}

def After (task : T → World → World × List Event) (p : Prog T α) (w : World)
    (post : α → World → Prop) : Prop :=
  post (p.run task w).2 (p.run task w).1

theorem run_bind (p : Prog T α) (f : α → Prog T β) (w : World) :
    (p >>= f).run task w = (f (p.run task w).2).run task (p.run task w).1 := by
  change (p.bind f).run task w = _
  induction p generalizing w with
  | done a => rfl
  | get next ih => exact ih w w
  | set w' next ih => exact ih w'
  | ask r next ih => exact ih _ _
  | fork tasks next ih => exact ih _ _

theorem after_bind {p : Prog T α} {f : α → Prog T β}
    (h : p.After task w fun a w' => (f a).After task w' post) : (p >>= f).After task w post := by
  rw [After, run_bind]
  exact h

theorem after_pure {b : β} (h : post b w) : (pure b : Prog T β).After task w post := h

theorem after_read {f : World → α} {k : α → Prog T β} (h : (k (f w)).After task w post) :
    (read f >>= k).After task w post := h

theorem after_modify {f : World → World} {k : Unit → Prog T β} (h : (k ()).After task (f w) post) :
    (modify f >>= k).After task w post := h

theorem after_step {f : World → World × α} {k : α → Prog T β}
    (h : (k (f w).2).After task (f w).1 post) : (step f >>= k).After task w post := h

theorem after_request {r : Request} {k : r.Answer → Prog T β}
    (h : (k (r.complete w).2).After task (r.complete w).1 post) :
    (request r >>= k).After task w post := h

theorem After.imp {p : Prog T α} {post post' : α → World → Prop} (h : p.After task w post)
    (weaker : ∀ a w', post a w' → post' a w') : p.After task w post' :=
  weaker _ _ h

end Prog

/-! ### The view -/

structure View where
  held : RuleId → Option Holding
  store : AlertStore
  snapshot : RuleSnapshot

namespace View

variable {v : View} {rule : RuleId}

/-- What is held for a rule; a rule that is not tracked counts as having an untouched slot. -/
def holding (v : View) (rule : RuleId) : Holding :=
  (v.held rule).getD (.initial rule)

/-- The alert that is tracked as open for a rule. -/
def openAlert (v : View) (rule : RuleId) : Option AlertId :=
  (v.holding rule).state.openAlertId

def outbox (v : View) (rule : RuleId) : Outbox :=
  (v.holding rule).outbox

def put (v : View) (rule : RuleId) (h : Option Holding) : View :=
  { v with held := update v.held rule h }

@[simp] theorem held_put_self (v : View) (rule : RuleId) (h : Option Holding) : (v.put rule h).held rule = h :=
  update_self ..

theorem held_put_other {rule' : RuleId} (v : View) (h : Option Holding) (ne : rule' ≠ rule) :
    (v.put rule h).held rule' = v.held rule' :=
  update_of_ne ne ..

theorem holding_put_other {rule' : RuleId} (v : View) (h : Option Holding) (ne : rule' ≠ rule) :
    (v.put rule h).holding rule' = v.holding rule' := by
  rw [holding, held_put_other v h ne, holding]

theorem openAlert_put_other {rule' : RuleId} (v : View) (h : Option Holding) (ne : rule' ≠ rule) :
    (v.put rule h).openAlert rule' = v.openAlert rule' := by
  rw [openAlert, holding_put_other v h ne, openAlert]

theorem put_same (v : View) (rule : RuleId) : v.put rule (v.held rule) = v :=
  congrArg (fun held => { v with held }) (update_eq_self rule v.held)

@[simp] theorem put_put (v : View) (rule : RuleId) (h h' : Option Holding) :
    (v.put rule h).put rule h' = v.put rule h' :=
  congrArg (fun held => { v with held }) (update_idem ..)

@[simp] theorem holding_put (v : View) (rule : RuleId) (h : Holding) : (v.put rule (some h)).holding rule = h := by
  rw [holding, held_put_self, Option.getD_some]

end View

/-! ### The sink -/

def Deed.Passes : Deed → Prop
  | .pass => True
  | .rename _ => True
  | _ => False

structure Script.All (s : Script) (P : Act → Prop) : Prop where
  queue : ∀ act ∈ s.queue, P act
  default : P s.default

theorem Script.All.next {s : Script} {P : Act → Prop} (all : s.All P) : P s.next.2 ∧ s.next.1.All P := by
  obtain ⟨queue, last⟩ := all
  obtain ⟨acts, default⟩ := s
  cases acts with
  | nil => exact ⟨last, queue, last⟩
  | cons act rest => exact ⟨queue act List.mem_cons_self, fun a mem => queue a (List.mem_cons_of_mem _ mem), last⟩

namespace Sink

/-- Every call that closes an alert is carried out, and answered within the limit. -/
def Closes (s : Sink) (limit : Duration) : Prop :=
  s.resolve.All fun act => act.deed.Passes ∧ act.before + act.after ≤ limit

/-- The store can be reached, and every query is carried out. -/
structure Answers (s : Sink) : Prop where
  available : s.store.unavailable = false
  findOpen : s.findOpen.All fun act => act.deed.Passes
  findAll : s.findAll.All fun act => act.deed.Passes

/-- A sink whose scripts are all empty is its store and no more. -/
theorem plain_of_scripts {s : Sink}
    (empty : s.create = {} ∧ s.resolve = {} ∧ s.findOpen = {} ∧ s.findAll = {}) : s = { store := s.store } := by
  obtain ⟨store, create, resolve, findOpen, findAll⟩ := s
  obtain ⟨rfl, rfl, rfl, rfl⟩ := empty
  rfl

theorem closes_of_plain {s : Sink} (plain : s = { store := s.store }) (limit : Duration) : s.Closes limit := by
  rw [plain]
  exact ⟨by simp, trivial, Nat.zero_le _⟩

theorem answers_of_plain {s : Sink} (plain : s = { store := s.store }) (available : s.store.unavailable = false) :
    s.Answers := by
  rw [plain]
  exact ⟨available, ⟨by simp, trivial⟩, by simp, trivial⟩

/-- A query leaves the sink as it is, and answers what the store answers unless it is made to fail. -/
theorem query_cases {α : Type} (s : Sink) (deed : Deed) (subject : String) (ask : AlertStore → Except SinkError α) :
    (s.perform deed subject (fun store => (store, ask store)) fun _ found => found).1 = s ∧
      ((s.perform deed subject (fun store => (store, ask store)) fun _ found => found).2 = ask s.store ∨
        ¬ deed.Passes ∧ ∃ e, (s.perform deed subject (fun store => (store, ask store)) fun _ found => found).2 =
          .error e) := by
  cases deed with
  | pass => exact ⟨rfl, .inl rfl⟩
  | rename id =>
    refine ⟨rfl, .inl ?_⟩
    change (ask s.store).map (fun found => found) = _
    cases ask s.store <;> rfl
  | fail error => exact ⟨rfl, .inr ⟨nofun, error, rfl⟩⟩
  | missing => exact ⟨rfl, .inr ⟨nofun, _, rfl⟩⟩

theorem deliver_of_passes {s : Sink} {deed : Deed} (passes : deed.Passes) (id : AlertId) (rule : RuleId)
    (time : Timestamp) (reason : ResolveReason) :
    s.deliver deed (.resolved id rule time reason) =
      ({ s with store := (s.store.resolve id time).1 }, (s.store.resolve id time).2) := by
  cases deed with
  | pass => rfl
  | rename id' =>
    change ({ s with store := (s.store.resolve id time).1 }, (s.store.resolve id time).2.map fun u => u) = _
    cases (s.store.resolve id time).2 <;> rfl
  | fail error => exact passes.elim
  | missing => exact passes.elim

end Sink

namespace World

variable {w w' w₁ w₂ w₃ : World} {rule : RuleId} {id : SlotId}

def view (w : World) : View where
  held := w.engine.tracker.held
  store := w.sink.store
  snapshot := w.engine.rules.snapshot

/-- Nothing happens to any event. The tracker is coherent afterwards, and the sink does what it did before. -/
structure Silent (w w' : World) : Prop where
  coherent : w'.engine.tracker.Coherent
  journal : w'.journal = w.journal
  limit : w'.engine.sinkTimeout = w.engine.sinkTimeout
  contents : w'.source.contents = w.source.contents
  clock : w.clock ≤ w'.clock
  closes : ∀ {limit}, w.sink.Closes limit → w'.sink.Closes limit
  answers : w.sink.Answers → w'.sink.Answers

theorem Silent.refl (coherent : w.engine.tracker.Coherent) : w.Silent w :=
  ⟨coherent, rfl, rfl, rfl, Nat.le_refl _, id, id⟩

theorem Silent.trans (h : w₁.Silent w₂) (h' : w₂.Silent w₃) : w₁.Silent w₃ where
  coherent := h'.coherent
  journal := h'.journal.trans h.journal
  limit := h'.limit.trans h.limit
  contents := h'.contents.trans h.contents
  clock := Nat.le_trans h.clock h'.clock
  closes closes := h'.closes (h.closes closes)
  answers answers := h'.answers (h.answers answers)

theorem Silent.of_engine (coherent : w'.engine.tracker.Coherent) (journal : w'.journal = w.journal)
    (limit : w'.engine.sinkTimeout = w.engine.sinkTimeout) (contents : w'.source.contents = w.source.contents)
    (clock : w.clock ≤ w'.clock) (sink : w'.sink = w.sink) : w.Silent w' :=
  ⟨coherent, journal, limit, contents, clock, sink ▸ id, sink ▸ id⟩

/-- The tracker is coherent, and what the sink is asked to close it closes in time. -/
structure Calm (w : World) : Prop where
  coherent : w.engine.tracker.Coherent
  closes : w.sink.Closes w.engine.sinkTimeout

theorem Silent.calm (h : w.Silent w') (calm : w.Calm) : w'.Calm :=
  ⟨h.coherent, h.limit ▸ h.closes calm.closes⟩

theorem calm_of_plain (coherent : w.engine.tracker.Coherent) (plain : w.sink = { store := w.sink.store }) :
    w.Calm :=
  ⟨coherent, Sink.closes_of_plain plain _⟩

theorem slot_holding (found : w.engine.tracker.find? rule = some id) :
    (w.slot id).holding = w.view.holding rule := by
  rw [View.holding, show w.view.held rule = w.engine.tracker.held rule from rfl,
    Tracker.held_of_find found]
  rfl

theorem outbox_eq (found : w.engine.tracker.find? rule = some id) : (w.slot id).outbox = w.view.outbox rule :=
  congrArg Holding.outbox (slot_holding found)

/-! ### Steps under a slot -/

theorem silent_leave (coherent : w.engine.tracker.Coherent) (found : w.engine.tracker.find? rule = some id) :
    w.Silent (w.leave id) ∧ (w.leave id).view = w.view := by
  have held : (w.leave id).engine.tracker.held = w.engine.tracker.held := Tracker.held_leave coherent id
  refine ⟨.of_engine (Tracker.coherent_leave coherent found) rfl rfl rfl (Nat.le_refl _) rfl, ?_⟩
  rw [view, held]
  rfl

theorem silent_release (coherent : w.engine.tracker.Coherent) (found : w.engine.tracker.find? rule = some id) :
    w.Silent (w.release id) ∧
    (w.release id).view =
      if (w.slot id).retired ∧ (w.slot id).outbox = [] then w.view.put rule none else w.view := by
  obtain ⟨coherent', held⟩ := Tracker.held_release coherent found
  refine ⟨.of_engine coherent' rfl rfl rfl (Nat.le_refl _) rfl, ?_⟩
  have whole : (w.release id).view = { w.view with held := (w.engine.tracker.release id).1.held } := rfl
  by_cases spent : (w.slot id).retired ∧ (w.slot id).outbox = []
  · rw [if_pos spent, whole, held.trans (if_pos spent)]
    rfl
  · rw [if_neg spent, whole, held.trans (if_neg spent)]
    rfl

theorem silent_rewrite {f : Tracker → Tracker} {g : Slot → Slot} (coherent : w.engine.tracker.Coherent)
    (found : w.engine.tracker.find? rule = some id)
    (same : f w.engine.tracker = w.engine.tracker.update id g)
    (rewrites : w.engine.tracker.Rewrites id (w.engine.tracker.update id g)) :
    w.Silent (w.onTracker f) ∧ (w.onTracker f).engine.tracker.find? rule = some id ∧
    (w.onTracker f).view = w.view.put rule (some (g (w.slot id)).holding) := by
  have tracker : (w.onTracker f).engine.tracker = w.engine.tracker.update id g := same
  refine ⟨.of_engine ?_ rfl rfl rfl (Nat.le_refl _) rfl, ?_, ?_⟩
  · rw [tracker]
    exact rewrites.coherent coherent (coherent.get found)
  · rw [tracker]
    exact found
  · rw [view, tracker, Tracker.held_update coherent found]
    rfl

end World

/-! ### Requests -/

namespace Request

variable {w : World} {rule : RuleId} {id : SlotId}

/-- The slot of a rule is there afterwards, and it is not retired. -/
theorem complete_slot (coherent : w.engine.tracker.Coherent) (rule : RuleId) :
    w.Silent ((Request.slot rule).complete w).1 ∧
    ((Request.slot rule).complete w).1.engine.tracker.find? rule = some ((Request.slot rule).complete w).2 ∧
    ((Request.slot rule).complete w).1.view =
      w.view.put rule (some { w.view.holding rule with retired := false }) := by
  let made := (w.engine.tracker.ensure rule).1
  let id := (w.engine.tracker.ensure rule).2
  let joined := made.join id w.moves
  have tracker : ((Request.slot rule).complete w).1.engine.tracker =
      joined.update id fun s => { s with retired := false } := rfl
  have answer : ((Request.slot rule).complete w).2 = id := rfl
  have coherent₁ : made.Coherent := Tracker.coherent_ensure coherent
  have found : made.find? rule = some id := Tracker.find?_ensure _ rule
  have coherent₂ : joined.Coherent := Tracker.coherent_join coherent₁ (coherent₁.get found)
  have found₂ : joined.find? rule = some id := found
  have held : made.held =
      update w.view.held rule (some (w.view.holding rule)) :=
    Tracker.held_ensure coherent rule
  have held₂ : joined.held = made.held := Tracker.held_update_same coherent₁ found _ rfl
  have holding : (joined.slot id).holding = w.view.holding rule := by
    have here := Tracker.held_of_find found₂
    rw [held₂, held, update_self] at here
    exact (Option.some.inj here).symm
  have rewrites : joined.Rewrites id (joined.update id fun s => { s with retired := false }) :=
    Tracker.rewrites_update joined id _ (fun _ => ⟨rfl, rfl, rfl⟩) rfl
  refine ⟨.of_engine ?_ rfl rfl rfl (Nat.le_refl _) rfl, ?_, ?_⟩
  · rw [tracker]
    exact rewrites.coherent coherent₂ (coherent₂.get found₂)
  · rw [tracker, answer]
    exact found₂
  · rw [World.view, tracker, Tracker.held_update coherent₂ found₂, held₂, held, update_idem, ← holding]
    rfl

/-- The slot of a rule, if there is one. -/
theorem complete_existingSlot (coherent : w.engine.tracker.Coherent) (rule : RuleId) :
    w.Silent ((Request.existingSlot rule).complete w).1 ∧
    ((Request.existingSlot rule).complete w).1.view = w.view ∧
    ((Request.existingSlot rule).complete w).2 = w.engine.tracker.find? rule ∧
    ((Request.existingSlot rule).complete w).1.engine.tracker.find? rule = w.engine.tracker.find? rule ∧
    ((Request.existingSlot rule).complete w).1.engine.tracker.backlogged = w.engine.tracker.backlogged := by
  cases found : w.engine.tracker.find? rule with
  | none =>
    have same : (Request.existingSlot rule).complete w = ({ w with moves := w.moves + 1 + 1 }, none) := by
      simp [complete, settle, takeSlot, claim, Tracker.request, World.takeTicket, World.onTracker,
        World.onEngine, World.moved, found]
    rw [same]
    exact ⟨.of_engine coherent rfl rfl rfl (Nat.le_refl _) rfl, rfl, rfl, found, rfl⟩
  | some id =>
    have same : (Request.existingSlot rule).complete w =
        ({ w with moves := w.moves + 1 + 1 }.onTracker fun t => t.join id w.moves, some id) := by
      simp [complete, settle, takeSlot, claim, Tracker.request, Tracker.take, World.takeTicket, World.onTracker,
        World.onEngine, World.moved, found]
    rw [same]
    refine ⟨.of_engine (Tracker.coherent_join coherent (coherent.get found)) rfl rfl rfl (Nat.le_refl _) rfl, ?_,
      rfl, found, rfl⟩
    have held : (w.engine.tracker.join id w.moves).held = w.engine.tracker.held :=
      Tracker.held_update_same coherent found _ rfl
    simp only [World.view, World.onTracker, World.onEngine, held]

theorem complete_refreshTurn (coherent : w.engine.tracker.Coherent) :
    w.Silent (Request.refreshTurn.complete w).1 ∧ (Request.refreshTurn.complete w).1.view = w.view ∧
    (Request.refreshTurn.complete w).1.source = w.source :=
  ⟨.of_engine coherent rfl rfl rfl (Nat.le_refl _) rfl, rfl, rfl⟩

theorem le_max_left (a b : Duration) : a ≤ max a b := by
  change a.nanos ≤ (if a ≤ b then b else a).nanos
  split
  · assumption
  · exact Nat.le_refl _

theorem le_max_right (a b : Duration) : b ≤ max a b := by
  change b.nanos ≤ (if a ≤ b then b else a).nanos
  split
  · exact Nat.le_refl _
  · next later => exact Nat.le_of_not_le later

theorem max_eq_left {a b : Duration} (h : b ≤ a) : max a b = a := by
  change (if a ≤ b then b else a) = a
  split
  · next h' => exact congrArg Duration.mk (Nat.le_antisymm h h')
  · rfl

theorem max_eq_right {a b : Duration} (h : a ≤ b) : max a b = b :=
  if_pos h

theorem complete_fetch (coherent : w.engine.tracker.Coherent) :
    w.Silent (Request.fetch.complete w).1 ∧ (Request.fetch.complete w).1.view = w.view ∧
    (Request.fetch.complete w).2 = w.source.fetch :=
  ⟨.of_engine coherent rfl rfl rfl (le_max_left _ _) rfl, rfl, rfl⟩

/-! Queries. -/

theorem le_latest (now : Duration) (times : List Duration) : now ≤ latest now times := by
  induction times generalizing now with
  | nil => exact Nat.le_refl _
  | cons first rest ih => exact Nat.le_trans (le_max_left now first) (ih _)

theorem le_latest_of_mem {times : List Duration} {time : Duration} (now : Duration) (mem : time ∈ times) :
    time ≤ latest now times := by
  induction times generalizing now with
  | nil => exact absurd mem List.not_mem_nil
  | cons first rest ih =>
    rcases List.mem_cons.mp mem with rfl | mem
    · exact Nat.le_trans (le_max_right now time) (le_latest _ rest)
    · exact ih _ mem

theorem lt_latest {time now : Duration} {times : List Duration} (h : time < latest now times) :
    time < now ∨ ∃ t ∈ times, time < t := by
  induction times generalizing now with
  | nil => exact .inl h
  | cons first rest ih =>
    rcases ih h with later | ⟨t, mem, later⟩
    · by_cases le : now ≤ first
      · rw [max_eq_right le] at later
        exact .inr ⟨first, List.mem_cons_self, later⟩
      · rw [max_eq_left (Nat.le_of_not_le le)] at later
        exact .inl later
    · exact .inr ⟨t, List.mem_cons_of_mem _ mem, later⟩

theorem mapM_eq_none {α β : Type} {f : α → Option β} {l : List α} {a : α} (mem : a ∈ l) (none : f a = none) :
    l.mapM f = Option.none := by
  induction l with
  | nil => exact absurd mem List.not_mem_nil
  | cons b l ih =>
    rw [List.mapM_cons]
    rcases List.mem_cons.mp mem with rfl | mem
    · rw [none]
      rfl
    · rw [ih mem]
      cases f b <;> rfl

theorem mapM_eq_some {α β : Type} {f : α → Option β} {g : α → β} {l : List α} (all : ∀ a ∈ l, f a = some (g a)) :
    l.mapM f = some (l.map g) := by
  induction l with
  | nil => rfl
  | cons a l ih =>
    obtain ⟨first, all⟩ := List.forall_mem_cons.mp all
    rw [List.mapM_cons, first, ih all]
    rfl

theorem startLookups_eq (w : World) (rules : List RuleId) :
    ∃ findOpen, ∃ asked : List (RuleId × Act),
      startLookups w rules = ({ w with sink := { w.sink with findOpen } },
        asked.map fun p => (p.1, { act := p.2, start := w.clock })) ∧ asked.map Prod.fst = rules ∧
      ∀ {P}, w.sink.findOpen.All P → findOpen.All P ∧ ∀ p ∈ asked, P p.2 := by
  induction rules generalizing w with
  | nil => exact ⟨w.sink.findOpen, [], rfl, rfl, fun all => ⟨all, by simp⟩⟩
  | cons rule rest ih =>
    obtain ⟨findOpen, asked, started, rules, acts⟩ :=
      ih { w with sink := { w.sink with findOpen := w.sink.findOpen.next.1 } }
    refine ⟨findOpen, (rule, w.sink.findOpen.next.2) :: asked, ?_, ?_, fun all => ?_⟩
    · simp only [startLookups, Sink.startFindOpen, started, List.map_cons]
    · rw [List.map_cons, rules]
    · obtain ⟨first, all⟩ := all.next
      obtain ⟨all, others⟩ := acts all
      exact ⟨all, List.forall_mem_cons.mpr ⟨first, others⟩⟩

/-- Once their moments have come all look-ups have acted, and the sink is as it was. -/
theorem pollLookups_eq {flights : List (RuleId × Flight (Except SinkError (Option Alert)))}
    (ready : ∀ f ∈ flights, f.2.answer = none ∧ f.2.actsAt ≤ w.clock) :
    pollLookups w flights =
      (w, flights.map fun f => (f.1, { f.2 with answer := some (w.sink.lookUp f.2.act.deed f.1).2 })) := by
  induction flights with
  | nil => rfl
  | cons f rest ih =>
    obtain ⟨⟨unanswered, due⟩, ready⟩ := List.forall_mem_cons.mp ready
    have same : (w.sink.lookUp f.2.act.deed f.1).1 = w.sink := (w.sink.query_cases ..).1
    have polled : f.2.poll w (fun sink deed => sink.lookUp deed f.1) =
        (w, { f.2 with answer := some (w.sink.lookUp f.2.act.deed f.1).2 }) := by
      simp only [Flight.poll, unanswered, if_pos due, same]
    rw [pollLookups, polled]
    dsimp only
    rw [ih ready, List.map_cons]

theorem startLookups_at_once (plain : w.sink = { store := w.sink.store }) (rules : List RuleId) :
    startLookups w rules = (w, rules.map fun rule => (rule, { act := {}, start := w.clock })) := by
  have started : w.sink.startFindOpen = (w.sink, {}) := by
    rw [plain]
    rfl
  induction rules with
  | nil => rfl
  | cons rule rest ih => simp only [startLookups, started, ih, List.map_cons]

theorem pollLookups_at_once (w : World) (rules : List RuleId) {start : Duration} (due : start ≤ w.clock) :
    pollLookups w (rules.map fun rule => (rule, { act := {}, start })) =
      (w, rules.map fun rule =>
        (rule, { act := {}, start, answer := some (w.sink.store.findOpen rule) })) := by
  rw [pollLookups_eq, List.map_map]
  · rfl
  · intro f mem
    obtain ⟨rule, -, rfl⟩ := List.mem_map.mp mem
    exact ⟨rfl, due⟩

/-- Each look-up answers what the store holds, unless the sink does not answer all queries. -/
theorem complete_findOpen (coherent : w.engine.tracker.Coherent) (rules : List RuleId) :
    w.Silent ((Request.findOpen rules).complete w).1 ∧ ((Request.findOpen rules).complete w).1.view = w.view ∧
    (rules.zip ((Request.findOpen rules).complete w).2).map Prod.fst = rules ∧
    ∀ p ∈ rules.zip ((Request.findOpen rules).complete w).2,
      p.2 = w.sink.store.findOpen p.1 ∨ ¬ w.sink.Answers ∧ ∃ e, p.2 = .error e := by
  obtain ⟨findOpen, asked, started, named, acts⟩ := startLookups_eq w.takeTicket.1 rules
  let flights : List (RuleId × Flight (Except SinkError (Option Alert))) :=
    asked.map fun p => (p.1, { act := p.2, start := w.clock })
  let w₁ : World := { w.takeTicket.1 with sink := { w.sink with findOpen } }
  let w₂ := waitUntil w₁ (latest w₁.clock (flights.map (·.2.actsAt)))
  let answered : List (RuleId × Flight (Except SinkError (Option Alert))) :=
    flights.map fun f => (f.1, { f.2 with answer := some (w₂.sink.lookUp f.2.act.deed f.1).2 })
  let w₃ := waitUntil w₂ (latest w₂.clock (answered.map (·.2.answersAt)))
  have later (f) (mem : f ∈ flights) : f.2.actsAt ≤ w₂.clock :=
    Nat.le_trans (le_latest_of_mem w₁.clock (List.mem_map.mpr ⟨f, mem, rfl⟩)) (le_max_right w₁.clock _)
  have polled : pollLookups w₂ flights = (w₂, answered) := pollLookups_eq fun f mem => by
    refine ⟨?_, later f mem⟩
    obtain ⟨p, -, rfl⟩ := List.mem_map.mp mem
    rfl
  let answer (p : RuleId × Act) : Except SinkError (Option Alert) := (w₂.sink.lookUp p.2.deed p.1).2
  have answers : answered.filterMap (·.2.answer) = asked.map answer := by
    rw [List.filterMap_map, List.filterMap_map]
    exact congrFun List.filterMap_eq_map asked
  have begins : startLookups w.takeTicket.1 rules = (w₁, flights) := started
  have settled : (Request.findOpen rules).settle w.moves w.takeTicket.1 = (w₃, asked.map answer) := by
    simp only [settle, start, begins]
    rw [polled]
    exact congrArg (Prod.mk _) answers
  have whole : (Request.findOpen rules).complete w = (w₃.moved, asked.map answer) :=
    congrArg (fun p : World × List (Except SinkError (Option Alert)) => (p.1.moved, p.2)) settled
  have pairs : rules.zip (asked.map answer) = asked.map fun p => (p.1, answer p) := by
    rw [← named, List.zip_map']
  rw [whole]
  dsimp only
  rw [pairs, List.map_map]
  have passed : w.clock ≤ w₃.clock := Nat.le_trans (le_max_left _ _) (le_max_left _ _)
  refine ⟨⟨coherent, rfl, rfl, rfl, passed, fun closes => closes, fun answers => ?_⟩, rfl, named, fun p mem => ?_⟩
  · exact ⟨answers.available, (acts answers.findOpen).1, answers.findAll⟩
  · obtain ⟨q, taken, rfl⟩ := List.mem_map.mp mem
    obtain ⟨-, found | ⟨refused, fails⟩⟩ := w₂.sink.query_cases q.2.deed q.1 (·.findOpen q.1)
    · exact .inl found
    · exact .inr ⟨fun answers => refused ((acts answers.findOpen).2 q taken), fails⟩

theorem complete_findAll (coherent : w.engine.tracker.Coherent) :
    w.Silent (Request.findAll.complete w).1 ∧ (Request.findAll.complete w).1.view = w.view ∧
    ((Request.findAll.complete w).2 = w.sink.store.findAllOpen ∨
      ¬ w.sink.Answers ∧ ∃ e, (Request.findAll.complete w).2 = .error e) := by
  let act := w.sink.findAll.next.2
  let sink : Sink := { w.sink with findAll := w.sink.findAll.next.1 }
  obtain ⟨same, answer⟩ := sink.query_cases act.deed "all" (·.findAllOpen)
  have whole : ∃ clock, w.clock ≤ clock ∧ Request.findAll.complete w =
      ({ w with sink, clock, moves := w.moves + 1 + 1 }, (sink.listOpen act.deed).2) := by
    refine ⟨max (max w.clock (w.clock + act.before)) (max w.clock (w.clock + act.before) + act.after),
      Nat.le_trans (le_max_left _ _) (le_max_left _ _), ?_⟩
    simp only [complete, settle, World.takeTicket, Sink.startFindAll, fly, waitUntil]
    rw [show (sink.listOpen act.deed).1 = sink from same]
    rfl
  obtain ⟨clock, later, whole⟩ := whole
  rw [whole]
  refine ⟨⟨coherent, rfl, rfl, rfl, later, fun closes => closes, fun answers => ?_⟩, rfl, ?_⟩
  · exact ⟨answers.available, answers.findOpen, answers.findAll.next.2⟩
  · exact answer.imp_right fun ⟨refused, fails⟩ => ⟨fun answers => refused answers.findAll.next.1, fails⟩

/-! Deliveries. -/

theorem send_eq (w : World) (event : Event) : ∃ sink clock answer, w.clock ≤ clock ∧ send w event =
    ({ w with sink, clock, journal := .answered event answer :: .sent event :: w.journal }, answer) := by
  have waits (time time' : Duration) : w.clock ≤ max (max w.clock time) time' :=
    Nat.le_trans (le_max_left _ time) (le_max_left _ time')
  unfold send
  obtain ⟨sink, act⟩ := w.sink.startDelivery event
  by_cases begun : act.before ≤ w.engine.sinkTimeout
  · by_cases inTime : act.before + act.after ≤ w.engine.sinkTimeout
    · simp only [if_pos begun, if_pos inTime]
      exact ⟨_, _, _, waits _ _, rfl⟩
    · simp only [if_pos begun, if_neg inTime]
      exact ⟨_, _, _, waits _ _, rfl⟩
  · simp only [if_neg begun]
    exact ⟨_, _, _, le_max_left _ _, rfl⟩

theorem complete_deliver (w : World) (event : Event) : ∃ sink clock, w.clock ≤ clock ∧
    ((Request.deliver event).complete w).1 = { w with
      sink, clock, moves := w.moves + 1 + 1
      journal := .answered event ((Request.deliver event).complete w).2 :: .sent event :: w.journal } := by
  obtain ⟨sink, clock, answer, later, sent⟩ := send_eq w.takeTicket.1 event
  simp only [complete, settle, sent]
  exact ⟨sink, clock, later, rfl⟩

/-- An alert is closed in time. -/
theorem complete_deliver_resolved (calm : w.Calm) (id : AlertId) (rule : RuleId) (time : Timestamp)
    (reason : ResolveReason) :
    ((Request.deliver (.resolved id rule time reason)).complete w).1.Calm ∧
    ((Request.deliver (.resolved id rule time reason)).complete w).1.view =
      { w.view with store := (w.sink.store.resolve id time).1 } ∧
    ((Request.deliver (.resolved id rule time reason)).complete w).1.engine.tracker = w.engine.tracker ∧
    ((Request.deliver (.resolved id rule time reason)).complete w).2 = (w.sink.store.resolve id time).2 := by
  let event : Event := .resolved id rule time reason
  let resolve := w.sink.resolve.next.1
  let act := w.sink.resolve.next.2
  obtain ⟨⟨passes, inTime⟩, closes⟩ : (act.deed.Passes ∧ act.before + act.after ≤ w.engine.sinkTimeout) ∧
      Sink.Closes { w.sink with resolve } w.engine.sinkTimeout := calm.closes.next
  have started : w.sink.startDelivery event = ({ w.sink with resolve }, act) := rfl
  have delivered : Sink.deliver { w.sink with resolve } act.deed event = ({ w.sink with
      resolve, store := (w.sink.store.resolve id time).1 }, (w.sink.store.resolve id time).2) :=
    Sink.deliver_of_passes passes id rule time reason
  have begun : act.before ≤ w.engine.sinkTimeout := Nat.le_trans (Nat.le_add_right _ _) inTime
  have answer : ((Request.deliver event).complete w).2 = (w.sink.store.resolve id time).2 := by
    simp only [complete, settle, World.takeTicket, send, started, World.note, waitUntil, if_pos begun,
      if_pos inTime, delivered]
  have world : ∃ clock journal, ((Request.deliver event).complete w).1 = { w with
      clock, journal, moves := w.moves + 1 + 1
      sink := { w.sink with resolve, store := (w.sink.store.resolve id time).1 } } := by
    simp only [complete, settle, World.takeTicket, send, started, World.note, waitUntil, if_pos begun,
      if_pos inTime, delivered, World.moved]
    exact ⟨_, _, rfl⟩
  obtain ⟨clock, journal, world⟩ := world
  rw [world, answer]
  exact ⟨⟨calm.coherent, closes⟩, rfl, rfl, rfl⟩

end Request

end ThresholdAlerts
