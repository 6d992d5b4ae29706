import ThresholdAlerts.Proofs.Backlogs
import ThresholdAlerts.Proofs.Dispatching
/-! A retry pass while the sink accepts whatever it is sent. What can be said of a pass is said of the case that
every answer in the journal is Ok; in any other case the journal has grown, and no more. Main statement: once all
calls have come to their end, one pass over outboxes whose fronts are due sends every event that waits once, in
order, and leaves nothing behind. -/
namespace ThresholdAlerts

open Function

def Event.roundTrips (events : List Event) : List Happening :=
  (events.flatMap fun e => [.sent e, .answered e (.ok ())]).reverse

theorem Event.roundTrips_append (events events' : List Event) :
    roundTrips (events ++ events') = roundTrips events' ++ roundTrips events := by
  rw [roundTrips, List.flatMap_append, List.reverse_append, roundTrips, roundTrips]

theorem Event.sent_roundTrips (events : List Event) :
    (roundTrips events).reverse.filterMap Happening.sent? = events := by
  rw [roundTrips, List.reverse_reverse]
  induction events with
  | nil => rfl
  | cons e rest ih =>
    rw [List.flatMap_cons, List.filterMap_append, ih]
    rfl

theorem World.sent_of_roundTrips {w w' : World} {events : List Event}
    (grown : w'.journal = Event.roundTrips events ++ w.journal) : w'.sent = w.sent ++ events := by
  have all (w : World) : w.sent = w.journal.reverse.filterMap Happening.sent? := rfl
  rw [all, grown, List.reverse_append, List.filterMap_append, Event.sent_roundTrips, ← all]

/-! ### Programs whose calls to the sink are accepted -/

namespace Prog

variable {T α β : Type} {task : T → World → World × List Event} {w : World}

/-- The program takes nothing back from the journal. -/
def Grows (task : T → World → World × List Event) (p : Prog T α) : Prop :=
  ∀ w, w.journal <:+ (p.run task w).1.journal

theorem grows_pure (a : α) : (pure a : Prog T α).Grows task :=
  fun w => List.suffix_refl w.journal

theorem grows_bind {p : Prog T α} {f : α → Prog T β} (first : p.Grows task) (later : ∀ a, (f a).Grows task) :
    (p >>= f).Grows task := fun w => by
  rw [run_bind]
  exact (first w).trans (later _ _)

theorem grows_read (f : World → α) : (read f : Prog T α).Grows task :=
  fun w => List.suffix_refl w.journal

theorem grows_modify {f : World → World} (grows : ∀ w, w.journal <:+ (f w).journal) :
    (modify f : Prog T Unit).Grows task := grows

theorem grows_step {f : World → World × α} (grows : ∀ w, w.journal <:+ (f w).1.journal) :
    (step f : Prog T α).Grows task := grows

theorem grows_request {r : Request} (grows : ∀ w, w.journal <:+ (r.complete w).1.journal) :
    (request r : Prog T _).Grows task := grows

/-- The program adds to the journal, and `post` holds of its answer, of the world that it leaves and of what it
added if no call to the sink was refused. -/
def Accepted (task : T → World → World × List Event) (p : Prog T α) (w : World)
    (post : α → World → List Happening → Prop) : Prop :=
  p.After task w fun a w' => ∃ news, w'.journal = news ++ w.journal ∧ (Happening.AllAccepted news → post a w' news)

theorem accepted_bind {p : Prog T α} {f : α → Prog T β} {between : α → World → List Happening → Prop}
    {post : β → World → List Happening → Prop} (first : p.Accepted task w between)
    (grows : ∀ a, (f a).Grows task)
    (later : ∀ a w' news, between a w' news →
      (f a).Accepted task w' fun b w'' more => post b w'' (more ++ news)) :
    (p >>= f).Accepted task w post := by
  refine after_bind ?_
  obtain ⟨news, journal, holds⟩ := first
  by_cases accepted : Happening.AllAccepted news
  · obtain ⟨more, journal', holds'⟩ := later _ _ _ (holds accepted)
    refine ⟨more ++ news, ?_, fun all => holds' all.append.1⟩
    rw [journal', journal, List.append_assoc]
  · -- A call was refused already, so that the rest can only add to the journal.
    obtain ⟨more, journal'⟩ := grows _ _
    refine ⟨more ++ news, ?_, fun all => absurd all.append.2 accepted⟩
    rw [← journal', journal, List.append_assoc]

theorem Accepted.imp {p : Prog T α} {post post' : α → World → List Happening → Prop}
    (h : p.Accepted task w post) (weaker : ∀ a w' news, post a w' news → post' a w' news) :
    p.Accepted task w post' := by
  obtain ⟨news, journal, holds⟩ := h
  exact ⟨news, journal, fun all => weaker _ _ _ (holds all)⟩

theorem accepted_pure {a : α} {post : α → World → List Happening → Prop} (h : post a w []) :
    (pure a : Prog T α).Accepted task w post :=
  ⟨[], rfl, fun _ => h⟩

theorem accepted_read {f : World → α} {k : α → Prog T β} {post : β → World → List Happening → Prop}
    (h : (k (f w)).Accepted task w post) : (read f >>= k).Accepted task w post := h

theorem accepted_modify {f : World → World} {k : Unit → Prog T β} {post : β → World → List Happening → Prop}
    (silent : (f w).journal = w.journal) (h : (k ()).Accepted task (f w) post) :
    (modify f >>= k).Accepted task w post := by
  obtain ⟨news, journal, holds⟩ := h
  exact ⟨news, silent ▸ journal, holds⟩

theorem accepted_request {r : Request} {k : r.Answer → Prog T β} {post : β → World → List Happening → Prop}
    (silent : (r.complete w).1.journal = w.journal)
    (h : (k (r.complete w).2).Accepted task (r.complete w).1 post) : (request r >>= k).Accepted task w post := by
  obtain ⟨news, journal, holds⟩ := h
  exact ⟨news, silent ▸ journal, holds⟩

theorem accepted_deliver (w : World) (event : Event) :
    (request (.deliver event) : Prog T _).Accepted task w fun answer w' news =>
      answer = .ok () ∧ news = Event.roundTrips [event] ∧ w'.engine = w.engine ∧ w.clock ≤ w'.clock := by
  obtain ⟨sink, clock, later, same⟩ := Request.complete_deliver w event
  change ∃ news, ((Request.deliver event).complete w).1.journal = news ++ w.journal ∧ (_ →
    ((Request.deliver event).complete w).2 = .ok () ∧ news = _ ∧ ((Request.deliver event).complete w).1.engine = _ ∧
      w.clock ≤ ((Request.deliver event).complete w).1.clock)
  rw [same]
  cases ((Request.deliver event).complete w).2 with
  | error e =>
    exact ⟨[.answered event (.error e), .sent event], rfl, fun all => absurd List.mem_cons_self (all event e)⟩
  | ok => exact ⟨Event.roundTrips [event], rfl, fun _ => ⟨rfl, rfl, rfl, later⟩⟩

end Prog

/-! ### The programs of a retry pass -/

section Growth

variable {T : Type} {task : T → World → World × List Event}

theorem World.journal_delivered (w : World) (id : SlotId) (front : Delivery) (rest : Outbox) :
    (w.delivered id front rest).journal = w.journal := by
  rw [delivered]
  split <;> rfl

theorem World.journal_failedAgain (w : World) (id : SlotId) (front : Delivery) (rest : Outbox) (error : SinkError) :
    w.journal <:+ (w.failedAgain id front rest error).1.journal := by
  simp only [failedAgain]
  split
  · exact List.suffix_refl w.journal
  · simp only [abandon, readCalendar, count, note, onEngine]
    exact List.suffix_cons _ _

theorem Request.journal_existingSlot (w : World) (rule : RuleId) :
    ((Request.existingSlot rule).complete w).1.journal = w.journal := by
  cases found : w.engine.tracker.find? rule <;>
    simp [complete, settle, takeSlot, claim, Tracker.request, World.takeTicket, World.onTracker, World.onEngine,
      World.moved, found]

theorem grows_deliver (event : Event) : (Prog.request (.deliver event) : Prog T _).Grows task :=
  Prog.grows_request fun w => by
    obtain ⟨sink, clock, -, same⟩ := Request.complete_deliver w event
    rw [same]
    exact (List.suffix_cons _ _).trans (List.suffix_cons _ _)

theorem grows_afterSuccess {slot : SlotId} {now : Duration} {rest : Outbox}
    (later : ∀ report, (drain slot now rest report : Prog T _).Grows task) (front : Delivery) (report : RetryReport) :
    (do
      Prog.modify (·.delivered slot front rest)
      drain slot now rest report : Prog T RetryReport).Grows task :=
  Prog.grows_bind (Prog.grows_modify fun w => (w.journal_delivered ..) ▸ List.suffix_refl _) fun _ => later report

theorem grows_afterFailure {slot : SlotId} {now : Duration} {rest : Outbox}
    (later : ∀ report, (drain slot now rest report : Prog T _).Grows task) (front : Delivery) (e : SinkError)
    (givenUp report : RetryReport) :
    (do
      if ← Prog.step (·.failedAgain slot front rest e) then drain slot now rest givenUp
      else return report : Prog T RetryReport).Grows task := by
  refine Prog.grows_bind (Prog.grows_step fun w => w.journal_failedAgain ..) fun gone => ?_
  cases gone with
  | true => exact later givenUp
  | false => exact Prog.grows_pure report

theorem grows_drain (slot : SlotId) (now : Duration) (outbox : Outbox) (report : RetryReport) :
    (drain slot now outbox report : Prog T _).Grows task := by
  induction outbox generalizing report with
  | nil => exact Prog.grows_pure report
  | cons front rest ih =>
    rw [drain]
    split
    · refine Prog.grows_bind (grows_deliver front.event) fun answer => ?_
      cases answer with
      | ok => exact grows_afterSuccess ih front _
      | error e => exact grows_afterFailure ih front e _ _
    · exact Prog.grows_pure report

theorem grows_settled (rule : RuleId) (slot : SlotId) (report : RetryReport) :
    (do
      let left ← Prog.read fun w => (w.slot slot).outbox.length
      if left = 0 then
        Prog.modify fun w => (w.onTracker (·.unmarkBacklogged rule)).release slot
        return report
      else
        Prog.modify (·.leave slot)
        return { report with stillPending := report.stillPending + left } : Prog T RetryReport).Grows task := by
  refine Prog.grows_bind (Prog.grows_read _) fun left => ?_
  split
  · exact Prog.grows_bind (Prog.grows_modify fun w => List.suffix_refl w.journal) fun _ => Prog.grows_pure _
  · exact Prog.grows_bind (Prog.grows_modify fun w => List.suffix_refl w.journal) fun _ => Prog.grows_pure _

theorem grows_retryRule (rule : RuleId) (report : RetryReport) :
    (retryRule rule report : Prog T _).Grows task := by
  have asked : (Prog.request (.existingSlot rule) : Prog T _).Grows task :=
    Prog.grows_request fun w => (Request.journal_existingSlot w rule) ▸ List.suffix_refl w.journal
  refine Prog.grows_bind asked fun found => ?_
  cases found with
  | none => exact Prog.grows_bind (Prog.grows_modify fun w => List.suffix_refl w.journal) fun _ => Prog.grows_pure _
  | some slot =>
    exact Prog.grows_bind (Prog.grows_read _) fun now => Prog.grows_bind (Prog.grows_read _) fun outbox =>
      Prog.grows_bind (grows_drain slot now outbox report) (grows_settled rule slot)

theorem grows_retryRules (rules : List RuleId) (report : RetryReport) :
    (retryRules rules report : Prog T _).Grows task := by
  induction rules generalizing report with
  | nil => exact Prog.grows_pure report
  | cons rule rest ih => exact Prog.grows_bind (grows_retryRule rule report) fun _ => ih _

end Growth

def RetryReport.gain (r : RetryReport) (events : List Event) : RetryReport :=
  { r with attempted := r.attempted + events.length, delivered := r.delivered + events.length }

theorem RetryReport.gain_append (r : RetryReport) (events events' : List Event) :
    (r.gain events).gain events' = r.gain (events ++ events') := by
  simp only [gain, List.length_append, Nat.add_assoc]

/-- What is left of a holding once all that waited was delivered; a slot that is to go is gone. -/
def Holding.cleared (h : Holding) : Option Holding :=
  if h.retired then none else some { h with outbox := [] }

section Clearing

variable {T : Type} {task : T → World → World × List Event} {w w' w₁ w₂ : World} {rule : RuleId} {id : SlotId}

/-- Nothing waits under the slot of a rule any more, and nothing else changed. -/
structure World.Emptied (rule : RuleId) (id : SlotId) (w w' : World) : Prop where
  coherent : w'.engine.tracker.Coherent
  found : w'.engine.tracker.find? rule = some id
  held : w'.engine.tracker.held =
    update w.engine.tracker.held rule (some { (w.slot id).holding with outbox := [] })
  marks : w'.engine.tracker.backlogged = w.engine.tracker.backlogged
  clock : w.clock ≤ w'.clock

theorem World.tracker_delivered (w : World) (id : SlotId) (front : Delivery) (rest : Outbox) :
    (w.delivered id front rest).engine.tracker = w.engine.tracker.setOutbox id rest ∧
      (w.delivered id front rest).clock = w.clock := by
  rw [delivered]
  split <;> exact ⟨rfl, rfl⟩

theorem accepted_drain (coherent : w.engine.tracker.Coherent) (found : w.engine.tracker.find? rule = some id)
    {outbox : Outbox} (here : (w.slot id).outbox = outbox) {now : Duration}
    (due : ∀ d ∈ outbox, d.isDue now = true) (report : RetryReport) :
    (drain id now outbox report : Prog T _).Accepted task w fun report' w' news =>
      w.Emptied rule id w' ∧ news = Event.roundTrips (outbox.map (·.event)) ∧
        report' = report.gain (outbox.map (·.event)) := by
  induction outbox generalizing w report with
  | nil =>
    refine Prog.accepted_pure ⟨⟨coherent, found, ?_, rfl, Nat.le_refl _⟩, rfl, rfl⟩
    have same : ({ (w.slot id).holding with outbox := [] } : Holding) = (w.slot id).holding := by
      rw [Slot.holding, here]
    rw [same]
    exact (update_eq_self_iff.mpr (Tracker.held_of_find found).symm).symm
  | cons front rest ih =>
    obtain ⟨first, due⟩ := List.forall_mem_cons.mp due
    rw [drain, if_pos first]
    refine Prog.accepted_bind (Prog.accepted_deliver w front.event) (fun answer => ?_) ?_
    · cases answer with
      | ok => exact grows_afterSuccess (grows_drain id now rest) front _
      | error e => exact grows_afterFailure (grows_drain id now rest) front e _ _
    rintro answer w₁ news ⟨rfl, rfl, engine, later⟩
    refine Prog.accepted_modify (w₁.journal_delivered ..) ?_
    obtain ⟨tracker, clock⟩ := w₁.tracker_delivered id front rest
    rw [engine] at tracker
    have rewrites := Tracker.rewrites_setOutbox w.engine.tracker id rest
    have slot : (w₁.delivered id front rest).slot id = { w.slot id with outbox := rest } := by
      rw [World.slot, tracker]
      exact World.slot_setOutbox _ id rest
    have held : (w₁.delivered id front rest).engine.tracker.held =
        update w.engine.tracker.held rule (some { (w.slot id).holding with outbox := rest }) := by
      rw [tracker]
      exact Tracker.held_update coherent found _
    refine (ih (tracker ▸ rewrites.coherent coherent (coherent.get found)) (tracker ▸ found)
      (congrArg Slot.outbox slot) due _).imp ?_
    rintro report' w' news ⟨emptied, rfl, rfl⟩
    refine ⟨⟨emptied.coherent, emptied.found, ?_, ?_, ?_⟩, ?_, ?_⟩
    · rw [emptied.held, held, update_idem, slot]
      rfl
    · rw [emptied.marks, tracker]
      rfl
    · exact Nat.le_trans later (clock ▸ emptied.clock)
    · exact (Event.roundTrips_append [front.event] _).symm
    · simp only [RetryReport.gain, List.map_cons, List.length_cons, Nat.add_assoc, Nat.add_comm 1]

/-- The outboxes of some rules were delivered, and nothing else changed. -/
structure World.Cleared (rules : List RuleId) (w w' : World) : Prop where
  coherent : w'.engine.tracker.Coherent
  held : ∀ rule, w'.engine.tracker.held rule =
    if rule ∈ rules then (w.engine.tracker.held rule).bind Holding.cleared else w.engine.tracker.held rule
  marks : ∀ rule, rule ∈ w'.engine.tracker.backlogged ↔ rule ∈ w.engine.tracker.backlogged ∧ rule ∉ rules
  clock : w.clock ≤ w'.clock

theorem World.outbox_of_held (same : w'.engine.tracker.held rule = w.engine.tracker.held rule) :
    (w'.account rule).outbox = (w.account rule).outbox := by
  rw [account_outbox, account_outbox, View.outbox, View.outbox, View.holding, View.holding]
  exact congrArg (fun h : Option Holding => (h.getD _).outbox) same

theorem Tracker.mem_erase_mark {t : Tracker} {rule' : RuleId} :
    rule' ∈ t.backlogged.erase rule ↔ rule' ∈ t.backlogged ∧ rule' ∉ [rule] := by
  rw [Std.TreeSet.mem_erase, Ne, Std.compare_eq_iff_eq, List.mem_singleton, and_comm, eq_comm]

theorem Tracker.backlogged_release {t : Tracker} (coherent : t.Coherent) (found : t.find? rule = some id)
    (unmarked : rule ∉ t.backlogged) (rule' : RuleId) :
    rule' ∈ (t.release id).1.backlogged ↔ rule' ∈ t.backlogged := by
  by_cases spent : (t.slot id).retired = true ∧ (t.slot id).outbox = []
  · rw [release_of_spent spent.1 spent.2, backlogged_leave]
    change rule' ∈ t.backlogged.erase (t.slot id).ruleId ↔ _
    rw [coherent.ruleId found, mem_erase_mark, List.mem_singleton]
    exact and_iff_left_of_imp fun marked same => unmarked (same ▸ marked)
  · rw [release_of_kept (kept_of_unspent spent), backlogged_leave]

/-- The rule of a slot that is empty is not marked any more, and the slot goes if its rule is gone. -/
theorem World.cleared_of_emptied (found : w.engine.tracker.find? rule = some id) (emptied : w.Emptied rule id w') :
    w.Cleared [rule] ((w'.onTracker (·.unmarkBacklogged rule)).release id) := by
  let t := w'.engine.tracker.unmarkBacklogged rule
  have coherent : t.Coherent :=
    (rewrites_unmarkBacklogged _ id rule).coherent emptied.coherent (emptied.coherent.get emptied.found)
  have slot : (t.slot id).holding = { (w.slot id).holding with outbox := [] } := by
    have here := Tracker.held_of_find emptied.found
    rw [emptied.held, update_self] at here
    exact (Option.some.inj here).symm
  have outbox : (t.slot id).outbox = [] := congrArg Holding.outbox slot
  have retired : (t.slot id).retired = (w.slot id).retired := congrArg Holding.retired slot
  have marks (rule' : RuleId) : rule' ∈ t.backlogged ↔ rule' ∈ w.engine.tracker.backlogged ∧ rule' ∉ [rule] := by
    rw [← emptied.marks]
    exact Tracker.mem_erase_mark
  have unmarked : rule ∉ t.backlogged := fun marked => ((marks rule).mp marked).2 List.mem_cons_self
  have found' : t.find? rule = some id := emptied.found
  obtain ⟨coherent', held⟩ := Tracker.held_release coherent found'
  have held' : (t.release id).1.held = update w.engine.tracker.held rule (w.slot id).holding.cleared := by
    have before : t.held = _ := emptied.held
    rw [held, before, retired, update_idem, Holding.cleared]
    simp only [outbox, and_true]
    exact (apply_ite (update w.engine.tracker.held rule) _ _ _).symm
  refine ⟨coherent', fun rule' => ?_, fun rule' => ?_, emptied.clock⟩
  · change (t.release id).1.held rule' = _
    rw [held']
    by_cases same : rule' = rule
    · subst same
      rw [update_self, if_pos List.mem_cons_self, Tracker.held_of_find found]
      rfl
    · rw [update_of_ne same, if_neg (by simpa using same)]
  · exact (Tracker.backlogged_release coherent found' unmarked rule').trans (marks rule')

theorem accepted_retryRule (coherent : w.engine.tracker.Coherent)
    (due : ∀ d ∈ (w.account rule).outbox, d.isDue w.clock = true) (report : RetryReport) :
    (retryRule rule report : Prog T _).Accepted task w fun report' w' news =>
      w.Cleared [rule] w' ∧ news = Event.roundTrips (w.backlog rule) ∧ report' = report.gain (w.backlog rule) := by
  obtain ⟨silent, view, answer, stays, marks⟩ := Request.complete_existingSlot coherent rule
  refine Prog.accepted_request silent.journal ?_
  generalize (Request.existingSlot rule).complete w = asked at *
  obtain ⟨w₁, slot?⟩ := asked
  dsimp only at silent view answer stays marks ⊢
  subst answer
  have held : w₁.engine.tracker.held = w.engine.tracker.held := congrArg View.held view
  have same : (w₁.account rule).outbox = (w.account rule).outbox := World.outbox_of_held (congrFun held rule)
  cases found : w.engine.tracker.find? rule with
  | none =>
    have absent : w.engine.tracker.held rule = none := Tracker.held_of_absent found
    have nothing : w.backlog rule = [] := by
      rw [World.backlog, (World.account_of_untracked fun tracked => Tracker.mem_ruleIds.mp tracked found).1]
      rfl
    rw [nothing]
    refine Prog.accepted_modify rfl (Prog.accepted_pure ⟨⟨?_, fun rule' => ?_, fun rule' => ?_, silent.clock⟩, rfl, rfl⟩)
    · have unmarked : w₁.engine.tracker.Resembles (w₁.engine.tracker.unmarkBacklogged rule) :=
        resembles_of_same rfl rfl rfl
      exact unmarked.coherent silent.coherent
    · change w₁.engine.tracker.held rule' = _
      rw [held]
      split
      · next here =>
        rw [List.mem_singleton.mp here, absent]
        rfl
      · rfl
    · rw [← marks]
      exact Tracker.mem_erase_mark
  | some id =>
    have found₁ : w₁.engine.tracker.find? rule = some id := stays.trans found
    have outbox : (w₁.slot id).outbox = (w.account rule).outbox := by
      rw [← same, World.account_of_find found₁]
    refine Prog.accepted_read (Prog.accepted_read ?_)
    have ready : ∀ d ∈ (w₁.slot id).outbox, d.isDue w₁.clock = true := fun d mem =>
      Delivery.isDue_of_le (due d (outbox ▸ mem)) silent.clock
    refine Prog.accepted_bind (accepted_drain silent.coherent found₁ rfl ready report) (grows_settled rule id) ?_
    rintro report' w₂ news ⟨emptied, rfl, rfl⟩
    have nothing : (w₂.slot id).outbox.length = 0 := by
      have here := Tracker.held_of_find emptied.found
      rw [emptied.held, update_self] at here
      exact congrArg (fun h : Holding => h.outbox.length) (Option.some.inj here).symm
    refine Prog.accepted_read ?_
    rw [nothing, if_pos rfl]
    have cleared := World.cleared_of_emptied found₁ emptied
    refine Prog.accepted_modify rfl (Prog.accepted_pure ⟨⟨cleared.coherent, fun rule' => ?_, fun rule' => ?_, ?_⟩, ?_, ?_⟩)
    · rw [cleared.held, held]
    · rw [cleared.marks, marks]
    · exact Nat.le_trans silent.clock cleared.clock
    · rw [outbox]
      rfl
    · rw [outbox]
      rfl

theorem World.cleared_of_idle (tidy : (w.account rule).Tidy none) (idle : (w.account rule).outbox = []) :
    w.engine.tracker.held rule = (w.engine.tracker.held rule).bind Holding.cleared := by
  have holding := Tracker.slotFor_holding w.engine.tracker rule
  cases held : w.engine.tracker.held rule with
  | none => rfl
  | some h =>
    obtain ⟨state, outbox, retired⟩ := h
    rw [held, Option.getD_some] at holding
    obtain rfl : [] = outbox := idle.symm.trans (congrArg Holding.outbox holding)
    have stays : (w.account rule).retired = false := Bool.eq_false_iff.mpr fun retired => tidy rfl retired idle
    obtain rfl : false = retired := stays.symm.trans (congrArg Holding.retired holding)
    rfl

theorem World.outbox_of_cleared {h : Option Holding}
    (cleared : w.engine.tracker.held rule = h.bind Holding.cleared) : (w.account rule).outbox = [] := by
  rw [account_outbox, View.outbox, View.holding, show w.view.held rule = _ from cleared]
  cases h with
  | none => rfl
  | some h =>
    rw [Option.bind_some, Holding.cleared]
    split <;> rfl

/-- The rules are worked off one after the other. -/
theorem accepted_retryRules (coherent : w.engine.tracker.Coherent) {rules : List RuleId} (distinct : rules.Nodup)
    (due : ∀ rule ∈ rules, ∀ d ∈ (w.account rule).outbox, d.isDue w.clock = true) (report : RetryReport) :
    (retryRules rules report : Prog T _).Accepted task w fun report' w' news =>
      w.Cleared rules w' ∧ news = Event.roundTrips (rules.flatMap w.backlog) ∧
        report' = report.gain (rules.flatMap w.backlog) := by
  induction rules generalizing w report with
  | nil =>
    refine Prog.accepted_pure ⟨⟨coherent, fun rule => rfl, fun rule => ?_, Nat.le_refl _⟩, rfl, rfl⟩
    exact (and_iff_left List.not_mem_nil).symm
  | cons rule rest ih =>
    obtain ⟨absent, distinct⟩ := List.nodup_cons.mp distinct
    obtain ⟨first, due⟩ := List.forall_mem_cons.mp due
    refine Prog.accepted_bind (accepted_retryRule coherent first report) (grows_retryRules rest) ?_
    rintro report' w₁ news ⟨cleared, rfl, rfl⟩
    have apart {rule'} (mem : rule' ∈ rest) : rule' ∉ [rule] := fun here => absent (List.mem_singleton.mp here ▸ mem)
    have kept {rule'} (mem : rule' ∈ rest) : (w₁.account rule').outbox = (w.account rule').outbox :=
      World.outbox_of_held (by rw [cleared.held, if_neg (apart mem)])
    have ready : ∀ rule' ∈ rest, ∀ d ∈ (w₁.account rule').outbox, d.isDue w₁.clock = true := fun rule' mem d waits =>
      Delivery.isDue_of_le (due rule' mem d (kept mem ▸ waits)) cleared.clock
    have backlogs : rest.flatMap w₁.backlog = rest.flatMap w.backlog :=
      List.flatMap_congr fun rule' mem => congrArg (List.map Delivery.event) (kept mem)
    refine (ih cleared.coherent distinct ready _).imp ?_
    rintro report'' w₂ news ⟨cleared', rfl, rfl⟩
    rw [backlogs, List.flatMap_cons]
    refine ⟨⟨cleared'.coherent, fun rule' => ?_, fun rule' => ?_, Nat.le_trans cleared.clock cleared'.clock⟩, ?_, ?_⟩
    · rw [cleared'.held, cleared.held]
      by_cases same : rule' = rule
      · subst same
        rw [if_neg absent, if_pos List.mem_cons_self, if_pos List.mem_cons_self]
      · simp only [List.mem_cons, same, false_or, List.not_mem_nil, if_false]
    · rw [cleared'.marks, cleared.marks, and_assoc, List.mem_singleton, List.mem_cons, not_or]
    · rw [Event.roundTrips_append]
    · rw [RetryReport.gain_append]

theorem accepted_retry (coherent : w.engine.tracker.Coherent)
    (due : ∀ rule, ∀ d ∈ (w.account rule).outbox, d.isDue w.clock = true) :
    (retry : Prog T _).Accepted task w fun report w' news =>
      let rules := w.engine.tracker.backlogged.toList
      w.Cleared rules w' ∧ news = Event.roundTrips (rules.flatMap w.backlog) ∧
        report = RetryReport.gain {} (rules.flatMap w.backlog) := by
  have distinct : w.engine.tracker.backlogged.toList.Nodup :=
    Std.TreeSet.distinct_toList.imp fun apart same => apart (Std.compare_eq_iff_eq.mpr same)
  exact Prog.accepted_read (accepted_retryRules coherent distinct (fun rule _ => due rule) {})

end Clearing

/-- However calls, answers and changes from outside were interleaved on a new engine: once all calls have come to
their end and the front of every outbox is due, one retry pass whose calls to the sink are all accepted sends what
waits for each rule once, in order. Afterwards nothing waits and no rule is marked; the slots of rules that are gone
are gone, and all others hold what they held. -/
theorem Scene.retry_clears {w : World} {s : Scene} (begins : w.Begins)
    (run : Scene.Run (Call.Admitted .mixed) World.Elsewhere { world := w } s) (finished : s.AllFinished)
    (due : ∀ rule, ∀ front ∈ (s.world.account rule).outbox.head?, front.isDue s.world.clock = true) :
    ∃ w' report news, s.world.call .retry = (w', .retried report) ∧ w'.journal = news ++ s.world.journal ∧
      (Happening.AllAccepted news →
        (∃ sent, w'.sent = s.world.sent ++ sent ∧ ∀ rule, sent.filter (·.ruleId = rule) = s.world.backlog rule) ∧
        (∀ rule, (w'.account rule).outbox = [] ∧ rule ∉ w'.engine.tracker.backlogged) ∧
        (∀ rule, w'.engine.tracker.held rule = (s.world.engine.tracker.held rule).bind Holding.cleared) ∧
        report =
          { attempted := s.world.engine.tracker.summary.pendingDeliveries
            delivered := s.world.engine.tracker.summary.pendingDeliveries }) := by
  have start : Scene.Sound .mixed (World.Backlogged w.engine.policy) { world := w } (fun _ => .free) fun _ => none :=
    Scene.sound_begins begins begins.backlogged
  obtain ⟨st, holders, sound⟩ := start.run (kept_backlogged .mixed _) (bears_backlogged _) run (by simp)
  obtain ⟨-, banked, tallies, -⟩ := sound.property
  have tagged := sound.orderly.tagged
  have tidy := sound.orderly.tidy
  rw [sound.nobody finished] at banked tallies tagged tidy
  -- Whatever is behind the front was not tried yet, so that it is due if the front is.
  have ready (rule : RuleId) : ∀ d ∈ (s.world.account rule).outbox, d.isDue s.world.clock = true := by
    intro d mem
    cases waits : (s.world.account rule).outbox with
    | nil => exact absurd (waits ▸ mem) List.not_mem_nil
    | cons front rest =>
      rcases List.mem_cons.mp (waits ▸ mem) with rfl | behind
      · exact due rule d (by rw [waits]; rfl)
      · exact sound.orderly.ripe rule d mem ((banked rule).behind d (by rw [waits]; exact behind))
  have marked (rule : RuleId) : rule ∈ s.world.engine.tracker.backlogged ↔ (s.world.account rule).outbox ≠ [] :=
    ⟨(tallies rule).waits (by simp), (tallies rule).marked⟩
  have accepted : (retry : Prog Visit _).Accepted Visit.run s.world _ := accepted_retry sound.orderly.coherent ready
  obtain ⟨news, grown, clears⟩ := accepted
  have ran : s.world.call .retry = (_, .retried _) := Prog.run_bind retry _ s.world
  refine ⟨_, _, news, ran, grown, fun accepted => ?_⟩
  obtain ⟨cleared, rfl, report⟩ := clears accepted
  let rules := s.world.engine.tracker.backlogged.toList
  have mem_rules (rule : RuleId) : rule ∈ rules ↔ (s.world.account rule).outbox ≠ [] :=
    Std.TreeSet.mem_toList.trans (marked rule)
  have distinct : rules.Nodup :=
    Std.TreeSet.distinct_toList.imp fun apart same => apart (Std.compare_eq_iff_eq.mpr same)
  have parts (rule : RuleId) : (rules.flatMap s.world.backlog).filter (·.ruleId = rule) = s.world.backlog rule := by
    rw [World.backlogs_of_rule tagged distinct]
    split
    · rfl
    · next absent => rw [World.backlog, Classical.not_not.mp (mt (mem_rules rule).mpr absent), List.map_nil]
  have count : (rules.flatMap s.world.backlog).length = s.world.engine.tracker.summary.pendingDeliveries := by
    rw [World.pendingDeliveries_summary]
    refine (perm_of_parts Event.ruleId fun rule => ?_).length_eq
    rw [parts, World.waiting_of_rule tagged]
  have held (rule : RuleId) : _ = (s.world.engine.tracker.held rule).bind Holding.cleared :=
    (cleared.held rule).trans (ite_eq_left_iff.mpr fun absent =>
      World.cleared_of_idle (tidy rule) (Classical.not_not.mp (mt (mem_rules rule).mpr absent)))
  refine ⟨⟨_, World.sent_of_roundTrips grown, parts⟩, fun rule => ⟨World.outbox_of_cleared (held rule), ?_⟩, held, ?_⟩
  · exact fun stays => ((cleared.marks rule).mp stays).2 (Std.TreeSet.mem_toList.mpr ((cleared.marks rule).mp stays).1)
  · rw [report, RetryReport.gain, count, Nat.zero_add]

/-- The rules are edited from outside. -/
def Scene.edit (s : Scene) (edit : RuleSource.Edit) : Scene :=
  { s with world := s.world.editSource edit }

/-- The sink is back, and a minute passes. -/
def Scene.backLater (s : Scene) : Scene :=
  { s with world := { s.world with sink := {}, clock := s.world.clock + .ofSeconds 60 } }

theorem Scene.run_edit {admitted : Call → Prop} (s : Scene) (edit : RuleSource.Edit) :
    Scene.Run admitted World.Elsewhere s (s.edit edit) :=
  .single (.outside (World.Outage.edit edit).apart.1)

theorem Scene.run_backLater {admitted : Call → Prop} (s : Scene) :
    Scene.Run admitted World.Elsewhere s s.backLater :=
  .single (.outside ⟨s.world.source, {}, s.world.clock + .ofSeconds 60, s.world.calendar, s.world.jitter,
    s.world.lulls, s.world.woken, Nat.le_add_right _ _, rfl⟩)

/-- While the sink is away two rules open, and one of them is removed; the sink is back, and a minute later what waits
is tried again: three events arrive, the slot of the removed rule goes, and the other rule stays open. -/
theorem Scene.retry_clears_after_outage :
    let hot : Rule := { Rule.highLoad with id := "high-heat", metricKey := "heat" }
    let w : World := { World.watched { workers := 1 } .away with source := { contents := .listed [.highLoad, hot] } }
    let opened := ((Scene.make { world := w } .refresh).make (.sample "load" 95 default)).make (.sample "heat" 95 default)
    let s := ((opened.edit (.setList [.highLoad])).make .refresh).backLater
    ((s.world.account "high-heat").retired = true ∧ (s.world.account "high-heat").outbox.length = 2) ∧
      ∃ w', s.world.call .retry = (w', .retried { attempted := 3, delivered := 3 }) ∧
        w'.engine.tracker.held "high-heat" = none ∧ (w'.engine.tracker.held "high-load").isSome = true ∧
        ∀ rule, (w'.account rule).outbox = [] := by
  intro hot w opened s
  have begins : w.Begins := ⟨⟨_, rfl⟩, rfl⟩
  have run : Scene.Run (Call.Admitted .mixed) World.Elsewhere { world := w } s :=
    (((((Scene.run_make _ nofun).trans (Scene.run_make _ nofun)).trans (Scene.run_make _ nofun)).trans
      (Scene.run_edit _ _)).trans (Scene.run_make _ nofun)).trans (Scene.run_backLater _)
  have finished : s.AllFinished := Scene.allFinished_of_results (by decide +kernel)
  have tracked : s.world.engine.tracker.ruleIds = ["high-heat", "high-load"] := by decide +kernel
  have due : ∀ rule, ∀ front ∈ (s.world.account rule).outbox.head?, front.isDue s.world.clock = true := by
    intro rule
    by_cases mem : rule ∈ s.world.engine.tracker.ruleIds
    · revert rule
      rw [tracked]
      decide +kernel
    · rw [(World.account_of_untracked mem).1]
      exact fun front first => absurd first (Option.not_mem_none front)
  obtain ⟨w', report, news, ran, grown, clears⟩ := Scene.retry_clears begins run finished due
  have last : w' = (s.world.call .retry).1 := (congrArg Prod.fst ran).symm
  have told : news = w'.journal.take 6 := by
    have length : w'.journal.length = 6 + s.world.journal.length := by
      rw [last]
      decide +kernel
    rw [grown, List.length_append, Nat.add_right_cancel_iff] at length
    rw [grown, ← length, List.take_left']
    rfl
  have accepted : Happening.AllAccepted news := by
    rw [told, last]
    decide +kernel
  obtain ⟨-, empty, held, rfl⟩ := clears accepted
  have waiting : s.world.engine.tracker.summary.pendingDeliveries = 3 := by decide +kernel
  rw [waiting] at ran
  refine ⟨by decide +kernel, w', ran, ?_, ?_, fun rule => (empty rule).1⟩
  · rw [held]
    decide +kernel
  · rw [held]
    decide +kernel

end ThresholdAlerts
