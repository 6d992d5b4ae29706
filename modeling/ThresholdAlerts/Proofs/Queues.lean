import Mathlib.Logic.Function.Basic
import ThresholdAlerts.Proofs.Slots
/-! Queueing for slots. Main statements: calls that queue for slots, take them and let go of them keep
a tracker coherent; they respect the places of all others, in the queues and at their heads; and what
a slot holds changes only when it is detached, with nothing left in its outbox. -/
namespace ThresholdAlerts.Tracker

def queues (t : Tracker) (id : SlotId) : List Ticket :=
  (t.slot id).queue

/-- No id of a slot is used a second time. -/
structure Ages (t t' : Tracker) : Prop where
  nextSlot : t.nextSlot ≤ t'.nextSlot
  gone : ∀ {id : SlotId}, id < t.nextSlot → t.slots[id]? = none → t'.slots[id]? = none

theorem Ages.refl (t : Tracker) : t.Ages t :=
  ⟨Nat.le_refl _, fun _ gone => gone⟩

theorem Ages.trans {t₁ t₂ t₃ : Tracker} (h : t₁.Ages t₂) (h' : t₂.Ages t₃) : t₁.Ages t₃ :=
  ⟨Nat.le_trans h.nextSlot h'.nextSlot, fun below gone =>
    h'.gone (Nat.lt_of_lt_of_le below h.nextSlot) (h.gone below gone)⟩

/-- The places that others than the owner of `ticket` have in the queues stay theirs, and what they
hold stays as it is. -/
structure Respects (ticket : Ticket) (t t' : Tracker) : Prop where
  waits : ∀ {id : SlotId} {s : Slot} {u : Ticket}, t.slots[id]? = some s → u ∈ s.queue → u ≠ ticket →
    ∃ s' : Slot, t'.slots[id]? = some s' ∧ s'.ruleId = s.ruleId ∧ u ∈ s'.queue
  holds : ∀ {id : SlotId} {s : Slot} {u : Ticket}, t.slots[id]? = some s → s.queue.head? = some u →
    u ≠ ticket → ∃ s' : Slot, t'.slots[id]? = some s' ∧ s'.queue.head? = some u ∧ s.Alike s'
  found : ∀ {rule : RuleId} {id : SlotId} {s : Slot} {u : Ticket}, t.find? rule = some id →
    t.slots[id]? = some s → s.queue.head? = some u → u ≠ ticket → t'.find? rule = some id
  ages : t.Ages t'

variable {t t' t₁ t₂ t₃ : Tracker} {ticket : Ticket} {id : SlotId} {s : Slot} {rule : RuleId}

theorem Respects.refl (ticket : Ticket) (t : Tracker) : t.Respects ticket t :=
  ⟨fun got mem _ => ⟨_, got, rfl, mem⟩, fun got head _ => ⟨_, got, head, .refl _⟩,
    fun found _ _ _ => found, .refl t⟩

theorem Respects.trans (h : t₁.Respects ticket t₂) (h' : t₂.Respects ticket t₃) :
    t₁.Respects ticket t₃ := by
  refine ⟨fun got mem ne => ?_, fun got head ne => ?_, fun found got head ne => ?_,
    h.ages.trans h'.ages⟩
  · obtain ⟨s₂, got₂, rule₂, mem₂⟩ := h.waits got mem ne
    obtain ⟨s₃, got₃, rule₃, mem₃⟩ := h'.waits got₂ mem₂ ne
    exact ⟨s₃, got₃, rule₃.trans rule₂, mem₃⟩
  · obtain ⟨s₂, got₂, head₂, alike₂⟩ := h.holds got head ne
    obtain ⟨s₃, got₃, head₃, alike₃⟩ := h'.holds got₂ head₂ ne
    exact ⟨s₃, got₃, head₃, alike₂.trans alike₃⟩
  · obtain ⟨s₂, got₂, head₂, -⟩ := h.holds got head ne
    exact h'.found (h.found found got head ne) got₂ head₂ ne

/-- If one slot changes, only that one has to be looked at. -/
theorem Respects.of_one (got : t.slots[id]? = some s)
    (others : ∀ {id' : SlotId}, id' ≠ id → t'.slots[id']? = t.slots[id']?)
    (waits : ∀ {u : Ticket}, u ∈ s.queue → u ≠ ticket →
      ∃ s' : Slot, t'.slots[id]? = some s' ∧ s'.ruleId = s.ruleId ∧ u ∈ s'.queue)
    (holds : ∀ {u : Ticket}, s.queue.head? = some u → u ≠ ticket →
      ∃ s' : Slot, t'.slots[id]? = some s' ∧ s'.queue.head? = some u ∧ s.Alike s')
    (found : ∀ {rule : RuleId} {id' : SlotId} {s' : Slot} {u : Ticket}, t.find? rule = some id' →
      t.slots[id']? = some s' → s'.queue.head? = some u → u ≠ ticket → t'.find? rule = some id')
    (nextSlot : t'.nextSlot = t.nextSlot) : t.Respects ticket t' := by
  refine ⟨fun {id₁ s₁ u} got₁ mem ne => ?_, fun {id₁ s₁ u} got₁ head ne => ?_, found,
    Nat.le_of_eq nextSlot.symm, fun {id₁} _ gone => ?_⟩
  · by_cases same : id₁ = id
    · subst same
      obtain rfl : s = s₁ := Option.some.inj (got.symm.trans got₁)
      exact waits mem ne
    · exact ⟨s₁, (others same).trans got₁, rfl, mem⟩
  · by_cases same : id₁ = id
    · subst same
      obtain rfl : s = s₁ := Option.some.inj (got.symm.trans got₁)
      exact holds head ne
    · exact ⟨s₁, (others same).trans got₁, head, .refl _⟩
  · have ne : id₁ ≠ id := fun same => by
      rw [same, got] at gone
      exact absurd gone (by simp)
    exact (others ne).trans gone

/-- Whoever holds a slot may change it. -/
theorem Rewrites.respects (h : t.Rewrites id t') (head : (t.slot id).queue.head? = some ticket) :
    t.Respects ticket t' := by
  have there := get_of_head head
  obtain ⟨s', got', ruleId, -, queue, -⟩ := h.own there
  refine .of_one there h.others (fun mem _ => ?_) (fun head' ne => ?_)
    (fun found _ _ _ => (h.find? _).trans found) h.nextSlot
  · exact ⟨s', got', ruleId, queue ▸ mem⟩
  · exact absurd (Option.some.inj (head'.symm.trans head)) ne

theorem queues_update (t : Tracker) (id : SlotId) (f : Slot → Slot) :
    (t.update id f).queues = Function.update t.queues id (f (t.slot id)).queue := by
  funext id'
  by_cases same : id' = id
  · subst same
    rw [Function.update_self, queues, slot_update]
  · rw [Function.update_of_ne same, queues, queues, slot_update_other t f same]

theorem Rewrites.queues (h : t.Rewrites id t') (there : t.slots[id]? = some s) : t'.queues = t.queues := by
  funext id'
  by_cases same : id' = id
  · subst same
    exact h.queue there
  · exact congrArg Slot.queue (h.slot same)

/-! ### Making slots -/

theorem ensure_of_find (h : t.find? rule = some id) : t.ensure rule = (t, id) := by
  rw [ensure, h]

theorem ensure_of_absent (h : t.find? rule = none) :
    t.ensure rule = ({ t with
      slots := t.slots.insert t.nextSlot (Slot.initial rule)
      index := t.index.insert rule t.nextSlot
      nextSlot := t.nextSlot + 1 }, t.nextSlot) := by
  rw [ensure, h]

theorem find?_ensure (t : Tracker) (rule : RuleId) :
    (t.ensure rule).1.find? rule = some (t.ensure rule).2 := by
  cases h : t.find? rule with
  | some id => rw [ensure_of_find h, h]
  | none => rw [ensure_of_absent h]; simp [find?]

theorem find?_ensure_other (t : Tracker) {rule rule' : RuleId} (ne : rule' ≠ rule) :
    (t.ensure rule).1.find? rule' = t.find? rule' := by
  cases h : t.find? rule with
  | some id => rw [ensure_of_find h]
  | none =>
      rw [ensure_of_absent h]
      simp [find?, Std.TreeMap.getElem?_insert, ne.symm]

theorem get_ensure (c : t.Coherent) (got : t.slots[id]? = some s) :
    (t.ensure rule).1.slots[id]? = some s := by
  cases h : t.find? rule with
  | some id => rw [ensure_of_find h, got]
  | none =>
      have ne : t.nextSlot ≠ id := (Nat.ne_of_lt (c.below got)).symm
      rw [ensure_of_absent h]
      simp [Std.TreeMap.getElem?_insert, ne, got]

theorem coherent_ensure (c : t.Coherent) : (t.ensure rule).1.Coherent := by
  cases h : t.find? rule with
  | some id => rw [ensure_of_find h]; exact c
  | none =>
      have unused {id : SlotId} {s : Slot} (got : t.slots[id]? = some s) : t.nextSlot ≠ id :=
        (Nat.ne_of_lt (c.below got)).symm
      rw [ensure_of_absent h]
      constructor
      · intro rule' id found
        simp only [find?, Std.TreeMap.get?_eq_getElem?, Std.TreeMap.getElem?_insert,
          Std.compare_eq_iff_eq] at found ⊢
        split at found
        · next same =>
          obtain rfl := Option.some.inj found
          exact ⟨Slot.initial rule, by simp, same, rfl⟩
        · obtain ⟨s, got, named, attached⟩ := c.found found
          exact ⟨s, by simp [unused got, got], named, attached⟩
      · intro id s got
        simp only [Std.TreeMap.getElem?_insert, Std.compare_eq_iff_eq] at got
        split at got
        · obtain rfl := Option.some.inj got
          rfl
        · exact c.named got
      · intro id s got attached
        simp only [find?, Std.TreeMap.get?_eq_getElem?, Std.TreeMap.getElem?_insert,
          Std.compare_eq_iff_eq] at got ⊢
        split at got
        · next same =>
          obtain rfl := Option.some.inj got
          simp [Slot.initial, same]
        · have kept := c.kept got attached
          have ne : rule ≠ s.ruleId := fun same => by
            rw [same, kept] at h
            exact absurd h (by simp)
          rw [if_neg ne]
          exact kept
      · intro id s got
        simp only [Std.TreeMap.getElem?_insert, Std.compare_eq_iff_eq] at got
        split at got
        · next same => exact same ▸ Nat.lt_succ_self _
        · exact Nat.lt_succ_of_lt (c.below got)

theorem ages_ensure (t : Tracker) (rule : RuleId) : t.Ages (t.ensure rule).1 := by
  cases h : t.find? rule with
  | some id =>
      rw [ensure_of_find h]
      exact .refl t
  | none =>
      rw [ensure_of_absent h]
      refine ⟨Nat.le_succ _, fun below gone => ?_⟩
      simp [Std.TreeMap.getElem?_insert, (Nat.ne_of_lt below).symm, gone]

theorem respects_ensure (c : t.Coherent) : t.Respects ticket (t.ensure rule).1 := by
  refine ⟨fun got mem _ => ⟨_, get_ensure c got, rfl, mem⟩,
    fun got head _ => ⟨_, get_ensure c got, head, .refl _⟩, fun {rule' _ _ _} found _ _ _ => ?_,
    ages_ensure t rule⟩
  by_cases same : rule' = rule
  · subst same
    rw [ensure_of_find found, found]
  · rw [find?_ensure_other t same, found]

theorem slotFor_ensure (c : t.Coherent) (rule' : RuleId) :
    (t.ensure rule).1.slotFor rule' = t.slotFor rule' := by
  cases h : t.find? rule with
  | some id => rw [ensure_of_find h]
  | none =>
      by_cases same : rule' = rule
      · subst same
        rw [slotFor_of_absent h, slotFor_of_find (find?_ensure t rule'), ensure_of_absent h]
        exact slot_of_get (by simp)
      · have others := find?_ensure_other t same
        cases found : t.find? rule' with
        | none => rw [slotFor_of_absent found, slotFor_of_absent (others.trans found)]
        | some id =>
            rw [slotFor_of_find found, slotFor_of_find (others.trans found)]
            exact slot_of_get (get_ensure c (c.get found))

theorem queues_ensure (c : t.Coherent) (rule : RuleId) : (t.ensure rule).1.queues = t.queues := by
  cases h : t.find? rule with
  | some id => rw [ensure_of_find h]
  | none =>
      rw [ensure_of_absent h]
      funext id
      rw [queues, queues, slot, slot, Std.TreeMap.getD_eq_getD_getElem?, Std.TreeMap.getD_eq_getD_getElem?,
        Std.TreeMap.getElem?_insert]
      split
      · next same =>
        rw [← Std.compare_eq_iff_eq.mp same, c.unused]
        rfl
      · rfl

/-! ### Joining and leaving queues -/

theorem queues_join (t : Tracker) (id : SlotId) (ticket : Ticket) :
    (t.join id ticket).queues = Function.update t.queues id (t.queues id ++ [ticket]) :=
  queues_update t id _

theorem resembles_update (got : t.slots[id]? = some s) (f : Slot → Slot)
    (keeps : (f s).ruleId = s.ruleId ∧ (f s).detached = s.detached ∧ (f s).state = s.state) :
    t.Resembles (t.update id f) := by
  have same := slot_of_get got
  have own : (t.update id f).slots[id]? = some (f s) := by rw [get_update, if_pos rfl, same]
  have others {id' : SlotId} (ne : id' ≠ id) : (t.update id f).slots[id']? = t.slots[id']? := by
    rw [get_update, if_neg ne.symm]
  refine .of_one got rfl rfl others (fun {s₁} got₁ => ?_) fun attached => ?_
  · obtain rfl : f s = s₁ := Option.some.inj (own.symm.trans got₁)
    exact ⟨keeps.1, keeps.2.1, by rw [keeps.2.2]⟩
  · exact ⟨f s, own, keeps.1, keeps.2.1.trans attached⟩

theorem slotFor_alike (found : ∀ rule, t'.find? rule = t.find? rule)
    (alike : ∀ {rule : RuleId} {id : SlotId}, t.find? rule = some id → (t.slot id).Alike (t'.slot id))
    (rule : RuleId) : (t.slotFor rule).Alike (t'.slotFor rule) := by
  cases h : t.find? rule with
  | none =>
      rw [slotFor_of_absent h, slotFor_of_absent ((found rule).trans h)]
      exact .refl _
  | some id =>
      rw [slotFor_of_find h, slotFor_of_find ((found rule).trans h)]
      exact alike h

theorem get_join (t : Tracker) (id : SlotId) (ticket : Ticket) :
    (t.join id ticket).slots[id]? = some { t.slot id with queue := (t.slot id).queue ++ [ticket] } := by
  rw [join, get_update, if_pos rfl]

theorem get_join_other (t : Tracker) {id id' : SlotId} (ticket : Ticket) (ne : id ≠ id') :
    (t.join id ticket).slots[id']? = t.slots[id']? := by
  rw [join, get_update, if_neg ne]

theorem coherent_join (c : t.Coherent) (got : t.slots[id]? = some s) :
    (t.join id ticket).Coherent :=
  (resembles_update got _ ⟨rfl, rfl, rfl⟩).coherent c

theorem respects_join (got : t.slots[id]? = some s) : t.Respects ticket (t.join id ticket) := by
  have same := slot_of_get got
  have own := get_join t id ticket
  rw [same] at own
  refine .of_one got (fun ne => get_join_other t ticket ne.symm) (fun mem _ => ?_) (fun head _ => ?_)
    (fun found _ _ _ => found) rfl
  · exact ⟨_, own, rfl, List.mem_append_left _ mem⟩
  · refine ⟨_, own, ?_, rfl, rfl, rfl⟩
    rw [List.head?_append, head, Option.some_or]

theorem slotFor_join (c : t.Coherent) (id : SlotId) (ticket : Ticket) (rule : RuleId) :
    (t.slotFor rule).Alike ((t.join id ticket).slotFor rule) := by
  refine slotFor_alike ?_ (fun {rule' id'} found => ?_) rule
  · exact find?_update t id _
  by_cases here : id = id'
  · subst here
    rw [slot_of_get (get_join t id ticket)]
    exact ⟨rfl, rfl, rfl⟩
  · rw [slot_of_get ((get_join_other t ticket here).trans (c.get found))]
    exact .refl _

theorem get_leave_other (t : Tracker) {id id' : SlotId} (ne : id ≠ id') :
    (t.leave id).slots[id']? = t.slots[id']? := by
  rw [leave]
  split
  · simp [Std.TreeMap.getElem?_erase, ne]
  · rw [get_update, if_neg ne]

theorem get_leave (stays : (t.slot id).detached = false ∨ 1 < (t.slot id).queue.length) :
    (t.leave id).slots[id]? = some { t.slot id with queue := (t.slot id).queue.tail } := by
  have busy : ((t.slot id).detached && decide ((t.slot id).queue.length ≤ 1)) = false := by
    rcases stays with attached | waited
    · rw [attached, Bool.false_and]
    · rw [decide_eq_false (Nat.not_le_of_lt waited), Bool.and_false]
  simp [leave, busy, get_update]

theorem get_leave_back (t : Tracker) (id : SlotId) {s' : Slot}
    (got : (t.leave id).slots[id]? = some s') :
    s' = { t.slot id with queue := (t.slot id).queue.tail } := by
  rw [leave] at got
  split at got
  · simp at got
  · rw [get_update, if_pos rfl] at got
    exact (Option.some.inj got).symm

@[simp] theorem find?_leave (t : Tracker) (id : SlotId) (rule : RuleId) :
    (t.leave id).find? rule = t.find? rule := by
  rw [leave]
  split <;> rfl

@[simp] theorem nextSlot_leave (t : Tracker) (id : SlotId) : (t.leave id).nextSlot = t.nextSlot := by
  rw [leave]
  split <;> rfl

theorem resembles_leave (got : t.slots[id]? = some s) : t.Resembles (t.leave id) := by
  have same := slot_of_get got
  refine .of_one got ?_ (nextSlot_leave t id) (fun ne => get_leave_other t ne.symm)
    (fun {s₁} got₁ => ?_) fun attached => ?_
  · rw [leave]
    split <;> rfl
  · obtain rfl := get_leave_back t id got₁
    rw [same]
    exact ⟨rfl, rfl, rfl⟩
  · exact ⟨_, get_leave (.inl (same.symm ▸ attached)), by rw [same], by rw [same, attached]⟩

theorem respects_leave (head : (t.slot id).queue.head? = some ticket) :
    t.Respects ticket (t.leave id) := by
  have got := get_of_head head
  obtain ⟨rest, queue⟩ : ∃ rest, (t.slot id).queue = ticket :: rest := by
    cases h : (t.slot id).queue with
    | nil => rw [h] at head; exact absurd head (by simp)
    | cons u rest =>
        rw [h, List.head?_cons] at head
        exact ⟨rest, by rw [Option.some.inj head]⟩
  refine .of_one got (fun ne => get_leave_other t ne.symm) (fun {u} mem ne => ?_) (fun head' ne => ?_)
    (fun found _ _ _ => (find?_leave t id _).trans found) (nextSlot_leave t id)
  · rw [queue] at mem
    have later : u ∈ rest := (List.mem_cons.mp mem).resolve_left ne
    refine ⟨_, get_leave (.inr ?_), rfl, ?_⟩
    · rw [queue, List.length_cons]
      exact Nat.succ_lt_succ (List.length_pos_of_mem later)
    · rw [queue]
      exact later
  · exact absurd (Option.some.inj (head'.symm.trans head)) ne

theorem slotFor_leave (c : t.Coherent) (id : SlotId) (rule : RuleId) :
    (t.slotFor rule).Alike ((t.leave id).slotFor rule) := by
  refine slotFor_alike (find?_leave t id) (fun {rule' id'} found => ?_) rule
  by_cases here : id = id'
  · subst here
    rw [slot_of_get (get_leave (.inl (c.attached found)))]
    exact ⟨rfl, rfl, rfl⟩
  · rw [slot_of_get ((get_leave_other t here).trans (c.get found))]
    exact .refl _

/-! ### Queueing as a whole -/

/-- No rule is marked as backlogged anew, and one that is tracked keeps its mark. -/
structure KeepsMarks (t t' : Tracker) : Prop where
  fewer : ∀ {rule : RuleId}, rule ∈ t'.backlogged → rule ∈ t.backlogged
  keeps : ∀ {rule : RuleId} {id : SlotId}, t.find? rule = some id → rule ∈ t.backlogged → rule ∈ t'.backlogged

theorem KeepsMarks.of_same (same : t'.backlogged = t.backlogged) : t.KeepsMarks t' :=
  ⟨fun marked => same ▸ marked, fun _ marked => same ▸ marked⟩

theorem KeepsMarks.refl (t : Tracker) : t.KeepsMarks t := .of_same rfl

theorem keepsMarks_unmark (absent : t.find? rule = none) : t.KeepsMarks (t.unmarkBacklogged rule) := by
  refine ⟨fun marked => (Std.TreeSet.mem_erase.mp marked).2, fun {rule' id} found marked => ?_⟩
  have ne : rule ≠ rule' := fun same => by
    rw [same, found] at absent
    exact absurd absent (by simp)
  exact Std.TreeSet.mem_erase.mpr ⟨by simpa using ne, marked⟩

/-- Queues move and new slots may be made; what the slots of the rules hold stays. -/
structure Shifts (ticket : Ticket) (t t' : Tracker) : Prop where
  coherent : t'.Coherent
  respects : t.Respects ticket t'
  alike : ∀ rule, (t.slotFor rule).Alike (t'.slotFor rule)
  stays : ∀ {rule : RuleId} {id : SlotId}, t.find? rule = some id → t'.find? rule = some id
  marks : t.KeepsMarks t'

theorem Shifts.refl (ticket : Ticket) (c : t.Coherent) : t.Shifts ticket t :=
  ⟨c, .refl ticket t, fun _ => .refl _, fun found => found, .refl t⟩

theorem Shifts.trans (h : t₁.Shifts ticket t₂) (h' : t₂.Shifts ticket t₃) : t₁.Shifts ticket t₃ :=
  ⟨h'.coherent, h.respects.trans h'.respects, fun rule => (h.alike rule).trans (h'.alike rule),
    fun found => h'.stays (h.stays found), fun marked => h.marks.fewer (h'.marks.fewer marked),
    fun found marked => h'.marks.keeps (h.stays found) (h.marks.keeps found marked)⟩

theorem backlogged_ensure (t : Tracker) (rule : RuleId) : (t.ensure rule).1.backlogged = t.backlogged := by
  cases h : t.find? rule with
  | some id => rw [ensure_of_find h]
  | none => rw [ensure_of_absent h]

theorem backlogged_leave (t : Tracker) (id : SlotId) : (t.leave id).backlogged = t.backlogged := by
  rw [leave]
  split <;> rfl

/-- Nobody waits for a slot that is forgotten. -/
theorem queues_leave (t : Tracker) (id : SlotId) :
    (t.leave id).queues = Function.update t.queues id (t.queues id).tail := by
  rw [leave]
  split
  · next alone =>
    have last : (t.queues id).tail = [] := by
      rw [Bool.and_eq_true, decide_eq_true_eq] at alone
      exact List.eq_nil_of_length_eq_zero (by rw [List.length_tail]; exact Nat.sub_eq_zero_of_le alone.2)
    rw [last]
    funext id'
    rw [queues, slot, Std.TreeMap.getD_eq_getD_getElem?, Std.TreeMap.getElem?_erase]
    by_cases same : id' = id
    · subst same
      rw [Function.update_self, if_pos (by simp)]
      rfl
    · rw [Function.update_of_ne same, if_neg (by simpa using Ne.symm same), queues, slot,
        Std.TreeMap.getD_eq_getD_getElem?]
  · exact queues_update t id _

theorem shifts_ensure (c : t.Coherent) : t.Shifts ticket (t.ensure rule).1 := by
  refine ⟨coherent_ensure c, respects_ensure c, fun rule' => ?_, fun {rule' id} found => ?_,
    .of_same (backlogged_ensure t rule)⟩
  · rw [slotFor_ensure c]
    exact .refl _
  · by_cases same : rule' = rule
    · subst same
      rw [ensure_of_find found]
      exact found
    · rw [find?_ensure_other t same, found]

theorem shifts_join (c : t.Coherent) (got : t.slots[id]? = some s) :
    t.Shifts ticket (t.join id ticket) :=
  ⟨coherent_join c got, respects_join got, slotFor_join c id ticket, fun found => found, .of_same rfl⟩

theorem shifts_leave (c : t.Coherent) (head : (t.slot id).queue.head? = some ticket) :
    t.Shifts ticket (t.leave id) :=
  ⟨(resembles_leave (get_of_head head)).coherent c, respects_leave head, slotFor_leave c id,
    fun found => (find?_leave t id _).trans found, .of_same (backlogged_leave t id)⟩

/-- A claim stands in the queue that it names. -/
structure Queued (t : Tracker) (c : Claim) : Prop where
  waits : ∃ s : Slot, t.slots[c.slot]? = some s ∧ s.ruleId = c.rule ∧ c.ticket ∈ s.queue

theorem Queued.respected {c : Claim} (h : t.Queued c) (r : t.Respects ticket t')
    (ne : c.ticket ≠ ticket) : t'.Queued c := by
  obtain ⟨s, got, named, mem⟩ := h.waits
  obtain ⟨s', got', named', mem'⟩ := r.waits got mem ne
  exact ⟨s', got', named'.trans named, mem'⟩

/-- What comes of a request for the slot of a rule. -/
structure Requested (ticket : Ticket) (rule : RuleId) (mode : Acquire) (t : Tracker)
    (result : Tracker × Option Claim) : Prop where
  shifts : t.Shifts ticket result.1
  claimed : ∀ {c : Claim}, result.2 = some c →
    c.ticket = ticket ∧ c.rule = rule ∧ c.mode = mode ∧ result.1.Queued c ∧
      result.1.find? rule = some c.slot
  absent : result.2 = none → mode = .existing ∧ result.1.find? rule = none
  queues : result.1.queues =
    result.2.elim t.queues fun c => Function.update t.queues c.slot (t.queues c.slot ++ [ticket])

theorem queued_join (got : t.slots[id]? = some s) (mode : Acquire) (named : s.ruleId = rule) :
    (t.join id ticket).Queued { ticket, rule, mode, slot := id } := by
  have own := get_join t id ticket
  rw [slot_of_get got] at own
  exact ⟨_, own, named, List.mem_append_right _ List.mem_cons_self⟩

theorem request_spec (c : t.Coherent) (ticket : Ticket) (rule : RuleId) (mode : Acquire) :
    t.Requested ticket rule mode (t.request ticket rule mode) := by
  cases mode with
  | create =>
      have made : t.Shifts ticket (t.ensure rule).1 := shifts_ensure c
      have found := find?_ensure t rule
      obtain ⟨s, got, named, -⟩ := made.coherent.found found
      refine ⟨made.trans (shifts_join made.coherent got), fun {c'} here => ?_, fun none => ?_, ?_⟩
      · obtain rfl := Option.some.inj here
        exact ⟨rfl, rfl, rfl, queued_join got .create named, found⟩
      · exact absurd none (by simp [request])
      · rw [← queues_ensure c rule]
        exact queues_join _ _ ticket
  | existing =>
      rw [request]
      cases found : t.find? rule with
      | none =>
          exact ⟨.refl ticket c, fun here => absurd here (by simp), fun _ => ⟨rfl, found⟩, rfl⟩
      | some id =>
          obtain ⟨s, got, named, -⟩ := c.found found
          refine ⟨shifts_join c got, fun {c'} here => ?_, fun none => absurd none (by simp), queues_join t id ticket⟩
          obtain rfl := Option.some.inj here
          exact ⟨rfl, rfl, rfl, queued_join got .existing named, found⟩

/-- Who has to wait for the slot of a rule asked for one that was there before. -/
theorem find?_of_waits (c : t.Coherent) {mode : Acquire} {claim : Claim}
    (made : (t.request ticket rule mode).2 = some claim) (waits : t.queues claim.slot ≠ []) :
    t.find? rule = some claim.slot := by
  cases found : t.find? rule with
  | some id =>
      cases mode with
      | create =>
          rw [request, ensure_of_find found] at made
          rw [← Option.some.inj made]
      | existing =>
          rw [request, found] at made
          rw [← Option.some.inj made]
  | none =>
      cases mode with
      | create =>
          rw [request, ensure_of_absent found] at made
          refine absurd ?_ waits
          rw [← Option.some.inj made, queues, slot, Std.TreeMap.getD_eq_getD_getElem?, c.unused]
          rfl
      | existing =>
          rw [request, found] at made
          exact absurd made (by simp)

/-! ### Letting go for good -/

def detach (t : Tracker) (id : SlotId) : Tracker :=
  { t with
    index := t.index.erase (t.slot id).ruleId
    backlogged := t.backlogged.erase (t.slot id).ruleId }.update id fun s =>
      { s with detached := true }

theorem release_of_spent (retired : (t.slot id).retired = true) (spent : (t.slot id).outbox = []) :
    t.release id = ((t.detach id).leave id, true) := by
  simp [release, detach, retired, spent]

theorem kept_of_unspent (unspent : ¬((t.slot id).retired = true ∧ (t.slot id).outbox = [])) :
    (t.slot id).retired = false ∨ (t.slot id).outbox ≠ [] :=
  (not_and_or.mp unspent).imp_left Bool.eq_false_iff.mpr

theorem release_of_kept (kept : (t.slot id).retired = false ∨ (t.slot id).outbox ≠ []) :
    t.release id = (t.leave id, false) := by
  rcases kept with kept | kept <;> simp [release, kept]

theorem get_detach (t : Tracker) (id : SlotId) :
    (t.detach id).slots[id]? = some { t.slot id with detached := true } := by
  rw [detach, get_update, if_pos rfl]
  rfl

theorem get_detach_other (t : Tracker) {id id' : SlotId} (ne : id ≠ id') :
    (t.detach id).slots[id']? = t.slots[id']? := by
  rw [detach, get_update, if_neg ne]

theorem slot_detach (t : Tracker) (id : SlotId) :
    (t.detach id).slot id = { t.slot id with detached := true } :=
  slot_of_get (get_detach t id)

theorem find?_detach (c : t.Coherent) (found : t.find? rule = some id) :
    (t.detach id).find? rule = none := by
  simp [detach, find?, update, c.ruleId found]

theorem find?_detach_other (c : t.Coherent) (found : t.find? rule = some id) {rule' : RuleId}
    (ne : rule' ≠ rule) : (t.detach id).find? rule' = t.find? rule' := by
  simp [detach, find?, update, c.ruleId found, Std.TreeMap.getElem?_erase, ne.symm]

theorem coherent_detach (c : t.Coherent) (found : t.find? rule = some id) :
    (t.detach id).Coherent := by
  have here := c.get found
  constructor
  · intro rule' id' found'
    have ne : rule' ≠ rule := fun same => by
      rw [same, find?_detach c found] at found'
      exact absurd found' (by simp)
    rw [find?_detach_other c found ne] at found'
    have apart : id ≠ id' := fun same => ne (c.injective found (same ▸ found'))
    rw [get_detach_other t apart]
    exact c.found found'
  · intro id' s' got
    by_cases same : id = id'
    · subst same
      rw [get_detach] at got
      obtain rfl := Option.some.inj got
      have named := c.named here
      exact named
    · rw [get_detach_other t same] at got
      exact c.named got
  · intro id' s' got attached
    by_cases same : id = id'
    · subst same
      rw [get_detach] at got
      obtain rfl := Option.some.inj got
      exact absurd attached (by simp)
    · rw [get_detach_other t same] at got
      have kept := c.kept got attached
      have ne : s'.ruleId ≠ rule := fun named =>
        same (Option.some.inj ((named ▸ found).symm.trans kept))
      rw [find?_detach_other c found ne, kept]
  · intro id' s' got
    by_cases same : id = id'
    · subst same
      exact c.below here
    · rw [get_detach_other t same] at got
      exact c.below got

theorem respects_detach (c : t.Coherent) (found : t.find? rule = some id)
    (head : (t.slot id).queue.head? = some ticket) : t.Respects ticket (t.detach id) := by
  have here := c.get found
  refine .of_one here (fun ne => get_detach_other t ne.symm) (fun mem _ => ?_) (fun head' ne => ?_)
    (fun {rule₁ id₁ s₁ u} found₁ got head₁ ne => ?_) rfl
  · exact ⟨_, get_detach t id, rfl, mem⟩
  · exact absurd (Option.some.inj (head'.symm.trans head)) ne
  · by_cases same : rule₁ = rule
    · subst same
      obtain rfl := Option.some.inj (found.symm.trans found₁)
      obtain rfl := Option.some.inj (here.symm.trans got)
      exact absurd (Option.some.inj (head₁.symm.trans head)) ne
    · rw [find?_detach_other c found same, found₁]

theorem queues_detach (t : Tracker) (id : SlotId) : (t.detach id).queues = t.queues := by
  rw [detach, queues_update]
  exact Function.update_eq_self id t.queues

theorem slotFor_detach_other (c : t.Coherent) (found : t.find? rule = some id) {rule' : RuleId}
    (ne : rule' ≠ rule) : (t.detach id).slotFor rule' = t.slotFor rule' := by
  rw [slotFor, slotFor, find?_detach_other c found ne]
  cases found' : t.find? rule' with
  | none => rfl
  | some id' =>
      have apart : id ≠ id' := fun same => ne (c.injective found (same ▸ found'))
      exact slot_of_get ((get_detach_other t apart).trans (c.get found'))

end ThresholdAlerts.Tracker
