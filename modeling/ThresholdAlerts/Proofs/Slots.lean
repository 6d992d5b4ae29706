import Mathlib.Data.List.Basic
import ThresholdAlerts.Engine.Tracker
/-! Slots and their queues. In a coherent tracker the index and the slots agree: a rule is tracked by
one slot, which is not detached, and every slot that is not detached is the one of its rule. Main
statement: a slot that changes in place keeps the tracker coherent and touches no other rule. -/
namespace ThresholdAlerts

/-- Slots that differ in their queues at most. -/
structure Slot.Alike (s s' : Slot) : Prop where
  state : s'.state = s.state
  outbox : s'.outbox = s.outbox
  retired : s'.retired = s.retired

/-- A slot that is to go has something left to deliver. -/
def Slot.Tidy (s : Slot) : Prop :=
  s.retired = true → s.outbox ≠ []

theorem Slot.tidy_of_kept {s : Slot} (kept : s.retired = false) : s.Tidy :=
  fun retired => absurd (kept.symm.trans retired) Bool.false_ne_true

theorem Slot.Alike.refl (s : Slot) : s.Alike s := ⟨rfl, rfl, rfl⟩

theorem Slot.Alike.trans {a b c : Slot} (h : a.Alike b) (h' : b.Alike c) : a.Alike c :=
  ⟨h'.state.trans h.state, h'.outbox.trans h.outbox, h'.retired.trans h.retired⟩

namespace Tracker

/-- The slot of a rule; a rule that is not tracked counts as having an untouched one. -/
def slotFor (t : Tracker) (rule : RuleId) : Slot :=
  (t.find? rule).elim (Slot.initial rule) t.slot

/-- The index and the slots agree. -/
structure Coherent (t : Tracker) : Prop where
  found : ∀ {rule : RuleId} {id : SlotId}, t.find? rule = some id →
    ∃ s : Slot, t.slots[id]? = some s ∧ s.ruleId = rule ∧ s.detached = false
  named : ∀ {id : SlotId} {s : Slot}, t.slots[id]? = some s → s.state.ruleId = s.ruleId
  kept : ∀ {id : SlotId} {s : Slot}, t.slots[id]? = some s → s.detached = false → t.find? s.ruleId = some id
  below : ∀ {id : SlotId} {s : Slot}, t.slots[id]? = some s → id < t.nextSlot

/-- One slot changes in place: it stays the one of its rule and nobody's turn changes. -/
structure Rewrites (id : SlotId) (t t' : Tracker) : Prop where
  index : t'.index = t.index
  nextSlot : t'.nextSlot = t.nextSlot
  others : ∀ {id' : SlotId}, id' ≠ id → t'.slots[id']? = t.slots[id']?
  own : ∀ {s : Slot}, t.slots[id]? = some s → ∃ s' : Slot, t'.slots[id]? = some s' ∧ s'.ruleId = s.ruleId ∧
    s'.detached = s.detached ∧ s'.queue = s.queue ∧ s'.state.ruleId = s.state.ruleId

/-! ### Reading slots -/

variable {t t' : Tracker} {id : SlotId} {s : Slot} {rule : RuleId}

theorem slot_of_get (h : t.slots[id]? = some s) : t.slot id = s := by
  rw [Tracker.slot, Std.TreeMap.getD_eq_getD_getElem?, h, Option.getD_some]

theorem get_of_head {u : Ticket} (h : (t.slot id).queue.head? = some u) :
    t.slots[id]? = some (t.slot id) := by
  cases got : t.slots[id]? with
  | some s => rw [slot_of_get got]
  | none =>
      rw [Tracker.slot, Std.TreeMap.getD_eq_getD_getElem?, got] at h
      exact absurd h (by simp [Slot.initial])

theorem slotFor_of_find (h : t.find? rule = some id) : t.slotFor rule = t.slot id := by
  rw [slotFor, h, Option.elim_some]

theorem slotFor_of_absent (h : t.find? rule = none) : t.slotFor rule = Slot.initial rule := by
  rw [slotFor, h, Option.elim_none]

theorem mem_ruleIds : rule ∈ t.ruleIds ↔ t.find? rule ≠ none := by
  rw [ruleIds, Std.TreeMap.mem_keys, Std.TreeMap.mem_iff_isSome_getElem?, Option.isSome_iff_ne_none]
  rfl

theorem Coherent.get (c : t.Coherent) (h : t.find? rule = some id) :
    t.slots[id]? = some (t.slot id) := by
  obtain ⟨s, got, -, -⟩ := c.found h
  rw [slot_of_get got, got]

theorem Coherent.ruleId (c : t.Coherent) (h : t.find? rule = some id) :
    (t.slot id).ruleId = rule := by
  obtain ⟨s, got, named, -⟩ := c.found h
  rw [slot_of_get got, named]

theorem Coherent.stateRuleId (c : t.Coherent) (h : t.find? rule = some id) :
    (t.slot id).state.ruleId = rule :=
  (c.named (c.get h)).trans (c.ruleId h)

theorem Coherent.attached (c : t.Coherent) (h : t.find? rule = some id) :
    (t.slot id).detached = false := by
  obtain ⟨s, got, -, attached⟩ := c.found h
  rw [slot_of_get got, attached]

theorem Coherent.injective (c : t.Coherent) {rule' : RuleId} (h : t.find? rule = some id)
    (h' : t.find? rule' = some id) : rule' = rule :=
  (c.ruleId h').symm.trans (c.ruleId h)

theorem Coherent.unused (c : t.Coherent) : t.slots[t.nextSlot]? = none := by
  cases got : t.slots[t.nextSlot]? with
  | none => rfl
  | some s => exact absurd (c.below got) (Nat.lt_irrefl _)

theorem slotFor_stateRuleId (c : t.Coherent) (rule : RuleId) :
    (t.slotFor rule).state.ruleId = rule := by
  cases h : t.find? rule with
  | some id => rw [slotFor_of_find h, c.stateRuleId h]
  | none => rw [slotFor_of_absent h]; rfl

theorem coherent_empty : ({} : Tracker).Coherent := by
  constructor <;> simp [find?]

/-- The same rules are tracked by the same slots; detached slots may be gone. -/
structure Resembles (t t' : Tracker) : Prop where
  index : t'.index = t.index
  nextSlot : t'.nextSlot = t.nextSlot
  back : ∀ {id : SlotId} {s' : Slot}, t'.slots[id]? = some s' →
    ∃ s : Slot, t.slots[id]? = some s ∧ s'.ruleId = s.ruleId ∧ s'.detached = s.detached ∧
      s'.state.ruleId = s.state.ruleId
  forth : ∀ {id : SlotId} {s : Slot}, t.slots[id]? = some s → s.detached = false →
    ∃ s' : Slot, t'.slots[id]? = some s' ∧ s'.ruleId = s.ruleId ∧ s'.detached = false

theorem Resembles.of_one (got : t.slots[id]? = some s) (index : t'.index = t.index)
    (nextSlot : t'.nextSlot = t.nextSlot)
    (others : ∀ {id' : SlotId}, id' ≠ id → t'.slots[id']? = t.slots[id']?)
    (back : ∀ {s' : Slot}, t'.slots[id]? = some s' →
      s'.ruleId = s.ruleId ∧ s'.detached = s.detached ∧ s'.state.ruleId = s.state.ruleId)
    (forth : s.detached = false →
      ∃ s' : Slot, t'.slots[id]? = some s' ∧ s'.ruleId = s.ruleId ∧ s'.detached = false) :
    t.Resembles t' := by
  refine ⟨index, nextSlot, fun {id₁ s₁} got₁ => ?_, fun {id₁ s₁} got₁ attached => ?_⟩
  · by_cases same : id₁ = id
    · subst same
      exact ⟨s, got, back got₁⟩
    · exact ⟨s₁, (others same).symm.trans got₁, rfl, rfl, rfl⟩
  · by_cases same : id₁ = id
    · subst same
      obtain rfl : s = s₁ := Option.some.inj (got.symm.trans got₁)
      exact forth attached
    · exact ⟨s₁, (others same).trans got₁, rfl, attached⟩

theorem Resembles.find? (h : t.Resembles t') (rule : RuleId) : t'.find? rule = t.find? rule := by
  rw [Tracker.find?, h.index, Tracker.find?]

theorem Resembles.coherent (h : t.Resembles t') (c : t.Coherent) : t'.Coherent := by
  constructor
  · intro rule id found
    rw [h.find?] at found
    obtain ⟨s, got, named, attached⟩ := c.found found
    obtain ⟨s', got', named', attached'⟩ := h.forth got attached
    exact ⟨s', got', named'.trans named, attached'⟩
  · intro id s' got'
    obtain ⟨s, got, named', -, state⟩ := h.back got'
    rw [state, named', c.named got]
  · intro id s' got' attached'
    obtain ⟨s, got, named', detached, -⟩ := h.back got'
    rw [h.find?, named']
    exact c.kept got (detached.symm.trans attached')
  · intro id s' got'
    obtain ⟨s, got, -⟩ := h.back got'
    rw [h.nextSlot]
    exact c.below got

/-! ### Changes in place -/

theorem get_update (t : Tracker) (id id' : SlotId) (f : Slot → Slot) :
    (t.update id f).slots[id']? = if id = id' then some (f (t.slot id)) else t.slots[id']? := by
  simp [update, Std.TreeMap.getElem?_insert]

theorem slot_update (t : Tracker) (id : SlotId) (f : Slot → Slot) :
    (t.update id f).slot id = f (t.slot id) :=
  slot_of_get (by rw [get_update, if_pos rfl])

theorem slot_update_other (t : Tracker) {id id' : SlotId} (f : Slot → Slot) (ne : id' ≠ id) :
    (t.update id f).slot id' = t.slot id' := by
  rw [slot, slot, Std.TreeMap.getD_eq_getD_getElem?, get_update, if_neg ne.symm,
    Std.TreeMap.getD_eq_getD_getElem?]

@[simp] theorem find?_update (t : Tracker) (id : SlotId) (f : Slot → Slot) (rule : RuleId) :
    (t.update id f).find? rule = t.find? rule := rfl

theorem Rewrites.refl (id : SlotId) (t : Tracker) : t.Rewrites id t :=
  ⟨rfl, rfl, fun _ => rfl, fun h => ⟨_, h, rfl, rfl, rfl, rfl⟩⟩

theorem Rewrites.trans {t₁ t₂ t₃ : Tracker} (h : Rewrites id t₁ t₂) (h' : Rewrites id t₂ t₃) :
    Rewrites id t₁ t₃ := by
  refine ⟨h'.index.trans h.index, h'.nextSlot.trans h.nextSlot,
    fun ne => (h'.others ne).trans (h.others ne), fun got => ?_⟩
  obtain ⟨s', got', rule, detached, queue, named⟩ := h.own got
  obtain ⟨s'', got'', rule', detached', queue', named'⟩ := h'.own got'
  exact ⟨s'', got'', rule'.trans rule, detached'.trans detached, queue'.trans queue,
    named'.trans named⟩

theorem rewrites_update (t : Tracker) (id : SlotId) (f : Slot → Slot)
    (keeps : ∀ s, (f s).ruleId = s.ruleId ∧ (f s).detached = s.detached ∧ (f s).queue = s.queue)
    (named : (f (t.slot id)).state.ruleId = (t.slot id).state.ruleId) :
    t.Rewrites id (t.update id f) := by
  refine ⟨rfl, rfl, fun ne => by rw [get_update, if_neg ne.symm], fun {s} got => ?_⟩
  have same := slot_of_get got
  refine ⟨f s, by rw [get_update, if_pos rfl, same], (keeps s).1, (keeps s).2.1, (keeps s).2.2, ?_⟩
  rw [same] at named
  exact named

theorem rewrites_setState {state : FiringState} (same : state.ruleId = (t.slot id).state.ruleId) :
    t.Rewrites id (t.setState id state) :=
  rewrites_update t id _ (fun _ => ⟨rfl, rfl, rfl⟩) same

theorem rewrites_setOutbox (t : Tracker) (id : SlotId) (outbox : Outbox) :
    t.Rewrites id (t.setOutbox id outbox) :=
  rewrites_update t id _ (fun _ => ⟨rfl, rfl, rfl⟩) rfl

theorem rewrites_retire (t : Tracker) (id : SlotId) : t.Rewrites id (t.retire id) :=
  rewrites_update t id _ (fun _ => ⟨rfl, rfl, rfl⟩) rfl

theorem rewrites_take (t : Tracker) (c : Claim) : t.Rewrites c.slot (t.take c) := by
  unfold take
  cases c.mode with
  | create => exact rewrites_update t c.slot _ (fun _ => ⟨rfl, rfl, rfl⟩) rfl
  | existing => exact Rewrites.refl c.slot t

/-- A slot that tracks an open alert already is not seeded. -/
theorem seed_of_open (alertId : AlertId) (opened : (t.slot id).state.isOpen = true) :
    t.seed id alertId = (t, false) := by
  simp only [seed, opened, if_true]

theorem Coherent.seed_of_shut (c : t.Coherent) (found : t.find? rule = some id) (alertId : AlertId)
    (shut : (t.slot id).state.isOpen = false) :
    t.seed id alertId = (t.setState id (.recovered rule alertId), true) := by
  simp only [seed, shut, Bool.false_eq_true, if_false, c.ruleId found]

theorem Coherent.slot_seed (c : t.Coherent) (found : t.find? rule = some id) (alertId : AlertId) :
    (t.seed id alertId).1.slot id =
      if (t.slot id).state.isOpen then t.slot id else { t.slot id with state := .recovered rule alertId } := by
  cases opened : (t.slot id).state.isOpen with
  | true => rw [seed_of_open alertId opened, if_pos rfl]
  | false =>
    rw [c.seed_of_shut found alertId opened, if_neg Bool.false_ne_true]
    exact slot_update t id _

theorem Coherent.rewrites_seed (c : t.Coherent) (found : t.find? rule = some id) (alertId : AlertId) :
    t.Rewrites id (t.seed id alertId).1 := by
  cases opened : (t.slot id).state.isOpen with
  | true => exact seed_of_open alertId opened ▸ Rewrites.refl id t
  | false => exact c.seed_of_shut found alertId opened ▸ rewrites_setState (c.stateRuleId found).symm

theorem Rewrites.find? (h : t.Rewrites id t') (rule : RuleId) : t'.find? rule = t.find? rule := by
  rw [Tracker.find?, h.index, Tracker.find?]

theorem Rewrites.slot (h : t.Rewrites id t') {id' : SlotId} (ne : id' ≠ id) :
    t'.slot id' = t.slot id' := by
  rw [Tracker.slot, Tracker.slot, Std.TreeMap.getD_eq_getD_getElem?, h.others ne,
    Std.TreeMap.getD_eq_getD_getElem?]

theorem Rewrites.queue (h : t.Rewrites id t') (there : t.slots[id]? = some s) :
    (t'.slot id).queue = (t.slot id).queue := by
  obtain ⟨s', got, -, -, queue, -⟩ := h.own there
  rw [slot_of_get got, queue, slot_of_get there]

theorem Rewrites.resembles (h : t.Rewrites id t') (there : t.slots[id]? = some s) :
    t.Resembles t' := by
  obtain ⟨s', got', ruleId, detached, -, named⟩ := h.own there
  refine .of_one there h.index h.nextSlot h.others (fun {s₁} got => ?_) fun attached => ?_
  · obtain rfl : s' = s₁ := Option.some.inj (got'.symm.trans got)
    exact ⟨ruleId, detached, named⟩
  · exact ⟨s', got', ruleId, detached.trans attached⟩

theorem Rewrites.coherent (h : t.Rewrites id t') (c : t.Coherent) (there : t.slots[id]? = some s) :
    t'.Coherent :=
  (h.resembles there).coherent c

theorem Rewrites.slotFor (h : t.Rewrites id t') (c : t.Coherent) (found : t.find? rule = some id)
    {rule' : RuleId} (ne : rule' ≠ rule) : t'.slotFor rule' = t.slotFor rule' := by
  rw [Tracker.slotFor, Tracker.slotFor, h.find?]
  cases other : t.find? rule' with
  | none => rfl
  | some id' =>
      have apart : id' ≠ id := fun same => ne (c.injective found (same ▸ other))
      exact h.slot apart

end Tracker

end ThresholdAlerts
