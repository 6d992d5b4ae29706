import Mathlib.Logic.Function.Basic
import ThresholdAlerts.Proofs.Queues
/-! What the slots hold, as a function of the rule. Main statements: of a coherent tracker, each operation
under one slot is an update of this function at one rule, and queueing leaves it as it is. -/
namespace ThresholdAlerts

open Function

/-- What a slot holds, whoever queues for it. -/
structure Holding where
  state : FiringState
  outbox : Outbox := []
  retired : Bool := false

def Slot.holding (s : Slot) : Holding :=
  { state := s.state, outbox := s.outbox, retired := s.retired }

/-- What a slot holds that was just made. -/
def Holding.initial (rule : RuleId) : Holding :=
  { state := .initial rule }

def Holding.seed (h : Holding) (rule : RuleId) (alertId : AlertId) : Holding :=
  if h.state.isOpen then h else { h with state := .recovered rule alertId }

namespace Tracker

variable {t : Tracker} {id : SlotId} {rule : RuleId} {ticket : Ticket}

def held (t : Tracker) (rule : RuleId) : Option Holding :=
  (t.find? rule).map fun id => (t.slot id).holding

theorem held_of_find (found : t.find? rule = some id) : t.held rule = some (t.slot id).holding := by
  rw [held, found, Option.map_some]

theorem held_of_absent (absent : t.find? rule = none) : t.held rule = none := by
  rw [held, absent, Option.map_none]

theorem find?_eq_none : t.find? rule = none ↔ t.held rule = none := by
  rw [held, Option.map_eq_none_iff]

theorem slotFor_holding (t : Tracker) (rule : RuleId) :
    (t.slotFor rule).holding = (t.held rule).getD (.initial rule) := by
  cases found : t.find? rule with
  | none =>
    rw [slotFor_of_absent found, held_of_absent found]
    rfl
  | some id => rw [slotFor_of_find found, held_of_find found, Option.getD_some]

theorem held_update (c : t.Coherent) (found : t.find? rule = some id) (f : Slot → Slot) :
    (t.update id f).held = Function.update t.held rule (some (f (t.slot id)).holding) := by
  funext rule'
  by_cases same : rule' = rule
  · subst same
    rw [update_self, held_of_find (t := t.update id f) found, slot_update]
  · rw [update_of_ne same]
    cases found' : t.find? rule' with
    | none => rw [held_of_absent found', held_of_absent (t := t.update id f) found']
    | some id' =>
      have apart : id' ≠ id := fun eq => same (c.injective found (eq ▸ found'))
      rw [held_of_find found', held_of_find (t := t.update id f) found', slot_update_other t f apart]

theorem held_update_same (c : t.Coherent) (found : t.find? rule = some id) (f : Slot → Slot)
    (same : (f (t.slot id)).holding = (t.slot id).holding) : (t.update id f).held = t.held := by
  rw [held_update c found, same, ← held_of_find found, update_eq_self]

theorem held_ensure (c : t.Coherent) (rule : RuleId) :
    (t.ensure rule).1.held = Function.update t.held rule (some ((t.held rule).getD (.initial rule))) := by
  cases found : t.find? rule with
  | some id =>
    rw [ensure_of_find found, held_of_find found, Option.getD_some, ← held_of_find found, update_eq_self]
  | none =>
    rw [held_of_absent found, Option.getD_none]
    funext rule'
    by_cases same : rule' = rule
    · subst same
      rw [update_self, held_of_find (find?_ensure t rule'), ensure_of_absent found]
      rw [slot_of_get (s := Slot.initial rule') (by simp)]
      rfl
    · rw [update_of_ne same]
      have others := find?_ensure_other t same
      cases found' : t.find? rule' with
      | none => rw [held_of_absent found', held_of_absent (others.trans found')]
      | some id' =>
        rw [held_of_find found', held_of_find (others.trans found'), slot_of_get (get_ensure c (c.get found'))]

theorem held_leave (c : t.Coherent) (id : SlotId) : (t.leave id).held = t.held := by
  funext rule
  have stays := find?_leave t id rule
  cases found : t.find? rule with
  | none => rw [held_of_absent found, held_of_absent (stays.trans found)]
  | some id' =>
    rw [held_of_find found, held_of_find (stays.trans found)]
    by_cases here : id = id'
    · subst here
      rw [slot_of_get (get_leave (.inl (c.attached found)))]
      rfl
    · rw [slot_of_get ((get_leave_other t here).trans (c.get found))]

theorem seed_snd (t : Tracker) (id : SlotId) (alertId : AlertId) :
    (t.seed id alertId).2 = !(t.slot id).state.isOpen := by
  simp only [seed]
  split <;> simp_all

theorem held_detach (c : t.Coherent) (found : t.find? rule = some id) :
    (t.detach id).held = Function.update t.held rule none := by
  funext rule'
  by_cases same : rule' = rule
  · subst same
    rw [update_self, held_of_absent (find?_detach c found)]
  · rw [update_of_ne same]
    have others := find?_detach_other c found same
    cases found' : t.find? rule' with
    | none => rw [held_of_absent found', held_of_absent (others.trans found')]
    | some id' =>
      have apart : id ≠ id' := fun eq => same (c.injective found (eq ▸ found'))
      rw [held_of_find found', held_of_find (others.trans found'),
        slot_of_get ((get_detach_other t apart).trans (c.get found'))]

theorem coherent_leave (c : t.Coherent) (found : t.find? rule = some id) : (t.leave id).Coherent :=
  (resembles_leave (c.get found)).coherent c

theorem held_release (c : t.Coherent) (found : t.find? rule = some id) :
    (t.release id).1.Coherent ∧
    (t.release id).1.held =
      if (t.slot id).retired ∧ (t.slot id).outbox = [] then Function.update t.held rule none else t.held := by
  by_cases spent : (t.slot id).retired = true ∧ (t.slot id).outbox = []
  · have detached := coherent_detach c found
    rw [release_of_spent spent.1 spent.2, if_pos spent]
    exact ⟨(resembles_leave (get_detach t id)).coherent detached,
      (held_leave detached id).trans (held_detach c found)⟩
  · rw [release_of_kept (kept_of_unspent spent), if_neg spent]
    exact ⟨coherent_leave c found, held_leave c id⟩

end Tracker

end ThresholdAlerts
