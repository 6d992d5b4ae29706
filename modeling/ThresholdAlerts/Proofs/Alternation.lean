import Mathlib.Data.List.Induction
import Mathlib.Data.List.Nodup
import ThresholdAlerts.Alert.Basic
/-! Events that open and close alerts in turn. Main statement: of such events, each alert that one of them
closes was opened before, and everything that was opened before another opening was closed before it. -/
namespace ThresholdAlerts

namespace Event

def opening? : Event → Option AlertId
  | .opened alert => some alert.id
  | .resolved .. => none

/-- The alert that an event closes. -/
def closing? : Event → Option AlertId
  | .opened _ => none
  | .resolved id _ _ _ => some id

def opens (events : List Event) : List AlertId :=
  events.filterMap opening?

def closes (events : List Event) : List AlertId :=
  events.filterMap closing?

variable {events events' : List Event} {event : Event} {id : AlertId}

@[simp] theorem opens_nil : opens [] = [] := rfl

@[simp] theorem closes_nil : closes [] = [] := rfl

@[simp] theorem opens_append (events events' : List Event) :
    opens (events ++ events') = opens events ++ opens events' :=
  List.filterMap_append

@[simp] theorem closes_append (events events' : List Event) :
    closes (events ++ events') = closes events ++ closes events' :=
  List.filterMap_append

@[simp] theorem opens_opened (alert : Alert) (events : List Event) :
    opens (.opened alert :: events) = alert.id :: opens events := rfl

@[simp] theorem opens_resolved (id : AlertId) (rule : RuleId) (time : Timestamp)
    (reason : ResolveReason) (events : List Event) :
    opens (.resolved id rule time reason :: events) = opens events := rfl

@[simp] theorem closes_opened (alert : Alert) (events : List Event) :
    closes (.opened alert :: events) = closes events := rfl

@[simp] theorem closes_resolved (id : AlertId) (rule : RuleId) (time : Timestamp)
    (reason : ResolveReason) (events : List Event) :
    closes (.resolved id rule time reason :: events) = id :: closes events := rfl

theorem mem_opens : id ∈ opens events ↔ ∃ event ∈ events, event.opening? = some id :=
  List.mem_filterMap

theorem mem_closes : id ∈ closes events ↔ ∃ event ∈ events, event.closing? = some id :=
  List.mem_filterMap

theorem mem_opens_cons : id ∈ opens (event :: events) ↔ event.opening? = some id ∨ id ∈ opens events := by
  simp [mem_opens]

theorem mem_closes_cons :
    id ∈ closes (event :: events) ↔ event.closing? = some id ∨ id ∈ closes events := by
  simp [mem_closes]

theorem opens_sublist (h : events.Sublist events') : (opens events).Sublist (opens events') :=
  h.filterMap _

theorem closes_sublist (h : events.Sublist events') : (closes events).Sublist (closes events') :=
  h.filterMap _

theorem opens_subset (h : events ⊆ events') : opens events ⊆ opens events' := by
  intro id mem
  obtain ⟨event, there, opens⟩ := mem_opens.mp mem
  exact mem_opens.mpr ⟨event, h there, opens⟩

theorem eq_opened (opens : event.opening? = some id) : ∃ alert, event = .opened alert ∧ alert.id = id := by
  cases event with
  | opened alert => exact ⟨alert, rfl, Option.some.inj opens⟩
  | resolved => exact absurd opens (by simp [opening?])

theorem eq_resolved (closes : event.closing? = some id) :
    ∃ rule time reason, event = .resolved id rule time reason := by
  cases event with
  | opened => exact absurd closes (by simp [closing?])
  | resolved id' rule time reason =>
      obtain rfl := Option.some.inj closes
      exact ⟨rule, time, reason, rfl⟩

theorem split_of_opens (opened : id ∈ opens events) :
    ∃ before event after, events = before ++ event :: after ∧ event.opening? = some id := by
  obtain ⟨event, mem, opens⟩ := mem_opens.mp opened
  obtain ⟨before, after, rfl⟩ := List.append_of_mem mem
  exact ⟨before, event, after, rfl, opens⟩

theorem split_of_two {id' : AlertId} (opened : id ∈ opens events) (opened' : id' ∈ opens events)
    (ne : id ≠ id') :
    (∃ before event after, events = before ++ event :: after ∧ event.opening? = some id ∧
        id' ∈ opens before) ∨
      ∃ before event after, events = before ++ event :: after ∧ event.opening? = some id' ∧
        id ∈ opens before := by
  obtain ⟨before, event, after, rfl, here⟩ := split_of_opens opened
  obtain ⟨alert, rfl, rfl⟩ := eq_opened here
  rw [opens_append, opens_opened, List.mem_append, List.mem_cons] at opened'
  rcases opened' with first | same | later
  · exact .inl ⟨before, _, after, rfl, here, first⟩
  · exact absurd same.symm ne
  · obtain ⟨middle, event', rest, rfl, there⟩ := split_of_opens later
    refine .inr ⟨before ++ .opened alert :: middle, event', rest, ?_, there, ?_⟩
    · rw [List.append_assoc, List.cons_append]
    · simp

theorem sublist_of_head {before after rest : List Event}
    (h : (event :: rest).Sublist (before ++ after)) (absent : event ∉ before) :
    (event :: rest).Sublist after := by
  induction before with
  | nil => exact h
  | cons first before ih =>
      rw [List.cons_append] at h
      cases h with
      | cons _ h => exact ih h fun mem => absent (List.mem_cons_of_mem _ mem)
      | cons_cons _ h => exact absurd List.mem_cons_self absent

end Event

/-- Events that open and close alerts in turn, from one open alert, or none, to another. An alert is
closed under the id under which it was opened. -/
inductive Alternates (start : Option AlertId) : List Event → Option AlertId → Prop
  | nothing : Alternates start [] start
  | opened {events alert} (before : Alternates start events none) :
      Alternates start (events ++ [.opened alert]) (some alert.id)
  | resolved {events id rule time reason} (before : Alternates start events (some id)) :
      Alternates start (events ++ [.resolved id rule time reason]) none

namespace Alternates

open Event

variable {start now : Option AlertId} {events before after : List Event} {event : Event} {id : AlertId}

/-- What is open after some events was opened by them or is open from the start. -/
theorem opened_of_now (h : Alternates start events now) (here : now = some id) :
    start = some id ∨ id ∈ opens events := by
  cases h with
  | nothing => exact .inl here
  | opened before =>
      obtain rfl := Option.some.inj here
      exact .inr (by simp)
  | resolved before => exact absurd here (by simp)

/-- Only the alert that was open from the start is closed without having been opened. -/
theorem closes_subset (h : Alternates start events now) (closed : id ∈ closes events) :
    start = some id ∨ id ∈ opens events := by
  induction h with
  | nothing => exact absurd closed (by simp)
  | opened before ih =>
      rw [closes_append, closes_opened, closes_nil, List.append_nil] at closed
      rw [opens_append]
      exact (ih closed).imp_right (List.mem_append_left _)
  | @resolved events id' rule time reason before ih =>
      rw [closes_append, closes_resolved, closes_nil, List.mem_append, List.mem_singleton] at closed
      rw [opens_append]
      refine Or.imp_right (List.mem_append_left _) ?_
      rcases closed with earlier | rfl
      · exact ih earlier
      · exact before.opened_of_now rfl

theorem opened_of_closed (h : Alternates none events now) (closed : id ∈ closes events) : id ∈ opens events :=
  (h.closes_subset closed).resolve_left (by simp)

/-- No alert is closed twice if none is opened twice and the one that was open from the start is not
opened again. -/
theorem closes_nodup (h : Alternates start events now) (once : (opens events).Nodup)
    (strange : ∀ id, start = some id → id ∉ opens events) :
    (closes events).Nodup ∧ ∀ id, now = some id → id ∉ closes events := by
  induction h with
  | nothing => exact ⟨by simp, by simp⟩
  | @opened events alert before ih =>
      simp only [opens_append, opens_opened, opens_nil, List.nodup_append, List.mem_append] at once strange
      obtain ⟨earlier, -⟩ := ih once.1 fun id here mem => strange id here (.inl mem)
      rw [closes_append, closes_opened, closes_nil, List.append_nil]
      refine ⟨earlier, fun id here closed => ?_⟩
      obtain rfl := Option.some.inj here
      rcases before.closes_subset closed with first | opened
      · exact strange _ first (.inr (by simp))
      · exact once.2.2 _ opened alert.id (by simp) rfl
  | @resolved events id rule time reason before ih =>
      rw [opens_append, opens_resolved, opens_nil, List.append_nil] at once strange
      obtain ⟨earlier, open_⟩ := ih once strange
      refine ⟨?_, by simp⟩
      rw [closes_append, closes_resolved, closes_nil, List.nodup_append]
      refine ⟨earlier, by simp, fun a mem b here => ?_⟩
      obtain rfl := List.mem_singleton.mp here
      rintro rfl
      exact open_ a rfl mem

theorem now_iff (h : Alternates start events now) (id : AlertId) :
    now = some id ↔ (∃ alert, events.getLast? = some (.opened alert) ∧ alert.id = id) ∨
      events = [] ∧ start = some id := by
  cases h with
  | nothing => simp
  | opened before => simp
  | resolved before => simp

/-- What was opened is closed or open. -/
theorem closed_or_now (h : Alternates start events now) (opened : id ∈ opens events) :
    id ∈ closes events ∨ now = some id := by
  induction h with
  | nothing => exact absurd opened (by simp)
  | @opened events alert before ih =>
      rw [opens_append, opens_opened, opens_nil, List.mem_append, List.mem_singleton] at opened
      rcases opened with earlier | rfl
      · have closed := (ih earlier).resolve_right (by simp)
        exact .inl (by simpa using closed)
      · exact .inr rfl
  | @resolved events id' rule time reason before ih =>
      rw [opens_append, opens_resolved, opens_nil, List.append_nil] at opened
      refine .inl ?_
      rw [closes_append, closes_resolved, closes_nil, List.mem_append, List.mem_singleton]
      exact (ih opened).imp_right fun here => (Option.some.inj here).symm

theorem now_eq_some (h : Alternates none events now) (once : (opens events).Nodup) :
    now = some id ↔ id ∈ opens events ∧ id ∉ closes events := by
  refine ⟨fun here => ⟨?_, (h.closes_nodup once (by simp)).2 id here⟩, fun ⟨began, open_⟩ => ?_⟩
  · exact (h.opened_of_now here).resolve_left (by simp)
  · exact (h.closed_or_now began).resolve_left open_

/-- What was open when an event of a sequence was produced. -/
theorem at_event (h : Alternates start (before ++ event :: after) now) :
    ∃ mid, Alternates start before mid ∧ (∀ id, event.opening? = some id → mid = none) ∧
      ∀ id, event.closing? = some id → mid = some id := by
  generalize whole : before ++ event :: after = events at h
  induction h generalizing after with
  | nothing => exact absurd whole (by simp)
  | @opened events alert earlier ih =>
      rcases List.eq_nil_or_concat' after with rfl | ⟨front, last, rfl⟩
      · obtain ⟨rfl, same⟩ := List.append_inj' whole rfl
        obtain rfl := List.singleton_inj.mp same
        exact ⟨none, earlier, fun _ _ => rfl, fun id closes => absurd closes (by simp [closing?])⟩
      · rw [← List.cons_append, ← List.append_assoc] at whole
        exact ih (List.append_inj' whole rfl).1
  | @resolved events id rule time reason earlier ih =>
      rcases List.eq_nil_or_concat' after with rfl | ⟨front, last, rfl⟩
      · obtain ⟨rfl, same⟩ := List.append_inj' whole rfl
        obtain rfl := List.singleton_inj.mp same
        exact ⟨some id, earlier, fun id opens => absurd opens (by simp [opening?]), fun _ closes => closes⟩
      · rw [← List.cons_append, ← List.append_assoc] at whole
        exact ih (List.append_inj' whole rfl).1

theorem closed_before (h : Alternates start (before ++ event :: after) now)
    (opening : event.opening? = some id) {earlier : AlertId} (opened : earlier ∈ opens before) :
    earlier ∈ closes before := by
  obtain ⟨mid, alternates, shut, -⟩ := h.at_event
  have closed := alternates.closed_or_now opened
  rw [shut id opening] at closed
  exact closed.resolve_right (by simp)

theorem opened_before (h : Alternates none (before ++ event :: after) now)
    (closing : event.closing? = some id) : id ∈ opens before := by
  obtain ⟨mid, alternates, -, open_⟩ := h.at_event
  exact (alternates.opened_of_now (open_ id closing)).resolve_left (by simp)

/-- What the next event of a sequence closes is not opened by it or by those after it. -/
theorem not_opened_after {rest : List Event} (h : Alternates none events now)
    (once : (opens events).Nodup) (inOrder : (event :: rest).Sublist events)
    (closing : event.closing? = some id) : id ∉ opens (event :: rest) := by
  obtain ⟨r₁, r₂, rfl, mem, sub⟩ := List.cons_sublist_iff.mp inOrder
  obtain ⟨before, after, rfl⟩ := List.append_of_mem mem
  rw [List.append_assoc, List.cons_append] at h
  have opened := h.opened_before closing
  obtain ⟨rule, time, reason, rfl⟩ := eq_resolved closing
  intro later
  have later' : id ∈ opens r₂ := (opens_sublist sub).subset later
  rw [opens_append, List.nodup_append] at once
  refine once.2.2 id ?_ id later' rfl
  rw [opens_append]
  exact List.mem_append_left _ opened

/-- Events that alternate do so up to each of them and from there on. -/
theorem split (h : Alternates start (before ++ after) now) :
    ∃ mid, Alternates start before mid ∧ Alternates mid after now := by
  induction after using List.reverseRecOn generalizing now with
  | nil => exact ⟨now, List.append_nil before ▸ h, .nothing⟩
  | append_singleton after last ih =>
      rw [← List.append_assoc] at h
      generalize whole : before ++ after ++ [last] = events at h
      cases h with
      | nothing => exact absurd whole (by simp)
      | opened earlier =>
          obtain ⟨rfl, same⟩ := List.append_inj' whole rfl
          obtain rfl := List.singleton_inj.mp same
          obtain ⟨mid, first, rest⟩ := ih earlier
          exact ⟨mid, first, .opened rest⟩
      | resolved earlier =>
          obtain ⟨rfl, same⟩ := List.append_inj' whole rfl
          obtain rfl := List.singleton_inj.mp same
          obtain ⟨mid, first, rest⟩ := ih earlier
          exact ⟨mid, first, .resolved rest⟩

theorem append {mid : Option AlertId} (h : Alternates start before mid) (h' : Alternates mid after now) :
    Alternates start (before ++ after) now := by
  induction h' with
  | nothing =>
      rw [List.append_nil]
      exact h
  | opened _ ih =>
      rw [← List.append_assoc]
      exact .opened ih
  | resolved _ ih =>
      rw [← List.append_assoc]
      exact .resolved ih

theorem eq_of_nil (h : Alternates start [] now) : now = start := by
  generalize none : ([] : List Event) = events at h
  cases h with
  | nothing => rfl
  | opened => exact absurd none (by simp)
  | resolved => exact absurd none (by simp)

/-- An alert is opened while none is open, and what comes next finds it open. -/
theorem after_opened {alert : Alert} (h : Alternates start (.opened alert :: after) now) :
    start = none ∧ Alternates (some alert.id) after now := by
  have both : Alternates start ([.opened alert] ++ after) now := h
  obtain ⟨mid, first, rest⟩ := both.split
  generalize whole : [Event.opened alert] = events at first
  rw [← List.nil_append [Event.opened alert]] at whole
  cases first with
  | nothing => exact absurd whole (by simp)
  | @opened events alert' earlier =>
      obtain ⟨rfl, same⟩ := List.append_inj' whole rfl
      obtain rfl := Event.opened.inj (List.singleton_inj.mp same)
      exact ⟨earlier.eq_of_nil.symm, rest⟩
  | resolved earlier =>
      obtain ⟨-, same⟩ := List.append_inj' whole rfl
      exact absurd (List.singleton_inj.mp same) (by simp)

/-- An alert is closed while it is open, and what comes next finds none open. -/
theorem after_resolved {rule : RuleId} {time : Timestamp} {reason : ResolveReason}
    (h : Alternates start (.resolved id rule time reason :: after) now) :
    start = some id ∧ Alternates none after now := by
  have both : Alternates start ([.resolved id rule time reason] ++ after) now := h
  obtain ⟨mid, first, rest⟩ := both.split
  generalize whole : [Event.resolved id rule time reason] = events at first
  rw [← List.nil_append [Event.resolved id rule time reason]] at whole
  cases first with
  | nothing => exact absurd whole (by simp)
  | opened earlier =>
      obtain ⟨-, same⟩ := List.append_inj' whole rfl
      exact absurd (List.singleton_inj.mp same) (by simp)
  | resolved earlier =>
      obtain ⟨rfl, same⟩ := List.append_inj' whole rfl
      obtain ⟨rfl, -⟩ := Event.resolved.inj (List.singleton_inj.mp same)
      exact ⟨earlier.eq_of_nil.symm, rest⟩

theorem tail (h : Alternates start (event :: after) now) : ∃ mid, Alternates mid after now := by
  cases event with
  | opened alert => exact ⟨_, h.after_opened.2⟩
  | resolved id rule time reason => exact ⟨_, h.after_resolved.2⟩

/-- As many alerts are closed as were opened, but for the one that is open. -/
theorem balance (h : Alternates start events now) :
    start.toList.length + events.countP isOpened = events.countP (!·.isOpened) + now.toList.length := by
  induction h with
  | nothing => simp
  | opened before ih =>
      simp [List.countP_append, isOpened] at ih ⊢
      omega
  | resolved before ih =>
      simp [List.countP_append, isOpened] at ih ⊢
      omega

end Alternates

end ThresholdAlerts
