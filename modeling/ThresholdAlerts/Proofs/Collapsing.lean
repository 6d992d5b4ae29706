import ThresholdAlerts.Proofs.Recovery
/-! Collapsing. An event that ends an alert takes its opening out of the outbox again if that is last there and was
never tried. Main statement: once all that waits has arrived, the open alerts are those there would be without
collapsing; nothing that was tried is touched, and an outbox outgrows its room only if it had done so before. -/
namespace ThresholdAlerts

/-- The delivery is the opening, never tried, of the alert that the event ends. -/
def Delivery.CancelledBy (d : Delivery) (event : Event) : Prop :=
  d.failures = 0 ∧ ∃ alert, d.event = .opened alert ∧ event.closing? = some alert.id

namespace AlertStore

/-- The same alerts are open in two stores. -/
def SameOpen (s s' : AlertStore) : Prop :=
  ∀ id, (s.get? id).filter Alert.isOpen = (s'.get? id).filter Alert.isOpen

variable {s s' : AlertStore} {event : Event} {id : AlertId}

theorem SameOpen.mem_openAlerts (h : s.SameOpen s') {alert : Alert} :
    alert ∈ s.openAlerts ↔ alert ∈ s'.openAlerts := by
  have listed (store : AlertStore) :
      alert ∈ store.openAlerts ↔ ∃ id, (store.get? id).filter Alert.isOpen = some alert := by
    simp [AlertStore.mem_openAlerts, Option.filter_eq_some_iff]
  rw [listed, listed]
  exact exists_congr fun id => by rw [h id]

theorem receiveAll_append (s : AlertStore) (events later : List Event) :
    s.receiveAll (events ++ later) = (s.receiveAll events).receiveAll later :=
  List.foldl_append

theorem not_holds_receiveAll {events : List Event} (absent : ¬ s.Holds id)
    (others : ∀ event ∈ events, event.alertId ≠ id) : ¬ (s.receiveAll events).Holds id := by
  induction events generalizing s with
  | nil => exact absent
  | cons event rest ih =>
    obtain ⟨other, others⟩ := List.forall_mem_cons.mp others
    refine ih (fun held => ?_) others
    rcases (s.changes_receive event).holds held with before | opens
    · exact absent before
    · obtain ⟨alert, rfl, named⟩ := Event.eq_opened opens
      exact other named

/-- An alert that is new to a store is opened and closed again: none is open that was not before. -/
theorem sameOpen_opened_resolved {alert : Alert} (absent : ¬ s.Holds alert.id) (closes : event.closing? = some alert.id) :
    s.SameOpen (s.receiveAll [.opened alert, event]) := by
  obtain ⟨rule, time, reason, rfl⟩ := Event.eq_resolved closes
  have fresh : s.alerts.contains alert.id = false :=
    Bool.eq_false_iff.mpr fun there => absent ((contains_iff s alert.id).mp there)
  have opened : s.receive (.opened alert) = s.insert alert := by
    rw [receive, fresh]
    rfl
  have there : (s.insert alert).get? alert.id = some alert := by rw [get?_insert, if_pos rfl]
  have closed : s.receiveAll [.opened alert, .resolved alert.id rule time reason] =
      { s.insert alert with alerts := (s.insert alert).alerts.insert alert.id (alert.resolve time) } := by
    rw [receiveAll, List.foldl_cons, opened, List.foldl_cons, List.foldl_nil, receive, there]
  intro id
  rw [closed, get?_close]
  by_cases same : alert.id = id
  · subst same
    have none : s.get? alert.id = none := Option.eq_none_iff_forall_not_mem.mpr fun record mem => absent ⟨record, mem⟩
    rw [none, if_pos rfl, Option.filter_some, alert.isOpen_resolve time]
    rfl
  · rw [if_neg same, get?_insert, if_neg same]

end AlertStore

namespace Outbox

/-- What becomes of an event that is put into an outbox, and of the outbox. -/
inductive Puts (outbox : Outbox) (event : Event) (now : Duration) : Outbox × Enqueued → Prop
  | cancels {kept : Outbox} {d : Delivery} (last : outbox = kept ++ [d]) (cancels : d.CancelledBy event) :
      Puts outbox event now (kept, .collapsed d.event)
  | overflows (alone : ∀ d ∈ outbox.getLast?, ¬ d.CancelledBy event) (full : 256 ≤ outbox.length) :
      Puts outbox event now (outbox, .overflow event)
  | joins (alone : ∀ d ∈ outbox.getLast?, ¬ d.CancelledBy event) (room : outbox.length < 256) :
      Puts outbox event now (outbox ++ [.queued event now], .queued)

variable {outbox : Outbox} {event : Event} {now : Duration} {put : Outbox × Enqueued}

theorem cancelledBy?_eq_some_iff {d : Delivery} :
    outbox.cancelledBy? event = some d ↔ outbox.getLast? = some d ∧ d.CancelledBy event := by
  cases event with
  | opened alert => simp [cancelledBy?, Delivery.CancelledBy, Event.closing?]
  | resolved id rule time reason =>
    rw [cancelledBy?, Option.filter_eq_some_iff]
    refine and_congr_right fun _ => ?_
    rw [isUnsentOpening, Delivery.CancelledBy]
    cases d.event with
    | opened alert =>
      simp only [Bool.and_eq_true, decide_eq_true_eq, Event.closing?, Event.opened.injEq, exists_eq_left', Option.some.injEq]
      exact and_congr_right fun _ => eq_comm
    | resolved => simp

theorem puts_enqueue (outbox : Outbox) (event : Event) (now : Duration) :
    Puts outbox event now (outbox.enqueue event now) := by
  rw [enqueue]
  cases cancelled : outbox.cancelledBy? event with
  | some d =>
    obtain ⟨last, cancels⟩ := cancelledBy?_eq_some_iff.mp cancelled
    exact .cancels (List.dropLast_append_getLast? d last).symm cancels
  | none =>
    have alone : ∀ d ∈ outbox.getLast?, ¬ d.CancelledBy event := by
      intro d last cancels
      rw [cancelledBy?_eq_some_iff.mpr ⟨last, cancels⟩] at cancelled
      exact absurd cancelled (by simp)
    dsimp only
    split
    · next full => exact .overflows alone full
    · next room => exact .joins alone (Nat.lt_of_not_le room)

namespace Puts

theorem tried (puts : Puts outbox event now put) : put.1.filter (0 < ·.failures) = outbox.filter (0 < ·.failures) := by
  cases puts with
  | cancels last cancels =>
    have untried := cancels.1
    simp [last, untried]
  | overflows => rfl
  | joins => simp [Delivery.queued]

theorem parts (puts : Puts outbox event now put) :
    ∃ kept gone new, outbox = kept ++ gone ∧ put.1 = kept ++ new ∧ (∀ d ∈ new, d = .queued event now) ∧
      ∀ d ∈ gone, d.CancelledBy event ∧ put.2 = .collapsed d.event := by
  cases puts with
  | @cancels kept d last cancels =>
    refine ⟨kept, [d], [], last, by simp, by simp, fun other mem => ?_⟩
    obtain rfl := List.mem_singleton.mp mem
    exact ⟨cancels, rfl⟩
  | overflows => exact ⟨outbox, [], [], by simp, by simp, by simp, by simp⟩
  | joins => exact ⟨outbox, [], [.queued event now], by simp, rfl, by simp, by simp⟩

theorem overflow_iff (puts : Puts outbox event now put) (e : Event) :
    put.2 = .overflow e ↔ e = event ∧ 256 ≤ outbox.length ∧ ∀ d ∈ outbox.getLast?, ¬ d.CancelledBy event := by
  cases puts with
  | cancels last cancels =>
    refine ⟨nofun, fun ⟨_, _, alone⟩ => ?_⟩
    exact absurd cancels (alone _ (by simp [last]))
  | overflows alone full =>
    constructor
    · intro same
      exact ⟨(Enqueued.overflow.inj same).symm, full, alone⟩
    · rintro ⟨rfl, -, -⟩
      rfl
  | joins alone room =>
    refine ⟨nofun, fun ⟨_, full, _⟩ => ?_⟩
    exact absurd room (Nat.not_lt_of_le full)

theorem unchanged (puts : Puts outbox event now put) (overflow : put.2 = .overflow event) : put.1 = outbox := by
  cases puts with
  | cancels => exact absurd overflow nofun
  | overflows => rfl
  | joins => exact absurd overflow nofun

theorem length_le (puts : Puts outbox event now put) : put.1.length ≤ max outbox.length 256 := by
  cases puts with
  | @cancels kept d last =>
    have shorter : kept.length ≤ outbox.length := by
      rw [last, List.length_append]
      exact Nat.le_add_right ..
    exact Nat.le_trans shorter (Nat.le_max_left ..)
  | overflows => exact Nat.le_max_left ..
  | joins alone room =>
    rw [List.length_append, List.length_singleton]
    omega

theorem effect_of_queued (puts : Puts outbox event now put) (queued : put.2 = .queued) :
    put.1.map (·.event) = outbox.map (·.event) ++ [event] := by
  cases puts with
  | cancels => exact absurd queued nofun
  | overflows => exact absurd queued nofun
  | joins => rw [List.map_append]; rfl

/-- Where an opening and the end of its alert cancel each other, the rest leads to the same open alerts, if the alert is
heard of nowhere else. -/
theorem effect_of_collapsed (puts : Puts outbox event now put) {opening : Event} (collapsed : put.2 = .collapsed opening)
    {s : AlertStore} (absent : ¬ s.Holds opening.alertId) (elsewhere : ∀ d ∈ put.1, d.event.alertId ≠ opening.alertId) :
    (s.receiveAll (put.1.map (·.event))).SameOpen (s.receiveAll (outbox.map (·.event) ++ [event])) := by
  cases puts with
  | overflows => exact absurd collapsed nofun
  | joins => exact absurd collapsed nofun
  | @cancels kept d last cancels =>
    obtain rfl := Enqueued.collapsed.inj collapsed
    obtain ⟨-, alert, opening, closes⟩ := cancels
    rw [opening] at absent elsewhere
    have others : ∀ e ∈ kept.map (·.event), e.alertId ≠ alert.id := by
      intro e mem
      obtain ⟨other, there, rfl⟩ := List.mem_map.mp mem
      exact elsewhere other there
    have whole : outbox.map (·.event) ++ [event] = kept.map (·.event) ++ [.opened alert, event] := by
      rw [last, List.map_append, List.append_assoc, List.map_singleton, opening]
      rfl
    rw [whole, AlertStore.receiveAll_append]
    exact AlertStore.sameOpen_opened_resolved (AlertStore.not_holds_receiveAll absent others) closes

end Puts

/-- Whatever an outbox holds, and whatever is stored: once all that waits has arrived, the alerts that are open are the
same with an event that was put into the outbox as with one that is sent behind it, if an alert that is cancelled is
heard of nowhere else. Only an opening that was never tried, and is last, is taken out; the rest stays as it is and
in its order. There is no room for an event just if 256 others wait and it cancels none, and then nothing changes. -/
theorem enqueue_keeps_effect (outbox : Outbox) (event : Event) (now : Duration) :
    let put := outbox.enqueue event now
    let arrived (s : AlertStore) := s.receiveAll (put.1.map (·.event))
    let plain (s : AlertStore) := s.receiveAll (outbox.map (·.event) ++ [event])
    (put.2 = .queued → ∀ s, arrived s = plain s) ∧
      (∀ opening, put.2 = .collapsed opening → ∀ s : AlertStore, ¬ s.Holds opening.alertId →
        (∀ d ∈ put.1, d.event.alertId ≠ opening.alertId) →
          (arrived s).SameOpen (plain s) ∧ ∀ alert, alert ∈ (arrived s).openAlerts ↔ alert ∈ (plain s).openAlerts) ∧
      put.1.filter (0 < ·.failures) = outbox.filter (0 < ·.failures) ∧
      (∃ kept gone new, outbox = kept ++ gone ∧ put.1 = kept ++ new ∧ (∀ d ∈ new, d = .queued event now) ∧
        ∀ d ∈ gone, d.CancelledBy event ∧ put.2 = .collapsed d.event) ∧
      (∀ e, put.2 = .overflow e ↔ e = event ∧ 256 ≤ outbox.length ∧ ∀ d ∈ outbox.getLast?, ¬ d.CancelledBy event) ∧
      (put.2 = .overflow event → put.1 = outbox) ∧
      put.1.length ≤ max outbox.length 256 := by
  intro put arrived plain
  have puts : Puts outbox event now put := outbox.puts_enqueue event now
  refine ⟨fun queued s => ?_, fun opening collapsed s absent elsewhere => ?_, puts.tried, puts.parts, puts.overflow_iff,
    puts.unchanged, puts.length_le⟩
  · exact congrArg s.receiveAll (puts.effect_of_queued queued)
  · have same : (arrived s).SameOpen (plain s) := puts.effect_of_collapsed collapsed absent elsewhere
    exact ⟨same, fun alert => same.mem_openAlerts⟩

/-- The front was tried, and the end of the alert that waits behind it comes: both are gone, and what is left leads to
the same as everything would. -/
theorem enqueue_keeps_effect_flapping :
    let alert (id : AlertId) : Alert := .ofRule id default 0 default
    let front : Delivery := { event := .opened (alert "a"), failures := 1, dueAt := 0 }
    let outbox : Outbox := [front, .queued (.opened (alert "b")) 0]
    let event : Event := .resolved "b" "" default .recovered
    let s := AlertStore.empty.insert (alert "c")
    (outbox.enqueue event 0).2 = .collapsed (.opened (alert "b")) ∧
      (s.receiveAll ((outbox.enqueue event 0).1.map (·.event))).SameOpen
        (s.receiveAll (outbox.map (·.event) ++ [event])) := by
  intro alert front outbox event s
  have collapsed : (outbox.enqueue event 0).2 = .collapsed (.opened (alert "b")) := by decide +kernel
  have absent : ¬ s.Holds "b" := fun held => absurd ((AlertStore.contains_iff s "b").mpr held) (by decide +kernel)
  have elsewhere : ∀ d ∈ (outbox.enqueue event 0).1, d.event.alertId ≠ "b" := by decide +kernel
  have keeps := outbox.enqueue_keeps_effect event 0
  exact ⟨collapsed, (keeps.2.1 _ collapsed s absent elsewhere).1⟩

end Outbox

end ThresholdAlerts
