import Mathlib.Data.List.Basic
import ThresholdAlerts.Ingest.Dispatcher
/-! The workers of a dispatcher and their queues. Main statements: what a worker can get when it asks for a sample,
and what becomes of the counts when a sample is evaluated and when they are added up one after the other. -/
namespace ThresholdAlerts

section Lanes

variable {worker : Nat} {x : Sample} {events : List Event}

/-! ### Counting -/

theorem DispatchSummary.count_add (s t : DispatchSummary) (events : List Event) :
    (s.add t).count events = s.add (t.count events) := by
  rw [count, add, add, count, add, add, DispatchSummary.mk.injEq]
  exact ⟨Nat.add_assoc .., Nat.add_assoc ..⟩

theorem DispatchSummary.count_comm (s t : DispatchSummary) (events : List Event) :
    (s.count events).add t = (s.add t).count events := by
  rw [count, add, add, count, add, add, DispatchSummary.mk.injEq]
  exact ⟨Nat.add_right_comm .., Nat.add_right_comm ..⟩

namespace Lane

theorem total_concat (lanes : List Lane) (lane : Lane) : total (lanes ++ [lane]) = (total lanes).add lane.summary :=
  List.foldl_concat ..

theorem total_set {lanes : List Lane} {lane lane' : Lane} {f : DispatchSummary → DispatchSummary}
    (there : lanes[worker]? = some lane) (here : ∀ s : DispatchSummary, s.add lane'.summary = f (s.add lane.summary))
    (later : ∀ s t, (f s).add t = f (s.add t)) : total (lanes.set worker lane') = f (total lanes) := by
  rw [total, total]
  generalize ({} : DispatchSummary) = before
  induction lanes generalizing worker before with
  | nil => exact absurd there nofun
  | cons first rest ih =>
    cases worker with
    | zero =>
      obtain rfl := Option.some.inj there
      rw [List.set_cons_zero, List.foldl_cons, List.foldl_cons, here]
      exact List.foldl_hom f fun s lane => later s lane.summary
    | succ worker =>
      rw [List.set_cons_succ, List.foldl_cons, List.foldl_cons]
      exact ih there _

theorem total_replicate (workers : Nat) : total (List.replicate workers {}) = {} := by
  induction workers with
  | zero => rfl
  | succ workers ih => exact ih

end Lane

namespace Dispatcher

variable {d d' : Dispatcher}

/-! ### Lanes -/

@[simp] theorem size_setLane (d : Dispatcher) (worker : Nat) (lane : Lane) : (d.setLane worker lane).size = d.size :=
  List.length_set

@[simp] theorem workerOf_setLane (d : Dispatcher) (worker : Nat) (lane : Lane) (metric : String) :
    (d.setLane worker lane).workerOf metric = d.workerOf metric := by
  rw [workerOf, size_setLane, workerOf]

@[simp] theorem size_setQueue (d : Dispatcher) (worker : Nat) (waiting : List Sample) :
    (d.setQueue worker waiting).size = d.size :=
  size_setLane ..

@[simp] theorem workerOf_setQueue (d : Dispatcher) (worker : Nat) (waiting : List Sample) (metric : String) :
    (d.setQueue worker waiting).workerOf metric = d.workerOf metric :=
  workerOf_setLane ..

@[simp] theorem size_finish (d : Dispatcher) (worker : Nat) (events : List Event) :
    (d.finish worker events).size = d.size :=
  size_setLane ..

@[simp] theorem workerOf_finish (d : Dispatcher) (worker : Nat) (events : List Event) (metric : String) :
    (d.finish worker events).workerOf metric = d.workerOf metric :=
  workerOf_setLane ..

theorem workerOf_lt (workers : 0 < d.size) (metric : String) : d.workerOf metric < d.size :=
  Partition.ofKey_lt d.size metric workers

theorem lane_of_get {lane : Lane} (there : d.lanes[worker]? = some lane) : d.lane worker = lane := by
  rw [Dispatcher.lane, List.getD_eq_getElem?_getD, there, Option.getD_some]

theorem get_lane (inside : worker < d.size) : d.lanes[worker]? = some (d.lane worker) := by
  rw [lane_of_get (List.getElem?_eq_getElem inside)]
  exact List.getElem?_eq_getElem inside

theorem lane_of_le (beyond : d.size ≤ worker) : d.lane worker = { ended := true } := by
  rw [Dispatcher.lane, List.getD_eq_getElem?_getD, List.getElem?_eq_none beyond, Option.getD_none]

theorem lane_setLane {lane : Lane} (inside : worker < d.size) (worker' : Nat) :
    (d.setLane worker lane).lane worker' = if worker' = worker then lane else d.lane worker' := by
  rw [Dispatcher.lane, setLane, List.getD_eq_getElem?_getD, List.getElem?_set, Dispatcher.lane,
    List.getD_eq_getElem?_getD]
  by_cases same : worker = worker'
  · subst same
    rw [if_pos rfl, if_pos (show worker < d.lanes.length from inside), if_pos rfl, Option.getD_some]
  · rw [if_neg same, if_neg (Ne.symm same)]

theorem queue_setQueue {waiting : List Sample} (inside : worker < d.size) (worker' : Nat) :
    (d.setQueue worker waiting).queue worker' = if worker' = worker then waiting else d.queue worker' := by
  rw [queue, setQueue, lane_setLane inside, queue]
  split <;> rfl

theorem queue_setLane {lane : Lane} (same : lane.queue = d.queue worker) (worker' : Nat) :
    (d.setLane worker lane).queue worker' = d.queue worker' := by
  by_cases inside : worker < d.size
  · rw [queue, lane_setLane inside, queue]
    split
    · next here => rw [same, here, queue]
    · rfl
  · rw [queue, setLane, List.set_eq_of_length_le (Nat.le_of_not_lt inside), queue]

@[simp] theorem queue_finish (d : Dispatcher) (worker : Nat) (events : List Event) (worker' : Nat) :
    (d.finish worker events).queue worker' = d.queue worker' :=
  queue_setLane (by rfl) worker'

/-- Only workers that are there have samples waiting. -/
theorem inside_of_waits {rest : List Sample} (waits : d.queue worker = x :: rest) : worker < d.size := by
  refine Nat.lt_of_not_le fun beyond => ?_
  rw [queue, lane_of_le beyond] at waits
  exact absurd waits nofun

theorem inside_of_busy (busy : (d.lane worker).ended = false) : worker < d.size := by
  refine Nat.lt_of_not_le fun beyond => ?_
  rw [lane_of_le beyond] at busy
  exact absurd busy nofun

@[simp] theorem size_make (workers capacity : Nat) : (make workers capacity).size = max workers 1 :=
  List.length_replicate

theorem lane_make {workers capacity : Nat} (inside : worker < (make workers capacity).size) :
    (make workers capacity).lane worker = {} :=
  lane_of_get (List.getElem?_replicate_of_lt (size_make workers capacity ▸ inside))

theorem queue_make (workers capacity worker : Nat) : (make workers capacity).queue worker = [] := by
  rcases Nat.lt_or_ge worker (make workers capacity).size with inside | beyond
  · rw [queue, lane_make inside]
  · rw [queue, lane_of_le beyond]

theorem summary_make (workers capacity : Nat) : (make workers capacity).summary = {} :=
  Lane.total_replicate _

/-! ### What a worker gets -/

theorem put_ok (h : d.put x = .ok d') : (d.lane (d.workerOf x.metricKey)).ended = false ∧
    d' = d.setQueue (d.workerOf x.metricKey) (d.queue (d.workerOf x.metricKey) ++ [x]) := by
  simp only [put] at h
  split at h
  · cases h
  · next busy => exact ⟨Bool.eq_false_iff.mpr busy, (Except.ok.inj h).symm⟩

theorem put_of_busy (busy : (d.lane (d.workerOf x.metricKey)).ended = false) :
    d.put x = .ok (d.setQueue (d.workerOf x.metricKey) (d.queue (d.workerOf x.metricKey) ++ [x])) := by
  simp only [put, busy, Bool.false_eq_true, if_false]

theorem receive_sample (h : d.receive worker = some (some x, d')) :
    ∃ rest, d.queue worker = x :: rest ∧ d' = d.setQueue worker rest := by
  rw [receive] at h
  split at h
  · next x' rest waits =>
    obtain ⟨same, rfl⟩ := Prod.mk.inj (Option.some.inj h)
    exact ⟨rest, Option.some.inj same ▸ waits, rfl⟩
  · split at h
    · cases h
    · exact absurd (Prod.mk.inj (Option.some.inj h)).1 nofun

theorem receive_none (h : d.receive worker = some (none, d')) : d.isOpen = false ∧ d.queue worker = [] ∧
    (d.lane worker).ended = false ∧ d' = d.setLane worker { d.lane worker with ended := true } := by
  rw [receive] at h
  split at h
  · exact absurd (Prod.mk.inj (Option.some.inj h)).1 nofun
  · next empty =>
    split at h
    · cases h
    · next ends =>
      rw [Bool.or_eq_true, not_or, Bool.not_eq_true, Bool.not_eq_true] at ends
      exact ⟨ends.1, empty, ends.2, (Prod.mk.inj (Option.some.inj h)).2.symm⟩

theorem join?_eq_some {summary : DispatchSummary} (h : d.join? worker = some summary) :
    worker < d.size ∧ (d.lane worker).ended = true ∧ summary = (d.lane worker).summary := by
  obtain ⟨lane, there, h⟩ := Option.bind_eq_some_iff.mp h
  rw [lane_of_get there]
  split at h
  · next ended => exact ⟨(List.getElem?_eq_some_iff.mp there).1, ended, (Option.some.inj h).symm⟩
  · cases h

theorem join?_of_ended (inside : worker < d.size) (ended : (d.lane worker).ended = true) :
    d.join? worker = some (d.lane worker).summary := by
  rw [join?, get_lane inside, Option.bind_some, if_pos ended]

theorem summary_setLane {lane : Lane} (inside : worker < d.size) (same : lane.summary = (d.lane worker).summary) :
    (d.setLane worker lane).summary = d.summary :=
  Lane.total_set (f := id) (get_lane inside) (fun _ => congrArg _ same) fun _ _ => rfl

theorem summary_setQueue (inside : worker < d.size) (waiting : List Sample) :
    (d.setQueue worker waiting).summary = d.summary :=
  summary_setLane inside rfl

theorem summary_finish (inside : worker < d.size) (events : List Event) :
    (d.finish worker events).summary = d.summary.count events :=
  Lane.total_set (get_lane inside) (fun s => (DispatchSummary.count_add s _ events).symm) fun s t =>
    DispatchSummary.count_comm s t events

end Dispatcher

end Lanes

end ThresholdAlerts
