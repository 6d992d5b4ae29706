import ThresholdAlerts.Proofs.Completion
import ThresholdAlerts.Proofs.Staffing
/-! The workers of a dispatcher at work one after the other, each for as long as its calls take. Main statements: all
samples are handed over, and the queues are closed and the workers joined, and this is one of the courses that things
may take in a workshop. -/
namespace ThresholdAlerts

open Function Relation

namespace Dispatcher

variable {d : Dispatcher} {worker : Nat}

theorem setLane_setLane (d : Dispatcher) (worker : Nat) (lane lane' : Lane) :
    (d.setLane worker lane).setLane worker lane' = d.setLane worker lane' :=
  congrArg (fun lanes => { d with lanes }) (List.set_set ..)

theorem setLane_self (inside : worker < d.size) : d.setLane worker (d.lane worker) = d := by
  obtain ⟨there, same⟩ := List.getElem?_eq_some_iff.mp (get_lane inside)
  rw [setLane, ← same, List.set_getElem_self]

/-- A worker that is served once takes the oldest sample of its queue, or is done if the queue is closed. -/
theorem serve_spec (inside : worker < d.size) (w : World) : ∃ lane, (d.serve worker w).2 = d.setLane worker lane ∧
    lane.queue = (d.queue worker).tail ∧
    ((d.lane worker).ended = true ∨ d.isOpen = false ∧ d.queue worker = [] → lane.ended = true) := by
  rw [serve]
  split
  · next none =>
    refine ⟨d.lane worker, (setLane_self inside).symm, ?_⟩
    rw [receive] at none
    split at none
    · exact absurd none (by simp)
    · next empty =>
      rw [empty]
      split at none
      · next stays =>
        refine ⟨empty, fun either => either.elim id fun shut => ?_⟩
        simpa only [shut.1, Bool.false_or] using stays
      · exact absurd none (by simp)
  · next d' gets =>
    obtain ⟨-, empty, -, rfl⟩ := receive_none gets
    exact ⟨_, rfl, empty.symm ▸ empty, fun _ => rfl⟩
  · next x d' gets =>
    obtain ⟨rest, waits, rfl⟩ := receive_sample gets
    have left : (d.setQueue worker rest).lane worker = { d.lane worker with queue := rest } :=
      (lane_setLane inside worker).trans (if_pos rfl)
    refine ⟨_, setLane_setLane .., ?_, fun either => ?_⟩
    · rw [left, waits]
      rfl
    · rw [left]
      exact either.elim id fun shut => absurd (waits.symm.trans shut.2) (by simp)

/-- A worker takes as many samples of its queue as it is served times. When it finds a closed queue empty it is done. -/
theorem work_spec (inside : worker < d.size) (n : Nat) (w : World) :
    ∃ lane, (d.work worker n w).2 = d.setLane worker lane ∧ lane.queue = (d.queue worker).drop n ∧
      ((d.lane worker).ended = true ∨ d.isOpen = false ∧ (d.queue worker).length < n → lane.ended = true) := by
  induction n generalizing d w with
  | zero =>
    refine ⟨d.lane worker, (setLane_self inside).symm, rfl, fun either => either.elim id fun few => ?_⟩
    exact absurd few.2 (Nat.not_lt_zero _)
  | succ n ih =>
    obtain ⟨lane, served, left, ends⟩ := serve_spec inside w
    have inside' : worker < (d.serve worker w).2.size := by rwa [served, size_setLane]
    have now : (d.serve worker w).2.lane worker = lane := by rw [served, lane_setLane inside, if_pos rfl]
    obtain ⟨lane', worked, left', ends'⟩ := ih inside' (d.serve worker w).1
    rw [queue, now, left] at left' ends'
    refine ⟨lane', ?_, left'.trans List.drop_tail, fun either => ends' ?_⟩
    · exact worked.trans (by rw [served, setLane_setLane])
    · rcases either with ended | ⟨closed, few⟩
      · exact .inl (ends (.inl ended))
      · cases waits : d.queue worker with
        | nil => exact .inl (ends (.inr ⟨closed, waits⟩))
        | cons x rest =>
          rw [waits, List.length_cons] at few
          exact .inr ⟨served ▸ closed, Nat.lt_of_succ_lt_succ few⟩

theorem size_work (inside : worker < d.size) (n : Nat) (w : World) : (d.work worker n w).2.size = d.size := by
  obtain ⟨lane, worked, -⟩ := work_spec inside n w
  rw [worked, size_setLane]

theorem hasRoom_work (inside : worker < d.size) (room : 0 < d.capacity) (w : World) :
    (d.work worker ((d.queue worker).length + 1 - d.capacity) w).2.hasRoom worker = true := by
  obtain ⟨lane, worked, left, -⟩ := work_spec inside ((d.queue worker).length + 1 - d.capacity) w
  rw [worked, hasRoom, queue, lane_setLane inside, if_pos rfl, left, List.length_drop]
  have few : (d.queue worker).length - ((d.queue worker).length + 1 - d.capacity) < d.capacity := by omega
  exact decide_eq_true few

theorem ended_work (inside : worker < d.size) (closed : d.isOpen = false) (w : World) :
    ((d.work worker ((d.queue worker).length + 1) w).2.lane worker).ended = true := by
  obtain ⟨lane, worked, -, ends⟩ := work_spec inside ((d.queue worker).length + 1) w
  rw [worked, lane_setLane inside, if_pos rfl]
  exact ends (.inr ⟨closed, Nat.lt_succ_self _⟩)

end Dispatcher

theorem World.call_sample (w : World) (x : Sample) : w.call x.call =
    ((w.sample x.metricKey x.value x.time).1, .events (w.sample x.metricKey x.value x.time).2) :=
  Prog.run_bind _ _ w

namespace Workshop

/-- No call is under way, and nobody holds anything or waits for it. -/
structure Resting (s : Workshop) : Prop where
  staffed : s.Staffed
  alone : s.world.Solitary .free
  free : ∀ worker, s.busy worker = none

theorem resting_opened {w : World} (alone : w.Solitary .free) (workers capacity : Nat) (samples : List Sample) :
    (opened w workers capacity samples).Resting :=
  ⟨staffed_opened w workers capacity samples, alone, fun _ => rfl⟩

/-- What it comes to when some of the work is done. -/
def put (s : Workshop) (r : World × Dispatcher) : Workshop :=
  { s with world := r.1, dispatcher := r.2 }

section Shifts

variable {outside : World → World → Prop} {s s' : Workshop} {coming : List Sample}
  {last : Bool} {total : DispatchSummary}

theorem run_lone (idles : ∀ {w w'}, World.Idles w w' → outside w w') (s : Workshop) (worker : Nat) (x : Sample)
    {a b : World × CallThread Reply} (goes : ReflTransGen (Lone CallThread.Move) a b) :
    Run outside { s with world := a.1, busy := update s.busy worker (some (x, a.2)) }
      { s with world := b.1, busy := update s.busy worker (some (x, b.2)) } := by
  induction goes with
  | refl => exact .refl
  | @tail b c _ step ih =>
    rcases step with move | ⟨change, same⟩
    · have step : Step outside { s with world := b.1, busy := update s.busy worker (some (x, b.2)) } _ :=
        .move (update_self ..) move
      dsimp only at step
      rw [update_idem] at step
      exact ih.tail step
    · exact ih.tail (same ▸ .outside (idles change))

namespace Resting

theorem serve (idles : ∀ {w w'}, World.Idles w w' → outside w w') (rest : s.Resting) (worker : Nat) :
    Run outside s (s.put (s.dispatcher.serve worker s.world)) ∧
      (s.put (s.dispatcher.serve worker s.world)).Resting := by
  rw [Dispatcher.serve]
  split
  · exact ⟨.refl, rest⟩
  · next d gets =>
    have run : Run outside s (s.put (s.world, d)) := .single (.leave (rest.free worker) gets)
    exact ⟨run, run.staffed rest.staffed, rest.alone, rest.free⟩
  · next x d gets =>
    obtain ⟨alone, goes⟩ := World.call_lone x.call rest.alone
    rw [World.call_sample] at alone goes
    generalize s.world.sample x.metricKey x.value x.time = r at alone goes
    have taken : Step outside s _ := .take (rest.free worker) gets
    have called := run_lone idles { s with dispatcher := d } worker x goes
    have counted : Step outside { s with
        world := r.1, dispatcher := d, busy := update s.busy worker (some (x, .finished (.events r.2))) } _ :=
      .finish (update_self ..)
    have free : update (update s.busy worker (some (x, (.finished (.events r.2) : CallThread Reply)))) worker none =
        s.busy := by
      rw [update_idem, ← rest.free worker, update_eq_self]
    dsimp only at counted
    rw [free] at counted
    have run : Run outside s (s.put (r.1, d.finish worker r.2)) := (called.head taken).tail counted
    exact ⟨run, run.staffed rest.staffed, alone, rest.free⟩

theorem work (idles : ∀ {w w'}, World.Idles w w' → outside w w') (rest : s.Resting) (worker n : Nat) :
    Run outside s (s.put (s.dispatcher.work worker n s.world)) ∧
      (s.put (s.dispatcher.work worker n s.world)).Resting := by
  induction n generalizing s with
  | zero => exact ⟨.refl, rest⟩
  | succ n ih =>
    obtain ⟨run, rest'⟩ := rest.serve idles worker
    obtain ⟨run', rest''⟩ := ih rest'
    exact ⟨run.trans run', rest''⟩

theorem drainEach (idles : ∀ {w w'}, World.Idles w w' → outside w w') (rest : s.Resting) (workers : List Nat) :
    Run outside s (s.put (s.dispatcher.drainEach workers s.world)) ∧
      (s.put (s.dispatcher.drainEach workers s.world)).Resting := by
  induction workers generalizing s with
  | nil => exact ⟨.refl, rest⟩
  | cons worker workers ih =>
    obtain ⟨run, rest'⟩ := rest.work idles worker (s.dispatcher.queue worker).length
    obtain ⟨run', rest''⟩ := ih rest'
    exact ⟨run.trans run', rest''⟩

/-- A sample is taken, once there is room for it. -/
theorem send (idles : ∀ {w w'}, World.Idles w w' → outside w w') (rest : s.Resting)
    (next : s.producer = .handing (x :: coming) last) : ∃ w d, s.dispatcher.send x s.world = .ok (w, d) ∧
      Run outside s { s with world := w, dispatcher := d, producer := .handing coming last } ∧
      Resting { s with world := w, dispatcher := d, producer := .handing coming last } := by
  have inside := Dispatcher.workerOf_lt rest.staffed.workers x.metricKey
  have room := Dispatcher.hasRoom_work inside rest.staffed.room s.world
  have size := Dispatcher.size_work inside
    ((s.dispatcher.queue (s.dispatcher.workerOf x.metricKey)).length + 1 - s.dispatcher.capacity) s.world
  obtain ⟨run, rest'⟩ := rest.work idles (s.dispatcher.workerOf x.metricKey)
    ((s.dispatcher.queue (s.dispatcher.workerOf x.metricKey)).length + 1 - s.dispatcher.capacity)
  rw [Dispatcher.send]
  generalize s.dispatcher.work (s.dispatcher.workerOf x.metricKey) _ s.world = r at run rest' room size
  have home : r.2.workerOf x.metricKey = s.dispatcher.workerOf x.metricKey := by
    rw [Dispatcher.workerOf, size, Dispatcher.workerOf]
  have put := Dispatcher.put_of_busy (rest'.staffed.accepts next)
  have handed : Step outside (s.put r) _ := .hand next (home.symm ▸ room) put
  have whole : Run outside s _ := run.tail handed
  exact ⟨r.1, _, congrArg (Except.map (r.1, ·)) put, whole, whole.staffed rest.staffed, rest'.alone, rest.free⟩

theorem sendAll (idles : ∀ {w w'}, World.Idles w w' → outside w w') (rest : s.Resting)
    (next : s.producer = .handing coming last) :
    let r := s.dispatcher.sendAll coming s.world
    Run outside s { s with world := r.1, dispatcher := r.2, producer := .handing [] last } ∧
      Resting { s with world := r.1, dispatcher := r.2, producer := .handing [] last } := by
  induction coming generalizing s with
  | nil =>
    have same : s = { s with producer := .handing [] last } := by rw [← next]
    exact ⟨same ▸ .refl, same ▸ rest⟩
  | cons x coming ih =>
    obtain ⟨w, d, sent, run, rest'⟩ := rest.send idles next
    obtain ⟨run', rest''⟩ := ih rest' rfl
    rw [Dispatcher.sendAll, sent]
    exact ⟨run.trans run', rest''⟩

/-- The next worker finds its queue closed and empties it, and is joined. -/
theorem join (idles : ∀ {w w'}, World.Idles w w' → outside w w') (rest : s.Resting)
    (waits : s.producer = .joining worker total) (inside : worker < s.dispatcher.size) :
    let r := s.dispatcher.work worker ((s.dispatcher.queue worker).length + 1) s.world
    let s' : Workshop :=
      { s with world := r.1, dispatcher := r.2, producer := .joining (worker + 1) (total.add ((r.2.join? worker).getD {})) }
    Run outside s s' ∧ s'.Resting ∧ r.2.size = s.dispatcher.size := by
  intro r s'
  have fits := rest.staffed.producer
  rw [waits] at fits
  obtain ⟨run, rest'⟩ := rest.work idles worker ((s.dispatcher.queue worker).length + 1)
  have size : r.2.size = s.dispatcher.size := Dispatcher.size_work inside ..
  have ended : (r.2.lane worker).ended = true := Dispatcher.ended_work inside fits.1 s.world
  have joins := Dispatcher.join?_of_ended (size.symm ▸ inside) ended
  have joined : Step outside (s.put r) _ := .join waits joins
  have whole : Run outside s s' := by
    have counted : (r.2.join? worker).getD {} = (r.2.lane worker).summary := by rw [joins, Option.getD_some]
    change Run outside s { s with
      world := r.1, dispatcher := r.2, producer := .joining (worker + 1) (total.add ((r.2.join? worker).getD {})) }
    rw [counted]
    exact run.tail joined
  exact ⟨whole, ⟨whole.staffed rest.staffed, rest'.alone, rest.free⟩, size⟩

theorem joinEach (idles : ∀ {w w'}, World.Idles w w' → outside w w') (rest : s.Resting) {n : Nat}
    (waits : s.producer = .joining worker total) (all : worker + n = s.dispatcher.size) :
    let r := s.dispatcher.joinEach (List.range' worker n) s.world total
    let s' : Workshop := { s with world := r.1, dispatcher := r.2.1, producer := .joining r.2.1.size r.2.2 }
    Run outside s s' ∧ s'.Resting := by
  induction n generalizing s worker total with
  | zero =>
    have same : s = { s with producer := .joining s.dispatcher.size total } := by rw [← all, Nat.add_zero, ← waits]
    exact ⟨same ▸ .refl, same ▸ rest⟩
  | succ n ih =>
    obtain ⟨run, rest', size⟩ := rest.join idles waits (by omega)
    obtain ⟨run', rest''⟩ := ih rest' rfl (by rw [size]; omega)
    exact ⟨run.trans run', rest''⟩

/-- The queues are closed, and all workers are joined. -/
theorem shutdown (idles : ∀ {w w'}, World.Idles w w' → outside w w') (rest : s.Resting)
    (handed : s.producer = .handing [] true) :
    let r := s.dispatcher.shutdown s.world
    let s' : Workshop := { s with world := r.1, dispatcher := r.2.1, producer := .joining r.2.1.size r.2.2 }
    Run outside s s' ∧ s'.Resting := by
  have closes : Step outside s { s with dispatcher := s.dispatcher.close, producer := .joining 0 {} } := .close handed
  have rest' : Resting { s with dispatcher := s.dispatcher.close, producer := .joining 0 {} } :=
    ⟨rest.staffed.step closes, rest.alone, rest.free⟩
  obtain ⟨run, rest''⟩ := rest'.joinEach idles rfl (Nat.zero_add _)
  rw [← List.range_eq_range'] at run rest''
  exact ⟨run.head closes, rest''⟩

end Resting

end Shifts

end Workshop

end ThresholdAlerts
