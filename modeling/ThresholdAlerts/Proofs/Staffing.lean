import ThresholdAlerts.Proofs.Evaluations
import ThresholdAlerts.Proofs.Lanes
/-! A dispatcher with its workers at work. The producer hands samples to the queues of their workers, closes the
queues and waits for one worker after the other. A worker that is free asks for a sample and makes a call for it, and
the calls of the workers move in any order. Main statements: no sample is refused, and while no call is under way there
is something to do until all workers are joined; by then every sample was taken and is done, and the sum that was
drawn up counts what all of them have counted. -/
namespace ThresholdAlerts

open Function Relation

/-- What the producer is at. -/
inductive Producer where
  /-- It hands over samples. Whether these are the last is told with them. -/
  | handing (coming : List Sample) (last : Bool)
  /-- It has closed the queues and waits for a worker; those before it are done and have counted so much. -/
  | joining (worker : Nat) (total : DispatchSummary)
  /-- A sample was not taken. -/
  | refused (cause : IngestError)

def Producer.coming : Producer → List Sample
  | .handing coming _ => coming
  | _ => []

/-- A dispatcher in a world, and what its producer and each of its workers are at. -/
structure Workshop where
  world : World
  dispatcher : Dispatcher
  producer : Producer
  busy : Nat → Option (Sample × CallThread Reply) := fun _ => none

namespace Workshop

/-- A dispatcher has just been set up for some samples. -/
def opened (w : World) (workers capacity : Nat) (samples : List Sample) : Workshop :=
  { world := w, dispatcher := .make workers capacity, producer := .handing samples true }

/-- What happens in a workshop. -/
inductive Step (outside : World → World → Prop) (s : Workshop) : Workshop → Prop
  | hand {x coming last dispatcher} (next : s.producer = .handing (x :: coming) last)
      (room : s.dispatcher.hasRoom (s.dispatcher.workerOf x.metricKey) = true)
      (put : s.dispatcher.put x = .ok dispatcher) :
      Step outside s { s with dispatcher, producer := .handing coming last }
  | refuse {x coming last cause} (next : s.producer = .handing (x :: coming) last)
      (put : s.dispatcher.put x = .error cause) : Step outside s { s with producer := .refused cause }
  | close (handed : s.producer = .handing [] true) :
      Step outside s { s with dispatcher := s.dispatcher.close, producer := .joining 0 {} }
  | join {worker total counted} (waits : s.producer = .joining worker total)
      (ended : s.dispatcher.join? worker = some counted) :
      Step outside s { s with producer := .joining (worker + 1) (total.add counted) }
  | take {worker x dispatcher} (free : s.busy worker = none)
      (gets : s.dispatcher.receive worker = some (some x, dispatcher)) :
      Step outside s { s with dispatcher, busy := update s.busy worker (some (x, .ready x.call.program)) }
  | leave {worker dispatcher} (free : s.busy worker = none)
      (gets : s.dispatcher.receive worker = some (none, dispatcher)) : Step outside s { s with dispatcher }
  | move {worker x c w' c'} (there : s.busy worker = some (x, c)) (move : CallThread.Move s.world c w' c') :
      Step outside s { s with world := w', busy := update s.busy worker (some (x, c')) }
  | finish {worker x events} (there : s.busy worker = some (x, .finished (.events events))) :
      Step outside s { s with
        dispatcher := s.dispatcher.finish worker events, busy := update s.busy worker none }
  | outside {w'} (change : outside s.world w') : Step outside s { s with world := w' }

def Run (outside : World → World → Prop) : Workshop → Workshop → Prop :=
  ReflTransGen (Step outside)

/-- Everything was handed over, and all that was handed over is done. -/
structure Shut (s : Workshop) : Prop where
  coming : s.producer.coming = []
  queues : ∀ worker, s.dispatcher.queue worker = []
  busy : ∀ worker, s.busy worker = none

/-- The producer has waited for all workers, and they have counted so much. -/
def Joined (s : Workshop) (total : DispatchSummary) : Prop :=
  s.producer = .joining s.dispatcher.size total

end Workshop

/-- How far the producer is with a dispatcher. -/
def Producer.Fits (d : Dispatcher) : Producer → Prop
  | .handing _ _ => d.isOpen = true
  | .joining worker total => d.isOpen = false ∧ worker ≤ d.size ∧ (∀ k < worker, (d.lane k).ended = true) ∧
      total = Lane.total (d.lanes.take worker)
  | .refused _ => False

/-- Workers that are done have nothing left, and none of them is done as long as the queues are open. -/
structure Workshop.Staffed (s : Workshop) : Prop where
  workers : 0 < s.dispatcher.size
  room : 0 < s.dispatcher.capacity
  spent : ∀ worker, (s.dispatcher.lane worker).ended = true → s.dispatcher.queue worker = [] ∧ s.busy worker = none
  works : s.dispatcher.isOpen = true → ∀ worker < s.dispatcher.size, (s.dispatcher.lane worker).ended = false
  producer : s.producer.Fits s.dispatcher

section Staffing

variable {outside : World → World → Prop} {s s' : Workshop} {d : Dispatcher} {worker : Nat} {total : DispatchSummary}

theorem Producer.Fits.setLane {p : Producer} (fits : p.Fits d) (busy : (d.lane worker).ended = false) (lane : Lane) :
    p.Fits (d.setLane worker lane) := by
  cases p with
  | handing coming last => exact fits
  | refused cause => exact fits
  | joining next total =>
    obtain ⟨closed, inside, done, sum⟩ := fits
    -- The workers that are joined are done, and this one is not among them.
    have later : next ≤ worker := Nat.le_of_not_lt fun before => absurd (done worker before) (by simp [busy])
    refine ⟨closed, (Dispatcher.size_setLane ..).symm ▸ inside, fun k before => ?_, ?_⟩
    · rw [Dispatcher.lane_setLane (Dispatcher.inside_of_busy busy),
        if_neg (Nat.ne_of_lt (Nat.lt_of_lt_of_le before later))]
      exact done k before
    · rw [Dispatcher.setLane, List.take_set_of_le later, sum]

namespace Workshop

theorem staffed_opened (w : World) (workers capacity : Nat) (samples : List Sample) :
    (opened w workers capacity samples).Staffed where
  workers := (Dispatcher.size_make workers capacity).symm ▸ Nat.lt_of_lt_of_le Nat.one_pos (Nat.le_max_right ..)
  room := Nat.lt_of_lt_of_le Nat.one_pos (Nat.le_max_right ..)
  spent _ _ := ⟨Dispatcher.queue_make .., rfl⟩
  works _ _ inside := congrArg Lane.ended (Dispatcher.lane_make inside)
  producer := rfl

namespace Staffed

/-- A worker that is not done has to do with its queue. -/
theorem setLane (staffed : s.Staffed) (busy : (s.dispatcher.lane worker).ended = false) {lane : Lane}
    {producer : Producer} {taken : Nat → Option (Sample × CallThread Reply)} (fits : producer.Fits s.dispatcher)
    (others : ∀ k ≠ worker, taken k = s.busy k)
    (spent : lane.ended = true → s.dispatcher.isOpen = false ∧ lane.queue = [] ∧ taken worker = none) :
    Staffed { s with dispatcher := s.dispatcher.setLane worker lane, producer, busy := taken } where
  workers := (Dispatcher.size_setLane ..).symm ▸ staffed.workers
  room := staffed.room
  spent worker' ended := by
    have inside := Dispatcher.inside_of_busy busy
    simp only [Dispatcher.queue, Dispatcher.lane_setLane inside] at ended ⊢
    by_cases here : worker' = worker
    · subst here
      rw [if_pos rfl] at ended ⊢
      exact (spent ended).2
    · rw [if_neg here] at ended ⊢
      rw [others worker' here]
      exact staffed.spent worker' ended
  works isOpen worker' inside := by
    rw [Dispatcher.size_setLane] at inside
    rw [Dispatcher.lane_setLane (Dispatcher.inside_of_busy busy)]
    split
    · exact Bool.eq_false_iff.mpr fun ended => absurd ((spent ended).1.symm.trans isOpen) Bool.false_ne_true
    · exact staffed.works isOpen worker' inside
  producer := fits.setLane busy lane

theorem at_world (staffed : s.Staffed) (w : World) : Staffed { s with world := w } :=
  ⟨staffed.workers, staffed.room, staffed.spent, staffed.works, staffed.producer⟩

theorem told_more {coming coming' : List Sample} {last last' : Bool} (staffed : s.Staffed)
    (before : s.producer = .handing coming last) : Staffed { s with producer := .handing coming' last' } := by
  have fits := staffed.producer
  rw [before] at fits
  exact ⟨staffed.workers, staffed.room, staffed.spent, staffed.works, fits⟩

theorem busy_of_waits {x : Sample} {rest : List Sample} (staffed : s.Staffed)
    (waits : s.dispatcher.queue worker = x :: rest) : (s.dispatcher.lane worker).ended = false :=
  Bool.eq_false_iff.mpr fun ended => absurd ((staffed.spent worker ended).1.symm.trans waits) nofun

theorem busy_of_taken {p : Sample × CallThread Reply} (staffed : s.Staffed) (there : s.busy worker = some p) :
    (s.dispatcher.lane worker).ended = false :=
  Bool.eq_false_iff.mpr fun ended => absurd ((staffed.spent worker ended).2.symm.trans there) nofun

theorem accepts {x : Sample} {coming : List Sample} {last : Bool} (staffed : s.Staffed)
    (next : s.producer = .handing (x :: coming) last) :
    (s.dispatcher.lane (s.dispatcher.workerOf x.metricKey)).ended = false := by
  have fits := staffed.producer
  rw [next] at fits
  exact staffed.works fits _ (Dispatcher.workerOf_lt staffed.workers x.metricKey)

theorem step (staffed : s.Staffed) (step : Step outside s s') : s'.Staffed := by
  cases step with
  | @hand x coming last d next room put =>
    obtain ⟨busy, rfl⟩ := Dispatcher.put_ok put
    have fits := staffed.producer
    rw [next] at fits
    exact staffed.setLane busy fits (fun _ _ => rfl) fun ended => absurd (busy.symm.trans ended) Bool.false_ne_true
  | @refuse x coming last cause next put =>
    rw [Dispatcher.put_of_busy (staffed.accepts next)] at put
    cases put
  | close handed =>
    exact ⟨staffed.workers, staffed.room, staffed.spent, nofun, rfl, Nat.zero_le _, nofun, rfl⟩
  | @join next total counted waits ended =>
    obtain ⟨inside, done, rfl⟩ := Dispatcher.join?_eq_some ended
    have fits := staffed.producer
    rw [waits] at fits
    obtain ⟨closed, -, before, sum⟩ := fits
    refine ⟨staffed.workers, staffed.room, staffed.spent, staffed.works, closed, inside, fun k upTo => ?_, ?_⟩
    · rcases Nat.lt_succ_iff_lt_or_eq.mp upTo with lower | rfl
      · exact before k lower
      · exact done
    · rw [List.take_add_one, Dispatcher.get_lane inside, Option.toList_some, Lane.total_concat, sum]
  | take free gets =>
    obtain ⟨rest, waits, rfl⟩ := Dispatcher.receive_sample gets
    have busy := staffed.busy_of_waits waits
    exact staffed.setLane busy staffed.producer (fun _ other => update_of_ne other ..) fun ended =>
      absurd (busy.symm.trans ended) Bool.false_ne_true
  | @leave worker d free gets =>
    obtain ⟨closed, empty, busy, rfl⟩ := Dispatcher.receive_none gets
    exact staffed.setLane busy staffed.producer (fun _ _ => rfl) fun _ => ⟨closed, empty, free⟩
  | @move worker x c w' c' there move =>
    have busy := staffed.busy_of_taken there
    refine ⟨staffed.workers, staffed.room, fun worker' ended => ?_, staffed.works, staffed.producer⟩
    have other : worker' ≠ worker := fun here => absurd (busy.symm.trans (here ▸ ended)) Bool.false_ne_true
    obtain ⟨empty, free⟩ := staffed.spent worker' ended
    exact ⟨empty, (update_of_ne other ..).trans free⟩
  | finish there =>
    have busy := staffed.busy_of_taken there
    exact staffed.setLane busy staffed.producer (fun _ other => update_of_ne other ..) fun ended =>
      absurd (busy.symm.trans ended) Bool.false_ne_true
  | outside change => exact ⟨staffed.workers, staffed.room, staffed.spent, staffed.works, staffed.producer⟩

/-- When all workers are joined, all samples were handed over and are done, and each is counted. -/
theorem shut (staffed : s.Staffed) (joined : s.Joined total) : s.Shut ∧ total = s.dispatcher.summary := by
  have fits := staffed.producer
  rw [Joined] at joined
  rw [joined] at fits
  obtain ⟨-, -, done, sum⟩ := fits
  have ended (worker : Nat) : (s.dispatcher.lane worker).ended = true := by
    rcases Nat.lt_or_ge worker s.dispatcher.size with inside | beyond
    · exact done worker inside
    · rw [Dispatcher.lane_of_le beyond]
  refine ⟨⟨by rw [joined]; rfl, fun worker => (staffed.spent worker (ended worker)).1,
    fun worker => (staffed.spent worker (ended worker)).2⟩, ?_⟩
  rw [sum, Dispatcher.size, List.take_length, Dispatcher.summary]

/-- Nothing happens in a workshop any more whose workers are joined. -/
theorem after_joined (staffed : s.Staffed) (joined : s.Joined total) (step : Step outside s s') :
    ∃ w', outside s.world w' ∧ s' = { s with world := w' } := by
  obtain ⟨⟨-, queues, idle⟩, -⟩ := staffed.shut joined
  have fits := staffed.producer
  rw [Joined] at joined
  rw [joined] at fits
  cases step with
  | hand next => exact absurd (joined.symm.trans next) nofun
  | refuse next => exact absurd (joined.symm.trans next) nofun
  | close handed => exact absurd (joined.symm.trans handed) nofun
  | join waits ended =>
    obtain ⟨rfl, -⟩ := Producer.joining.inj (joined.symm.trans waits)
    exact absurd (Dispatcher.join?_eq_some ended).1 (Nat.lt_irrefl _)
  | take free gets =>
    obtain ⟨rest, waits, -⟩ := Dispatcher.receive_sample gets
    exact absurd ((queues _).symm.trans waits) nofun
  | leave free gets =>
    obtain ⟨-, -, busy, -⟩ := Dispatcher.receive_none gets
    exact absurd ((fits.2.2.1 _ (Dispatcher.inside_of_busy busy)).symm.trans busy) nofun
  | move there => exact absurd ((idle _).symm.trans there) nofun
  | finish there => exact absurd ((idle _).symm.trans there) nofun
  | outside change => exact ⟨_, change, rfl⟩

theorem receives (free : s.busy worker = none) (busy : (s.dispatcher.lane worker).ended = false)
    (more : s.dispatcher.isOpen = true → s.dispatcher.queue worker ≠ []) : ∃ s', Step outside s s' := by
  cases waits : s.dispatcher.queue worker with
  | cons x rest =>
    have gets : s.dispatcher.receive worker = some (some x, s.dispatcher.setQueue worker rest) := by
      rw [Dispatcher.receive, waits]
    exact ⟨_, .take free gets⟩
  | nil =>
    have closed : s.dispatcher.isOpen = false := Bool.eq_false_iff.mpr fun isOpen => more isOpen waits
    have gets : s.dispatcher.receive worker =
        some (none, s.dispatcher.setLane worker { s.dispatcher.lane worker with ended := true }) := by
      rw [Dispatcher.receive, waits]
      simp only [closed, busy, Bool.or_self, Bool.false_eq_true, if_false]
    exact ⟨_, .leave free gets⟩

/-- While no call is under way there is something to do, until all workers are joined or the producer does not know
yet what is to come. -/
theorem goes_on (staffed : s.Staffed) (idle : ∀ worker, s.busy worker = none) :
    (∃ total, s.Joined total) ∨ s.producer = .handing [] false ∨ ∃ s', Step (fun _ _ => False) s s' := by
  have fits := staffed.producer
  cases at_work : s.producer with
  | refused cause =>
    rw [at_work] at fits
    exact fits.elim
  | handing coming last =>
    cases coming with
    | nil =>
      cases last with
      | false => exact .inr (.inl rfl)
      | true => exact .inr (.inr ⟨_, .close at_work⟩)
    | cons x coming =>
      have busy := staffed.accepts at_work
      refine .inr (.inr ?_)
      cases room : s.dispatcher.hasRoom (s.dispatcher.workerOf x.metricKey) with
      | true => exact ⟨_, .hand at_work room (Dispatcher.put_of_busy busy)⟩
      | false =>
        refine receives (idle _) busy fun _ empty => ?_
        rw [Dispatcher.hasRoom, empty, decide_eq_false_iff_not] at room
        exact room staffed.room
  | joining next total =>
    rw [at_work] at fits
    obtain ⟨closed, inside, -⟩ := fits
    rcases Nat.lt_or_eq_of_le inside with before | all
    · refine .inr (.inr ?_)
      cases ended : (s.dispatcher.lane next).ended with
      | true => exact ⟨_, .join at_work (Dispatcher.join?_of_ended before ended)⟩
      | false => exact receives (idle next) ended fun isOpen => absurd (closed.symm.trans isOpen) Bool.false_ne_true
    · exact .inl ⟨total, by rw [Joined, at_work, all]⟩

end Staffed

/-- A producer that was told which samples are the last keeps to it. -/
theorem Run.complete (run : Run outside s s') (known : ∀ coming, s.producer ≠ .handing coming false) (coming : List Sample) :
    s'.producer ≠ .handing coming false := by
  induction run generalizing coming with
  | refl => exact known coming
  | tail _ step ih =>
    cases step with
    | hand next room put =>
      rintro ⟨⟩
      exact ih _ next
    | refuse => exact nofun
    | close => exact nofun
    | join => exact nofun
    | _ => exact ih coming

theorem Run.staffed (run : Run outside s s') (staffed : s.Staffed) : s'.Staffed := by
  induction run with
  | refl => exact staffed
  | tail _ step ih => exact ih.step step

end Workshop

end Staffing

end ThresholdAlerts
