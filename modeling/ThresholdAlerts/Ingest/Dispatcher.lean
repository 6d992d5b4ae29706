import ThresholdAlerts.Engine.Run
import ThresholdAlerts.Ingest.Error
import ThresholdAlerts.Ingest.Partition
import ThresholdAlerts.Ingest.Sample
/-! Spreading samples over workers. The worker of a sample is determined by its metric key, so that the
samples of one key are evaluated in the order in which they came. Each worker has a bounded queue;
whoever sends to a full one waits until the worker has taken its oldest sample. At the end the queues
are closed, each worker evaluates what is left in its own, and the counts of all of them are added up. -/
namespace ThresholdAlerts

structure DispatchSummary where
  samples : Nat := 0
  events : Nat := 0
deriving DecidableEq, Repr

namespace DispatchSummary

def add (s t : DispatchSummary) : DispatchSummary :=
  { samples := s.samples + t.samples, events := s.events + t.events }

def count (s : DispatchSummary) (events : List Event) : DispatchSummary :=
  s.add { samples := 1, events := events.length }

end DispatchSummary

/-- A worker and its queue. -/
structure Lane where
  /-- The samples that wait, the oldest first. -/
  queue : List Sample := []
  /-- What the worker has counted. -/
  summary : DispatchSummary := {}
  /-- Whether the worker knows that nothing more comes. It is done then. -/
  ended : Bool := false
deriving Repr

/-- What some workers have counted together. -/
def Lane.total (lanes : List Lane) : DispatchSummary :=
  lanes.foldl (fun total lane => total.add lane.summary) {}

structure Dispatcher where
  capacity : Nat
  lanes : List Lane
  /-- Whether the queues are still sent to. -/
  isOpen : Bool := true
deriving Repr

namespace Dispatcher

def usualCapacity : Nat := 1024

/-- A dispatcher has a worker, and each queue has room for a sample. Neither number has an upper bound
here; where memory is finite every worker takes some, and no queue is made for more than 2⁶¹ - 1
samples. -/
def make (workers capacity : Nat) : Dispatcher :=
  { capacity := max capacity 1, lanes := List.replicate (max workers 1) {} }

def size (d : Dispatcher) : Nat :=
  d.lanes.length

def workerOf (d : Dispatcher) (metric : String) : Nat :=
  Partition.ofKey d.size metric

/-- A worker that does not exist counts as one that is done. -/
def lane (d : Dispatcher) (worker : Nat) : Lane :=
  d.lanes.getD worker { ended := true }

def setLane (d : Dispatcher) (worker : Nat) (lane : Lane) : Dispatcher :=
  { d with lanes := d.lanes.set worker lane }

def queue (d : Dispatcher) (worker : Nat) : List Sample :=
  (d.lane worker).queue

def setQueue (d : Dispatcher) (worker : Nat) (samples : List Sample) : Dispatcher :=
  d.setLane worker { d.lane worker with queue := samples }

def summary (d : Dispatcher) : DispatchSummary :=
  Lane.total d.lanes

def hasRoom (d : Dispatcher) (worker : Nat) : Bool :=
  (d.queue worker).length < d.capacity

/-- Puts a sample into the queue of its worker. A worker that is done takes none. -/
def put (x : Sample) (d : Dispatcher) : Except IngestError Dispatcher :=
  let worker := d.workerOf x.metricKey
  if (d.lane worker).ended then .error (.workerStopped worker)
  else .ok (d.setQueue worker (d.queue worker ++ [x]))

def close (d : Dispatcher) : Dispatcher :=
  { d with isOpen := false }

/-- What a worker that asks for a sample gets: the oldest of its queue, or none once the queue is closed
and empty. Nothing is answered while it has to wait. -/
def receive (worker : Nat) (d : Dispatcher) : Option (Option Sample × Dispatcher) :=
  match d.queue worker with
  | x :: rest => some (some x, d.setQueue worker rest)
  | [] =>
    if d.isOpen || (d.lane worker).ended then none
    else some (none, d.setLane worker { d.lane worker with ended := true })

/-- A worker counts a sample that it evaluated. -/
def finish (worker : Nat) (events : List Event) (d : Dispatcher) : Dispatcher :=
  d.setLane worker { d.lane worker with summary := (d.lane worker).summary.count events }

def join? (d : Dispatcher) (worker : Nat) : Option DispatchSummary :=
  (d.lanes[worker]?).bind fun lane => if lane.ended then some lane.summary else none

/-! The workers at work, one after the other and each for as long as its calls take. -/

/-- A worker asks for a sample and evaluates what it gets. -/
def serve (worker : Nat) (w : World) (d : Dispatcher) : World × Dispatcher :=
  match d.receive worker with
  | none => (w, d)
  | some (none, d) => (w, d)
  | some (some x, d) =>
    let (w, events) := w.sample x.metricKey x.value x.time
    (w, d.finish worker events)

/-- A worker asks for samples so many times. -/
def work (worker : Nat) : Nat → World → Dispatcher → World × Dispatcher
  | 0, w, d => (w, d)
  | n + 1, w, d =>
    let (w, d) := d.serve worker w
    d.work worker n w

/-- Hands a sample to its worker, once that has made room for it. -/
def send (x : Sample) (w : World) (d : Dispatcher) : Except IngestError (World × Dispatcher) := do
  let worker := d.workerOf x.metricKey
  let (w, d) := d.work worker ((d.queue worker).length + 1 - d.capacity) w
  return (w, ← d.put x)

/-- Hands over samples up to the first that is not taken. -/
def sendAll : List Sample → World → Dispatcher → World × Dispatcher
  | [], w, d => (w, d)
  | x :: rest, w, d =>
    match d.send x w with
    | .ok (w, d) => d.sendAll rest w
    | .error _ => (w, d)

/-- Some workers empty their queues. -/
def drainEach : List Nat → World → Dispatcher → World × Dispatcher
  | [], w, d => (w, d)
  | worker :: rest, w, d =>
    let (w, d) := d.work worker (d.queue worker).length w
    d.drainEach rest w

def drain (w : World) (d : Dispatcher) : World × Dispatcher :=
  d.drainEach (List.range d.size) w

/-- Waits for one worker after the other to be done, and adds up what they counted. One that did not end
as it should adds nothing. -/
def joinEach : List Nat → World → Dispatcher → DispatchSummary → World × Dispatcher × DispatchSummary
  | [], w, d, total => (w, d, total)
  | worker :: rest, w, d, total =>
    let (w, d) := d.work worker ((d.queue worker).length + 1) w
    d.joinEach rest w (total.add ((d.join? worker).getD {}))

/-- Closes the queues and waits for all that is in them to be evaluated. -/
def shutdown (w : World) (d : Dispatcher) : World × Dispatcher × DispatchSummary :=
  d.close.joinEach (List.range d.size) w {}

end Dispatcher

end ThresholdAlerts
