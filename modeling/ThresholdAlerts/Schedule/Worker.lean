import ThresholdAlerts.Engine.Thread
/-! Background workers. A worker ticks: the next tick is one period after the last one was due, or after
the present if that was missed by too much. The retry worker makes a pass right away and then at each
tick; the refresh worker fetches the rules at each tick and heeds an order to stop before it does. -/
namespace ThresholdAlerts

inductive Worker where
  | fresh
  /-- Waits for its next tick. -/
  | idle (tick : Duration) (ticket : Ticket)
  /-- Makes its call; the next tick is known. -/
  | busy (tick : Duration) (call : CallThread Unit)
  | stopped

namespace Worker

/-- A tick that is late by more than this is given up. -/
def lateness : Duration := Duration.ofMillis 5

def nextTick (tick period now : Duration) : Duration :=
  if tick + lateness < now then now + period else tick + period

/-- More ticks than may be due at once. -/
def ticksAtOnce (period : Duration) : Nat :=
  lateness.nanos / period.nanos + 3

/-- What a worker does at a tick. -/
def task : WorkerKind → Prog Visit Unit
  | .retry => do let _ ← retry
  | .refresh => do let _ ← refresh

/-- Does what is to be done at a tick, and at those after it that are due as well, at most `ticks`
of them. -/
def await (order : WorkerOrder) : Nat → Duration → World → World × Worker
  | 0, tick, w =>
    let (w, ticket) := w.takeTicket
    (w, .idle tick ticket)
  | ticks + 1, tick, w =>
    if w.clock < tick then
      let (w, ticket) := w.takeTicket
      (w, .idle tick ticket)
    else if order.kind = .refresh && !order.running then (w.moved, .stopped)
    else
      let next := nextTick tick order.period w.clock
      match CallThread.start (task order.kind) w.moved with
      | (w, .finished _) => if order.running then await order ticks next w else (w, .stopped)
      | (w, call) => (w, .busy next call)

/-- Waits for a tick, or does at once what is to be done then. -/
def awaitTick (order : WorkerOrder) (tick : Duration) (w : World) : World × Worker :=
  await order (ticksAtOnce order.period) tick w

/-- Lets a worker go on until it has to wait. One without a period never ticks. -/
def poll (order : WorkerOrder) (w : World) : Worker → World × Worker
  | .fresh =>
    if !order.running || order.period = 0 then (w.moved, .stopped)
    else
      match order.kind with
      | .retry => awaitTick order w.clock w
      | .refresh => awaitTick order (w.clock + order.period) w
  | .idle tick ticket =>
    if tick ≤ w.clock then awaitTick order tick w else (w, .idle tick ticket)
  | .busy tick call =>
    match call.poll w with
    | (w, .finished _) => if order.running then awaitTick order tick w else (w, .stopped)
    | (w, call) => (w, .busy tick call)
  | .stopped => (w, .stopped)

def tickets (order : WorkerOrder) : Worker → List Ticket
  | .fresh => [order.ticket]
  | .idle _ ticket => [ticket]
  | .busy _ call => call.tickets
  | .stopped => []

/-- What may move a worker on though nothing else happens, and what it waits for that with. -/
def alarms : Worker → List (Alarm × Ticket)
  | .idle tick ticket => [(.moment tick, ticket)]
  | .busy _ call => call.alarms
  | _ => []

end Worker

end ThresholdAlerts
