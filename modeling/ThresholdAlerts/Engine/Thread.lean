import ThresholdAlerts.Engine.Line
import ThresholdAlerts.Engine.Run
/-! Threads: calls of the engine that are under way beside others. A thread runs until it has to wait,
and goes on when it is polled and its request is answered. The tasks that a call does side by side
are threads of their own. -/
namespace ThresholdAlerts

/-- How far a program has come. `Child` is how far a task has come that it does beside others. -/
inductive Thread (Task Child α : Type) where
  | ready (p : Prog Task α)
  | finished (a : α)
  | waiting (r : Request) (ticket : Ticket) (wait : r.Wait) (next : r.Answer → Prog Task α)
  | joining (children : List Child) (line : Line) (next : List (List Event) → Prog Task α)

structure Tasks (Task Child : Type) where
  ready : Task → Child
  poll : Child → World → World × Child
  result? : Child → Option (List Event)
  tickets : Child → List Ticket
  alarms : Child → List (Alarm × Ticket)

namespace Tasks

def members (t : Tasks T C) : Members C where
  poll := t.poll
  isFinished c := (t.result? c).isSome
  tickets := t.tickets

def results? (t : Tasks T C) (children : List C) : Option (List (List Event)) :=
  children.mapM t.result?

end Tasks

/-- Runs a program until it has to wait. -/
def Prog.advance (t : Tasks T C) : Prog T α → World → World × Thread T C α
  | .done a, w => (w, .finished a)
  | .get next, w => (next w).advance t w
  | .set w next, _ => next.advance t w
  | .ask r next, w =>
    let (w, ticket) := w.takeTicket
    let (w, wait) := r.start ticket w
    match r.poll wait w with
    | (w, .answered a) => (next a).advance t w
    | (w, .waiting wait) => (w, .waiting r ticket wait next)
  | .fork tasks next, w =>
    let children := tasks.map t.ready
    let (w, children, line) := t.members.pollGroup children (.all children.length w) w
    match t.results? children with
    | some results => (next results).advance t w
    | none => (w, .joining children line next)

namespace Thread

/-- Lets a thread go on if it can. -/
def poll (t : Tasks T C) : Thread T C α → World → World × Thread T C α
  | .ready p, w => p.advance t w
  | .finished a, w => (w, .finished a)
  | .waiting r ticket wait next, w =>
    match r.poll wait w with
    | (w, .answered a) => (next a).advance t w
    | (w, .waiting wait) => (w, .waiting r ticket wait next)
  | .joining children line next, w =>
    let (w, children, line) := t.members.pollGroup children line w
    match t.results? children with
    | some results => (next results).advance t w
    | none => (w, .joining children line next)

def result? : Thread T C α → Option α
  | .finished a => some a
  | _ => none

def tickets (t : Tasks T C) : Thread T C α → List Ticket
  | .waiting _ ticket _ _ => [ticket]
  | .joining children _ _ => children.flatMap t.tickets
  | _ => []

/-- What may move a thread on though no other does anything, and what it waits for that with. -/
def alarms (t : Tasks T C) : Thread T C α → List (Alarm × Ticket)
  | .waiting r ticket wait _ => (r.alarms wait).map fun alarm => (alarm, ticket)
  | .joining children _ _ => children.flatMap t.alarms
  | _ => []

end Thread

def Tasks.none : Tasks Empty Empty where
  ready := nofun
  poll := nofun
  result? := nofun
  tickets := nofun
  alarms := nofun

abbrev Strand := Thread Empty Empty (List Event)

abbrev CallThread (α : Type) := Thread Visit Strand α

def Visit.tasks : Tasks Visit Strand where
  ready v := .ready v.program
  poll := Thread.poll Tasks.none
  result? := Thread.result?
  tickets := Thread.tickets Tasks.none
  alarms := Thread.alarms Tasks.none

namespace CallThread

def start (p : Prog Visit α) (w : World) : World × CallThread α :=
  p.advance Visit.tasks w

def poll (c : CallThread α) (w : World) : World × CallThread α :=
  Thread.poll Visit.tasks c w

def tickets (c : CallThread α) : List Ticket :=
  Thread.tickets Visit.tasks c

def alarms (c : CallThread α) : List (Alarm × Ticket) :=
  Thread.alarms Visit.tasks c

end CallThread

end ThresholdAlerts
