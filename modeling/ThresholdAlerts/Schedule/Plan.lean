import ThresholdAlerts.Engine.Thread
/-! Plans: calls to be made in sequence and side by side. A branch that waits lets the others go on.
A call goes to the engine that is present when it begins, and stays with it. -/
namespace ThresholdAlerts

inductive Plan (α : Type) where
  | call (p : Prog Visit α)
  /-- Begins some time later. -/
  | after (span : Duration) (plan : Plan α)
  | sequence (plans : List (Plan α))
  | sideBySide (plans : List (Plan α))

/-- The results of a plan, in its shape. -/
inductive Outcome (α : Type) where
  | one (a : α)
  | many (all : List (Outcome α))

/-- How far a plan has come. -/
inductive Activity (α : Type) where
  | ready (plan : Plan α)
  | finished (o : Outcome α)
  | calling (engine : EngineId) (c : CallThread α)
  | asleep (time : Duration) (ticket : Ticket) (plan : Plan α)
  /-- `done` holds the outcomes so far, the last one first. -/
  | sequence (done : List (Outcome α)) (current : Activity α) (rest : List (Plan α))
  | sideBySide (branches : List (Activity α)) (line : Line)

namespace Activity

def ofCall (engine : EngineId) : CallThread α → Activity α
  | .finished a => .finished (.one a)
  | c => .calling engine c

def outcome? : Activity α → Option (Outcome α)
  | .finished o => some o
  | _ => none

def ofBranches (branches : List (Activity α)) (line : Line) : Activity α :=
  match branches.mapM outcome? with
  | some outcomes => .finished (.many outcomes)
  | none => .sideBySide branches line

/-- A sequence of plans of which none has begun. -/
def ofSequence : List (Plan α) → Activity α
  | [] => .finished (.many [])
  | plan :: rest => .sequence [] (.ready plan) rest

mutual

def tickets : Activity α → List Ticket
  | .calling _ c => c.tickets
  | .asleep _ ticket _ => [ticket]
  | .sequence _ current _ => current.tickets
  | .sideBySide branches _ => ticketsOfEach branches
  | _ => []

def ticketsOfEach : List (Activity α) → List Ticket
  | [] => []
  | a :: rest => a.tickets ++ ticketsOfEach rest

end

mutual

/-- What may move an activity on though nothing else happens, and what it waits for that with. -/
def alarms : Activity α → List (Alarm × Ticket)
  | .calling _ c => c.alarms
  | .asleep time ticket _ => [(.moment time, ticket)]
  | .sequence _ current _ => current.alarms
  | .sideBySide branches _ => alarmsOfEach branches
  | _ => []

def alarmsOfEach : List (Activity α) → List (Alarm × Ticket)
  | [] => []
  | a :: rest => a.alarms ++ alarmsOfEach rest

end

/-- Goes on with a sequence as far as it can. -/
def pollSequence (poll : Activity α → World → World × Activity α) (done : List (Outcome α))
    (current : Activity α) : List (Plan α) → World → World × Activity α
  | [], w =>
    match poll current w with
    | (w, .finished o) => (w, .finished (.many (o :: done).reverse))
    | (w, current) => (w, .sequence done current [])
  | plan :: rest, w =>
    match poll current w with
    | (w, .finished o) => pollSequence poll (o :: done) (.ready plan) rest w
    | (w, current) => (w, .sequence done current (plan :: rest))

/-- Lets everything go on that can. `depth` has to be more than twice the depth to which the plan is
nested; what lies deeper stays where it is. -/
def poll : Nat → Activity α → World → World × Activity α
  | 0, a, w => (w, a)
  | _ + 1, .finished o, w => (w, .finished o)
  | _ + 1, .calling engine c, w =>
    let (w, c) := c.poll (w.focus engine)
    (w, .ofCall engine c)
  | depth + 1, .asleep time ticket plan, w =>
    if time ≤ w.clock then poll depth (.ready plan) w.moved else (w, .asleep time ticket plan)
  | depth + 1, .sequence done current rest, w => pollSequence (poll depth) done current rest w
  | depth + 1, .sideBySide branches line, w =>
    let members : Members (Activity α) :=
      { poll := poll depth, isFinished := fun a => a.outcome?.isSome, tickets := tickets }
    let (w, branches, line) := members.pollGroup branches line w
    (w, .ofBranches branches line)
  | _ + 1, .ready (.call p), w =>
    let (w, c) := CallThread.start p (w.focus w.present)
    (w, .ofCall w.present c)
  | depth + 1, .ready (.after span plan), w =>
    if span = 0 then poll depth (.ready plan) w
    else
      let (w, ticket) := w.takeTicket
      (w, .asleep (w.clock + span) ticket plan)
  | depth + 1, .ready (.sequence plans), w => poll depth (.ofSequence plans) w
  | depth + 1, .ready (.sideBySide plans), w =>
    poll depth (.sideBySide (plans.map .ready) (.all plans.length w)) w

end Activity

end ThresholdAlerts
