import ThresholdAlerts.Schedule.Plan
import ThresholdAlerts.Schedule.Worker
/-! The machine: a world, its background workers and a plan that is played in it. The plan goes on
until it has to wait; then the workers have their turns, in the order in which their waits came to an
end. Once nothing can go on, those do who waited for that, and otherwise the clock jumps to the next
moment at which something can. -/
namespace ThresholdAlerts

structure Machine where
  world : World
  /-- One for each worker that was asked for, as far as they came to run. -/
  workers : List Worker := []
  /-- The workers whose turn has come. -/
  line : Line := {}

namespace Machine

/-- The workers that were asked for. Those that were asked for last are new. -/
def roster (m : Machine) : List (WorkerOrder × Worker) :=
  m.world.workers.zipIdx.map fun (order, i) => (order, m.workers.getD i .fresh)

def look (m : Machine) : Machine :=
  { m with
    line := m.line.look m.world (fun (order, worker) => worker.tickets order) m.roster
    workers := m.roster.map (·.2) }

/-- A worker has its turn. -/
def turn (m : Machine) (place : Nat) : Machine :=
  match m.roster[place]? with
  | some (order, worker) =>
    let (world, worker) := worker.poll order (m.world.focus order.engine)
    { m with world, workers := m.workers.set place worker }
  | none => m

/-- Turns that workers may have in a row before the plan goes on. -/
def turnsInARow : Nat := 61

/-- The workers have their turns until all of them wait, but at most `turns` of them. -/
def runWorkers : Nat → Machine → Machine
  | 0, m => m
  | turns + 1, m =>
    let m := m.look
    match m.line.queue with
    | [] => m
    | place :: rest => runWorkers turns ({ m with line := { m.line with queue := rest } }.turn place)

/-- The moments ahead that are waited for. -/
def momentsAhead (m : Machine) (alarms : List (Alarm × Ticket)) : List Duration :=
  alarms.filterMap fun
    | (.moment time, _) => if m.world.clock < time then some time else none
    | (.lull, _) => none

/-- The waits for an alarm, in the order in which they began. -/
def waitsFor (alarm : Alarm) (alarms : List (Alarm × Ticket)) : List Ticket :=
  ((alarms.filter fun (a, _) => a = alarm).map (·.2)).mergeSort (· ≤ ·)

/-- What comes next once nothing can go on: those who wait for that have their turn, and if nobody
does, the next moment that is waited for comes. Nothing if there is no such moment. -/
def upcoming? (m : Machine) (alarms : List (Alarm × Ticket)) : Option Alarm :=
  if alarms.any fun (alarm, _) => alarm = .lull then some .lull
  else (m.momentsAhead alarms).min?.map .moment

/-- An alarm goes off, and the waits for it end. -/
def ring (m : Machine) (alarm : Alarm) (alarms : List (Alarm × Ticket)) : Machine :=
  let world := match alarm with
    | .moment time => { m.world with clock := time }
    | .lull => { m.world with lulls := m.world.lulls + 1 }
  { m with world := world.wake (waitsFor alarm alarms) }

/-- Plays what is under way to its end. There is no result if nothing can go on any more, or if `fuel`
polls were not enough. -/
def play : Nat → Machine → Activity α → Machine × Option (Outcome α)
  | 0, m, _ => (m, none)
  | fuel + 1, m, a =>
    let moves := m.world.moves
    match a.poll (fuel + 1) m.world with
    | (w, .finished o) => ({ m with world := w.focus w.present }, some o)
    | (w, a) =>
      let m := runWorkers turnsInARow { m with world := w }
      if m.world.moves ≠ moves then play fuel m a
      else
        let alarms := a.alarms ++ m.workers.flatMap Worker.alarms
        match m.upcoming? alarms with
        | some alarm => play fuel (m.ring alarm alarms) a
        | none => (m, none)

def run (m : Machine) (fuel : Nat) (p : Plan α) : Machine × Option (Outcome α) :=
  play fuel m (.ready p)

end Machine

end ThresholdAlerts
