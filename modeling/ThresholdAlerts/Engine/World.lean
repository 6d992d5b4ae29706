import ThresholdAlerts.Alert.Sink
import ThresholdAlerts.Config
import ThresholdAlerts.Engine.Stats
import ThresholdAlerts.Engine.Tracker
/-! The engine and the world it runs in: the source of rules, the sink, the clocks, the supplies of
fresh identifiers and of random delays, and a journal of what happened to each alert event. -/
namespace ThresholdAlerts

structure Engine where
  rules : RuleStore
  tracker : Tracker := {}
  policy : RetryPolicy
  sinkTimeout : Duration
  deadLetters : DeadLetters := {}
  stats : Stats := {}
  /-- The newest generation of rules that the firing states were brought in line with. -/
  reconciled : Nat := 0

def Engine.ofConfig (c : Config) : Engine :=
  { rules := { maxStaleness := c.maxStaleness }
    policy := c.retryPolicy
    sinkTimeout := c.sinkTimeout }

/-- An endless supply of values. -/
structure Supply (α : Type) where
  value : Nat → α
  taken : Nat := 0

namespace Supply

def next (s : Supply α) : α :=
  s.value s.taken

def advance (s : Supply α) : Supply α :=
  { s with taken := s.taken + 1 }

end Supply

/-- In which order the entries of a map are gone through: one that nobody chose, and another for each
generation of rules. -/
structure MapOrder where
  list : Nat → List RuleId → List RuleId
  perm : ∀ generation ids, (list generation ids).Perm ids

def MapOrder.byId : MapOrder where
  list _ ids := ids
  perm _ ids := .refl ids

inductive Happening where
  | produced (event : Event)
  | handed (event : Event)
  /-- A call to the sink with the event began. -/
  | sent (event : Event)
  | answered (event : Event) (answer : Except SinkError Unit)
  /-- The event cancelled an opening that was never sent. -/
  | cancelled (opening event : Event)
  /-- The event was given up. -/
  | abandoned (event : Event) (attempts : Nat)

inductive WorkerKind where
  | retry
  | refresh
deriving DecidableEq, Repr

abbrev EngineId := Nat

/-- A background worker that was asked for. -/
structure WorkerOrder where
  kind : WorkerKind
  period : Duration
  engine : EngineId
  /-- What it waits with for its first chance to run. -/
  ticket : Ticket
  /-- Whether it was not told to stop. -/
  running : Bool := true
deriving DecidableEq, Repr

structure World where
  engine : Engine
  /-- Which one that is. -/
  atWork : EngineId := 0
  /-- The engine that new calls go to. -/
  present : EngineId := 0
  /-- The engines that are not at work; calls may be under way on them all the same. -/
  resting : Std.TreeMap EngineId Engine := ∅
  source : RuleSource
  sink : Sink := {}
  /-- Time since the start. -/
  clock : Duration := 0
  /-- The last reading of the calendar; each reading is later than the one before. -/
  calendar : Timestamp
  ids : Supply AlertId
  /-- Random additions to retry delays, in milliseconds. -/
  jitter : Supply Nat
  mapOrder : MapOrder := .byId
  /-- Requests made and answered so far; it numbers the calls that wait. -/
  moves : Nat := 0
  /-- The waits that came to an end, by the lock or the moment that was waited for, the oldest
  first. -/
  woken : Array Ticket := #[]
  /-- Times at which nothing could go on. -/
  lulls : Nat := 0
  workers : List WorkerOrder := []
  /-- What happened to alert events, the newest first. -/
  journal : List Happening := []

namespace World

def fresh (c : Config) (source : RuleSource) (calendar : Timestamp) (ids : Nat → AlertId)
    (jitter : Nat → Nat) : World :=
  { engine := Engine.ofConfig c
    source
    calendar
    ids := { value := ids }
    jitter := { value := jitter } }

def focus (w : World) (id : EngineId) : World :=
  if id = w.atWork then w
  else { w with
    engine := w.resting.getD id w.engine
    atWork := id
    resting := (w.resting.erase id).insert w.atWork w.engine }

/-- A new engine takes the place of the old one. Whoever is at work on the old one goes on there. -/
def restart (w : World) (c : Config) : World :=
  let id := w.resting.size + 1
  { w with
    engine := Engine.ofConfig c
    atWork := id
    present := id
    resting := w.resting.insert w.atWork w.engine }

def readCalendar (w : World) : World × Timestamp :=
  let now := w.calendar.addNanos 1
  ({ w with calendar := now }, now)

def takeTicket (w : World) : World × Ticket :=
  ({ w with moves := w.moves + 1 }, w.moves)

def moved (w : World) : World :=
  { w with moves := w.moves + 1 }

def wake (w : World) (tickets : List Ticket) : World :=
  { w with woken := w.woken ++ tickets }

def note (w : World) (h : Happening) : World :=
  { w with journal := h :: w.journal }

def onEngine (w : World) (f : Engine → Engine) : World :=
  { w with engine := f w.engine }

def onRules (w : World) (f : RuleStore → RuleStore) : World :=
  w.onEngine fun e => { e with rules := f e.rules }

def onTracker (w : World) (f : Tracker → Tracker) : World :=
  w.onEngine fun e => { e with tracker := f e.tracker }

def count (w : World) (c : Stats.Count) : World :=
  w.onEngine fun e => { e with stats := e.stats.record c }

def slot (w : World) (id : SlotId) : Slot :=
  w.engine.tracker.slot id

def leave (w : World) (slot : SlotId) : World :=
  (w.wake (w.engine.tracker.next? slot).toList).onTracker (·.leave slot)

/-- Lets go of a slot, for good if its rule is gone and nothing is left to deliver. -/
def release (w : World) (slot : SlotId) : World :=
  (w.wake (w.engine.tracker.next? slot).toList).onTracker fun t => (t.release slot).1

def endTurn (w : World) : World :=
  (w.wake w.engine.rules.turns.tail.head?.toList).onRules fun s => { s with turns := s.turns.tail }

def rule? (w : World) (id : RuleId) : Option Rule :=
  w.engine.rules.snapshot.get? id

/-- The rules of a snapshot, as its map happens to list them. -/
def listed (w : World) (snapshot : RuleSnapshot) : List RuleId :=
  w.mapOrder.list snapshot.generation (snapshot.rules.map (·.id))

def onStore (w : World) (f : AlertStore → AlertStore) : World :=
  { w with sink := { w.sink with store := f w.sink.store } }

/-- Asks for a background worker on the present engine. -/
def hire (w : World) (kind : WorkerKind) (period : Duration) : World :=
  let (w, ticket) := w.takeTicket
  let order : WorkerOrder := { kind, period, engine := w.present, ticket }
  { w with workers := w.workers ++ [order] }.wake [ticket]

def stopWorkers (w : World) : World :=
  { w with workers := w.workers.map fun o => { o with running := false } }

/-- The events of the calls to the sink, in the order in which the calls began. -/
def sent (w : World) : List Event :=
  w.journal.reverse.filterMap fun
    | .sent event => some event
    | _ => none

def editSource (w : World) (edit : RuleSource.Edit) : World :=
  { w with source := w.source.edit edit }

end World

end ThresholdAlerts
