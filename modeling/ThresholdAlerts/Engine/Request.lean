import ThresholdAlerts.Engine.World
/-! Requests: what a call of the engine may have to wait for. A request begins, is polled until it is
answered, and may be polled at any time in between. Locks are granted in the order in which they
were asked for. A call to the sink acts after its first delay and answers after its second one; a
delivery that has no answer when its limit has passed counts as timed out, whether it acted or
not. -/
namespace ThresholdAlerts

inductive Request where
  /-- The slot of a rule, made if there is none. -/
  | slot (rule : RuleId)
  /-- The slot of a rule, if there is one. -/
  | existingSlot (rule : RuleId)
  /-- A slot that was the one of its rule before. -/
  | knownSlot (slot : SlotId)
  | refreshTurn
  | fetch
  | deliver (event : Event)
  /-- The open alerts of some rules, looked up side by side. -/
  | findOpen (rules : List RuleId)
  | findAll
  | sleep (span : Duration)

/-- What a wait is for that no other call ends. -/
inductive Alarm where
  | moment (time : Duration)
  /-- A time at which nothing else can go on. -/
  | lull
deriving DecidableEq, Repr

structure Fetching where
  /-- The moment from which on the source answers. -/
  readyAt : Duration
  /-- The lulls before a file began to be read. The reading ends in the next one, for it takes no time
  but lets all others go on. -/
  lulls : Option Nat := none

structure Flight (α : Type) where
  act : Act
  start : Duration
  /-- The answer, from the moment the call acts. -/
  answer : Option α := none

namespace Flight

/-- The moment at which the call acts. -/
def actsAt (f : Flight α) : Duration :=
  f.start + f.act.before

/-- The moment at which its answer comes. -/
def answersAt (f : Flight α) : Duration :=
  f.actsAt + f.act.after

/-- Lets the call act if its moment has come. -/
def poll (f : Flight α) (w : World) (call : Sink → Deed → Sink × α) : World × Flight α :=
  match f.answer with
  | some _ => (w, f)
  | none =>
    if f.actsAt ≤ w.clock then
      let (sink, answer) := call w.sink f.act.deed
      ({ w with sink }, { f with answer := some answer })
    else (w, f)

def result? (f : Flight α) (now : Duration) : Option α :=
  if f.answersAt ≤ now then f.answer else none

def alarms (f : Flight α) : List Alarm :=
  [.moment f.actsAt, .moment f.answersAt]

end Flight

namespace Request

abbrev Answer : Request → Type
  | .slot _ => SlotId
  | .existingSlot _ => Option SlotId
  /- Whether the slot is still the one of its rule. -/
  | .knownSlot _ => Bool
  | .refreshTurn => Unit
  | .fetch => Except SourceError (List Rule)
  | .deliver _ => Except SinkError Unit
  | .findOpen _ => List (Except SinkError (Option Alert))
  | .findAll => Except SinkError (List Alert)
  | .sleep _ => Unit

/-- What is kept of a request that waits for its answer. -/
abbrev Wait : Request → Type
  | .slot _ => Option Claim
  | .existingSlot _ => Option Claim
  | .knownSlot _ => Ticket
  | .refreshTurn => Ticket
  | .fetch => Fetching
  | .deliver _ => Flight (Except SinkError Unit) × Duration
  | .findOpen _ => List (RuleId × Flight (Except SinkError (Option Alert)))
  | .findAll => Flight (Except SinkError (List Alert))
  | .sleep _ => Duration

def claim (w : World) (ticket : Ticket) (rule : RuleId) (mode : Acquire) : World × Option Claim :=
  let (tracker, claim) := w.engine.tracker.request ticket rule mode
  (w.onTracker fun _ => tracker, claim)

def startLookups (w : World) : List RuleId →
    World × List (RuleId × Flight (Except SinkError (Option Alert)))
  | [] => (w, [])
  | rule :: rest =>
    let (sink, act) := w.sink.startFindOpen
    let flight := { act, start := w.clock }
    let (w, others) := startLookups { w with sink } rest
    (w, (rule, flight) :: others)

/-- Makes a request and waits for its answer with a ticket. -/
def start : (r : Request) → Ticket → World → World × r.Wait
  | .slot rule, ticket, w => claim w ticket rule .create
  | .existingSlot rule, ticket, w => claim w ticket rule .existing
  | .knownSlot id, ticket, w =>
    if w.engine.tracker.slots.contains id then (w.onTracker (·.join id ticket), ticket)
    else (w, ticket)
  | .refreshTurn, ticket, w =>
    (w.onRules fun s => { s with turns := s.turns ++ [ticket] }, ticket)
  | .fetch, _, w =>
    ({ w with source := { w.source with fetches := w.source.fetches + 1 } },
      { readyAt := w.clock + w.source.delay })
  | .deliver event, _, w =>
    let (sink, act) := w.sink.startDelivery event
    ({ w with sink }.note (.sent event),
      ({ act, start := w.clock }, w.engine.sinkTimeout))
  | .findOpen rules, _, w => startLookups w rules
  | .findAll, _, w =>
    let (sink, act) := w.sink.startFindAll
    ({ w with sink }, { act, start := w.clock })
  | .sleep span, _, w => (w, w.clock + span)

inductive Progress (r : Request) where
  | answered (answer : r.Answer)
  | waiting (wait : r.Wait)

def answer (r : Request) (w : World) (a : r.Answer) : World × Progress r :=
  (w.moved, .answered a)

/-- Lets each look-up act, and answers if all of them have answered. -/
def pollLookups (w : World) : List (RuleId × Flight (Except SinkError (Option Alert))) →
    World × List (RuleId × Flight (Except SinkError (Option Alert)))
  | [] => (w, [])
  | (rule, flight) :: rest =>
    let (w, flight) := flight.poll w fun sink deed => sink.lookUp deed rule
    let (w, others) := pollLookups w rest
    (w, (rule, flight) :: others)

inductive Grant where
  | waiting (claim : Claim)
  | granted (slot : SlotId)
  | absent
deriving DecidableEq, Repr

/-- Looks whether a claim on a slot is granted. The holder of a detached slot lets go of it and queues
for the slot that its rule has since got. -/
def pollClaim (w : World) (c : Claim) : World × Grant :=
  let t := w.engine.tracker
  if !t.holds c.slot c.ticket then (w, .waiting c)
  else if !(t.slot c.slot).detached then (w.onTracker (·.take c), .granted c.slot)
  else
    match claim (w.leave c.slot) c.ticket c.rule c.mode with
    | (w, none) => (w, .absent)
    | (w, some c) =>
      if w.engine.tracker.holds c.slot c.ticket then (w.onTracker (·.take c), .granted c.slot)
      else (w.moved, .waiting c)

def poll : (r : Request) → r.Wait → World → World × Progress r
  | .slot _, none, w => (w, .waiting none)
  | .slot rule, some c, w =>
    match pollClaim w c with
    | (w, .granted id) => answer (.slot rule) w id
    | (w, .waiting c) => (w, .waiting (some c))
    | (w, .absent) => (w, .waiting none)
  | .existingSlot rule, none, w => answer (.existingSlot rule) w none
  | .existingSlot rule, some c, w =>
    match pollClaim w c with
    | (w, .granted id) => answer (.existingSlot rule) w (some id)
    | (w, .waiting c) => (w, .waiting (some c))
    | (w, .absent) => answer (.existingSlot rule) w none
  | .knownSlot id, ticket, w =>
    if !w.engine.tracker.slots.contains id then answer (.knownSlot id) w false
    else if w.engine.tracker.holds id ticket then
      if (w.slot id).detached then
        answer (.knownSlot id) (w.leave id) false
      else answer (.knownSlot id) w true
    else (w, .waiting ticket)
  | .refreshTurn, ticket, w =>
    if w.engine.rules.turns.head? = some ticket then answer .refreshTurn w ()
    else (w, .waiting ticket)
  | .fetch, f, w =>
    if w.clock < f.readyAt then (w, .waiting f)
    else
      match f.lulls with
      | none =>
        if w.source.readsFile then (w, .waiting { f with lulls := some w.lulls })
        else answer .fetch w w.source.fetch
      | some lulls =>
        if lulls < w.lulls then answer .fetch w w.source.contents.rules else (w, .waiting f)
  | .deliver event, (flight, limit), w =>
    let (w, flight) := flight.poll w fun sink deed => sink.deliver deed event
    match flight.result? w.clock with
    | some a => answer (.deliver event) (w.note (.answered event a)) a
    | none =>
      if flight.start + limit ≤ w.clock then
        let a := .error (.timeout limit)
        answer (.deliver event) (w.note (.answered event a)) a
      else (w, .waiting (flight, limit))
  | .findOpen rules, flights, w =>
    let (w, flights) := pollLookups w flights
    match flights.mapM fun f => f.2.result? w.clock with
    | some answers => answer (.findOpen rules) w answers
    | none => (w, .waiting flights)
  | .findAll, flight, w =>
    let (w, flight) := flight.poll w fun sink deed => sink.listOpen deed
    match flight.result? w.clock with
    | some a => answer .findAll w a
    | none => (w, .waiting flight)
  | .sleep span, readyAt, w =>
    if readyAt ≤ w.clock then answer (.sleep span) w () else (w, .waiting readyAt)

/-- What may move a request on though no other call does anything. -/
def alarms : (r : Request) → r.Wait → List Alarm
  | .slot _, _ => []
  | .existingSlot _, _ => []
  | .knownSlot _, _ => []
  | .refreshTurn, _ => []
  | .fetch, f => [if f.lulls.isSome then .lull else .moment f.readyAt]
  | .deliver _, (flight, limit) => .moment (flight.start + limit) :: flight.alarms
  | .findOpen _, flights => flights.flatMap fun f => f.2.alarms
  | .findAll, flight => flight.alarms
  | .sleep _, readyAt => [.moment readyAt]

end Request

end ThresholdAlerts
