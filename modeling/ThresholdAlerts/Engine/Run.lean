import ThresholdAlerts.Engine.Call
/-! Running calls one after the other, with nothing else going on. Locks are free whenever they are
asked for, and time passes only while the source or the sink takes it; a file is read in a lull. -/
namespace ThresholdAlerts

namespace Request

def waitUntil (w : World) (time : Duration) : World :=
  { w with clock := max w.clock time }

def fly (w : World) (act : Act) (call : Sink → Deed → Sink × α) : World × α :=
  let w := waitUntil w (w.clock + act.before)
  let (sink, answer) := call w.sink act.deed
  (waitUntil { w with sink } (w.clock + act.after), answer)

/-- Sends an event. The call acts if its first delay is within the limit, and its answer counts if
both delays together are. -/
def send (w : World) (event : Event) : World × Except SinkError Unit :=
  let limit := w.engine.sinkTimeout
  let (sink, act) := w.sink.startDelivery event
  let w := { w with sink }.note (.sent event)
  let timeout : Except SinkError Unit := .error (.timeout limit)
  let (w, answer) :=
    if act.before ≤ limit then
      let deadline := w.clock + limit
      let w := waitUntil w (w.clock + act.before)
      let (sink, answer) := w.sink.deliver act.deed event
      let w := { w with sink }
      if act.before + act.after ≤ limit then (waitUntil w (w.clock + act.after), answer)
      else (waitUntil w deadline, timeout)
    else (waitUntil w (w.clock + limit), timeout)
  (w.note (.answered event answer), answer)

def latest (now : Duration) (times : List Duration) : Duration :=
  times.foldl max now

def takeSlot (w : World) (ticket : Ticket) (rule : RuleId) (mode : Acquire) :
    World × Option SlotId :=
  match claim w ticket rule mode with
  | (w, some c) => (w.onTracker (·.take c), some c.slot)
  | (w, none) => (w, none)

/-- Answers a request that meets no other. -/
def settle : (r : Request) → Ticket → World → World × r.Answer
  | .slot rule, ticket, w =>
    let (w, id) := takeSlot w ticket rule .create
    (w, id.getD 0)
  | .existingSlot rule, ticket, w => takeSlot w ticket rule .existing
  | .knownSlot id, ticket, w =>
    if !w.engine.tracker.slots.contains id then (w, false)
    else
      let w := w.onTracker (·.join id ticket)
      if (w.slot id).detached then (w.leave id, false) else (w, true)
  | .refreshTurn, ticket, w => ((Request.refreshTurn.start ticket w).1, ())
  | .fetch, ticket, w =>
    let (w, f) := Request.fetch.start ticket w
    let w := waitUntil w f.readyAt
    ({ w with lulls := w.lulls + w.source.readsFile.toNat }, w.source.fetch)
  | .deliver event, _, w => send w event
  | .findOpen rules, ticket, w =>
    let (w, flights) := (Request.findOpen rules).start ticket w
    let (w, flights) := pollLookups (waitUntil w (latest w.clock (flights.map (·.2.actsAt)))) flights
    let w := waitUntil w (latest w.clock (flights.map (·.2.answersAt)))
    (w, flights.filterMap (·.2.answer))
  | .findAll, _, w =>
    let (sink, act) := w.sink.startFindAll
    fly { w with sink } act fun sink deed => sink.listOpen deed
  | .sleep span, _, w => (waitUntil w (w.clock + span), ())

/-- Makes a request that meets no other and waits for its answer. -/
def complete (r : Request) (w : World) : World × r.Answer :=
  let (w, ticket) := w.takeTicket
  let (w, a) := r.settle ticket w
  (w.moved, a)

end Request

namespace Prog

/-- The results of tasks done one after the other. -/
def runEach (task : T → World → World × List Event) : List T → World → World × List (List Event)
  | [], w => (w, [])
  | t :: rest, w =>
    let (w, events) := task t w
    let (w, others) := runEach task rest w
    (w, events :: others)

def run (task : T → World → World × List Event) : Prog T α → World → World × α
  | .done a, w => (w, a)
  | .get next, w => (next w).run task w
  | .set w next, _ => next.run task w
  | .ask r next, w =>
    let (w, a) := r.complete w
    (next a).run task w
  | .fork tasks next, w =>
    let (w, results) := runEach task tasks w
    (next results).run task w

end Prog

def Visit.run (v : Visit) (w : World) : World × List Event :=
  v.program.run (fun none _ => nomatch none) w

namespace World

def run (w : World) (p : Prog Visit α) : World × α :=
  p.run Visit.run w

def call (w : World) (c : Call) : World × Reply :=
  w.run c.program

def sample (w : World) (metric : String) (value : Float) (time : Timestamp) :
    World × List Event :=
  w.run (takeSample metric value time)

end World

end ThresholdAlerts
