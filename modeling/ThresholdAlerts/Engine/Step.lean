import ThresholdAlerts.Rule.Condition
import ThresholdAlerts.Engine.World
/-! The steps that calls are made of. A step is never interrupted; calls may be interleaved only
between them. -/
namespace ThresholdAlerts.World

def change (w : World) (slot : SlotId) (c : FiringState.Change) : World × Option Event :=
  let (tracker, event) := w.engine.tracker.change slot c
  let w := w.onTracker fun _ => tracker
  match event with
  | some e => (w.note (.produced e), some e)
  | none => (w, none)

/-- Applies the decision on a sample to a slot. The alert that it opens takes a fresh id. -/
def transition (w : World) (slot : SlotId) (rule : Rule) (breached : Bool) (value : Float)
    (time : Timestamp) : World × Option Event :=
  let (w, event) := w.change slot (.transition w.ids.next rule breached value time)
  match event with
  | some (.opened _) => ({ w with ids := w.ids.advance }, event)
  | _ => (w, event)

/-- Judges a sample by a rule. A rule that is not valid changes nothing. -/
def judge (w : World) (slot : SlotId) (rule : Rule) (value : Float) (time : Timestamp) :
    World × List Event :=
  match rule.breaches value with
  | .error _ => (w.count .invalidRule, [])
  | .ok breached =>
    let w := w.count .evaluation
    let (w, ended) := w.change slot (.sync rule time)
    let (w, event) := w.transition slot rule breached value time
    (w, ended.toList ++ event.toList)

def dismiss (w : World) (slot : SlotId) : World :=
  if (w.slot slot).state.isOpen then w.leave slot
  else (w.onTracker (·.retire slot)).release slot

/-- Brings the firing state of a slot in line with the current definition of its rule. `announced`
tells that the rule was edited, which restarts its streak. -/
def reconcile (w : World) (slot : SlotId) (rule : RuleId) (announced : Bool) :
    World × Option Event :=
  let (w, now) := w.readCalendar
  match w.rule? rule with
  | some r => w.change slot (if announced then .reset r now else .sync r now)
  | none =>
    let (w, event) := w.change slot (.force .ruleRemoved now)
    (w.onTracker (·.retire slot), event)

def hand (w : World) (event : Event) : World :=
  (w.count (.event event)).note (.handed event)

def abandon (w : World) (event : Event) (attempts : Nat) (error : SinkError) : World :=
  let (w, failedAt) := w.readCalendar
  let w := (w.count .deadLetter).note (.abandoned event attempts)
  w.onEngine fun e =>
    { e with deadLetters := e.deadLetters.push { event, attempts, error, failedAt } }

/-- Puts an event behind those that wait already. -/
def queueBehind (w : World) (slot : SlotId) (event : Event) : World :=
  let (outbox, result) := (w.slot slot).outbox.enqueue event w.clock
  let w := w.onTracker (·.setOutbox slot outbox)
  let w := match result with
    | .queued => w
    | .collapsed opening => (w.count .collapsed).note (.cancelled opening event)
    | .overflow event => w.abandon event 0 (.backlogFull outbox.length)
  w.onTracker (·.markBacklogged event.ruleId)

def failDelivery (w : World) (d : Delivery) (error : SinkError) : World × Delivery :=
  let d := d.recordFailure error w.engine.policy w.clock w.jitter.next
  ({ w with jitter := w.jitter.advance }, d)

def triesAgain (w : World) (error : SinkError) (failures : Nat) : Bool :=
  error.isRetryable && !w.engine.policy.exhausted failures

/-- The first attempt to deliver an event failed. -/
def firstFailure (w : World) (slot : SlotId) (event : Event) (error : SinkError) : World :=
  let w := w.count .sinkFailure
  if w.triesAgain error 1 then
    let (w, d) := w.failDelivery (Delivery.queued event w.clock) error
    w.onTracker fun t =>
      (t.setOutbox slot ((t.slot slot).outbox ++ [d])).markBacklogged event.ruleId
  else w.abandon event 1 error

/-- The front of an outbox was delivered; `rest` stays. -/
def delivered (w : World) (slot : SlotId) (front : Delivery) (rest : Outbox) : World :=
  let w := w.onTracker (·.setOutbox slot rest)
  if 0 < front.failures then w.count .retried else w

/-- The front of an outbox failed; `rest` is behind it. Answers whether it is given up. -/
def failedAgain (w : World) (slot : SlotId) (front : Delivery) (rest : Outbox)
    (error : SinkError) : World × Bool :=
  let w := w.count .sinkFailure
  let (w, front) := w.failDelivery front error
  if w.triesAgain error front.failures then
    (w.onTracker (·.setOutbox slot (front :: rest)), false)
  else ((w.onTracker (·.setOutbox slot rest)).abandon front.event front.failures error, true)

/-- Claims the work of bringing all firing states in line with a generation of rules. Each
generation is claimed once, and none that is older than one already claimed. -/
def claimGeneration (w : World) (generation : Nat) : World × Bool :=
  if w.engine.reconciled < generation then
    (w.onEngine fun e => { e with reconciled := generation }, true)
  else (w, false)

def loadRules (w : World) (rules : List Rule) : World × RuleSnapshot :=
  let (w, now) := w.readCalendar
  let w := w.onRules (·.loaded rules now)
  (w, w.engine.rules.snapshot)

end ThresholdAlerts.World
