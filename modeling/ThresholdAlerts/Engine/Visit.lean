import ThresholdAlerts.Engine.Prog
import ThresholdAlerts.Engine.Report
import ThresholdAlerts.Engine.Step
/-! Work on one rule under its slot. Whoever holds the slot keeps it while its events are sent, so that
the events of a rule are produced and delivered strictly in order; rules never wait for each
other. -/
namespace ThresholdAlerts

open Prog

/-- Sends an event, or queues it behind those that wait already. -/
def dispatch (slot : SlotId) (event : Event) : Prog T Unit := do
  modify (·.hand event)
  if ← read fun w => (w.slot slot).outbox.isEmpty then
    match ← request (.deliver event) with
    | .ok _ => return ()
    | .error e => modify (·.firstFailure slot event e)
  else modify (·.queueBehind slot event)

def dispatchAll (slot : SlotId) : List Event → Prog T Unit
  | [] => return ()
  | event :: rest => do
    dispatch slot event
    dispatchAll slot rest

/-- Evaluates a sample against the rule whose slot is held. The rule is looked up again, for it may have
changed in the meantime. -/
def evaluateIn (slot : SlotId) (rule : RuleId) (metric : String) (value : Float) (time : Timestamp) :
    Prog T (List Event) := do
  match (← read (·.rule? rule)).filter (·.metricKey = metric) with
  | some r =>
    let events ← step (·.judge slot r value time)
    dispatchAll slot events
    modify (·.leave slot)
    return events
  | none =>
    modify (·.dismiss slot)
    return []

def evaluate (rule : RuleId) (metric : String) (value : Float) (time : Timestamp) :
    Prog T (List Event) := do
  let slot ← request (.slot rule)
  evaluateIn slot rule metric value time

def reconcileRule (rule : RuleId) (announced : Bool) : Prog T (List Event) := do
  match ← request (.existingSlot rule) with
  | some slot =>
    let event ← step (·.reconcile slot rule announced)
    dispatchAll slot event.toList
    modify (·.release slot)
    return event.toList
  | none => return []

/-- Delivers the due events of an outbox front to back, up to the first one that has to wait. -/
def drain (slot : SlotId) (now : Duration) : Outbox → RetryReport → Prog T RetryReport
  | [], report => return report
  | front :: rest, report =>
    if front.isDue now then do
      let report := { report with attempted := report.attempted + 1 }
      match ← request (.deliver front.event) with
      | .ok _ =>
        modify (·.delivered slot front rest)
        drain slot now rest { report with delivered := report.delivered + 1 }
      | .error e =>
        if ← step (·.failedAgain slot front rest e) then
          drain slot now rest { report with deadLettered := report.deadLettered + 1 }
        else return report
    else return report

/-- Delivers what is due of the backlog of one rule. -/
def retryRule (rule : RuleId) (report : RetryReport) : Prog T RetryReport := do
  match ← request (.existingSlot rule) with
  | some slot =>
    let now ← read (·.clock)
    let outbox ← read fun w => (w.slot slot).outbox
    let report ← drain slot now outbox report
    let left ← read fun w => (w.slot slot).outbox.length
    if left = 0 then
      modify fun w => (w.onTracker (·.unmarkBacklogged rule)).release slot
      return report
    else
      modify (·.leave slot)
      return { report with stillPending := report.stillPending + left }
  | none =>
    modify (·.onTracker (·.unmarkBacklogged rule))
    return report

/-- Work on one rule that may go on beside the work on others. -/
inductive Visit where
  | evaluate (rule : RuleId) (metric : String) (value : Float) (time : Timestamp)
  | reconcile (rule : RuleId) (announced : Bool)
deriving DecidableEq, Repr

def Visit.program : Visit → Prog Empty (List Event)
  | .evaluate rule metric value time => ThresholdAlerts.evaluate rule metric value time
  | .reconcile rule announced => reconcileRule rule announced

end ThresholdAlerts
