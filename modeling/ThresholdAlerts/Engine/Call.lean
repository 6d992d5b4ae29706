import ThresholdAlerts.Engine.Rules
import ThresholdAlerts.Engine.Visit
/-! The calls of the engine. -/
namespace ThresholdAlerts

open Prog

/-- Brings every tracked rule in line with a generation of rules, unless that was claimed before. -/
def reconcileIfNewer (generation : Nat) : Prog Visit (List Event) := do
  if ← step (·.claimGeneration generation) then
    let rules ← read (·.engine.tracker.ruleIds)
    all (rules.map (Visit.reconcile · false))
  else return []

/-- Takes up the rules of a snapshot if they are new, and evaluates a sample against those of its
metric. -/
def evaluateAll (snapshot : RuleSnapshot) (metric : String) (value : Float) (time : Timestamp) :
    Prog Visit (List Event) := do
  let reconciled ← reconcileIfNewer snapshot.generation
  match snapshot.rulesFor metric with
  | [] => return reconciled
  | rules =>
    let evaluated ← all (rules.map fun r => Visit.evaluate r.id metric value time)
    return reconciled ++ evaluated

/-- Evaluates a sample against every enabled rule of its metric. The events are those that the firing
states produced, whether or not they are delivered yet. -/
def takeSample (metric : String) (value : Float) (time : Timestamp) : Prog Visit (List Event) := do
  modify (·.count .sample)
  if value.isNaN then modify (·.count .nanSample)
  evaluateAll (← currentRules) metric value time

/-- Fetches the rules after an edit of one of them and restarts its streak. If the fetch fails the
edit stays pending for the next read, and the streak is dropped all the same, since it was counted
under the old definition. -/
def announceEdit (rule : RuleId) : Prog Visit (Except EngineError (List Event)) := do
  modify (·.onRules (·.invalidate))
  match ← refreshRules with
  | .error e =>
    modify (·.onRules (·.invalidate))
    let _ ← reconcileRule rule true
    return .error (.ruleStore e)
  | .ok snapshot =>
    let reconciled ← reconcileIfNewer snapshot.generation
    let events ← reconcileRule rule true
    return .ok (reconciled ++ events)

def refresh : Prog Visit (Except EngineError (List Event)) := do
  match ← refreshRules with
  | .error e => return .error (.ruleStore e)
  | .ok snapshot => return .ok (← reconcileIfNewer snapshot.generation)

/-- Makes each rule open that has an open alert in storage. Ends at the first look-up that failed. -/
def seedRules : List (RuleId × Except SinkError (Option Alert)) → RecoveryReport →
    Prog T (Except SinkError RecoveryReport)
  | [], report => return .ok report
  | (_, .error e) :: _, _ => return .error e
  | (_, .ok none) :: rest, report => seedRules rest report
  | (rule, .ok (some alert)) :: rest, report => do
    let slot ← request (.slot rule)
    let isNew ← step fun w =>
      let (tracker, isNew) := w.engine.tracker.seed slot alert.id
      ((w.onTracker fun _ => tracker).leave slot, isNew)
    seedRules rest (if isNew then { report with seeded := report.seeded + 1 } else report)

def trackedAlert (rule : RuleId) : Prog T (Option AlertId) := do
  match ← request (.existingSlot rule) with
  | some slot =>
    step fun w => (w.leave slot, (w.slot slot).state.openAlertId)
  | none => return none

/-- Closes an open alert of storage that is not the tracked one of its rule. `orphaned` tells that its
rule is not enabled. -/
def resolveStray (alert : Alert) (orphaned : Bool) : Prog T Unit := do
  let resolvedAt ← step (·.readCalendar)
  let slot ← request (.slot alert.ruleId)
  dispatch slot (.resolved alert.id alert.ruleId resolvedAt
    (if orphaned then .ruleRemoved else .superseded))
  if orphaned then modify fun w => (w.onTracker (·.retire slot)).release slot
  else modify (·.leave slot)

/-- Closes every open alert of storage that is not tracked. -/
def resolveStrays (snapshot : RuleSnapshot) : List Alert → RecoveryReport → Prog T RecoveryReport
  | [], report => return report
  | alert :: rest, report => do
    if (← trackedAlert alert.ruleId) = some alert.id then resolveStrays snapshot rest report
    else if snapshot.contains alert.ruleId then
      resolveStray alert false
      resolveStrays snapshot rest { report with superseded := report.superseded + 1 }
    else
      resolveStray alert true
      resolveStrays snapshot rest { report with orphaned := report.orphaned + 1 }

/-- Rebuilds the firing states from the alerts that storage holds open. It needs the rules: without
them every stored alert would be closed. -/
def recover : Prog T (Except EngineError RecoveryReport) := do
  match ← refreshRules with
  | .error e => return .error (.ruleStore e)
  | .ok snapshot =>
    let _ ← step (·.claimGeneration snapshot.generation)
    let rules ← read (·.listed snapshot)
    let found ← request (.findOpen rules)
    match ← seedRules (rules.zip found) {} with
    | .error e => return .error (.alertRepository e)
    | .ok report =>
      match ← request .findAll with
      | .error e => return .error (.alertRepository e)
      | .ok alerts => return .ok (← resolveStrays snapshot alerts report)

def retryRules : List RuleId → RetryReport → Prog T RetryReport
  | [], report => return report
  | rule :: rest, report => do retryRules rest (← retryRule rule report)

/-- One pass over the backlogs of all rules. -/
def retry : Prog T RetryReport := do
  let rules ← read (·.engine.tracker.backlogged.toList)
  retryRules rules {}

/-- Adds up slots, skipping those that lost their rule. -/
def summarize : List SlotId → TrackerSummary → Prog T TrackerSummary
  | [], summary => return summary
  | slot :: rest, summary => do
    if ← request (.knownSlot slot) then
      let s ← step fun w => (w.leave slot, w.slot slot)
      summarize rest (summary.add s)
    else summarize rest summary

def health : Prog T EngineHealth := do
  let slots ← read (·.engine.tracker.slotIds)
  let summary ← summarize slots {}
  step fun w =>
    let (w, now) := w.readCalendar
    (w, {
      store := w.engine.rules.health now
      summary
      deadLetters := w.engine.deadLetters.size
      stats := w.engine.stats })

def viewSlots : List RuleId → Prog T (List Slot)
  | [] => return []
  | rule :: rest => do
    match ← request (.existingSlot rule) with
    | some slot =>
      let s ← step fun w => (w.leave slot, w.slot slot)
      return s :: (← viewSlots rest)
    | none => viewSlots rest

def inspect : Prog T (List Slot) := do
  viewSlots (← read (·.engine.tracker.ruleIds))

inductive Call where
  | sample (metric : String) (value : Float) (time : Timestamp)
  | announceEdit (rule : RuleId)
  | refresh
  | recover
  | retry
  | health

inductive Reply where
  | events (events : List Event)
  | recovered (report : RecoveryReport)
  | retried (report : RetryReport)
  | health (health : EngineHealth)
  | failed (error : EngineError)

def Call.program : Call → Prog Visit Reply
  | .sample metric value time => do return .events (← takeSample metric value time)
  | .announceEdit rule => do
    match ← ThresholdAlerts.announceEdit rule with
    | .ok events => return .events events
    | .error e => return .failed e
  | .refresh => do
    match ← ThresholdAlerts.refresh with
    | .ok events => return .events events
    | .error e => return .failed e
  | .recover => do
    match ← ThresholdAlerts.recover with
    | .ok report => return .recovered report
    | .error e => return .failed e
  | .retry => do return .retried (← ThresholdAlerts.retry)
  | .health => do return .health (← ThresholdAlerts.health)

end ThresholdAlerts
