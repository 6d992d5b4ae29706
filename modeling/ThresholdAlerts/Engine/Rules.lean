import ThresholdAlerts.Engine.Prog
import ThresholdAlerts.Engine.Step
/-! Reading the rules. One call refreshes at a time. A failed fetch leaves the rules as they are. -/
namespace ThresholdAlerts

open Prog

/-- Fetches the rules; to be done in turn. -/
def fetchRules : Prog T (Except SourceError RuleSnapshot) := do
  modify (·.onRules (·.beginFetch))
  match ← request .fetch with
  | .ok rules =>
    let snapshot ← step (·.loadRules rules)
    return .ok snapshot
  | .error e =>
    modify (·.onRules (·.failed e))
    return .error e

/-- Fetches the rules now. -/
def refreshRules : Prog T (Except SourceError RuleSnapshot) := do
  request .refreshTurn
  let result ← fetchRules
  modify (·.endTurn)
  return result

/-- The current rules, fetched first if they were invalidated. If the fetch fails the last known rules
are served. -/
def currentRules : Prog T RuleSnapshot := do
  if ← read (·.engine.rules.invalidated) then
    request .refreshTurn
    -- Another call may have fetched them in the meantime.
    if ← read (·.engine.rules.invalidated) then
      let _ ← fetchRules
    modify (·.endTurn)
  read (·.engine.rules.snapshot)

end ThresholdAlerts
