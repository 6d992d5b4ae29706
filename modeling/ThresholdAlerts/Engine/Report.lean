import ThresholdAlerts.Engine.World
/-! What the calls of the engine answer. -/
namespace ThresholdAlerts

structure RecoveryReport where
  /-- Rules that became open with an alert found in storage. -/
  seeded : Nat := 0
  /-- Open alerts whose rule is not enabled. -/
  orphaned : Nat := 0
  /-- Further open alerts of rules that had one. -/
  superseded : Nat := 0
deriving DecidableEq, Repr

structure RetryReport where
  attempted : Nat := 0
  delivered : Nat := 0
  deadLettered : Nat := 0
  stillPending : Nat := 0
deriving DecidableEq, Repr

structure EngineHealth where
  store : StoreHealth
  summary : TrackerSummary
  deadLetters : Nat
  stats : Stats
deriving Repr

inductive EngineError where
  | ruleStore (cause : SourceError)
  | alertRepository (cause : SinkError)
deriving DecidableEq, Repr

def EngineError.message : EngineError → String
  | .ruleStore cause => "Rule store error: " ++ cause.message
  | .alertRepository cause => "Alert repository error: " ++ cause.message

end ThresholdAlerts
