import ThresholdAlerts.Alert.Basic
/-! Counters of what the engine did. -/
namespace ThresholdAlerts

structure Stats where
  samples : Nat := 0
  nanSamples : Nat := 0
  ruleEvaluations : Nat := 0
  invalidRuleEvaluations : Nat := 0
  alertsOpened : Nat := 0
  alertsResolved : Nat := 0
  sinkFailures : Nat := 0
  /-- Deliveries that succeeded after a failure. -/
  retriedDeliveries : Nat := 0
  /-- Unsent pairs of an opening and its end that were dropped. -/
  collapsedDeliveries : Nat := 0
  deadLettered : Nat := 0
deriving DecidableEq, Repr, Inhabited

namespace Stats

inductive Count where
  | sample
  | nanSample
  | evaluation
  | invalidRule
  | event (e : Event)
  | sinkFailure
  | retried
  | collapsed
  | deadLetter

def record (s : Stats) : Count → Stats
  | .sample => { s with samples := s.samples + 1 }
  | .nanSample => { s with nanSamples := s.nanSamples + 1 }
  | .evaluation => { s with ruleEvaluations := s.ruleEvaluations + 1 }
  | .invalidRule => { s with invalidRuleEvaluations := s.invalidRuleEvaluations + 1 }
  | .event (.opened _) => { s with alertsOpened := s.alertsOpened + 1 }
  | .event (.resolved ..) => { s with alertsResolved := s.alertsResolved + 1 }
  | .sinkFailure => { s with sinkFailures := s.sinkFailures + 1 }
  | .retried => { s with retriedDeliveries := s.retriedDeliveries + 1 }
  | .collapsed => { s with collapsedDeliveries := s.collapsedDeliveries + 1 }
  | .deadLetter => { s with deadLettered := s.deadLettered + 1 }

end Stats

end ThresholdAlerts
