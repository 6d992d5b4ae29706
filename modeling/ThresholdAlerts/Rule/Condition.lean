import ThresholdAlerts.Rule.Basic
/-! Whether a value breaches a threshold, and what makes a rule unfit for the question. -/
namespace ThresholdAlerts

inductive ConditionError where
  | emptyId
  | noMetricKey (rule : RuleId)
  | unsupportedOperator (rule : RuleId) (raw : String)
  | zeroRequired (rule : RuleId)
  | nonFiniteThreshold (rule : RuleId) (threshold : Float)
  | thresholdNotANumber
  | operatorNotSupported (raw : String)
deriving DecidableEq, Repr

namespace ConditionError

def reason : ConditionError → String
  | .emptyId => "rule id is empty"
  | .noMetricKey rule => "rule " ++ rule ++ " has no metric key"
  | .unsupportedOperator rule raw => "rule " ++ rule ++ " uses unsupported operator '" ++ raw ++ "'"
  | .zeroRequired rule => "rule " ++ rule ++ " requires zero consecutive breaches"
  | .nonFiniteThreshold rule threshold =>
    "rule " ++ rule ++ " has non-finite threshold " ++ Decimal.inMessage threshold
  | .thresholdNotANumber => "threshold is NaN"
  | .operatorNotSupported raw => "unsupported operator '" ++ raw ++ "'"

def message (e : ConditionError) : String :=
  "Invalid rule configuration: " ++ e.reason

end ConditionError

namespace Condition

/-- Values closer than this count as equal. -/
def tolerance : Float := 0.001

/-- Whether `value` breaches `threshold`. Without a threshold nothing breaches, and neither does a
value that is not a number. -/
def evaluate (operator : Operator) (threshold : Option Float) (value : Float) :
    Except ConditionError Bool :=
  match threshold with
  | none => .ok false
  | some threshold =>
    if threshold.isNaN then .error .thresholdNotANumber
    else if value.isNaN then .ok false
    else match operator with
      | .gt => .ok (decide (threshold < value))
      | .lt => .ok (decide (value < threshold))
      | .gte => .ok (decide (threshold ≤ value))
      | .lte => .ok (decide (value ≤ threshold))
      | .eq => .ok (decide ((value - threshold).abs < tolerance))
      | .unsupported raw => .error (.operatorNotSupported raw)

end Condition

namespace Rule

/-- The first fault of a rule that makes it unfit to be evaluated. -/
def validate (r : Rule) : Except ConditionError Unit :=
  if Text.isBlankText r.id then .error .emptyId
  else if Text.isBlankText r.metricKey then .error (.noMetricKey r.id)
  else match r.operator with
    | .unsupported raw => .error (.unsupportedOperator r.id raw)
    | _ =>
      if r.required = 0 then .error (.zeroRequired r.id)
      else match r.threshold with
        | some threshold =>
          if threshold.isFinite then .ok () else .error (.nonFiniteThreshold r.id threshold)
        | none => .ok ()

/-- Whether `value` breaches the rule, for a rule that is valid. -/
def breaches (r : Rule) (value : Float) : Except ConditionError Bool := do
  r.validate
  Condition.evaluate r.operator r.threshold value

end Rule

end ThresholdAlerts
