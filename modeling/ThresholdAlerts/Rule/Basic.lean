import ThresholdAlerts.Text.Blank
import ThresholdAlerts.Decimal.Layout
/-! Threshold rules: which values of which metric breach, and how often in a row before an alert
opens. -/
namespace ThresholdAlerts

abbrev RuleId := String

/-- Severity of a rule and of the alerts it opens, in rising order. -/
inductive Severity where
  | info
  | warning
  | critical
deriving DecidableEq, Repr, Inhabited, Ord

namespace Severity

def name : Severity → String
  | .info => "INFO"
  | .warning => "WARNING"
  | .critical => "CRITICAL"

def ofName? : String → Option Severity
  | "INFO" => some .info
  | "WARNING" => some .warning
  | "CRITICAL" => some .critical
  | _ => none

theorem ofName?_name (s : Severity) : ofName? s.name = some s := by cases s <;> rfl

end Severity

/-- Comparison of a value with a threshold. A name that means no comparison is kept as it is
written, so that evaluating the rule can report it. -/
inductive Operator where
  | gt
  | lt
  | gte
  | lte
  | eq
  | unsupported (raw : String)
deriving DecidableEq, Repr, Inhabited

namespace Operator

/-- The comparison that a name means; blanks around it and the case of its letters do not matter. -/
def parse (raw : String) : Operator :=
  match Text.lowerAscii (Text.trim raw) with
  | "gt" | ">" | "greater_than" => .gt
  | "lt" | "<" | "less_than" => .lt
  | "gte" | ">=" | "greater_equal" => .gte
  | "lte" | "<=" | "less_equal" => .lte
  | "eq" | "==" | "equal" => .eq
  | _ => .unsupported raw

def name : Operator → String
  | .gt => "GT"
  | .lt => "LT"
  | .gte => "GTE"
  | .lte => "LTE"
  | .eq => "EQ"
  | .unsupported raw => raw

def symbol : Operator → String
  | .gt => ">"
  | .lt => "<"
  | .gte => ">="
  | .lte => "<="
  | .eq => "=="
  | .unsupported _ => "?"

def isSupported : Operator → Bool
  | .unsupported _ => false
  | _ => true

end Operator

structure Rule where
  id : RuleId
  name : String
  metricKey : String
  operator : Operator
  /-- A rule without a threshold never breaches. -/
  threshold : Option Float := none
  severity : Severity := .warning
  enabled : Bool := true
  /-- Breaching samples in a row that open an alert. -/
  required : UInt32 := 1
deriving DecidableEq, Repr, Inhabited

/-- What decides whether a value breaches a rule. A streak counted under one fingerprint is never
carried over to another; thresholds are compared bit by bit. -/
structure Fingerprint where
  metricKey : String
  operator : Operator
  thresholdBits : Option UInt64
  required : UInt32
deriving DecidableEq, Repr

namespace Rule

def fingerprint (r : Rule) : Fingerprint :=
  { metricKey := r.metricKey
    operator := r.operator
    thresholdBits := r.threshold.map Float.toBits
    required := r.required }

/-- Breaching samples in a row before an alert opens; a rule that asks for none needs one. -/
def needed (r : Rule) : Nat :=
  max r.required.toNat 1

/-- The line that says how `value` stands to the rule. -/
def describe (r : Rule) (value : Float) : String :=
  match r.threshold with
  | some threshold =>
    r.metricKey ++ " = " ++ Decimal.inMessage value ++ " " ++ r.operator.symbol ++ " threshold "
      ++ Decimal.inMessage threshold
  | none => r.metricKey ++ " = " ++ Decimal.inMessage value ++ " (no threshold)"

/-- Whether two definitions say the same; thresholds are compared as numbers, so that a rule whose
threshold is not a number differs from itself. -/
def agrees (a b : Rule) : Bool :=
  a.id = b.id && a.name = b.name && a.metricKey = b.metricKey && a.operator = b.operator
    && a.threshold == b.threshold && a.severity = b.severity && a.enabled = b.enabled
    && a.required = b.required

end Rule

end ThresholdAlerts
