import ThresholdAlerts.Rule.Basic
import ThresholdAlerts.Time.Timestamp
/-! Alert records and the events of an alert's life. -/
namespace ThresholdAlerts

abbrev AlertId := String

inductive AlertStatus where
  | active
  | resolved
deriving DecidableEq, Repr

/-- An alert record. What it says about its rule is copied when it opens; later edits of the rule do
not change it. -/
structure Alert where
  id : AlertId
  ruleId : RuleId
  ruleName : String
  metricKey : String
  severity : Severity
  operator : Operator
  threshold : Option Float
  triggerValue : Float
  message : String
  openedAt : Timestamp
  resolvedAt : Option Timestamp
deriving DecidableEq, Repr, Inhabited

namespace Alert

def ofRule (id : AlertId) (rule : Rule) (value : Float) (time : Timestamp) : Alert :=
  { id
    ruleId := rule.id
    ruleName := rule.name
    metricKey := rule.metricKey
    severity := rule.severity
    operator := rule.operator
    threshold := rule.threshold
    triggerValue := value
    message := rule.describe value
    openedAt := time
    resolvedAt := none }

def isOpen (a : Alert) : Bool :=
  a.resolvedAt.isNone

def status (a : Alert) : AlertStatus :=
  if a.isOpen then .active else .resolved

/-- Closes the alert; one that is closed keeps its first time of resolution. -/
def resolve (a : Alert) (time : Timestamp) : Alert :=
  { a with resolvedAt := a.resolvedAt <|> some time }

end Alert

/-- Why an open alert was closed. -/
inductive ResolveReason where
  /-- The metric stopped breaching. -/
  | recovered
  /-- The rule was disabled or deleted. -/
  | ruleRemoved
  /-- What the rule compares was changed. -/
  | ruleChanged
  /-- Another open alert of the same rule was found in storage. -/
  | superseded
deriving DecidableEq, Repr

namespace ResolveReason

def name : ResolveReason → String
  | .recovered => "recovered"
  | .ruleRemoved => "rule_removed"
  | .ruleChanged => "rule_changed"
  | .superseded => "superseded"

def ofName? : String → Option ResolveReason
  | "recovered" => some .recovered
  | "rule_removed" => some .ruleRemoved
  | "rule_changed" => some .ruleChanged
  | "superseded" => some .superseded
  | _ => none

theorem ofName?_name (r : ResolveReason) : ofName? r.name = some r := by cases r <;> rfl

end ResolveReason

inductive Event where
  | opened (alert : Alert)
  | resolved (alertId : AlertId) (ruleId : RuleId) (resolvedAt : Timestamp) (reason : ResolveReason)
deriving DecidableEq, Repr

namespace Event

def alertId : Event → AlertId
  | .opened alert => alert.id
  | .resolved alertId _ _ _ => alertId

def ruleId : Event → RuleId
  | .opened alert => alert.ruleId
  | .resolved _ ruleId _ _ => ruleId

def isOpened : Event → Bool
  | .opened _ => true
  | .resolved .. => false

def kind (e : Event) : String :=
  if e.isOpened then "ALERT_OPENED" else "ALERT_RESOLVED"

end Event

end ThresholdAlerts
