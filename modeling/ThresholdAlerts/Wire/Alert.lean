import ThresholdAlerts.Alert.Basic
import ThresholdAlerts.Time.Rfc3339
import ThresholdAlerts.Wire.Rule
/-! Alert records and events as JSON. An event is an object with a `type`; the other members are read
as the fields of that type once the object has ended. -/
namespace ThresholdAlerts

namespace Timestamp

def toJson (t : Timestamp) : Json := .text t.write

def ofJson (v : Json) : Except Json.Fault Timestamp := do
  match read? (← v.decodeText) with
  | some t => return t
  | none => throw .malformed

end Timestamp

namespace AlertStatus

def name : AlertStatus → String
  | .active => "active"
  | .resolved => "resolved"

def ofName? : String → Option AlertStatus
  | "active" => some .active
  | "resolved" => some .resolved
  | _ => none

def toJson (s : AlertStatus) : Json := .text s.name

def ofJson (origin : Json.Origin) : Json → Except Json.Fault AlertStatus :=
  Json.decodeName origin ofName?

end AlertStatus

namespace ResolveReason

def toJson (r : ResolveReason) : Json := .text r.name

def ofJson (origin : Json.Origin) : Json → Except Json.Fault ResolveReason :=
  Json.decodeName origin ofName?

end ResolveReason

namespace Alert

def toJson (a : Alert) : Json :=
  .record [
    ("id", .text a.id),
    ("rule_id", .text a.ruleId),
    ("rule_name", .text a.ruleName),
    ("metric_key", .text a.metricKey),
    ("severity", a.severity.toJson),
    ("operator", a.operator.toJson),
    ("threshold", .optional .float a.threshold),
    ("trigger_value", .float a.triggerValue),
    ("message", .text a.message),
    ("opened_at", a.openedAt.toJson),
    ("resolved_at", .optional Timestamp.toJson a.resolvedAt)]

structure Draft where
  id : Option String := none
  ruleId : Option String := none
  ruleName : Option String := none
  metricKey : Option String := none
  severity : Option Severity := none
  operator : Option Operator := none
  threshold : Option (Option Float) := none
  triggerValue : Option Float := none
  message : Option String := none
  openedAt : Option Timestamp := none
  resolvedAt : Option (Option Timestamp) := none

def schema (origin : Json.Origin) : Json.Schema Draft where
  fields := ["id", "rule_id", "rule_name", "metric_key", "severity", "operator", "threshold",
    "trigger_value", "message", "opened_at", "resolved_at"]
  put field v d :=
    match field with
    | "id" => v.decodeText.map fun a => { d with id := some a }
    | "rule_id" => v.decodeText.map fun a => { d with ruleId := some a }
    | "rule_name" => v.decodeText.map fun a => { d with ruleName := some a }
    | "metric_key" => v.decodeText.map fun a => { d with metricKey := some a }
    | "severity" => (Severity.ofJson origin v).map fun a => { d with severity := some a }
    | "operator" => (Operator.ofJson v).map fun a => { d with operator := some a }
    | "threshold" => (Json.decodeOption Json.decodeFloat v).map fun a =>
        { d with threshold := some a }
    | "trigger_value" => v.decodeFloat.map fun a => { d with triggerValue := some a }
    | "message" => v.decodeText.map fun a => { d with message := some a }
    | "opened_at" => (Timestamp.ofJson v).map fun a => { d with openedAt := some a }
    | _ => (Json.decodeOption Timestamp.ofJson v).map fun a => { d with resolvedAt := some a }

def Draft.finish (d : Draft) (form : Json.Form) : Except Json.Fault Alert := do
  let id ← Json.required form "id" d.id
  let ruleId ← Json.required form "rule_id" d.ruleId
  let ruleName ← Json.required form "rule_name" d.ruleName
  let metricKey ← Json.required form "metric_key" d.metricKey
  let severity ← Json.required form "severity" d.severity
  let operator ← Json.required form "operator" d.operator
  let threshold ← Json.nullable form d.threshold
  let triggerValue ← Json.required form "trigger_value" d.triggerValue
  let message ← Json.required form "message" d.message
  let openedAt ← Json.required form "opened_at" d.openedAt
  let resolvedAt ← Json.nullable form d.resolvedAt
  return {
    id := id, ruleId, ruleName, metricKey, severity, operator
    threshold, triggerValue, message, openedAt, resolvedAt }

def ofJson (origin : Json.Origin) (v : Json) : Except Json.Fault Alert := do
  let (draft, form) ← (schema origin).decode origin {} v
  draft.finish form

end Alert

namespace Event

def toJson : Event → Json
  | .opened alert => .record [("type", .text "ALERT_OPENED"), ("alert", alert.toJson)]
  | .resolved alertId ruleId resolvedAt reason =>
    .record [
      ("type", .text "ALERT_RESOLVED"),
      ("alert_id", .text alertId),
      ("rule_id", .text ruleId),
      ("resolved_at", resolvedAt.toJson),
      ("reason", reason.toJson)]

inductive Tag where
  | opened
  | resolved
deriving DecidableEq

def Tag.ofJson (v : Json) : Except Json.Fault Tag := do
  match ← v.decodeText with
  | "ALERT_OPENED" => return .opened
  | "ALERT_RESOLVED" => return .resolved
  | other => throw (.unknownVariant other)

def openedSchema : Json.Schema (Option Alert) where
  fields := ["alert"]
  put _ v _ := (Alert.ofJson .buffered v).map some

structure ResolvedDraft where
  alertId : Option String := none
  ruleId : Option String := none
  resolvedAt : Option Timestamp := none
  reason : Option ResolveReason := none

def resolvedSchema : Json.Schema ResolvedDraft where
  fields := ["alert_id", "rule_id", "resolved_at", "reason"]
  put field v d :=
    match field with
    | "alert_id" => v.decodeText.map fun a => { d with alertId := some a }
    | "rule_id" => v.decodeText.map fun a => { d with ruleId := some a }
    | "resolved_at" => (Timestamp.ofJson v).map fun a => { d with resolvedAt := some a }
    | _ => (ResolveReason.ofJson .buffered v).map fun a => { d with reason := some a }

/-- The event of a type, from the members or items beside the type. -/
def ofContent (tag : Tag) (content : Json) : Except Json.Fault Event :=
  match tag with
  | .opened => do
    let (alert, form) ← openedSchema.decode .buffered none content
    return .opened (← Json.required form "alert" alert)
  | .resolved => do
    let (d, form) ← resolvedSchema.decode .buffered {} content
    let alertId ← Json.required form "alert_id" d.alertId
    let ruleId ← Json.required form "rule_id" d.ruleId
    let resolvedAt ← Json.required form "resolved_at" d.resolvedAt
    let reason ← Json.required form "reason" d.reason
    return .resolved alertId ruleId resolvedAt reason

/-- Parts the type from the other members, which have to be sound. -/
def split : Option Tag → List (Option String × Json) →
    Except Json.Fault (Option Tag × List (String × Json))
  | tag, [] => .ok (tag, [])
  | _, (none, _) :: _ => .error .malformed
  | tag, (some name, v) :: rest =>
    if name = "type" then
      match tag with
      | some _ => .error (.duplicateField "type")
      | none => do split (some (← Tag.ofJson v)) rest
    else if v.isSound (Json.bufferDepth - 1) then do
      let (tag, others) ← split tag rest
      return (tag, (name, v) :: others)
    else .error .malformed

def ofJson : Json → Except Json.Fault Event
  | .keyless _ => .error .malformed
  | .object members closed => do
    let (tag, others) ← split none members
    if !closed then throw .malformed
    match tag with
    | some tag => ofContent tag (.record others)
    | none => throw (.missingField "type")
  | .array [] closed => .error (if closed then .missingField "type" else .malformed)
  | .array (first :: rest) closed => do
    let tag ← Tag.ofJson first
    if closed && Json.allSound (Json.bufferDepth - 1) rest then ofContent tag (.list rest)
    else throw .malformed
  | v => .error v.mismatch

end Event

end ThresholdAlerts
