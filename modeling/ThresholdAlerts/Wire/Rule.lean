import ThresholdAlerts.Rule.Basic
import ThresholdAlerts.Json.Decode
/-! Rules as JSON. The threshold, the severity, whether the rule is enabled and its breach count may be
left out. -/
namespace ThresholdAlerts

namespace Severity

def toJson (s : Severity) : Json := .text s.name

def ofJson (origin : Json.Origin) : Json → Except Json.Fault Severity :=
  Json.decodeName origin ofName?

end Severity

namespace Operator

def toJson (o : Operator) : Json := .text o.name

def ofJson (v : Json) : Except Json.Fault Operator :=
  v.decodeText.map parse

end Operator

namespace Rule

def toJson (r : Rule) : Json :=
  .record [
    ("id", .text r.id),
    ("name", .text r.name),
    ("metric_key", .text r.metricKey),
    ("operator", r.operator.toJson),
    ("threshold", .optional .float r.threshold),
    ("severity", r.severity.toJson),
    ("enabled", .bool r.enabled),
    ("consecutive_breaches_required", .nat r.required.toNat)]

structure Draft where
  id : Option String := none
  name : Option String := none
  metricKey : Option String := none
  operator : Option Operator := none
  threshold : Option (Option Float) := none
  severity : Option Severity := none
  enabled : Option Bool := none
  required : Option UInt32 := none

def schema : Json.Schema Draft where
  fields := ["id", "name", "metric_key", "operator", "threshold", "severity", "enabled",
    "consecutive_breaches_required"]
  put field v d :=
    match field with
    | "id" => v.decodeText.map fun a => { d with id := some a }
    | "name" => v.decodeText.map fun a => { d with name := some a }
    | "metric_key" => v.decodeText.map fun a => { d with metricKey := some a }
    | "operator" => (Operator.ofJson v).map fun a => { d with operator := some a }
    | "threshold" => (Json.decodeOption Json.decodeFloat v).map fun a =>
        { d with threshold := some a }
    | "severity" => (Severity.ofJson .direct v).map fun a => { d with severity := some a }
    | "enabled" => v.decodeBool.map fun a => { d with enabled := some a }
    | _ => (v.decodeNat (Nat.pow 2 32)).map fun a => { d with required := some a.toUInt32 }

def Draft.finish (d : Draft) (form : Json.Form) : Except Json.Fault Rule := do
  let id ← Json.required form "id" d.id
  let name ← Json.required form "name" d.name
  let metricKey ← Json.required form "metric_key" d.metricKey
  let operator ← Json.required form "operator" d.operator
  return {
    id, name, metricKey, operator
    threshold := d.threshold.getD none
    severity := d.severity.getD .warning
    enabled := d.enabled.getD true
    required := d.required.getD 1 }

def ofJson (v : Json) : Except Json.Fault Rule := do
  let (draft, form) ← schema.decode .direct {} v
  draft.finish form

def listOfText (s : String) : Except Json.Fault (List Rule) :=
  Json.decodeWhole (Json.decodeList ofJson) s

end Rule

end ThresholdAlerts
