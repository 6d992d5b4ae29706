import ThresholdAlerts.Wire.Alert
/-! Metric samples and their JSON form. A value of `null` is no number; a sample without a time gets
the moment it is read. -/
namespace ThresholdAlerts

structure Sample where
  metricKey : String
  value : Float
  time : Timestamp
deriving DecidableEq, Repr

namespace Sample

/-- The value that stands for no number. -/
def notANumber : Float := 0 / 0

def toJson (s : Sample) : Json :=
  .record [
    ("metric_key", .text s.metricKey),
    ("value", .float s.value),
    ("timestamp", s.time.toJson)]

structure Draft where
  metricKey : Option String := none
  value : Option Float := none
  time : Option Timestamp := none

def schema : Json.Schema Draft where
  fields := ["metric_key", "value", "timestamp"]
  put field v d :=
    match field with
    | "metric_key" => v.decodeText.map fun a => { d with metricKey := some a }
    | "value" => (Json.decodeOption Json.decodeFloat v).map fun a =>
        { d with value := some (a.getD notANumber) }
    | _ => (Timestamp.ofJson v).map fun a => { d with time := some a }

/-- Reads a sample at the moment `now`. -/
def ofJson (now : Timestamp) (v : Json) : Except Json.Fault Sample := do
  let (d, form) ← schema.decode .direct {} v
  let metricKey ← Json.required form "metric_key" d.metricKey
  let value ← Json.required form "value" d.value
  return { metricKey, value, time := d.time.getD now }

end Sample

end ThresholdAlerts
