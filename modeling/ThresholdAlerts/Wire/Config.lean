import ThresholdAlerts.Config
import ThresholdAlerts.Json.Decode
/-! Settings as JSON. Only the rules file may be left out. -/
namespace ThresholdAlerts.Config

def toJson (c : Config) : Json :=
  .record [
    ("rules_file", .optional .text c.rulesFile),
    ("rule_refresh_secs", .nat c.ruleRefreshSecs),
    ("sink_timeout_ms", .nat c.sinkTimeoutMs),
    ("retry_max_attempts", .nat c.retryMaxAttempts),
    ("retry_base_ms", .nat c.retryBaseMs),
    ("retry_max_backoff_ms", .nat c.retryMaxBackoffMs),
    ("retry_tick_ms", .nat c.retryTickMs),
    ("workers", .nat c.workers),
    ("max_staleness_secs", .nat c.maxStalenessSecs)]

structure Draft where
  rulesFile : Option (Option String) := none
  ruleRefreshSecs : Option Nat := none
  sinkTimeoutMs : Option Nat := none
  retryMaxAttempts : Option Nat := none
  retryBaseMs : Option Nat := none
  retryMaxBackoffMs : Option Nat := none
  retryTickMs : Option Nat := none
  workers : Option Nat := none
  maxStalenessSecs : Option Nat := none

def schema : Json.Schema Draft where
  fields := ["rules_file", "rule_refresh_secs", "sink_timeout_ms", "retry_max_attempts",
    "retry_base_ms", "retry_max_backoff_ms", "retry_tick_ms", "workers", "max_staleness_secs"]
  put field v d :=
    let word := v.decodeNat (Nat.pow 2 64)
    match field with
    | "rules_file" => (Json.decodeOption Json.decodeText v).map fun a => { d with rulesFile := some a }
    | "rule_refresh_secs" => word.map fun a => { d with ruleRefreshSecs := some a }
    | "sink_timeout_ms" => word.map fun a => { d with sinkTimeoutMs := some a }
    | "retry_max_attempts" => (v.decodeNat (Nat.pow 2 32)).map fun a => { d with retryMaxAttempts := some a }
    | "retry_base_ms" => word.map fun a => { d with retryBaseMs := some a }
    | "retry_max_backoff_ms" => word.map fun a => { d with retryMaxBackoffMs := some a }
    | "retry_tick_ms" => word.map fun a => { d with retryTickMs := some a }
    | "workers" => word.map fun a => { d with workers := some a }
    | _ => word.map fun a => { d with maxStalenessSecs := some a }

def ofJson (v : Json) : Except Json.Fault Config := do
  let (d, form) ← schema.decode .direct {} v
  let rulesFile ← Json.nullable form d.rulesFile
  let ruleRefreshSecs ← Json.required form "rule_refresh_secs" d.ruleRefreshSecs
  let sinkTimeoutMs ← Json.required form "sink_timeout_ms" d.sinkTimeoutMs
  let retryMaxAttempts ← Json.required form "retry_max_attempts" d.retryMaxAttempts
  let retryBaseMs ← Json.required form "retry_base_ms" d.retryBaseMs
  let retryMaxBackoffMs ← Json.required form "retry_max_backoff_ms" d.retryMaxBackoffMs
  let retryTickMs ← Json.required form "retry_tick_ms" d.retryTickMs
  let workers ← Json.required form "workers" d.workers
  let maxStalenessSecs ← Json.required form "max_staleness_secs" d.maxStalenessSecs
  return {
    rulesFile := rulesFile, ruleRefreshSecs, sinkTimeoutMs, retryMaxAttempts, retryBaseMs
    retryMaxBackoffMs, retryTickMs, workers, maxStalenessSecs }

end ThresholdAlerts.Config
