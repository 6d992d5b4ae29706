import ThresholdAlerts.Text.Blank
import ThresholdAlerts.Alert.Retry
/-! Settings of the program, their environment variables and the checks on them. -/
namespace ThresholdAlerts

structure Config where
  rulesFile : Option String := none
  ruleRefreshSecs : Nat := 30
  sinkTimeoutMs : Nat := 5000
  retryMaxAttempts : Nat := 8
  retryBaseMs : Nat := 500
  retryMaxBackoffMs : Nat := 60000
  retryTickMs : Nat := 250
  workers : Nat
  maxStalenessSecs : Nat := 300
deriving DecidableEq, Repr

inductive ConfigError where
  | zero (name : String)
  | backoffBelowBase (max base : Nat)
deriving DecidableEq, Repr

namespace ConfigError

def setting : ConfigError → String
  | .zero name => name
  | .backoffBelowBase .. => "retry_max_backoff_ms"

def reason : ConfigError → String
  | .zero _ => "must be greater than zero"
  | .backoffBelowBase max base => toString max ++ " is below retry_base_ms " ++ toString base

def message (e : ConfigError) : String :=
  "Invalid setting " ++ e.setting ++ ": " ++ e.reason

end ConfigError

namespace Config

/-- A number of decimal digits below `limit`; one plus sign may stand before them. -/
def readNumber? (limit : Nat) (raw : String) : Option Nat :=
  let digits := match raw.toList with
    | '+' :: rest => rest
    | all => all
  if digits.isEmpty || digits.any (fun c => !c.isDigit) then none
  else
    let n := digits.foldl (fun n c => 10 * n + (c.toNat - '0'.toNat)) 0
    if n < limit then some n else none

/-- The number in a variable; one that is missing or unreadable leaves the setting as it is. -/
def numberOr (env : String → Option String) (name : String) (limit usual : Nat) : Nat :=
  ((env name).bind fun raw => readNumber? limit (Text.trim raw)).getD usual

/-- The settings under an environment. `cpus` is the usual number of workers. -/
def ofEnv (env : String → Option String) (cpus : Nat) : Config :=
  let usual : Config := { workers := cpus }
  let word := Nat.pow 2 64
  { rulesFile := (env "VIGIL_RULES_FILE").filter fun path => !Text.isBlankText path
    ruleRefreshSecs := numberOr env "VIGIL_RULE_REFRESH_SECS" word usual.ruleRefreshSecs
    sinkTimeoutMs := numberOr env "VIGIL_SINK_TIMEOUT_MS" word usual.sinkTimeoutMs
    retryMaxAttempts := numberOr env "VIGIL_RETRY_MAX_ATTEMPTS" (Nat.pow 2 32) usual.retryMaxAttempts
    retryBaseMs := numberOr env "VIGIL_RETRY_BASE_MS" word usual.retryBaseMs
    retryMaxBackoffMs := numberOr env "VIGIL_RETRY_MAX_BACKOFF_MS" word usual.retryMaxBackoffMs
    retryTickMs := numberOr env "VIGIL_RETRY_TICK_MS" word usual.retryTickMs
    workers := numberOr env "VIGIL_WORKERS" word usual.workers
    maxStalenessSecs := numberOr env "VIGIL_MAX_STALENESS_SECS" word usual.maxStalenessSecs }

def nonZero (name : String) (n : Nat) : Except ConfigError Unit :=
  if n = 0 then .error (.zero name) else .ok ()

/-- No setting has an upper bound of its own beyond the number of bits it is read into. The number of
workers is also the number of queues that are laid out at the start, so what passes here can still be
more than the memory has room for; memory is not modelled. -/
def validate (c : Config) : Except ConfigError Unit := do
  nonZero "rule_refresh_secs" c.ruleRefreshSecs
  nonZero "sink_timeout_ms" c.sinkTimeoutMs
  nonZero "retry_max_attempts" c.retryMaxAttempts
  nonZero "retry_tick_ms" c.retryTickMs
  nonZero "workers" c.workers
  if c.retryMaxBackoffMs < c.retryBaseMs then
    throw (.backoffBelowBase c.retryMaxBackoffMs c.retryBaseMs)

def refreshInterval (c : Config) : Duration := Duration.ofSeconds c.ruleRefreshSecs

def sinkTimeout (c : Config) : Duration := Duration.ofMillis c.sinkTimeoutMs

def retryTick (c : Config) : Duration := Duration.ofMillis c.retryTickMs

def maxStaleness (c : Config) : Duration := Duration.ofSeconds c.maxStalenessSecs

def retryPolicy (c : Config) : RetryPolicy :=
  { maxAttempts := c.retryMaxAttempts
    baseDelay := Duration.ofMillis c.retryBaseMs
    maxDelay := Duration.ofMillis c.retryMaxBackoffMs }

end Config

end ThresholdAlerts
