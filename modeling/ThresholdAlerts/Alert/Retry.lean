import ThresholdAlerts.Time.Duration
/-! The schedule of repeated deliveries: the delay doubles with each failure up to a limit, and up to
a tenth of it is added at random. -/
namespace ThresholdAlerts

/-- When to try a failed delivery again, and when to give it up. -/
structure RetryPolicy where
  /-- Attempts in all, the first one included. -/
  maxAttempts : Nat := 8
  baseDelay : Duration := Duration.ofMillis 500
  maxDelay : Duration := Duration.ofSeconds 60
deriving DecidableEq, Repr

namespace RetryPolicy

/-- The delay after so many failures, before anything random is added. -/
def delay (p : RetryPolicy) (failures : Nat) : Duration :=
  min (p.baseDelay.saturatingMul (Nat.pow 2 (min (failures - 1) 31))) p.maxDelay

/-- The most milliseconds that may be added to a delay; milliseconds are counted modulo 2⁶⁴. -/
def jitterRoom (delay : Duration) : Nat :=
  delay.toMillis % Nat.pow 2 64 / 10

/-- Time until the next attempt after `failures` failed ones. `jitter` is the random addition in
milliseconds; a draw past the room for it counts as the whole room. -/
def backoff (p : RetryPolicy) (failures jitter : Nat) : Duration :=
  let delay := p.delay failures
  let room := jitterRoom delay
  if room = 0 then delay
  else min (delay.saturatingAdd (Duration.ofMillis (min jitter room))) p.maxDelay

def exhausted (p : RetryPolicy) (failures : Nat) : Bool :=
  p.maxAttempts ≤ failures

end RetryPolicy

end ThresholdAlerts
