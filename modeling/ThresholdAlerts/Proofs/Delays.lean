import Mathlib.Algebra.Group.Nat.Defs
import ThresholdAlerts.Config
/-! The delays between attempts. Main statement: if the limit on delays is a 64-bit number of milliseconds, each delay
is what numbers of any size would make it. A product may come to the longest span, but the limit hides that, and what
stays under the limit neither fills a word nor loses a part of a millisecond. -/
namespace ThresholdAlerts

namespace Duration

variable {limit : Duration} {ms ms' : Nat}

theorem min_eq (a b : Duration) : min a b = ⟨min a.nanos b.nanos⟩ := by
  change (if a.nanos ≤ b.nanos then a else b) = _
  rw [Nat.min_def]
  split <;> rfl

theorem ofMillis_le_ofMillis : ofMillis ms ≤ ofMillis ms' ↔ ms ≤ ms' :=
  Nat.mul_le_mul_right_iff (by decide)

theorem min_ofMillis (ms ms' : Nat) : min (ofMillis ms) (ofMillis ms') = ofMillis (min ms ms') := by
  rw [min_eq]
  exact congrArg mk (Nat.mul_min_mul_right ..)

theorem ofMillis_mul (ms n : Nat) : (⟨(ofMillis ms).nanos * n⟩ : Duration) = ofMillis (ms * n) :=
  congrArg mk (Nat.mul_right_comm ..)

theorem ofMillis_add (ms ms' : Nat) : ofMillis ms + ofMillis ms' = ofMillis (ms + ms') :=
  congrArg mk (Nat.add_mul ..).symm

theorem toMillis_ofMillis (ms : Nat) : (ofMillis ms).toMillis = ms :=
  Nat.mul_div_cancel ms (by decide)

theorem ofMillis_le_longest (word : ms < 2 ^ 64) : ofMillis ms ≤ longest := by
  change ms * 1000000 ≤ 2 ^ 64 * 1000000000 - 1
  omega

/-- Under a limit it is not seen whether a span had to stay at the longest. -/
theorem min_longest (d : Duration) (short : limit ≤ longest) : min (min d longest) limit = min d limit := by
  have bound : limit.nanos ≤ longest.nanos := short
  rw [min_eq, min_eq, min_eq, Nat.min_assoc, Nat.min_eq_right bound]

theorem min_saturatingMul (d : Duration) (n : Nat) (short : limit ≤ longest) :
    min (d.saturatingMul n) limit = min ⟨d.nanos * n⟩ limit :=
  min_longest _ short

theorem min_saturatingAdd (a b : Duration) (short : limit ≤ longest) :
    min (a.saturatingAdd b) limit = min (a + b) limit :=
  min_longest _ short

end Duration

namespace RetryPolicy

/-- The milliseconds after so many failures, with numbers of any size: they double with each failure after the first,
31 times at most, and stay at the limit. -/
def schedule (base limit failures : Nat) : Nat :=
  min (base * 2 ^ min (failures - 1) 31) limit

/-- Both delays of a policy are whole milliseconds, and a 64-bit number holds those of the limit. -/
structure InMillis (p : RetryPolicy) (base limit : Nat) : Prop where
  baseDelay : p.baseDelay = .ofMillis base
  maxDelay : p.maxDelay = .ofMillis limit
  word : limit < 2 ^ 64

variable {p : RetryPolicy} {base limit failures failures' : Nat}

theorem schedule_le (base limit failures : Nat) : schedule base limit failures ≤ limit :=
  Nat.min_le_right ..

theorem schedule_mono (more : failures ≤ failures') : schedule base limit failures ≤ schedule base limit failures' := by
  have doublings : min (failures - 1) 31 ≤ min (failures' - 1) 31 := by omega
  have grown : base * 2 ^ min (failures - 1) 31 ≤ base * 2 ^ min (failures' - 1) 31 :=
    Nat.mul_le_mul_left base (Nat.pow_le_pow_right (by decide) doublings)
  rw [schedule, schedule]
  omega

/-- Up to the 32nd failure nothing but the limit keeps the delay from doubling. -/
theorem schedule_eq_limit (few : failures ≤ 32) (reached : limit ≤ base * 2 ^ (failures - 1)) :
    schedule base limit failures = limit := by
  have doublings : min (failures - 1) 31 = failures - 1 := by omega
  rw [schedule, doublings]
  exact Nat.min_eq_right reached

namespace InMillis

variable (h : p.InMillis base limit)
include h

theorem maxDelay_le_longest : p.maxDelay ≤ Duration.longest := by
  rw [h.maxDelay]
  exact Duration.ofMillis_le_longest h.word

theorem delay_eq (failures : Nat) : p.delay failures = .ofMillis (schedule base limit failures) := by
  rw [delay, Duration.min_saturatingMul _ _ h.maxDelay_le_longest, h.baseDelay, h.maxDelay, Duration.ofMillis_mul,
    Duration.min_ofMillis]
  rfl

/-- The milliseconds of a delay fit a word, so that a tenth of them is a tenth of the delay. -/
theorem jitterRoom_eq (failures : Nat) : jitterRoom (p.delay failures) = schedule base limit failures / 10 := by
  have word : schedule base limit failures < 2 ^ 64 := Nat.lt_of_le_of_lt (schedule_le base limit failures) h.word
  rw [h.delay_eq, jitterRoom, Duration.toMillis_ofMillis]
  exact congrArg (· / 10) (Nat.mod_eq_of_lt word)

theorem backoff_eq (failures jitter : Nat) :
    p.backoff failures jitter =
      .ofMillis (min (schedule base limit failures + min jitter (schedule base limit failures / 10)) limit) := by
  have capped := schedule_le base limit failures
  rw [backoff, h.jitterRoom_eq, h.delay_eq]
  split
  · next none =>
    rw [none, Nat.min_zero, Nat.add_zero, Nat.min_eq_left capped]
  · rw [Duration.min_saturatingAdd _ _ h.maxDelay_le_longest, h.maxDelay, Duration.ofMillis_add, Duration.min_ofMillis]

/-- The delays that can be drawn: each whole millisecond from the scheduled one to a tenth above it that the limit
leaves, and nothing else. -/
theorem exists_backoff_iff {delay : Duration} :
    (∃ jitter, p.backoff failures jitter = delay) ↔ ∃ ms, schedule base limit failures ≤ ms ∧
      ms ≤ min (schedule base limit failures + schedule base limit failures / 10) limit ∧ delay = .ofMillis ms := by
  have capped := schedule_le base limit failures
  constructor
  · rintro ⟨jitter, rfl⟩
    exact ⟨_, by omega, by omega, h.backoff_eq failures jitter⟩
  · rintro ⟨ms, least, most, rfl⟩
    refine ⟨ms - schedule base limit failures, ?_⟩
    have added : min (schedule base limit failures + min (ms - schedule base limit failures)
        (schedule base limit failures / 10)) limit = ms := by omega
    rw [h.backoff_eq, added]

end InMillis

end RetryPolicy

namespace Config

variable {c : Config} {env : String → Option String} {name : String} {limit usual n : Nat}

/-! ### Which delays are admitted -/

theorem readNumber?_lt {raw : String} (read : readNumber? limit raw = some n) : n < limit := by
  simp only [readNumber?, Option.ite_none_left_eq_some, Option.ite_none_right_eq_some, Option.some.injEq] at read
  obtain ⟨-, small, rfl⟩ := read
  exact small

theorem numberOr_lt (small : usual < limit) : numberOr env name limit usual < limit := by
  rw [numberOr]
  cases read : (env name).bind fun raw => readNumber? limit (Text.trim raw) with
  | none => exact small
  | some n =>
    obtain ⟨raw, -, read⟩ := Option.bind_eq_some_iff.mp read
    exact readNumber?_lt read

theorem retryMaxBackoffMs_ofEnv_lt (env : String → Option String) (cpus : Nat) :
    (ofEnv env cpus).retryMaxBackoffMs < 2 ^ 64 :=
  numberOr_lt (show 60000 < Nat.pow 2 64 by decide)

theorem nonZero_bind_eq_ok_iff {next : Unit → Except ConfigError Unit} :
    (nonZero name n >>= next) = .ok () ↔ n ≠ 0 ∧ next () = .ok () := by
  rw [nonZero]
  split
  · next zero => exact ⟨nofun, fun h => absurd zero h.1⟩
  · next positive => exact ⟨fun h => ⟨positive, h⟩, fun h => h.2⟩

theorem validate_eq_ok_iff :
    c.validate = .ok () ↔ c.ruleRefreshSecs ≠ 0 ∧ c.sinkTimeoutMs ≠ 0 ∧ c.retryMaxAttempts ≠ 0 ∧ c.retryTickMs ≠ 0 ∧
      c.workers ≠ 0 ∧ c.retryBaseMs ≤ c.retryMaxBackoffMs := by
  rw [validate]
  simp only [nonZero_bind_eq_ok_iff, and_congr_right_iff]
  intro _ _ _ _ _
  rw [← Nat.not_lt]
  split
  · next below => exact ⟨nofun, fun h => absurd below h⟩
  · next spaced => exact ⟨fun _ => spaced, fun _ => rfl⟩

theorem retryPolicy_inMillis (word : c.retryMaxBackoffMs < 2 ^ 64) :
    c.retryPolicy.InMillis c.retryBaseMs c.retryMaxBackoffMs :=
  ⟨rfl, rfl, word⟩

/-- Whatever limit of 64 bits is set, and however often a delivery failed: the delay before the next attempt lies
between the scheduled one and a tenth above it, and never over the limit. It is, with the random addition, what numbers
of any size would make it. The schedule does not fall, and in the first 32 failures it is at the limit as soon as the
doubled delay would be. A first delay over the limit, which is no valid setting, would change none of this. -/
theorem backoff_on_schedule (c : Config) (word : c.retryMaxBackoffMs < 2 ^ 64) :
    let p := c.retryPolicy
    let limit := c.retryMaxBackoffMs
    let d := RetryPolicy.schedule c.retryBaseMs limit
    (c.validate = .ok () → c.retryBaseMs ≤ limit) ∧
      (∀ failures jitter, .ofMillis (d failures) ≤ p.backoff failures jitter ∧
        p.backoff failures jitter ≤ .ofMillis (min (d failures + d failures / 10) limit)) ∧
      (∀ failures jitter, p.delay failures = .ofMillis (d failures) ∧
        RetryPolicy.jitterRoom (p.delay failures) = d failures / 10 ∧
        p.backoff failures jitter = .ofMillis (min (d failures + min jitter (d failures / 10)) limit)) ∧
      (∀ failures failures', failures ≤ failures' → d failures ≤ d failures') ∧
      ∀ failures ≤ 32, limit ≤ c.retryBaseMs * 2 ^ (failures - 1) → d failures = limit := by
  intro p limit d
  have millis : p.InMillis c.retryBaseMs limit := retryPolicy_inMillis word
  refine ⟨fun valid => ?_, fun failures jitter => ?_, fun failures jitter => ?_,
    fun failures failures' => RetryPolicy.schedule_mono, fun failures => RetryPolicy.schedule_eq_limit⟩
  · obtain ⟨-, -, -, -, -, spaced⟩ := validate_eq_ok_iff.mp valid
    exact spaced
  · obtain ⟨ms, least, most, drawn⟩ := millis.exists_backoff_iff.mp ⟨jitter, rfl⟩
    rw [drawn]
    exact ⟨Duration.ofMillis_le_ofMillis.mpr least, Duration.ofMillis_le_ofMillis.mpr most⟩
  · exact ⟨millis.delay_eq failures, millis.jitterRoom_eq failures, millis.backoff_eq failures jitter⟩

/-- With the highest limit and half of it as the first delay, the 31 doublings come to the longest span, and the delay
is at the limit all the same; the first one has its tenth above it. -/
theorem backoff_on_schedule_saturated :
    let env (name : String) : Option String :=
      if name = "VIGIL_RETRY_BASE_MS" then some "9223372036854775808"
      else if name = "VIGIL_RETRY_MAX_BACKOFF_MS" then some "18446744073709551615"
      else none
    let c := ofEnv env 4
    let p := c.retryPolicy
    c.validate = .ok () ∧ c.retryMaxBackoffMs < 2 ^ 64 ∧ p.baseDelay.saturatingMul (2 ^ 31) = .longest ∧
      (∀ jitter, p.backoff 32 jitter = .ofMillis 18446744073709551615) ∧
      ∀ jitter, .ofMillis 9223372036854775808 ≤ p.backoff 1 jitter ∧
        p.backoff 1 jitter ≤ .ofMillis 10145709240540253388 := by
  intro env c p
  have word : c.retryMaxBackoffMs < 2 ^ 64 := retryMaxBackoffMs_ofEnv_lt env 4
  have base : c.retryBaseMs = 9223372036854775808 := by decide +kernel
  have limit : c.retryMaxBackoffMs = 18446744073709551615 := by decide +kernel
  have valid : c.validate = .ok () := validate_eq_ok_iff.mpr (by decide +kernel)
  have first : RetryPolicy.schedule c.retryBaseMs c.retryMaxBackoffMs 1 = 9223372036854775808 := by
    rw [base, limit]
    rfl
  obtain ⟨-, bounds, computed, -, full⟩ := c.backoff_on_schedule word
  refine ⟨valid, word, by decide +kernel, fun jitter => ?_, fun jitter => ?_⟩
  · obtain ⟨-, -, drawn⟩ := computed 32 jitter
    have last := full 32 (by decide) (by rw [base, limit]; decide)
    rw [last, Nat.min_eq_right (Nat.le_add_right ..), limit] at drawn
    exact drawn
  · have between := bounds 1 jitter
    rw [first, limit] at between
    exact between

end Config

end ThresholdAlerts
