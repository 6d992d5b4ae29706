import Mathlib
import ThresholdAlerts.Json.Reader
/-! Doubles that are read. A double is followed through the arithmetic of its mantissa and its exponent. Main
statement: the numbers of a text, unless they are too large, are read as finite doubles (`Json.finite_read`). -/
namespace ThresholdAlerts

open Float.Model (Format UnpackedFloat totalExponent)
open Float.Model.UnpackedFloat

/-! ### Exponents -/

def UnpackedWithin (k : Int) : UnpackedFloat → Prop
  | .zero _ => True
  | .finite _ mantissa exponent _ => mantissa < 2 ^ 53 ∧ exponent ≤ k
  | _ => False

section Unpacked

variable {k : Int} {f g : UnpackedFloat} {s : Sign} {m : Nat} {e : Int}

theorem targetExponent_eq (t : Int) : Format.binary64.targetExponent t = max (t - 53) (-1074) := rfl

theorem shiftRight_mantissa (n : Nat) (em : ExtendedMantissa) : (em >>> n).mantissa = em.mantissa / 2 ^ n := by
  induction n with
  | zero => simp [HShiftRight.hShiftRight, Nat.repeat]
  | succ n ih =>
    change (em >>> n).mantissa / 2 = _
    rw [ih, Nat.div_div_eq_div_mul, Nat.pow_succ]

theorem ofMantissaAndAccuracy_mantissa (m : Nat) (a : Accuracy) :
    (ExtendedMantissa.ofMantissaAndAccuracy m a).mantissa = m := by
  cases a with
  | exact => rfl
  | inexact o => cases o <;> rfl

theorem roundToNearestEven_le (m : Nat) (a : Accuracy) : a.roundToNearestEven m ≤ m + 1 := by
  cases a with
  | exact => exact Nat.le_succ m
  | inexact o => cases o <;> simp only [Accuracy.roundToNearestEven] <;> omega

theorem shifted_lt (m : Nat) (e : Int) :
    m / 2 ^ (Format.binary64.targetExponent (totalExponent m e) - e).toNat < 2 ^ 53 := by
  have enough : m.log2 + 1 ≤ 53 + (Format.binary64.targetExponent (totalExponent m e) - e).toNat := by
    rw [targetExponent_eq, totalExponent]
    omega
  rw [Nat.div_lt_iff_lt_mul (Nat.two_pow_pos _), ← Nat.pow_add]
  exact Nat.lt_of_lt_of_le Nat.lt_log2_self (Nat.pow_le_pow_right (by decide) enough)

theorem within_roundWithAccuracy {a : Accuracy} (bottom : -1073 ≤ k) (below : e < k)
    (small : totalExponent m e ≤ k + 52) :
    UnpackedWithin k (roundWithAccuracy .binary64 s m e a) := by
  unfold roundWithAccuracy shiftToTargetExponent shiftToExponent
  simp only [shiftRight_mantissa, ofMantissaAndAccuracy_mantissa]
  generalize first : (Format.binary64.targetExponent (totalExponent m e) - e).toNat = n
  generalize rounded : ExtendedMantissa.roundedMantissa _ = r
  have lengthy : r ≤ 2 ^ 53 := by
    rw [← rounded]
    refine (roundToNearestEven_le _ _).trans ?_
    rw [shiftRight_mantissa, ofMantissaAndAccuracy_mantissa, ← first]
    exact shifted_lt m e
  have short : r.log2 ≤ 53 := by
    rw [Nat.log2_eq_log_two]
    exact (Nat.log_mono_right lengthy).trans_eq (Nat.log_pow (by decide) 53)
  split
  · trivial
  · refine ⟨shifted_lt _ _, ?_⟩
    rw [targetExponent_eq, totalExponent] at first ⊢
    unfold totalExponent at small
    omega

theorem le_roundToNearestEven (m : Nat) (a : Accuracy) : m ≤ a.roundToNearestEven m := by
  cases a with
  | exact => exact Nat.le_refl m
  | inexact o => cases o <;> simp only [Accuracy.roundToNearestEven] <;> omega

theorem le_log2 (long : 2 ^ 52 ≤ m) : 52 ≤ m.log2 := by
  rw [Nat.log2_eq_log_two]
  exact (Nat.log_pow (by decide) 52).symm.trans_le (Nat.log_mono_right long)

theorem shift_of_long (long : 2 ^ 52 ≤ m) (low : -1074 ≤ e) :
    (Format.binary64.targetExponent (totalExponent m e) - e).toNat = m.log2 - 52 := by
  have digits := le_log2 long
  rw [targetExponent_eq, totalExponent]
  omega

theorem le_shifted (long : 2 ^ 52 ≤ m) : 2 ^ 52 ≤ m / 2 ^ (m.log2 - 52) := by
  rw [Nat.le_div_iff_mul_le (Nat.two_pow_pos _), ← Nat.pow_add, Nat.add_sub_cancel' (le_log2 long)]
  exact Nat.log2_self_le (by omega)

/-- Rounding a long mantissa makes the exponent no smaller. -/
theorem exists_roundWithAccuracy {a : Accuracy} (long : 2 ^ 52 ≤ m) (low : -1074 ≤ e) :
    ∃ m' e' positive, roundWithAccuracy .binary64 s m e a = .finite s m' e' positive ∧ 2 ^ 52 ≤ m' ∧
      e + (m.log2 - 52 : Nat) ≤ e' := by
  unfold roundWithAccuracy shiftToTargetExponent shiftToExponent
  simp only [shiftRight_mantissa, ofMantissaAndAccuracy_mantissa]
  generalize first : (Format.binary64.targetExponent (totalExponent m e) - e).toNat = n
  rw [shift_of_long long low] at first
  generalize rounded : ExtendedMantissa.roundedMantissa _ = r
  have lengthy : 2 ^ 52 ≤ r := by
    rw [← rounded]
    refine (le_shifted long).trans ((le_of_eq ?_).trans (le_roundToNearestEven _ _))
    rw [shiftRight_mantissa, ofMantissaAndAccuracy_mantissa, first]
  have last := le_shifted lengthy
  rw [← shift_of_long (e := e + n) lengthy (by omega)] at last
  have nonzero := Nat.ne_of_gt (Nat.lt_of_lt_of_le (Nat.two_pow_pos 52) last)
  exact ⟨_, _, Nat.pos_of_ne_zero nonzero, dif_neg nonzero, last, by omega⟩

theorem log2_div_le {m n : Nat} (nonzero : 0 < n) (s : Nat) :
    ((m <<< s / n).log2 : Int) ≤ max (0 : Int) ((m.log2 : Int) + s - n.log2) := by
  by_cases zero : m <<< s / n = 0
  · rw [zero]
    exact le_max_left _ _
  · have low : 2 ^ (m <<< s / n).log2 ≤ m <<< s / n := Nat.log2_self_le zero
    have least : 2 ^ n.log2 ≤ n := Nat.log2_self_le nonzero.ne'
    have high : m <<< s < 2 ^ (m.log2 + 1 + s) := by
      rw [Nat.shiftLeft_eq, Nat.pow_add]
      exact Nat.mul_lt_mul_of_pos_right Nat.lt_log2_self (Nat.two_pow_pos _)
    have product : 2 ^ ((m <<< s / n).log2 + n.log2) < 2 ^ (m.log2 + 1 + s) := by
      rw [Nat.pow_add]
      exact lt_of_le_of_lt ((Nat.mul_le_mul low least).trans (Nat.div_mul_le_self _ _)) high
    have := (Nat.pow_lt_pow_iff_right (by decide)).1 product
    omega

inductive IsDivisor : UnpackedFloat → Prop
  | finite {s : Sign} {m : Nat} {e : Int} {positive : 0 < m} (large : 2 ≤ totalExponent m e) :
    IsDivisor (.finite s m e positive)

instance (f : UnpackedFloat) : Decidable (IsDivisor f) :=
  match f with
  | .finite _ m e _ =>
    if large : 2 ≤ totalExponent m e then .isTrue (.finite large) else .isFalse fun | .finite large' => large large'
  | .zero _ => .isFalse nofun
  | .infinity _ => .isFalse nofun
  | .notANumber => .isFalse nofun

theorem within_div (bottom : -1073 ≤ k) (dividend : UnpackedWithin k f) (divisor : IsDivisor g) :
    UnpackedWithin k (div .binary64 f g) := by
  cases divisor with
  | @finite s₂ m₂ e₂ positive₂ large =>
    cases f with
    | zero s => trivial
    | finite s₁ m₁ e₁ positive₁ =>
      obtain ⟨digits, exponent⟩ := dividend
      have short : m₁.log2 ≤ 52 := Nat.le_of_lt_succ ((Nat.log2_lt positive₁.ne').2 digits)
      rw [div, divCore]
      simp only [targetExponent_eq]
      have quotient := log2_div_le positive₂ (m := m₁)
        (e₁ - e₂ - min (e₁ - e₂) (max (totalExponent m₁ e₁ - totalExponent m₂ e₂ - 53) (-1074))).toNat
      unfold totalExponent at large quotient
      refine within_roundWithAccuracy bottom ?_ ?_
      · unfold totalExponent
        omega
      · unfold totalExponent
        omega
    | _ => exact dividend.elim

theorem within_unpack {b : BitVec Format.binary64.numBits} (bottom : -1074 ≤ k)
    (finite : (unpackExponent b).toNat < 2047) (bound : ((unpackExponent b).toNat : Int) - 1075 ≤ k) :
    UnpackedWithin k (unpack .binary64 b) := by
  have below : unpackExponent b ≠ (-1#_) := fun same => by
    rw [same] at finite
    exact absurd finite (by decide)
  have digits : (unpackMantissa b).toNat < 2 ^ 52 := (unpackMantissa b).isLt
  rw [unpack]
  simp only [below, if_false]
  split
  case isTrue zero =>
    split
    · trivial
    · refine ⟨digits.trans (by decide), ?_⟩
      rw [zero]
      change (0 : Int) - (1023 + 52) + 1 ≤ k
      omega
  case isFalse =>
    refine ⟨(1#1 ++ unpackMantissa b).isLt, ?_⟩
    change ((unpackExponent b).toNat : Int) - (1023 + 52) ≤ k
    omega

theorem pack_finite (positive : 0 < m) (top : e ≤ 971) :
    pack .binary64 (.finite s m e positive) =
      if m.log2 + 1 = 53 then packComponents .binary64 s (BitVec.ofNat _ (e + 1075).toNat) (BitVec.ofNat _ m)
      else packComponents .binary64 s 0#_ (BitVec.ofNat _ m) := by
  have field : e + Format.binary64.exponentBias + Format.binary64.mantissaBitsWithoutImplicit = e + 1075 := by
    change e + 1023 + 52 = e + 1075
    omega
  have fits : ¬ 2 ^ Format.binary64.exponentBits ≤ (e + 1075).toNat + 1 := by
    change ¬ 2 ^ 11 ≤ (e + 1075).toNat + 1
    omega
  simp only [pack, field, fits, if_false]
  rfl

theorem unpackExponent_pack (positive : 0 < m) (exponent : e ≤ k) (top : k ≤ 971) :
    (unpackExponent (pack .binary64 (.finite s m e positive))).toNat ≤ (k + 1075).toNat := by
  rw [pack_finite positive (exponent.trans top)]
  split
  · rw [unpackExponent_packComponents, BitVec.toNat_ofNat]
    exact (Nat.mod_le _ _).trans (by omega)
  · simp

/-- Packing keeps a double of 53 digits with an exponent in the range. -/
theorem isDivisor_repack {positive : 0 < m} (long : 2 ^ 52 ≤ m) (short : m < 2 ^ 53) (low : -51 ≤ e) (top : e ≤ 971) :
    IsDivisor (Float.Model.pack (.finite s m e positive)).unpack := by
  change IsDivisor (unpack .binary64 (pack .binary64 (.finite s m e positive)))
  have normal : m.log2 + 1 = 53 := by
    have upper : m.log2 < 53 := (Nat.log2_lt positive.ne').2 short
    have lower := le_log2 long
    omega
  have exponent : (BitVec.ofNat Format.binary64.exponentBits (e + 1075).toNat).toNat = (e + 1075).toNat :=
    (BitVec.toNat_ofNat _ _).trans (Nat.mod_eq_of_lt (by change _ < 2 ^ 11; omega))
  rw [pack_finite positive top, if_pos normal]
  simp only [unpack, unpackExponent_packComponents, unpackMantissa_packComponents]
  have ordinary : BitVec.ofNat Format.binary64.exponentBits (e + 1075).toNat ≠ (-1#_) := fun same => by
    rw [same] at exponent
    change 2047 = _ at exponent
    omega
  have nonzero : BitVec.ofNat Format.binary64.exponentBits (e + 1075).toNat ≠ 0#_ := fun same => by
    rw [same] at exponent
    change 0 = _ at exponent
    omega
  simp only [ordinary, nonzero, if_false]
  refine .finite ?_
  rw [exponent]
  have digits : 2 ^ 52 ≤ (1#1 ++ BitVec.ofNat 52 m).toNat := by
    rw [BitVec.toNat_append]
    exact Nat.left_le_or
  have log := le_log2 digits
  have bias : (Format.binary64.exponentBias : Int) + (Format.binary64.mantissaBitsWithoutImplicit : Int) = 1075 := rfl
  rw [totalExponent, bias]
  omega

theorem within_repack (bottom : -1074 ≤ k) (top : k ≤ 971) (within : UnpackedWithin k f) :
    UnpackedWithin k (Float.Model.pack f).unpack := by
  change UnpackedWithin k (unpack .binary64 (pack .binary64 f))
  cases f with
  | zero s =>
    have field : unpackExponent (pack .binary64 (.zero s)) = 0 := by simp [pack, packedZero]
    refine within_unpack bottom ?_ ?_
    · rw [field]
      decide
    · rw [field]
      change (0 : Int) - 1075 ≤ k
      omega
  | finite s m e positive =>
    have field := unpackExponent_pack (s := s) positive within.2 top
    exact within_unpack bottom (by omega) (by omega)
  | _ => exact within.elim

def IsNumber : UnpackedFloat → Prop
  | .zero _ => True
  | .finite .. => True
  | _ => False

instance (f : UnpackedFloat) : Decidable (IsNumber f) :=
  match f with
  | .zero _ => inferInstanceAs (Decidable True)
  | .finite .. => inferInstanceAs (Decidable True)
  | .infinity _ => inferInstanceAs (Decidable False)
  | .notANumber => inferInstanceAs (Decidable False)

theorem isNumber_roundWithAccuracy {a : Accuracy} : IsNumber (roundWithAccuracy .binary64 s m e a) := by
  unfold roundWithAccuracy
  dsimp only
  split <;> trivial

theorem isNumber_mul (left : IsNumber f) (right : IsNumber g) : IsNumber (mul .binary64 f g) := by
  cases f <;> cases g <;> first | exact left.elim | exact right.elim | trivial | exact isNumber_roundWithAccuracy

/-- A number that is packed becomes a double, or infinite if it is too large. -/
theorem isInf_or_within_repack (number : IsNumber f) :
    (Float.Model.pack f).isInf = true ∨ UnpackedWithin 971 (Float.Model.pack f).unpack := by
  change (unpack .binary64 (pack .binary64 f)).isInf = true ∨ UnpackedWithin 971 (unpack .binary64 (pack .binary64 f))
  cases f with
  | zero s => exact .inr (within_repack (by decide) (by decide) trivial)
  | finite s m e positive =>
    by_cases small : e ≤ 971
    · have field := unpackExponent_pack (s := s) positive small (by decide)
      exact .inr (within_unpack (by decide) (by omega) (by omega))
    · have past : 2 ^ Format.binary64.exponentBits ≤
          (e + Format.binary64.exponentBias + Format.binary64.mantissaBitsWithoutImplicit).toNat + 1 := by
        change 2 ^ 11 ≤ (e + 1023 + 52).toNat + 1
        omega
      refine .inl ?_
      simp only [pack, past, if_true]
      cases s <;> decide
  | _ => exact number.elim

end Unpacked

/-! ### Doubles -/

def Within (k : Int) (x : Float) : Prop :=
  UnpackedWithin k x.toModel.unpack

section Within

variable {k : Int} {x y : Float}

theorem Within.isFinite (within : Within k x) : x.isFinite = true := by
  unfold Within at within
  unfold Float.isFinite Float.Model.isFinite
  cases parts : x.toModel.unpack <;> rw [parts] at within <;> first | rfl | exact within.elim

theorem Within.isNumber (within : Within k x) : IsNumber x.toModel.unpack := by
  unfold Within at within
  cases parts : x.toModel.unpack <;> rw [parts] at within <;> trivial

theorem within_of_isFinite (finite : x.isFinite = true) : Within 971 x := by
  by_cases top : (@unpackExponent .binary64 x.toModel.toBits.toBitVec).toNat < 2047
  · exact within_unpack (by decide) top (by omega)
  · have bits : (@unpackExponent .binary64 x.toModel.toBits.toBitVec).toNat < 2 ^ 11 := BitVec.isLt _
    have all : @unpackExponent .binary64 x.toModel.toBits.toBitVec = (-1#_) :=
      BitVec.eq_of_toNat_eq (by change _ = 2047; omega)
    unfold Float.isFinite Float.Model.isFinite Float.Model.unpack unpack at finite
    simp only [all, if_true] at finite
    split at finite <;> contradiction

theorem isFinite_neg (finite : x.isFinite = true) : (-x).isFinite = true := by
  have within := within_of_isFinite finite
  refine Within.isFinite (k := 971) (within_repack (by decide) (by decide) ?_)
  unfold Within at within
  cases parts : x.toModel.unpack <;> rw [parts] at within <;> exact within

theorem isFinite_mul (left : Within k x) (right : IsNumber y.toModel.unpack) (small : (x * y).isInf = false) :
    (x * y).isFinite = true :=
  match isInf_or_within_repack (isNumber_mul left.isNumber right) with
  | .inl infinite => absurd (infinite.symm.trans small) (by decide)
  | .inr within => Within.isFinite (k := 971) within

theorem Within.div (bottom : -1073 ≤ k) (top : k ≤ 971) (dividend : Within k x)
    (divisor : IsDivisor y.toModel.unpack) : Within k (x / y) :=
  within_repack (by omega) top (within_div bottom dividend divisor)

/-- Whole numbers below 2⁶⁴ have 53 digits up to the exponent 12. -/
theorem within_toFloat (n : UInt64) : Within 12 n.toFloat := by
  refine within_repack (by decide) (by decide) ?_
  unfold ofUInt64 ofNat ofInt UnpackedFloat.normalize
  split
  case h_1 negative =>
    rw [Int.compare_eq_lt] at negative
    omega
  case h_2 => trivial
  case h_3 =>
    rw [Int.toNat_natCast]
    unfold UnpackedFloat.round decreaseExponent
    simp only [targetExponent_eq]
    have digits : n.toNat.log2 ≤ 63 := by
      rw [Nat.log2_eq_log_two]
      exact (Nat.log_mono_right (Nat.le_pred_of_lt n.toNat_lt)).trans_eq (by decide +kernel)
    have shifted := log2_div_le (m := n.toNat) Nat.one_pos
      (0 - max (totalExponent n.toNat 0 - 53) (-1074)).toNat
    rw [Nat.div_one] at shifted
    have one : Nat.log2 1 = 0 := by decide
    unfold totalExponent at shifted ⊢
    refine within_roundWithAccuracy (by decide) (by omega) ?_
    unfold totalExponent
    omega

end Within

/-! ### Numbers in decimal digits -/

/-- The powers of ten from 10²³ on are rounded from their digits. -/
theorem toModel_powerOfTen {n : Nat} (least : 23 ≤ n) (bound : n ≤ 307) :
    (Decimal.powerOfTen n).toModel = .pack (roundWithAccuracy .binary64 .positive (2 ^ 53 * 10 ^ n) (-53) .exact) := by
  have slow : ¬ (1 < 2 ^ 53 ∧ n ≤ 22) := by omega
  have high : ¬ Int.ofNat n > 2 ^ Format.binary64.exponentBits := by
    change ¬ (n : Int) > 2 ^ 11
    omega
  have low : ¬ Int.ofNat n < -((2 ^ Format.binary64.exponentBits : Int) + Nat.log2 1) := by
    change ¬ (n : Int) < -((2 ^ 11 : Int) + Nat.log2 1)
    omega
  rw [Decimal.powerOfTen, Float.ofScientific, dif_neg slow]
  simp only [Bool.false_eq_true, if_false]
  rw [Float.Model.ofScientific, ofScientific, dif_neg (by decide), if_neg high, if_neg low,
    if_pos (show 0 ≤ Int.ofNat n from Int.natCast_nonneg n)]
  rfl

theorem isDivisor_powerOfTen {n : Nat} (positive : 1 ≤ n) (bound : n ≤ 308) :
    IsDivisor (Decimal.powerOfTen n).toModel.unpack := by
  by_cases small : n ≤ 22
  · have each : ∀ i : Fin 22, IsDivisor (Decimal.powerOfTen (i + 1)).toModel.unpack := by decide +kernel
    have at_n := each ⟨n - 1, by omega⟩
    rwa [Nat.sub_add_cancel positive] at at_n
  by_cases largest : n = 308
  · rw [largest]
    decide +kernel
  have long : 2 ^ 56 ≤ 2 ^ 53 * 10 ^ n :=
    Nat.mul_le_mul_left (2 ^ 53) ((by decide : 2 ^ 3 ≤ 10 ^ 1).trans (Nat.pow_le_pow_right (by decide) positive))
  have short : 2 ^ 53 * 10 ^ n < 2 ^ 1076 := by
    have powers : 10 ^ n ≤ 10 ^ 307 := pow_le_pow_right₀ (by decide) (by omega)
    have top : 2 ^ 53 * 10 ^ 307 < 2 ^ 1076 := by decide +kernel
    exact (Nat.mul_le_mul_left _ powers).trans_lt top
  have some : 2 ^ 53 * 10 ^ n ≠ 0 := Nat.ne_of_gt (Nat.lt_of_lt_of_le (by decide) long)
  -- For any exponent, so that the power of two stays a power.
  have below {k : Nat} (short : 2 ^ 53 * 10 ^ n < 2 ^ k) : (2 ^ 53 * 10 ^ n).log2 < k := (Nat.log2_lt some).2 short
  have most := below short
  have least : 56 ≤ (2 ^ 53 * 10 ^ n).log2 := by
    rw [Nat.log2_eq_log_two]
    exact (Nat.log_pow (by decide) 56).symm.trans_le (Nat.log_mono_right long)
  obtain ⟨m, e, nonzero, rounded, digits, exponent⟩ := exists_roundWithAccuracy (s := .positive) (e := -53) (a := .exact)
    ((by decide : 2 ^ 52 ≤ 2 ^ 56).trans long) (by decide)
  have within := within_roundWithAccuracy (s := .positive) (k := 971) (m := 2 ^ 53 * 10 ^ n) (e := -53) (a := .exact)
    (by decide) (by decide) (by rw [totalExponent]; omega)
  rw [rounded] at within
  rw [toModel_powerOfTen (by omega) (by omega), rounded]
  exact isDivisor_repack digits within.1 (by omega) within.2

theorem isNumber_powerOfTen {n : Nat} (bound : n ≤ 308) : IsNumber (Decimal.powerOfTen n).toModel.unpack := by
  rcases Nat.eq_zero_or_pos n with rfl | positive
  · decide +kernel
  · have divisor := isDivisor_powerOfTen positive bound
    cases parts : (Decimal.powerOfTen n).toModel.unpack <;> rw [parts] at divisor <;> trivial

section Scale

variable {x y : Float} {exponent : Int}

theorem Within.divisions (within : Within 12 x) (divisor : IsDivisor y.toModel.unpack) (n : Nat) :
    Within 12 ((List.replicate n y).foldl (· / ·) x) := by
  induction n generalizing x with
  | zero => exact within
  | succ n ih => exact ih (within.div (by decide) (by decide) divisor)

/-- What is scaled by a power of ten, unless it is too large, is finite. -/
theorem Within.scale? (within : Within 12 x) (scaled : Decimal.scale? x exponent = some y) : y.isFinite = true := by
  unfold Decimal.scale? at scaled
  split at scaled
  case isTrue upward =>
    split at scaled
    · exact Option.some.inj scaled ▸ within.isFinite
    · split at scaled
      · contradiction
      · simp only at scaled
        split at scaled
        · contradiction
        case isFalse small =>
          refine Option.some.inj scaled ▸ isFinite_mul within (isNumber_powerOfTen (by omega)) ?_
          exact Bool.eq_false_iff.2 small
  case isFalse downward =>
    obtain rfl := Option.some.inj scaled
    have largest := isDivisor_powerOfTen (n := 308) (by decide) (by decide)
    have near := within.divisions largest (min ((exponent.natAbs - 1) / 308) 3)
    have last := isDivisor_powerOfTen (n := exponent.natAbs - 308 * ((exponent.natAbs - 1) / 308)) (by omega) (by omega)
    exact (near.div (by decide) (by decide) last).isFinite

theorem Decimal.read?_isFinite {whole part : List Nat} (read : Decimal.read? whole part exponent = some x) :
    x.isFinite = true :=
  (within_toFloat _).scale? read

theorem JsonNumber.ofParts_isFinite {negative : Bool} {whole part : List Nat} {exponent : Option Int}
    (read : JsonNumber.ofParts negative whole part exponent = .real x) : x.isFinite = true := by
  unfold JsonNumber.ofParts at read
  cases found : Decimal.read? whole part (exponent.getD 0) with
  | none => grind
  | some y =>
    have finite := Decimal.read?_isFinite found
    have digits : JsonNumber.real (if negative then -y else y) = .real x := by grind
    cases negative with
    | false => exact JsonNumber.real.inj digits ▸ finite
    | true => exact JsonNumber.real.inj digits ▸ isFinite_neg finite

end Scale

/-! ### Values that are read -/

namespace Json

/-- A value whose doubles are finite. -/
inductive Finite : Json → Prop
  | null : Finite .null
  | bool (b : Bool) : Finite (.bool b)
  | number {n : JsonNumber} (finite : ∀ x, n = .real x → x.isFinite = true) : Finite (.number n)
  | string (s : Option String) : Finite (.string s)
  | array {items : List Json} (closed : Bool) (each : ∀ v ∈ items, Finite v) : Finite (.array items closed)
  | object {members : List (Option String × Json)} (closed : Bool) (each : ∀ m ∈ members, Finite m.2) :
    Finite (.object members closed)
  | keyless {v : Json} (finite : Finite v) : Finite (.keyless v)
  | broken : Finite .broken

inductive Frame.Finite : Frame → Prop
  | array {items : List Json} (each : ∀ v ∈ items, v.Finite) : Finite (.array items)
  | object {members : List (Option String × Json)} (each : ∀ m ∈ members, m.2.Finite) : Finite (.object members)
  | member {members : List (Option String × Json)} {key : Option String} (each : ∀ m ∈ members, m.2.Finite) :
    Finite (.member members key)
  | keyless {v : Option Json} (each : ∀ w ∈ v, w.Finite) : Finite (.keyless v)

theorem Frame.Finite.array_items {items : List Json} : Frame.Finite (.array items) → ∀ v ∈ items, v.Finite
  | .array each => each

theorem Frame.Finite.object_members {members : List (Option String × Json)} :
    Frame.Finite (.object members) → ∀ m ∈ members, m.2.Finite
  | .object each => each

theorem Frame.Finite.member_members {members : List (Option String × Json)} {key : Option String} :
    Frame.Finite (.member members key) → ∀ m ∈ members, m.2.Finite
  | .member each => each

namespace Reader

/-- A reader that has read finite doubles only. -/
structure Finite (r : Reader) : Prop where
  stack : ∀ f ∈ r.stack, f.Finite
  result : ∀ v ∈ r.result, v.Finite
  word : ∀ left v, r.mode = .word left v → v.Finite

section Steps

variable {r : Reader} {v : Json} {c : Char} {f : Frame} {rest : List Frame}

theorem Finite.withMode (finite : r.Finite) {m : Mode} (word : ∀ left v, m = .word left v → v.Finite) :
    Finite { r with mode := m } :=
  ⟨finite.stack, finite.result, word⟩

theorem Finite.fail (finite : r.Finite) : r.fail.Finite :=
  finite.withMode nofun

theorem Finite.place (finite : r.Finite) (value : v.Finite) : (r.place v).Finite := by
  have stack := finite.stack
  unfold Reader.place
  split
  case h_1 empty => exact ⟨empty ▸ stack, fun w mem => Option.some.inj mem ▸ value, nofun⟩
  case h_2 top =>
    rw [top, List.forall_mem_cons] at stack
    have each := stack.1.array_items
    exact ⟨List.forall_mem_cons.2 ⟨.array (List.forall_mem_cons.2 ⟨value, each⟩), stack.2⟩, finite.result, nofun⟩
  case h_3 top =>
    rw [top, List.forall_mem_cons] at stack
    have each := stack.1.member_members
    refine ⟨List.forall_mem_cons.2 ⟨.object fun m mem => ?_, stack.2⟩, finite.result, nofun⟩
    rcases List.mem_cons.1 mem with rfl | mem
    · exact value
    · exact each m mem
  case h_4 top =>
    rw [top, List.forall_mem_cons] at stack
    exact ⟨List.forall_mem_cons.2 ⟨.keyless fun w mem => Option.some.inj mem ▸ value, stack.2⟩, finite.result, nofun⟩
  case h_5 => exact finite.fail

theorem Finite.close (finite : r.Finite) (bracket : Char) : (r.close bracket).Finite := by
  have stack := finite.stack
  unfold Reader.close
  split
  case h_1 top =>
    rw [top, List.forall_mem_cons] at stack
    have each := stack.1.array_items
    exact Finite.place ⟨stack.2, finite.result, finite.word⟩ (.array true fun v mem => each v (List.mem_reverse.1 mem))
  case h_2 top =>
    rw [top, List.forall_mem_cons] at stack
    have each := stack.1.object_members
    exact Finite.place ⟨stack.2, finite.result, finite.word⟩ (.object true fun m mem => each m (List.mem_reverse.1 mem))
  case h_3 => exact finite.fail

theorem Finite.startValue (finite : r.Finite) : (r.startValue c).Finite := by
  unfold Reader.startValue
  split
  · exact finite.withMode nofun
  split
  · exact ⟨List.forall_mem_cons.2 ⟨.array (List.forall_mem_nil _), finite.stack⟩, finite.result, nofun⟩
  split
  · exact ⟨List.forall_mem_cons.2 ⟨.object (List.forall_mem_nil _), finite.stack⟩, finite.result, nofun⟩
  split
  · exact finite.withMode fun _ _ same => (Mode.word.inj same).2 ▸ .null
  split
  · exact finite.withMode fun _ _ same => (Mode.word.inj same).2 ▸ .bool true
  split
  · exact finite.withMode fun _ _ same => (Mode.word.inj same).2 ▸ .bool false
  split
  · exact finite.withMode nofun
  split
  · exact finite.withMode nofun
  split
  · exact finite.withMode nofun
  · exact finite.fail

theorem Finite.startKey (finite : r.Finite) : (r.startKey c).Finite := by
  unfold Reader.startKey
  split
  · exact finite.withMode nofun
  · exact finite.fail

theorem Finite.startFirstKey (finite : r.Finite) : (r.startFirstKey c).Finite := by
  unfold Reader.startFirstKey
  split
  case h_1 top =>
    have stack := finite.stack
    rw [top, List.forall_mem_cons] at stack
    split
    · exact finite.startKey
    · exact Finite.startValue ⟨List.forall_mem_cons.2 ⟨.keyless nofun, stack.2⟩, finite.result, finite.word⟩
  case h_2 => exact finite.fail

theorem Finite.stepAfter (finite : r.Finite) : (r.stepAfter c).Finite := by
  unfold Reader.stepAfter
  split
  · exact finite.withMode nofun
  split
  · split
    · exact finite.withMode nofun
    · exact finite.withMode nofun
    · exact finite.fail
  · exact finite.close c

theorem Finite.stepQuoted (finite : r.Finite) (q : Quoted) : (r.stepQuoted q c).Finite := by
  unfold Reader.stepQuoted Reader.endQuoted
  have stack := finite.stack
  split
  · split
    · split
      · split
        case h_1 top =>
          rw [top, List.forall_mem_cons] at stack
          have each := stack.1.object_members
          exact ⟨List.forall_mem_cons.2 ⟨.member each, stack.2⟩, finite.result, nofun⟩
        case h_2 => exact finite.fail
      · exact finite.place (.string _)
    split
    · exact finite.withMode nofun
    split
    · exact finite.fail
    · exact finite.withMode nofun
  · split
    · exact finite.withMode nofun
    · split
      · exact finite.withMode nofun
      · exact finite.fail
  · split
    · exact finite.fail
    · dsimp only
      split
      · exact finite.withMode nofun
      · exact finite.withMode nofun

theorem finite_value (n : Numeral) : Json.Finite (.number n.value) :=
  .number fun _ read => JsonNumber.ofParts_isFinite read

theorem Finite.stepNumeral (finite : r.Finite) (n : Numeral) : (r.stepNumeral n c).Finite := by
  unfold Reader.stepNumeral
  split
  · exact finite.withMode nofun
  split
  · have placed := finite.place (finite_value n)
    dsimp only
    split
    · exact placed.stepAfter
    · exact placed
  · exact finite.fail

theorem Finite.stepWord (finite : r.Finite) (left : List Char) (value : v.Finite) : (r.stepWord left v c).Finite := by
  unfold Reader.stepWord
  split
  · split
    · exact finite.place value
    · exact finite.fail
  · split
    · exact finite.withMode fun _ _ same => (Mode.word.inj same).2 ▸ value
    · exact finite.fail
  · exact finite.fail

theorem Finite.step (finite : r.Finite) : (r.step c).Finite := by
  unfold Reader.step
  split
  case h_1 => exact finite
  case h_2 q _ => exact finite.stepQuoted q
  case h_3 n _ => exact finite.stepNumeral n
  case h_4 left v mode => exact finite.stepWord left (finite.word left v mode)
  case h_5 => exact finite.stepAfter
  all_goals
    split
    · exact finite
  case h_6 => exact finite.startValue
  case h_7 =>
    split
    · exact finite.close c
    · exact finite.startValue
  case h_8 =>
    split
    · exact finite.close c
    · exact finite.startFirstKey
  case h_9 => exact finite.startKey
  case h_10 =>
    split
    · exact finite.withMode nofun
    · exact finite.fail

theorem Finite.foldl (text : List Char) (finite : r.Finite) : (text.foldl Reader.step r).Finite := by
  induction text generalizing r with
  | nil => exact finite
  | cons c text ih => exact ih finite.step

/-- The containers around a fault hold what was read before it. -/
theorem finite_unwind (stack : List Frame) (each : ∀ f ∈ stack, f.Finite) (inner : v.Finite) :
    (unwind v stack).Finite := by
  induction stack generalizing v with
  | nil => exact inner
  | cons f stack ih =>
    obtain ⟨top, below⟩ := List.forall_mem_cons.1 each
    cases top with
    | array items =>
      exact ih below (.array false fun w mem => List.forall_mem_cons.2 ⟨inner, items⟩ w (List.mem_reverse.1 mem))
    | object members => exact ih below (.object false fun m mem => members m (List.mem_reverse.1 mem))
    | @member members key around =>
      refine ih below (.object false fun m mem => ?_)
      rcases List.mem_cons.1 (List.mem_reverse.1 mem) with rfl | mem
      · exact inner
      · exact around m mem
    | @keyless w first =>
      cases w with
      | none => exact ih below (.keyless inner)
      | some w => exact ih below (.keyless (first w rfl))

theorem Finite.finish (finite : r.Finite) : r.finish.1.Finite := by
  unfold Reader.finish
  extract_lets last
  have kept : last.Finite := by
    unfold last
    split
    · split
      · exact finite.place (finite_value _)
      · exact finite.fail
    · exact finite
  clear_value last
  split
  case h_1 v read _ => exact kept.result v read
  case h_2 => exact kept.result _ (by assumption)
  case h_3 => exact finite_unwind last.stack kept.stack .broken

end Steps

end Reader

/-- The numbers of a text, unless they are too large, are read as finite doubles. -/
theorem finite_read (s : String) : (read s).1.Finite :=
  (Reader.Finite.foldl s.toList ⟨by simp, by simp, by simp⟩).finish

end Json

end ThresholdAlerts
