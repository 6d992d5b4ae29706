import Mathlib.Tactic.IntervalCases
import Mathlib.Tactic.NormNum
import ThresholdAlerts.Time.Rfc3339
/-! The calendar there and back. Days are counted in eras of 400 years that begin in March; a day of an era falls
apart into the year, the month from March and the day. Main statements: an instant that is written reads back as
written (`read?_write`), and whatever is read is an instant that can be written (`proper_of_read?`). -/
namespace ThresholdAlerts

namespace Date

section Era

variable {d y : Int}

def yearOfEra (d : Int) : Int :=
  (d - d / 1460 + d / 36524 - d / 146096) / 365

def daysBefore (y : Int) : Int :=
  365 * y + y / 4 - y / 100

theorem yearOfEra_bounds (low : 0 ≤ d) (high : d < 146097) : 0 ≤ yearOfEra d ∧ yearOfEra d < 400 := by
  unfold yearOfEra
  omega

/-- The century that a day lies in is the one of its year; the last day of an era starts no fifth one. -/
theorem century_eq (low : 0 ≤ d) (high : d < 146097) : d / 36524 = yearOfEra d / 100 ∨ d = 146096 := by
  have century : d / 36524 = 0 ∨ d / 36524 = 1 ∨ d / 36524 = 2 ∨ d / 36524 = 3 ∨ d = 146096 := by omega
  unfold yearOfEra
  rcases century with h | h | h | h | h <;> omega

/-- Leap days were counted in groups of 1460 days, which is a day short of four years. -/
theorem leapDays_eq (low : 0 ≤ d) (high : d < 146097) :
    d / 1460 = yearOfEra d / 4 - 1 ∨ d / 1460 = yearOfEra d / 4 ∨ d / 1460 = yearOfEra d / 4 + 1 := by
  have century : d / 36524 = 0 ∨ d / 36524 = 1 ∨ d / 36524 = 2 ∨ d / 36524 = 3 ∨ d = 146096 := by omega
  unfold yearOfEra
  rcases century with h | h | h | h | h <;> omega

theorem dayOfYear_bounds (low : 0 ≤ d) (high : d < 146097) :
    0 ≤ d - daysBefore (yearOfEra d) ∧ d - daysBefore (yearOfEra d) ≤ 365 := by
  have century := century_eq low high
  have leap := leapDays_eq low high
  generalize year : yearOfEra d = y at *
  unfold yearOfEra at year
  unfold daysBefore
  have four : y / 100 = 0 ∨ y / 100 = 1 ∨ y / 100 = 2 ∨ y / 100 = 3 := by omega
  rcases century with same | rfl
  · rcases four with h | h | h | h <;> rcases leap with l | l | l <;> omega
  · omega

/-- Only the years that end with a leap day have a day past the 365th. -/
theorem leap_of_dayOfYear (low : 0 ≤ d) (high : d < 146097) (past : d - daysBefore (yearOfEra d) = 365) :
    (yearOfEra d + 1) % 4 = 0 ∧ ((yearOfEra d + 1) % 100 ≠ 0 ∨ (yearOfEra d + 1) % 400 = 0) := by
  have century := century_eq low high
  have leap := leapDays_eq low high
  generalize year : yearOfEra d = y at *
  unfold yearOfEra at year
  unfold daysBefore at past
  have four : y / 100 = 0 ∨ y / 100 = 1 ∨ y / 100 = 2 ∨ y / 100 = 3 := by omega
  have fourth : y % 4 = 3 := by
    have short : y % 4 = 0 ∨ y % 4 = 1 ∨ y % 4 = 2 ∨ y % 4 = 3 := by omega
    rcases short with r | r | r | r <;> omega
  rcases century with same | rfl
  · rcases four with h | h | h | h <;> omega
  · omega

end Era

section Days

variable {n : Int}

def monthOfYear (d : Int) : Int :=
  (5 * d + 2) / 153

def dayOfMonth (d : Int) : Int :=
  d - (153 * monthOfYear d + 2) / 5 + 1

theorem monthOfYear_bounds {d : Int} (low : 0 ≤ d) (high : d ≤ 365) : 0 ≤ monthOfYear d ∧ monthOfYear d ≤ 11 := by
  unfold monthOfYear
  omega

theorem dayOfMonth_pos {d : Int} : 1 ≤ dayOfMonth d := by
  unfold dayOfMonth monthOfYear
  omega

def dayOfEra (n : Int) : Int :=
  (n + 719468) % 146097

def dayOfYear (n : Int) : Int :=
  dayOfEra n - daysBefore (yearOfEra (dayOfEra n))

theorem dayOfEra_bounds : 0 ≤ dayOfEra n ∧ dayOfEra n < 146097 := by
  unfold dayOfEra
  omega

theorem dayOfYear_mem : 0 ≤ dayOfYear n ∧ dayOfYear n ≤ 365 :=
  dayOfYear_bounds dayOfEra_bounds.1 dayOfEra_bounds.2

def civilMonth (m : Int) : Int :=
  if m < 10 then m + 3 else m - 9

theorem civilMonth_bounds {m : Int} (low : 0 ≤ m) (high : m ≤ 11) : 1 ≤ civilMonth m ∧ civilMonth m ≤ 12 := by
  unfold civilMonth
  omega

theorem monthFromMarch_civilMonth {m : Int} (low : 0 ≤ m) (high : m ≤ 11) :
    (((civilMonth m).toNat : Int) + 9) % 12 = m := by
  unfold civilMonth
  omega

theorem ofDays_eq (n : Int) :
    ofDays n = {
      year := yearOfEra (dayOfEra n) + (n + 719468) / 146097 * 400 +
        (if civilMonth (monthOfYear (dayOfYear n)) ≤ 2 then 1 else 0)
      month := (civilMonth (monthOfYear (dayOfYear n))).toNat
      day := (dayOfMonth (dayOfYear n)).toNat } := rfl

theorem era_eq {y e : Int} (low : 0 ≤ y) (high : y < 400) : (y + e * 400) / 400 = e ∧ (y + e * 400) % 400 = y := by
  omega

/-- A day that is written as a date is the same day again. -/
theorem toDays_ofDays (n : Int) : (ofDays n).toDays = n := by
  have year := yearOfEra_bounds (dayOfEra_bounds (n := n)).1 dayOfEra_bounds.2
  have month := monthOfYear_bounds (dayOfYear_mem (n := n)).1 dayOfYear_mem.2
  have civil := civilMonth_bounds month.1 month.2
  have whole : dayOfYear n = dayOfEra n - daysBefore (yearOfEra (dayOfEra n)) := rfl
  have era : dayOfEra n = (n + 719468) % 146097 := rfl
  have first : dayOfMonth (dayOfYear n) = dayOfYear n - (153 * monthOfYear (dayOfYear n) + 2) / 5 + 1 := rfl
  have day := dayOfMonth_pos (d := dayOfYear n)
  obtain ⟨toEra, toYear⟩ := era_eq (e := (n + 719468) / 146097) year.1 year.2
  rw [ofDays_eq, toDays]
  dsimp only
  have marchYear : (if (civilMonth (monthOfYear (dayOfYear n))).toNat ≤ 2 then
      yearOfEra (dayOfEra n) + (n + 719468) / 146097 * 400 +
        (if civilMonth (monthOfYear (dayOfYear n)) ≤ 2 then 1 else 0) - 1
      else yearOfEra (dayOfEra n) + (n + 719468) / 146097 * 400 +
        (if civilMonth (monthOfYear (dayOfYear n)) ≤ 2 then 1 else 0)) =
      yearOfEra (dayOfEra n) + (n + 719468) / 146097 * 400 := by
    split <;> split <;> omega
  rw [marchYear, monthFromMarch_civilMonth month.1 month.2, toEra, toYear, Int.toNat_of_nonneg (by omega)]
  unfold daysBefore at whole
  omega

/-- A month from March is as long as the next one begins after it; the last one may end with a leap day. -/
theorem dayOfMonth_le {d : Int} (low : 0 ≤ d) (high : d ≤ 365) (year : Int)
    (leap : d = 365 → isLeapYear year = true) :
    dayOfMonth d ≤ daysInMonth year (civilMonth (monthOfYear d)).toNat := by
  have month := monthOfYear_bounds low high
  have day : dayOfMonth d = d - (153 * monthOfYear d + 2) / 5 + 1 := rfl
  have range : monthOfYear d = (5 * d + 2) / 153 := rfl
  rw [day]
  generalize monthOfYear d = m at *
  obtain ⟨k, rfl⟩ : ∃ k : Nat, m = k := ⟨m.toNat, by omega⟩
  have each : k < 12 := by omega
  interval_cases k
  case «11» =>
    by_cases last : d = 365
    · rw [civilMonth, if_neg (by decide), daysInMonth, if_pos (by decide), if_pos (leap last)]
      omega
    · have most : 28 ≤ daysInMonth year 2 := by
        rw [daysInMonth, if_pos rfl]
        split <;> omega
      change _ ≤ (daysInMonth year 2 : Int)
      omega
  all_goals
    simp only [civilMonth, daysInMonth]
    norm_num
    omega

theorem isLeapYear_of_dayOfYear (n : Int) (last : dayOfYear n = 365) : isLeapYear (ofDays n).year = true := by
  have leap := leap_of_dayOfYear (dayOfEra_bounds (n := n)).1 dayOfEra_bounds.2 last
  have of_year : (ofDays n).year = yearOfEra (dayOfEra n) + (n + 719468) / 146097 * 400 + 1 := by
    rw [ofDays_eq, last]
    rfl
  rw [of_year]
  simp only [isLeapYear, Bool.and_eq_true, Bool.or_eq_true, decide_eq_true_eq]
  omega

theorem valid_ofDays (n : Int) : (ofDays n).valid = true := by
  have days := dayOfYear_mem (n := n)
  have month := monthOfYear_bounds days.1 days.2
  have civil := civilMonth_bounds month.1 month.2
  have day := dayOfMonth_pos (d := dayOfYear n)
  have short := dayOfMonth_le days.1 days.2 (ofDays n).year (isLeapYear_of_dayOfYear n)
  have of_month : (ofDays n).month = (civilMonth (monthOfYear (dayOfYear n))).toNat := rfl
  have of_day : (ofDays n).day = (dayOfMonth (dayOfYear n)).toNat := rfl
  rw [← of_month] at short
  simp only [valid, Bool.and_eq_true, decide_eq_true_eq]
  omega

theorem month_le_of_valid {d : Date} (valid : d.valid = true) : d.month ≤ 12 := by
  simp only [Date.valid, Bool.and_eq_true, decide_eq_true_eq] at valid
  exact valid.1.1.2

theorem day_le_of_valid {d : Date} (valid : d.valid = true) : d.day ≤ 31 := by
  simp only [Date.valid, Bool.and_eq_true, decide_eq_true_eq, daysInMonth] at valid
  grind

end Days

end Date

namespace Timestamp
open Text

/-- An instant in a year that is counted. Only the last second of a minute may be a leap second. -/
structure Proper (t : Timestamp) : Prop where
  nanos : t.nanos < 1000000000 ∨ t.nanos < 2000000000 ∧ t.seconds % 60 = 59
  counted : t.isCounted = true

instance (t : Timestamp) : Decidable t.Proper :=
  decidable_of_iff ((t.nanos < 1000000000 ∨ t.nanos < 2000000000 ∧ t.seconds % 60 = 59) ∧ t.isCounted = true)
    ⟨fun h => ⟨h.1, h.2⟩, fun h => ⟨h.nanos, h.counted⟩⟩

/-! ### Digits -/

section Digits

variable {width limit n : Nat} {digits rest : List Char} {c : Char}

theorem toList_padded (width n : Nat) :
    (padded width n).toList = List.replicate (width - (Nat.toDigits 10 n).length) '0' ++ Nat.toDigits 10 n := by
  rw [padded, String.toList_ofList]

theorem isDigit_of_mem_padded (mem : c ∈ (padded width n).toList) : c.isDigit = true := by
  rw [toList_padded, List.mem_append] at mem
  rcases mem with zero | digit
  · rw [List.eq_of_mem_replicate zero]
    decide
  · exact Nat.isDigit_of_mem_toDigits (by decide) (by decide) digit

theorem digitsValue_padded (width n : Nat) : digitsValue (padded width n).toList = n := by
  change Nat.ofDigitChars 10 (padded width n).toList 0 = n
  rw [toList_padded, Nat.ofDigitChars_append, Nat.ofDigitChars_replicate_zero, Nat.mul_zero,
    Nat.ofDigitChars_ten_toDigits]

theorem length_padded (positive : 0 < width) (small : n < 10 ^ width) : (padded width n).toList.length = width := by
  have short := (Nat.length_toDigits_le_iff (by decide) positive).2 small
  rw [toList_padded, List.length_append, List.length_replicate]
  omega

theorem padded_ne_nil (width n : Nat) : (padded width n).toList ≠ [] := by
  rw [toList_padded]
  simp

/-- A run of digits ends at the limit or at the next character that is none. -/
theorem digitRun_append (all : ∀ c ∈ digits, c.isDigit = true) (fits : digits.length ≤ limit)
    (ends : digits.length = limit ∨ ∀ c ∈ rest.head?, c.isDigit = false) :
    digitRun limit (digits ++ rest) = (digits, rest) := by
  have run : ((digits ++ rest).take limit).takeWhile Char.isDigit = digits := by
    have none : (rest.take (limit - digits.length)).takeWhile Char.isDigit = [] := by
      rcases ends with full | stops
      · rw [full, Nat.sub_self, List.take_zero, List.takeWhile_nil]
      · cases rest with
        | nil => rw [List.take_nil, List.takeWhile_nil]
        | cons d rest =>
          cases limit - digits.length with
          | zero => rw [List.take_zero, List.takeWhile_nil]
          | succ k => exact List.takeWhile_cons_of_neg (Bool.eq_false_iff.1 (stops d rfl))
    rw [List.take_append, List.take_of_length_le fits, List.takeWhile_append_of_pos all, none, List.append_nil]
  rw [digitRun, run, List.drop_left]

theorem digitRun_padded (positive : 0 < width) (small : n < 10 ^ width) (fits : width ≤ limit)
    (ends : width = limit ∨ ∀ c ∈ rest.head?, c.isDigit = false) :
    digitRun limit ((padded width n).toList ++ rest) = ((padded width n).toList, rest) := by
  have length := length_padded positive small
  exact digitRun_append (fun c mem => isDigit_of_mem_padded mem) (length.trans_le fits)
    (ends.imp_left length.trans)

theorem isBlank_of_isDigit (digit : c.isDigit = true) : isBlank c = false := by
  rw [Bool.eq_false_iff]
  intro blank
  have mem : c ∈ blanks := List.contains_iff_mem.1 blank
  simp only [blanks, List.mem_cons, List.not_mem_nil, or_false] at mem
  rcases mem with rfl | rfl | rfl | rfl | rfl | rfl | rfl | rfl | rfl | rfl | rfl | rfl | rfl | rfl | rfl | rfl |
    rfl | rfl | rfl | rfl | rfl | rfl | rfl | rfl | rfl <;> exact absurd digit (by decide)

theorem trimStart_cons (plain : isBlank c = false) : trimStart (c :: rest) = c :: rest :=
  List.dropWhile_cons_of_neg (Bool.eq_false_iff.1 plain)

theorem trimStart_padded : trimStart ((padded width n).toList ++ rest) = (padded width n).toList ++ rest := by
  cases text : (padded width n).toList with
  | nil => exact absurd text (padded_ne_nil width n)
  | cons c cs =>
    have digit : c.isDigit = true := isDigit_of_mem_padded (text ▸ List.mem_cons_self)
    exact trimStart_cons (isBlank_of_isDigit digit)

/-- A number in the digits that are asked for is read to its end, whatever follows. -/
theorem readNumber?_padded (positive : 0 < width) (small : n < 10 ^ width) :
    readNumber? width ((padded width n).toList ++ rest) = some (n, rest) := by
  rw [readNumber?, trimStart_padded, digitRun_padded positive small (Nat.le_refl _) (.inl rfl)]
  obtain ⟨c, cs, text⟩ := List.exists_cons_of_ne_nil (padded_ne_nil width n)
  rw [text]
  change some (digitsValue (c :: cs), rest) = _
  rw [← text, digitsValue_padded]

theorem expect?_self (plain : isBlank c = false) : expect? c (c :: rest) = some rest := by
  rw [expect?, trimStart_cons plain]
  exact if_pos rfl

end Digits

/-! ### Parts of the text -/

section Parts

variable {year : Int} {nanos : Nat} {rest : List Char}

theorem readYear?_minus : readYear? ('-' :: rest) = readYear?.signed (-1) rest := by
  rw [readYear?, trimStart_cons (by decide)]
  rfl

theorem readYear?_plus : readYear? ('+' :: rest) = readYear?.signed 1 rest := by
  rw [readYear?, trimStart_cons (by decide)]
  rfl

theorem readYear?_plain (n : Nat) : readYear? ((padded 4 n).toList ++ rest) =
    (readNumber? 4 ((padded 4 n).toList ++ rest)).map fun (n, rest) => ((n : Int), rest) := by
  obtain ⟨c, cs, text⟩ := List.exists_cons_of_ne_nil (padded_ne_nil 4 n)
  have digit : c.isDigit = true := isDigit_of_mem_padded (text ▸ List.mem_cons_self)
  rw [readYear?, trimStart_padded, text, List.cons_append]
  split
  case h_1 same =>
    obtain ⟨rfl, -⟩ := List.cons.inj same
    contradiction
  case h_2 same =>
    obtain ⟨rfl, -⟩ := List.cons.inj same
    contradiction
  case h_3 => rfl

theorem readYear?_signed (sign : Int) (n : Nat) (rest : List Char) (small : n < 2 ^ 31)
    (ends : ∀ c ∈ rest.head?, c.isDigit = false) :
    readYear?.signed sign ((padded 4 n).toList ++ rest) = some (sign * n, rest) := by
  rw [readYear?.signed, digitRun_append (fun c mem => isDigit_of_mem_padded mem) (by simp) (.inr ends)]
  obtain ⟨c, cs, text⟩ := List.exists_cons_of_ne_nil (padded_ne_nil 4 n)
  rw [text]
  dsimp only
  rw [← text, digitsValue_padded]
  exact if_pos small

theorem readYear?_writeYear (low : -yearLimit ≤ year) (high : year < yearLimit)
    (ends : ∀ c ∈ rest.head?, c.isDigit = false) :
    readYear? ((writeYear year).toList ++ rest) = some (year, rest) := by
  unfold yearLimit at low high
  rw [writeYear]
  split
  case isTrue plain =>
    rw [readYear?_plain, readNumber?_padded (by decide) (by omega), Option.map_some]
    exact congrArg (fun year => some (year, rest)) (Int.toNat_of_nonneg plain.1)
  case isFalse =>
    rw [String.toList_append]
    split
    case isTrue negative =>
      have read := readYear?_signed (-1) year.natAbs rest (by omega) ends
      rw [show (-1 : Int) * year.natAbs = year by omega] at read
      exact readYear?_minus.trans read
    case isFalse =>
      have read := readYear?_signed 1 year.natAbs rest (by omega) ends
      rw [show (1 : Int) * year.natAbs = year by omega] at read
      exact readYear?_plus.trans read

theorem readFraction?_padded (width : Nat) {n : Nat} (positive : 0 < width) (small : n < 10 ^ width) (fits : width ≤ 9)
    (ends : ∀ c ∈ rest.head?, c.isDigit = false) :
    readFraction? ('.' :: ((padded width n).toList ++ rest)) = some (n * 10 ^ (9 - width), rest) := by
  rw [readFraction?, digitRun_padded positive small fits (.inr ends)]
  obtain ⟨c, cs, text⟩ := List.exists_cons_of_ne_nil (padded_ne_nil width n)
  have done : rest.dropWhile Char.isDigit = rest := by
    cases rest with
    | nil => rfl
    | cons d rest => exact List.dropWhile_cons_of_neg (Bool.eq_false_iff.1 (ends d rfl))
  rw [text]
  dsimp only
  rw [← text, digitsValue_padded, length_padded positive small, done]
  rfl

theorem readFraction?_writeFraction (small : nanos < 1000000000) :
    readFraction? ((writeFraction nanos).toList ++ ['Z']) = some (nanos, ['Z']) := by
  have ends : ∀ c ∈ ['Z'].head?, c.isDigit = false := fun _ mem => Option.some.inj mem ▸ by decide
  rw [writeFraction]
  split
  case isTrue zero => exact zero ▸ rfl
  case isFalse =>
    split
    case isTrue millis =>
      rw [String.toList_append]
      refine (readFraction?_padded 3 (by decide) (by omega) (by decide) ends).trans ?_
      exact congrArg (fun n => some (n, ['Z'])) (Nat.div_mul_cancel (Nat.dvd_of_mod_eq_zero millis))
    case isFalse =>
      split
      case isTrue micros =>
        rw [String.toList_append]
        refine (readFraction?_padded 6 (by decide) (by omega) (by decide) ends).trans ?_
        exact congrArg (fun n => some (n, ['Z'])) (Nat.div_mul_cancel (Nat.dvd_of_mod_eq_zero micros))
      case isFalse =>
        rw [String.toList_append]
        refine (readFraction?_padded 9 (by decide) (by omega) (by decide) ends).trans ?_
        exact congrArg (fun n => some (n, ['Z'])) (Nat.mul_one nanos)

end Parts

/-! ### Whole texts -/

section Whole

variable {t : Timestamp}

theorem toList_write (t : Timestamp) :
    t.write.toList = (writeYear (Date.ofDays (t.seconds / 86400)).year).toList ++
      '-' :: ((padded 2 (Date.ofDays (t.seconds / 86400)).month).toList ++
      '-' :: ((padded 2 (Date.ofDays (t.seconds / 86400)).day).toList ++
      'T' :: ((padded 2 ((t.seconds % 86400).toNat / 3600)).toList ++
      ':' :: ((padded 2 ((t.seconds % 86400).toNat / 60 % 60)).toList ++
      ':' :: ((padded 2 ((t.seconds % 86400).toNat % 60 + t.nanos / 1000000000)).toList ++
      ((writeFraction (t.nanos % 1000000000)).toList ++ ['Z'])))))) := by
  simp [write]

/-- The instant of a text in the canonical form, from what is read in its places. -/
theorem readChars?_eq_some {s s₁ s₂ s₃ s₄ s₅ s₆ : List Char} {year : Int} {month day hour minute second fraction : Nat}
    (h : readYear? s = some (year, '-' :: s₁)) (h₁ : readNumber? 2 s₁ = some (month, '-' :: s₂))
    (h₂ : readNumber? 2 s₂ = some (day, 'T' :: s₃)) (h₃ : readNumber? 2 s₃ = some (hour, ':' :: s₄))
    (h₄ : readNumber? 2 s₄ = some (minute, ':' :: s₅)) (h₅ : readNumber? 2 s₅ = some (second, s₆))
    (h₆ : readFraction? s₆ = some (fraction, ['Z']))
    (date : Date.valid { year, month, day } ∧ -yearLimit ≤ year ∧ year < yearLimit)
    (time : hour < 24 ∧ minute < 60 ∧ second ≤ 60) (counted : t.isCounted = true)
    (seconds : Date.toDays { year, month, day } * 86400 + hour * 3600 + minute * 60 + (second - second / 60 : Nat) =
      t.seconds)
    (nanos : second / 60 * 1000000000 + fraction = t.nanos) :
    readChars? s = some t := by
  have dash : ∀ rest, expect? '-' ('-' :: rest) = some rest := fun _ => expect?_self (by decide)
  have colon : ∀ rest, expect? ':' (':' :: rest) = some rest := fun _ => expect?_self (by decide)
  have zulu : readOffset? (trimStart ['Z']) = some (0, []) := by decide
  have same : (⟨Date.toDays { year, month, day } * 86400 + hour * 3600 + minute * 60 + (second - second / 60 : Nat) - 0,
      second / 60 * 1000000000 + fraction⟩ : Timestamp) = t := by
    rw [seconds, nanos, Int.sub_zero]
  refine Option.bind_eq_some_iff.2 ⟨_, h, ?_⟩
  refine Option.bind_eq_some_iff.2 ⟨_, dash _, ?_⟩
  refine Option.bind_eq_some_iff.2 ⟨_, h₁, ?_⟩
  refine Option.bind_eq_some_iff.2 ⟨_, dash _, ?_⟩
  refine Option.bind_eq_some_iff.2 ⟨_, h₂, ?_⟩
  refine Option.bind_eq_some_iff.2 ⟨_, rfl, ?_⟩
  refine Option.bind_eq_some_iff.2 ⟨_, h₃, ?_⟩
  refine Option.bind_eq_some_iff.2 ⟨_, colon _, ?_⟩
  refine Option.bind_eq_some_iff.2 ⟨_, h₄, ?_⟩
  refine Option.bind_eq_some_iff.2 ⟨_, colon _, ?_⟩
  refine Option.bind_eq_some_iff.2 ⟨_, h₅, ?_⟩
  refine Option.bind_eq_some_iff.2 ⟨_, h₆, ?_⟩
  refine Option.bind_eq_some_iff.2 ⟨_, zulu, ?_⟩
  refine Option.bind_eq_some_iff.2 ⟨(), rfl, ?_⟩
  refine Option.bind_eq_some_iff.2 ⟨(), if_pos date, ?_⟩
  refine Option.bind_eq_some_iff.2 ⟨(), if_pos time, ?_⟩
  exact Option.bind_eq_some_iff.2 ⟨(), if_pos (same ▸ counted), congrArg some same⟩

/-- An instant that is written reads back as written. -/
theorem read?_write (proper : t.Proper) : read? t.write = some t := by
  obtain ⟨nanos, counted⟩ := proper
  have year : -yearLimit ≤ (Date.ofDays (t.seconds / 86400)).year ∧ (Date.ofDays (t.seconds / 86400)).year < yearLimit :=
    of_decide_eq_true counted
  have valid := Date.valid_ofDays (t.seconds / 86400)
  have days := Date.toDays_ofDays (t.seconds / 86400)
  have month := Date.month_le_of_valid valid
  have day := Date.day_le_of_valid valid
  rw [read?, toList_write]
  generalize Date.ofDays (t.seconds / 86400) = date at *
  have two : ∀ {n : Nat} (rest : List Char), n < 100 → readNumber? 2 ((padded 2 n).toList ++ rest) = some (n, rest) :=
    fun rest small => readNumber?_padded (by decide) small
  refine readChars?_eq_some (readYear?_writeYear year.1 year.2 (by simp)) (two _ (by omega)) (two _ (by omega))
    (two _ (by omega)) (two _ (by omega)) (two _ (by omega))
    (readFraction?_writeFraction (Nat.mod_lt t.nanos (by decide))) ⟨valid, year⟩ ?_ counted ?_ ?_
  · omega
  · rw [days]
    omega
  · omega

theorem digitsValue_lt {digits : List Char} (all : ∀ c ∈ digits, c.isDigit = true) :
    digitsValue digits < 10 ^ digits.length := by
  have bound : ∀ (digits : List Char) (n : Nat), (∀ c ∈ digits, c.isDigit = true) →
      Nat.ofDigitChars 10 digits n < (n + 1) * 10 ^ digits.length := by
    intro digits
    induction digits with
    | nil => simp
    | cons c digits ih =>
      intro n all
      have digit : c.toNat ≤ '9'.toNat := (Char.isDigit_iff_toNat.1 (all c List.mem_cons_self)).2
      change c.toNat ≤ 57 at digit
      have rest := ih (10 * n + (c.toNat - 48)) (fun d mem => all d (List.mem_cons_of_mem c mem))
      have step : 10 * n + (c.toNat - 48) + 1 ≤ (n + 1) * 10 := by omega
      rw [Nat.ofDigitChars_cons, List.length_cons, Nat.pow_succ', ← Nat.mul_assoc]
      exact Nat.lt_of_lt_of_le rest (Nat.mul_le_mul_right _ step)
  have whole := bound digits 0 all
  rwa [Nat.zero_add, Nat.one_mul] at whole

theorem readFraction?_lt {s rest : List Char} {n : Nat} (read : readFraction? s = some (n, rest)) : n < 1000000000 := by
  unfold readFraction? at read
  split at read
  case h_1 s =>
    have all : ∀ c ∈ (digitRun 9 s).1, c.isDigit = true := List.all_eq_true.1 List.all_takeWhile
    have length : (digitRun 9 s).1.length ≤ 9 :=
      (List.takeWhile_sublist _).length_le.trans (List.length_take_le _ _)
    have value := digitsValue_lt all
    generalize digitRun 9 s = run at *
    obtain ⟨digits, left⟩ := run
    dsimp only at *
    split at read
    case h_1 => contradiction
    case h_2 run rest' other same =>
      obtain ⟨rfl, rfl⟩ := Prod.mk.inj same
      obtain ⟨rfl, -⟩ := Prod.mk.inj (Option.some.inj read)
      calc digitsValue digits * 10 ^ (9 - digits.length)
          < 10 ^ digits.length * 10 ^ (9 - digits.length) := Nat.mul_lt_mul_of_pos_right value (Nat.pow_pos (by decide))
        _ = 1000000000 := by rw [← Nat.pow_add, Nat.add_sub_cancel' length]
  case h_2 => exact (Prod.mk.inj (Option.some.inj read)).1 ▸ (by decide)

theorem readOffset?_minutes {s rest : List Char} {offset : Int} (read : readOffset? s = some (offset, rest)) :
    offset % 60 = 0 := by
  have parts : ∀ {sign : Int} {s : List Char}, readOffset?.parts sign s = some (offset, rest) → offset % 60 = 0 := by
    intro sign s read
    obtain ⟨⟨hours, s₁⟩, -, read⟩ := Option.bind_eq_some_iff.1 read
    obtain ⟨⟨minutes, s₂⟩, -, read⟩ := Option.bind_eq_some_iff.1 read
    obtain ⟨-, -, read⟩ := Option.bind_eq_some_iff.1 read
    obtain ⟨rfl, -⟩ := Prod.mk.inj (Option.some.inj read)
    have whole : (60 : Int) ∣ hours * 3600 + minutes * 60 := ⟨hours * 60 + minutes, by omega⟩
    exact Int.emod_eq_zero_of_dvd (whole.mul_left sign)
  unfold readOffset? at read
  split at read
  case h_6 =>
    split at read
    · exact (Prod.mk.inj (Option.some.inj read)).1 ▸ rfl
    · contradiction
  all_goals first | exact parts read | exact (Prod.mk.inj (Option.some.inj read)).1 ▸ rfl

theorem of_guard {p : Prop} [Decidable p] {u : Unit} (passed : (guard p : Option Unit) = some u) : p := by
  by_contra fails
  rw [guard, if_neg fails] at passed
  contradiction

/-- Whatever is read is an instant that can be written. -/
theorem proper_of_read? {s : String} (read : read? s = some t) : t.Proper := by
  obtain ⟨⟨year, s₁⟩, -, read⟩ := Option.bind_eq_some_iff.1 read
  obtain ⟨s₂, -, read⟩ := Option.bind_eq_some_iff.1 read
  obtain ⟨⟨month, s₃⟩, -, read⟩ := Option.bind_eq_some_iff.1 read
  obtain ⟨s₄, -, read⟩ := Option.bind_eq_some_iff.1 read
  obtain ⟨⟨day, s₅⟩, -, read⟩ := Option.bind_eq_some_iff.1 read
  dsimp only at read
  -- The three characters that may stand between the date and the time lead to the same rest.
  split at read
  all_goals
    obtain ⟨s₆, between, read⟩ := Option.bind_eq_some_iff.1 read
  case h_4 => contradiction
  all_goals
    obtain ⟨⟨hour, s₇⟩, -, read⟩ := Option.bind_eq_some_iff.1 read
    obtain ⟨s₈, -, read⟩ := Option.bind_eq_some_iff.1 read
    obtain ⟨⟨minute, s₉⟩, -, read⟩ := Option.bind_eq_some_iff.1 read
    obtain ⟨s₁₀, -, read⟩ := Option.bind_eq_some_iff.1 read
    obtain ⟨⟨second, s₁₁⟩, -, read⟩ := Option.bind_eq_some_iff.1 read
    obtain ⟨⟨fraction, s₁₂⟩, fractional, read⟩ := Option.bind_eq_some_iff.1 read
    obtain ⟨⟨offset, s₁₃⟩, shifted, read⟩ := Option.bind_eq_some_iff.1 read
    obtain ⟨-, -, read⟩ := Option.bind_eq_some_iff.1 read
    obtain ⟨-, -, read⟩ := Option.bind_eq_some_iff.1 read
    obtain ⟨_, time, read⟩ := Option.bind_eq_some_iff.1 read
    obtain ⟨_, counted, read⟩ := Option.bind_eq_some_iff.1 read
    have nanos := readFraction?_lt fractional
    have minutes := readOffset?_minutes shifted
    have seconds := (of_guard time).2.2
    have leap : second / 60 = 0 ∨ second = 60 := by omega
    obtain rfl := Option.some.inj read
    refine ⟨?_, of_guard counted⟩
    rcases leap with none | rfl <;> dsimp only <;> omega

end Whole
end Timestamp
end ThresholdAlerts
