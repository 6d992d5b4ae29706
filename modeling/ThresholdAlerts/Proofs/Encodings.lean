import Mathlib.Algebra.Group.Nat.Defs
import ThresholdAlerts.Text.Utf8
/-! What text is read from bytes. The first byte of a character tells how many follow, and in which range the next
one lies; all of them together tell its number. Main statement: bytes are read exactly if they are the UTF-8 of some
text, and that text is what is read. -/
namespace ThresholdAlerts.Text

/-- The numbers of the characters whose first byte is followed by so many others. -/
inductive IsWide : Nat → Nat → Prop
  | two {v} (low : 0x80 ≤ v) (high : v < 0x800) : IsWide 1 v
  | three {v} (low : 0x800 ≤ v) (high : v < 0x10000) (valid : v.isValidChar) : IsWide 2 v
  | four {v} (low : 0x10000 ≤ v) (high : v < 0x110000) : IsWide 3 v

def mark (more : Nat) : Nat :=
  256 - 2 ^ (7 - more)

def tailBytes : Nat → Nat → List UInt8
  | 0, _ => []
  | n + 1, v => UInt8.ofNat (v / 64 ^ n % 64 + 128) :: tailBytes n v

/-- The first bytes, with the range of the second one and how many follow. -/
inductive Leads : Nat → Nat → Nat → Nat → Prop
  | two {b} (low : 0xC2 ≤ b) (high : b ≤ 0xDF) : Leads b 0x80 0xBF 1
  | shortest : Leads 0xE0 0xA0 0xBF 2
  | surrogates : Leads 0xED 0x80 0x9F 2
  | three {b} (low : 0xE1 ≤ b) (high : b ≤ 0xEF) (other : b ≠ 0xED) : Leads b 0x80 0xBF 2
  | shortestFour : Leads 0xF0 0x90 0xBF 3
  | four {b} (low : 0xF1 ≤ b) (high : b ≤ 0xF3) : Leads b 0x80 0xBF 3
  | last : Leads 0xF4 0x80 0x8F 3

/-- The number agrees with what was read of a character. -/
structure Partial.Fits (p : Partial) (v : Nat) : Prop where
  bits : v / 64 ^ p.more = p.bits
  low : p.low.toNat ≤ v / 64 ^ (p.more - 1) % 64 + 128
  high : v / 64 ^ (p.more - 1) % 64 + 128 ≤ p.high.toNat

/-- The next byte is to be one of those that no character begins with. -/
structure Partial.Goes (p : Partial) : Prop where
  more : 0 < p.more
  low : 0x80 ≤ p.low.toNat
  high : p.high.toNat < 0xC0

section Characters

variable {more v : Nat} {b : UInt8} {p : Partial} {index : Nat} {done cs : List Char} {bytes rest : List UInt8}

theorem IsWide.valid (wide : IsWide more v) : v.isValidChar := by
  cases wide with
  | two low high => exact .inl (by omega)
  | three low high valid => exact valid
  | four low high => exact .inr (by omega)

theorem exists_isWide (valid : v.isValidChar) (several : 0x80 ≤ v) : ∃ more, IsWide more v := by
  by_cases two : v < 0x800
  · exact ⟨1, .two several two⟩
  · by_cases three : v < 0x10000
    · exact ⟨2, .three (by omega) three valid⟩
    · refine ⟨3, .four (by omega) ?_⟩
      rw [Nat.isValidChar] at valid
      omega

theorem val_ofNat (valid : v.isValidChar) : (Char.ofNat v).val.toNat = v := by
  rw [Char.ofNat, dif_pos valid]
  rfl

theorem encode_of_lt (one : v < 0x80) : String.utf8EncodeChar (Char.ofNat v) = [UInt8.ofNat v] := by
  rw [String.utf8EncodeChar]
  simp only [val_ofNat (.inl (by omega) : v.isValidChar)]
  rw [if_pos (by omega)]

theorem encode_of_isWide (wide : IsWide more v) :
    String.utf8EncodeChar (Char.ofNat v) = UInt8.ofNat (v / 64 ^ more + mark more) :: tailBytes more v := by
  rw [String.utf8EncodeChar]
  simp only [val_ofNat wide.valid]
  cases wide with
  | two low high =>
    rw [if_neg (by omega), if_pos (by omega), Nat.mod_eq_of_lt (by omega)]
    simp [tailBytes, mark]
  | three low high valid =>
    rw [if_neg (by omega), if_neg (by omega), if_pos (by omega), Nat.mod_eq_of_lt (by omega)]
    simp [tailBytes, mark]
  | four low high =>
    rw [if_neg (by omega), if_neg (by omega), if_neg (by omega), Nat.mod_eq_of_lt (by omega)]
    simp [tailBytes, mark]

/-! ### The first byte -/

theorem leads_of_lead? {low high : UInt8} (lead : lead? b = some (low, high, more)) :
    Leads b.toNat low.toNat high.toNat more := by
  rw [lead?] at lead
  simp only [UInt8.le_iff_toNat_le, ← UInt8.toNat_inj, UInt8.reduceToNat] at lead
  split at lead
  next two =>
    cases lead
    exact .two two.1 two.2
  split at lead
  next first =>
    cases lead
    exact first ▸ .shortest
  split at lead
  next first =>
    cases lead
    exact first ▸ .surrogates
  next other =>
  split at lead
  next three =>
    cases lead
    exact .three three.1 three.2 other
  split at lead
  next first =>
    cases lead
    exact first ▸ .shortestFour
  split at lead
  next four =>
    cases lead
    exact .four four.1 four.2
  split at lead
  next first =>
    cases lead
    exact first ▸ .last
  next => cases lead

theorem Leads.lead? {low high : Nat} (leads : Leads b.toNat low high more) :
    Text.lead? b = some (UInt8.ofNat low, UInt8.ofNat high, more) := by
  rw [Text.lead?]
  simp only [UInt8.le_iff_toNat_le, ← UInt8.toNat_inj, UInt8.reduceToNat]
  generalize b.toNat = n at leads
  cases leads with
  | two low high =>
    rw [if_pos ⟨low, high⟩]
    rfl
  | three low high other =>
    rw [if_neg (by omega), if_neg (by omega), if_neg other, if_pos ⟨low, high⟩]
    rfl
  | four low high =>
    rw [if_neg (by omega), if_neg (by omega), if_neg (by omega), if_neg (by omega), if_neg (by omega),
      if_pos ⟨low, high⟩]
    rfl
  | _ => rfl

/-- What the first byte tells of a number is true of just the numbers that have this byte. -/
theorem Leads.fits {b low high : Nat} (leads : Leads b low high more) (v : Nat) :
    (v / 64 ^ more = b % 2 ^ (6 - more) ∧ low ≤ v / 64 ^ (more - 1) % 64 + 128 ∧
      v / 64 ^ (more - 1) % 64 + 128 ≤ high) ↔ IsWide more v ∧ v / 64 ^ more + mark more = b := by
  rw [mark]
  constructor
  · rintro ⟨bits, above, below⟩
    cases leads with
    | two low high => exact ⟨.two (by omega) (by omega), by omega⟩
    | shortest => exact ⟨.three (by omega) (by omega) (.inl (by omega)), by omega⟩
    | surrogates => exact ⟨.three (by omega) (by omega) (.inl (by omega)), by omega⟩
    | three low high other =>
      refine ⟨.three (by omega) (by omega) ?_, by omega⟩
      rw [Nat.isValidChar]
      omega
    | shortestFour => exact ⟨.four (by omega) (by omega), by omega⟩
    | four low high => exact ⟨.four (by omega) (by omega), by omega⟩
    | last => exact ⟨.four (by omega) (by omega), by omega⟩
  · rintro ⟨wide, first⟩
    cases wide with
    | two => cases leads; omega
    | three low high valid =>
      rw [Nat.isValidChar] at valid
      cases leads <;> omega
    | four => cases leads <;> omega

/-- Each character of several bytes has a first byte that tells how many. -/
theorem IsWide.leads (wide : IsWide more v) : ∃ low high, Leads (v / 64 ^ more + mark more) low high more := by
  rw [mark]
  cases wide with
  | two low high => exact ⟨_, _, .two (by omega) (by omega)⟩
  | three low high valid =>
    have above : 0xE0 ≤ v / 64 ^ 2 + (256 - 2 ^ (7 - 2)) := by omega
    have below : v / 64 ^ 2 + (256 - 2 ^ (7 - 2)) ≤ 0xEF := by omega
    generalize v / 64 ^ 2 + (256 - 2 ^ (7 - 2)) = b at above below
    obtain rfl | more := Nat.eq_or_lt_of_le above
    · exact ⟨_, _, .shortest⟩
    · by_cases other : b = 0xED
      · subst other
        exact ⟨_, _, .surrogates⟩
      · exact ⟨_, _, .three more below other⟩
  | four low high =>
    have above : 0xF0 ≤ v / 64 ^ 3 + (256 - 2 ^ (7 - 3)) := by omega
    have below : v / 64 ^ 3 + (256 - 2 ^ (7 - 3)) ≤ 0xF4 := by omega
    generalize v / 64 ^ 3 + (256 - 2 ^ (7 - 3)) = b at above below
    obtain rfl | more := Nat.eq_or_lt_of_le above
    · exact ⟨_, _, .shortestFour⟩
    · obtain rfl | less := Nat.eq_or_lt_of_le below
      · exact ⟨_, _, .last⟩
      · exact ⟨_, _, .four more (Nat.le_of_lt_succ less)⟩

theorem Leads.goes {b low high : Nat} (leads : Leads b low high more) :
    0 < more ∧ 0x80 ≤ low ∧ high < 0xC0 := by
  cases leads <;> decide

theorem Leads.bounds {b low high : Nat} (leads : Leads b low high more) : 0x80 ≤ b ∧ b < 0x100 := by
  cases leads <;> omega

theorem goes_begin (begun : Partial.begin? index b = some p) : p.Goes := by
  obtain ⟨⟨low, high, more⟩, lead, rfl⟩ := Option.map_eq_some_iff.mp begun
  obtain ⟨more, low, high⟩ := (leads_of_lead? lead).goes
  exact ⟨more, low, high⟩

theorem fits_begin (begun : Partial.begin? index b = some p) (v : Nat) :
    p.Fits v ↔ IsWide p.more v ∧ v / 64 ^ p.more + mark p.more = b.toNat := by
  obtain ⟨⟨low, high, more⟩, lead, rfl⟩ := Option.map_eq_some_iff.mp begun
  rw [← (leads_of_lead? lead).fits]
  exact ⟨fun fits => ⟨fits.bits, fits.low, fits.high⟩, fun ⟨bits, low, high⟩ => ⟨bits, low, high⟩⟩

/-! ### The bytes behind it -/

theorem goes_extend (p : Partial) (b : UInt8) (more : 1 < p.more) : (p.extend b).Goes :=
  ⟨Nat.sub_pos_of_lt more, Nat.le_refl 0x80, Nat.lt_succ_self 0xBF⟩

theorem fits_extend_iff : (p.extend b).Fits v ↔ v / 64 ^ (p.more - 1) = p.bits * 64 + b.toNat % 64 := by
  constructor
  · exact fun fits => fits.bits
  · intro bits
    have small := Nat.mod_lt (v / 64 ^ ((p.extend b).more - 1)) (by decide : 64 > 0)
    exact ⟨bits, Nat.le_add_left .., Nat.add_le_add_right (Nat.le_of_lt_succ small) 128⟩

/-- A byte in the range leaves the numbers that have it as their next one. -/
theorem fits_extend {n : Nat} (goes : p.Goes) (more : p.more = n + 1) (low : p.low ≤ b) (high : b ≤ p.high) :
    (p.extend b).Fits v ↔ p.Fits v ∧ b = UInt8.ofNat (v / 64 ^ n % 64 + 128) := by
  have left : p.more - 1 = n := by omega
  have next : v / 64 ^ (n + 1) = v / 64 ^ n / 64 := by rw [Nat.pow_succ, Nat.div_div_eq_div_mul]
  have range := goes.low
  have range' := goes.high
  rw [UInt8.le_iff_toNat_le] at low high
  rw [fits_extend_iff, left]
  constructor
  · intro bits
    have same : v / 64 ^ n % 64 + 128 = b.toNat := by omega
    refine ⟨⟨?_, ?_, ?_⟩, ?_⟩
    · rw [more, next]
      omega
    · rwa [left, same]
    · rwa [left, same]
    · rw [same, UInt8.ofNat_toNat]
  · rintro ⟨⟨bits, -, -⟩, rfl⟩
    rw [more, next] at bits
    rw [UInt8.toNat_ofNat']
    omega

theorem Partial.Fits.next {n : Nat} (fits : p.Fits v) (more : p.more = n + 1) :
    p.low ≤ UInt8.ofNat (v / 64 ^ n % 64 + 128) ∧ UInt8.ofNat (v / 64 ^ n % 64 + 128) ≤ p.high := by
  obtain ⟨-, low, high⟩ := fits
  rw [more, Nat.add_sub_cancel] at low high
  rw [UInt8.le_iff_toNat_le, UInt8.le_iff_toNat_le, UInt8.toNat_ofNat', Nat.mod_eq_of_lt (by omega)]
  exact ⟨low, high⟩

/-- The bytes of a number that fits are read. -/
theorem decodeFrom_tailBytes (goes : p.Goes) (fits : p.Fits v) :
    decodeFrom index done (some p) (tailBytes p.more v ++ rest) =
      decodeFrom (index + p.more) (Char.ofNat v :: done) none rest := by
  obtain ⟨n, more⟩ : ∃ n, p.more = n + 1 := Nat.exists_eq_succ_of_ne_zero (Nat.ne_of_gt goes.more)
  rw [more]
  induction n generalizing p index with
  | zero =>
    have range := fits.next more
    have bits := ((fits_extend goes more range.1 range.2).mpr ⟨fits, rfl⟩).bits
    rw [tailBytes, tailBytes, List.cons_append, decodeFrom, if_pos range]
    generalize UInt8.ofNat (v / 64 ^ 0 % 64 + 128) = b at bits
    have last : (p.extend b).more = 0 := by rw [Partial.extend, more]
    rw [last, Nat.pow_zero, Nat.div_one] at bits
    dsimp only
    rw [if_pos last, ← bits, List.nil_append]
  | succ n ih =>
    have range := fits.next more
    have fits' := (fits_extend goes more range.1 range.2).mpr ⟨fits, rfl⟩
    rw [tailBytes, List.cons_append, decodeFrom, if_pos range]
    generalize UInt8.ofNat (v / 64 ^ (n + 1) % 64 + 128) = b at fits'
    have left : (p.extend b).more = n + 1 := by rw [Partial.extend, more, Nat.add_sub_cancel]
    dsimp only
    rw [if_neg (by omega), ih (goes_extend p b (by omega)) fits' left, Nat.add_assoc, Nat.add_comm 1]

/-- No other bytes are read. -/
theorem exists_tailBytes (goes : p.Goes) (decoded : decodeFrom index done (some p) bytes = .ok cs) :
    ∃ v rest, p.Fits v ∧ bytes = tailBytes p.more v ++ rest ∧
      decodeFrom (index + p.more) (Char.ofNat v :: done) none rest = .ok cs := by
  induction bytes generalizing p index with
  | nil => cases decoded
  | cons b bytes ih =>
    obtain ⟨n, more⟩ : ∃ n, p.more = n + 1 := Nat.exists_eq_succ_of_ne_zero (Nat.ne_of_gt goes.more)
    have left : (p.extend b).more = n := by rw [Partial.extend, more, Nat.add_sub_cancel]
    rw [decodeFrom] at decoded
    split at decoded
    next range =>
      dsimp only at decoded
      split at decoded
      next last =>
        obtain rfl : n = 0 := left.symm.trans last
        have bits : (p.extend b).bits / 64 ^ (p.more - 1) = p.bits * 64 + b.toNat % 64 := by
          rw [more, Nat.add_sub_cancel, Nat.pow_zero, Nat.div_one]
          rfl
        obtain ⟨fits, next⟩ := (fits_extend goes more range.1 range.2).mp (fits_extend_iff.mpr bits)
        refine ⟨_, bytes, fits, ?_, ?_⟩
        · rw [more, tailBytes, ← next]
          rfl
        · rw [more]
          exact decoded
      next others =>
        obtain ⟨v, rest, fits', rfl, read⟩ := ih (goes_extend p b (by omega)) decoded
        obtain ⟨fits, next⟩ := (fits_extend goes more range.1 range.2).mp fits'
        refine ⟨v, rest, fits, ?_, ?_⟩
        · rw [more, tailBytes, ← next, left]
          rfl
        · rw [left, Nat.add_assoc, Nat.add_comm 1] at read
          rw [more]
          exact read
    next => cases decoded

/-! ### A text -/

/-- The UTF-8 of a character is read as that character. -/
theorem decodeFrom_encode (index : Nat) (done : List Char) (c : Char) (rest : List UInt8) :
    ∃ index', decodeFrom index done none (String.utf8EncodeChar c ++ rest) =
      decodeFrom index' (c :: done) none rest := by
  rw [← Char.ofNat_toNat c]
  have valid : c.toNat.isValidChar := c.valid
  generalize c.toNat = v at valid
  by_cases one : v < 0x80
  · refine ⟨index + 1, ?_⟩
    have byte : (UInt8.ofNat v).toNat = v := by
      rw [UInt8.toNat_ofNat']
      omega
    have small : UInt8.ofNat v < 0x80 := by
      rw [UInt8.lt_iff_toNat_lt, byte]
      exact one
    rw [encode_of_lt one, List.cons_append, decodeFrom, if_pos small, byte, List.nil_append]
  · obtain ⟨more, wide⟩ := exists_isWide valid (by omega)
    obtain ⟨low, high, leads⟩ := wide.leads
    have bounds := leads.bounds
    rw [encode_of_isWide wide]
    have byte : (UInt8.ofNat (v / 64 ^ more + mark more)).toNat = v / 64 ^ more + mark more := by
      rw [UInt8.toNat_ofNat']
      omega
    generalize UInt8.ofNat (v / 64 ^ more + mark more) = b at byte
    rw [← byte] at leads bounds
    have begun : Partial.begin? index b = some
        { start := index, count := 1, more, low := UInt8.ofNat low, high := UInt8.ofNat high
          bits := b.toNat % Nat.pow 2 (6 - more) } := by
      rw [Partial.begin?, leads.lead?]
      rfl
    have large : ¬ b < 0x80 := UInt8.not_lt.mpr (UInt8.le_iff_toNat_le.mpr bounds.1)
    refine ⟨index + 1 + more, ?_⟩
    rw [List.cons_append, decodeFrom, if_neg large, begun]
    exact decodeFrom_tailBytes (goes_begin begun) ((fits_begin begun v).mpr ⟨wide, byte.symm⟩)

/-- Whatever is read begins with the UTF-8 of a character. -/
theorem exists_encode (decoded : decodeFrom index done none (b :: bytes) = .ok cs) :
    ∃ c rest index', b :: bytes = String.utf8EncodeChar c ++ rest ∧
      decodeFrom index' (c :: done) none rest = .ok cs := by
  rw [decodeFrom] at decoded
  split at decoded
  next small =>
    refine ⟨_, bytes, index + 1, ?_, decoded⟩
    rw [encode_of_lt (UInt8.lt_iff_toNat_lt.mp small), UInt8.ofNat_toNat]
    rfl
  next =>
    split at decoded
    next => cases decoded
    next p begun =>
      obtain ⟨v, rest, fits, rfl, read⟩ := exists_tailBytes (goes_begin begun) decoded
      obtain ⟨wide, first⟩ := (fits_begin begun v).mp fits
      refine ⟨Char.ofNat v, rest, _, ?_, read⟩
      rw [encode_of_isWide wide, first, UInt8.ofNat_toNat]
      rfl

/-- The characters that are read are those whose UTF-8 the bytes are. -/
theorem decodeFrom_eq_ok_iff :
    decodeFrom index done none bytes = .ok cs ↔
      ∃ text, cs = done.reverse ++ text ∧ bytes = text.flatMap String.utf8EncodeChar := by
  constructor
  · intro decoded
    induction length : bytes.length using Nat.strongRecOn generalizing bytes index done with
    | ind n ih =>
      cases bytes with
      | nil => exact ⟨[], by rw [List.append_nil, ← Except.ok.inj decoded], rfl⟩
      | cons b bytes =>
        obtain ⟨c, rest, index', encoded, read⟩ := exists_encode decoded
        have shorter : rest.length < n := by
          have some := List.length_pos_iff.mpr (String.utf8EncodeChar_ne_nil (c := c))
          rw [← length, encoded, List.length_append]
          omega
        obtain ⟨text, rfl, rfl⟩ := ih _ shorter read rfl
        exact ⟨c :: text, by simp, encoded⟩
  · rintro ⟨text, rfl, rfl⟩
    induction text generalizing index done with
    | nil => rw [List.append_nil, List.flatMap_nil, decodeFrom]
    | cons c text ih =>
      rw [List.flatMap_cons]
      obtain ⟨index', read⟩ := decodeFrom_encode index done c (text.flatMap String.utf8EncodeChar)
      rw [read, ih, List.reverse_cons, List.append_assoc, List.singleton_append]

end Characters

/-- Bytes are read exactly if they are the UTF-8 of a text, and that is what is read. -/
theorem decodeUtf8_eq_ok_iff {bytes : List UInt8} {s : String} :
    decodeUtf8 bytes = .ok s ↔ s.toUTF8 = bytes.toByteArray := by
  have encoded : s.toUTF8 = (s.toList.flatMap String.utf8EncodeChar).toByteArray := String.utf8Encode_toList.symm
  have decoded : decodeUtf8 bytes = .ok s ↔ decodeFrom 0 [] none bytes = .ok s.toList := by
    rw [decodeUtf8]
    cases decodeFrom 0 [] none bytes with
    | error fault => exact iff_of_false nofun nofun
    | ok cs =>
      constructor
      · intro read
        rw [← Except.ok.inj read, String.toList_ofList]
      · intro read
        rw [Except.ok.inj read, Except.map, String.ofList_toList]
  rw [decoded, decodeFrom_eq_ok_iff, encoded, List.toByteArray_inj]
  constructor
  · rintro ⟨text, rfl, rfl⟩
    rfl
  · intro same
    exact ⟨s.toList, rfl, same.symm⟩

theorem fromUTF8?_eq_some_iff {bytes : ByteArray} {s : String} :
    String.fromUTF8? bytes = some s ↔ s.toUTF8 = bytes := by
  rw [String.fromUTF8?]
  constructor
  · intro read
    split at read
    next valid =>
      rw [← Option.some.inj read]
      rfl
    next => cases read
  · rintro rfl
    exact dif_pos s.isValidUTF8

/-- What is read is what the library reads. -/
theorem toOption_decodeUtf8 (bytes : List UInt8) :
    (decodeUtf8 bytes).toOption = String.fromUTF8? bytes.toByteArray := by
  cases read : decodeUtf8 bytes with
  | ok s => exact (fromUTF8?_eq_some_iff.mpr (decodeUtf8_eq_ok_iff.mp read)).symm
  | error fault =>
    refine (Option.eq_none_iff_forall_ne_some.mpr fun s there => ?_).symm
    rw [decodeUtf8_eq_ok_iff.mpr (fromUTF8?_eq_some_iff.mp there)] at read
    cases read

end ThresholdAlerts.Text
