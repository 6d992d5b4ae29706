/-! Decoding UTF-8. The first place where the bytes are no UTF-8 is described by its index and, unless
the bytes just end too early, by the number of bytes that form no character there. -/
namespace ThresholdAlerts.Text

structure Utf8Fault where
  index : Nat
  /-- Bytes at the index that can be part of no character; nothing if more bytes could follow. -/
  length : Option Nat
deriving DecidableEq, Repr

def Utf8Fault.message (f : Utf8Fault) : String :=
  match f.length with
  | some n =>
    "invalid utf-8 sequence of " ++ toString n ++ " bytes from index " ++ toString f.index
  | none => "incomplete utf-8 byte sequence from index " ++ toString f.index

/-- The lowest and the highest byte that may follow the first byte of a character of several bytes,
and how many bytes follow in all. -/
def lead? (b : UInt8) : Option (UInt8 × UInt8 × Nat) :=
  if 0xC2 ≤ b ∧ b ≤ 0xDF then some (0x80, 0xBF, 1)
  else if b = 0xE0 then some (0xA0, 0xBF, 2)
  else if b = 0xED then some (0x80, 0x9F, 2)
  else if 0xE1 ≤ b ∧ b ≤ 0xEF then some (0x80, 0xBF, 2)
  else if b = 0xF0 then some (0x90, 0xBF, 3)
  else if 0xF1 ≤ b ∧ b ≤ 0xF3 then some (0x80, 0xBF, 3)
  else if b = 0xF4 then some (0x80, 0x8F, 3)
  else none

/-- A character that is being read. -/
structure Partial where
  start : Nat
  /-- Its bytes so far, and how many are to come. -/
  count : Nat
  more : Nat
  /-- The range the next byte has to lie in. -/
  low : UInt8
  high : UInt8
  bits : Nat

/-- The character that the first byte at `start` begins. -/
def Partial.begin? (start : Nat) (b : UInt8) : Option Partial :=
  (lead? b).map fun (low, high, more) =>
    { start, count := 1, more, low, high, bits := b.toNat % Nat.pow 2 (6 - more) }

def Partial.extend (p : Partial) (b : UInt8) : Partial :=
  { p with count := p.count + 1, more := p.more - 1, low := 0x80, high := 0xBF
           bits := p.bits * 64 + b.toNat % 64 }

/-- Decodes the bytes from `index` on; `done` are the characters before them in reverse order. -/
def decodeFrom (index : Nat) (done : List Char) :
    Option Partial → List UInt8 → Except Utf8Fault (List Char)
  | none, [] => .ok done.reverse
  | some p, [] => .error { index := p.start, length := none }
  | none, b :: rest =>
    if b < 0x80 then decodeFrom (index + 1) (Char.ofNat b.toNat :: done) none rest
    else match Partial.begin? index b with
      | none => .error { index, length := some 1 }
      | some p => decodeFrom (index + 1) done (some p) rest
  | some p, b :: rest =>
    if p.low ≤ b ∧ b ≤ p.high then
      let p := p.extend b
      if p.more = 0 then decodeFrom (index + 1) (Char.ofNat p.bits :: done) none rest
      else decodeFrom (index + 1) done (some p) rest
    else .error { index := p.start, length := some p.count }

def decodeUtf8 (bytes : List UInt8) : Except Utf8Fault String :=
  (decodeFrom 0 [] none bytes).map String.ofList

end ThresholdAlerts.Text
