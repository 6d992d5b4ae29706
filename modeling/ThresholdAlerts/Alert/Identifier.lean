import ThresholdAlerts.Alert.Basic
/-! Fresh identifiers of alerts: 128 bits in the form of a random UUID, in groups of 8, 4, 4, 4 and 12
hexadecimal digits, of which one tells the version 4 and one the variant. -/
namespace ThresholdAlerts.Identifier

def hex (width : Nat) (n : Nat) : String :=
  let digits := Nat.toDigits 16 (n % Nat.pow 16 width)
  String.ofList (List.replicate (width - digits.length) '0' ++ digits)

def ofBits (high low : UInt64) : AlertId :=
  let high := (high &&& 0xFFFFFFFFFFFF0FFF) ||| 0x4000
  let low := (low &&& 0x3FFFFFFFFFFFFFFF) ||| 0x8000000000000000
  String.intercalate "-" [
    hex 8 (high >>> 32).toNat,
    hex 4 (high >>> 16).toNat,
    hex 4 high.toNat,
    hex 4 (low >>> 48).toNat,
    hex 12 low.toNat]

def scatter (z : UInt64) : UInt64 :=
  let z := (z ^^^ (z >>> 30)) * 0xBF58476D1CE4E5B9
  let z := (z ^^^ (z >>> 27)) * 0x94D049BB133111EB
  z ^^^ (z >>> 31)

/-- The `n`-th word that follows from a seed. -/
def word (seed : UInt64) (n : Nat) : UInt64 :=
  scatter (seed + (n.toUInt64 + 1) * 0x9E3779B97F4A7C15)

def nth (high low : UInt64) (n : Nat) : AlertId :=
  ofBits (word high n) (word low n)

end ThresholdAlerts.Identifier
