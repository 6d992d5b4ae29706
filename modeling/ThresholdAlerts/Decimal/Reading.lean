/-! Reading a decimal number into a double. Digits are gathered into a significand below 2⁶⁴; those
that do not fit only count for the exponent, or not at all. The significand is then scaled by a power
of ten in one step, so that the result need not be the nearest double. -/
namespace ThresholdAlerts.Decimal

/-- The digits that fit behind `significand` while it stays below 2⁶⁴, and how many they are. -/
def gather (significand : Nat) : List Nat → Nat × Nat
  | [] => (significand, 0)
  | d :: rest =>
    let longer := 10 * significand + d
    if longer < Nat.pow 2 64 then
      let (all, count) := gather longer rest
      (all, count + 1)
    else (significand, 0)

def powerOfTen (n : Nat) : Float :=
  Float.ofScientific 1 false n

/-- `x * 10 ^ exponent` in as few steps as the range of doubles allows; nothing if it is too
large. -/
def scale? (x : Float) (exponent : Int) : Option Float :=
  if 0 ≤ exponent then
    if x == 0 then some x
    else if 308 < exponent then none
    else
      let y := x * powerOfTen exponent.toNat
      if y.isInf then none else some y
  else
    let places := exponent.natAbs
    -- Three steps of 308 places take every significand to zero.
    let steps := (places - 1) / 308
    let near := (List.replicate (min steps 3) (powerOfTen 308)).foldl (· / ·) x
    some (near / powerOfTen (places - 308 * steps))

/-- The number written with these digits before and after the point, times `10 ^ exponent`. -/
def read? (whole part : List Nat) (exponent : Int) : Option Float :=
  let (significand, inWhole) := gather 0 whole
  let (significand, inPart) := gather significand part
  let x := significand.toUInt64.toFloat
  scale? x (((whole.length - inWhole : Nat) : Int) - inPart + exponent)

end ThresholdAlerts.Decimal
