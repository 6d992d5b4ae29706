/-! The shortest decimal that reads back as a given binary number.

A finite double is `mantissa * 2 ^ power`. The reals that round to it form an interval, whose ends
belong to it when the mantissa is even. `Scaled` holds the interval over one denominator, and
`shortest` takes the first grid of 1, 2, … 17 significant digits that has a point inside it. -/
namespace ThresholdAlerts

structure Decimal where
  digits : Nat
  power : Int
deriving DecidableEq, Repr

namespace Decimal

/-- Which of two equally near neighbours is chosen. -/
inductive Tie where
  | up
  | toEven
deriving DecidableEq, Repr

/-- The binary number `mantissa * 2 ^ power`; `least` marks a mantissa at the bottom of its
binade, where the neighbour below is only half as far away. -/
structure Binary where
  mantissa : Nat
  power : Int
  least : Bool
deriving DecidableEq, Repr

def Binary.ofBits (bits : UInt64) : Binary :=
  let fraction := bits.toNat % Nat.pow 2 52
  let exponent : Nat := bits.toNat / Nat.pow 2 52 % Nat.pow 2 11
  if exponent = 0 then
    { mantissa := fraction, power := -1074, least := false }
  else
    { mantissa := Nat.pow 2 52 + fraction
      power := (exponent : Int) - 1075
      least := fraction = 0 ∧ 1 < exponent }

/-- A value and the interval around it, as numerators over `den`. -/
structure Scaled where
  low : Nat
  value : Nat
  high : Nat
  den : Nat
  closed : Bool
deriving Repr

def Binary.scaled (b : Binary) : Scaled :=
  let shift := b.power - 2
  let factor := Nat.pow 2 shift.toNat
  { low := (4 * b.mantissa - (if b.least then 1 else 2)) * factor
    value := 4 * b.mantissa * factor
    high := (4 * b.mantissa + 2) * factor
    den := Nat.pow 2 (-shift).toNat
    closed := b.mantissa % 2 = 0 }

/-- The fraction `n / d` times `10 ^ power`, as a numerator and a denominator. -/
def scaleBy (n d : Nat) (power : Int) : Nat × Nat :=
  (n * Nat.pow 10 power.toNat, d * Nat.pow 10 (-power).toNat)

def below (n d : Nat) (power : Int) : Bool :=
  let (n', d') := scaleBy n d (-power)
  n' < d'

/-- The least power of ten above the positive fraction `n / d`. The binary lengths place it within
four candidates. -/
def magnitude (n d : Nat) : Int :=
  let guess := ((n.log2 : Int) - d.log2 - 1) * 30103 / 100000
  ([guess, guess + 1, guess + 2, guess + 3].find? (below n d ·)).getD (guess + 4)

/-- Whether the point `k / d` of a grid, with `d` the value's own denominator, rounds to the value. -/
def Scaled.holds (s : Scaled) (k : Nat) : Bool :=
  if s.closed then s.low ≤ k && k ≤ s.high else s.low < k && k < s.high

/-- The grid of multiples of `10 ^ power`: the neighbour of the value on it that lies in the
interval, the nearer one if both do. -/
def Scaled.onGrid? (s : Scaled) (tie : Tie) (power : Int) : Option Nat :=
  let unit := Nat.pow 10 power.toNat * s.den
  let scale := Nat.pow 10 (-power).toNat
  let s : Scaled := { s with low := s.low * scale, value := s.value * scale, high := s.high * scale }
  let d := s.value / unit
  let down := s.holds (d * unit)
  let up := s.holds ((d + 1) * unit)
  let rest := 2 * (s.value % unit)
  if down && up then
    if rest < unit then some d
    else if unit < rest then some (d + 1)
    else match tie with
      | .up => some (d + 1)
      | .toEven => some (if d % 2 = 0 then d else d + 1)
  else if down then some d
  else if up then some (d + 1)
  else none

/-- The first of the grids of `width`, `width + 1`, … digits with a point in the interval. -/
def Scaled.firstGrid (s : Scaled) (tie : Tie) (top : Int) : List Nat → Decimal
  | [] => { digits := 0, power := 0 }
  | width :: wider =>
    let power := top - width
    match s.onGrid? tie power with
    | some digits => { digits, power }
    | none => s.firstGrid tie top wider

/-- The same decimal with no zero at the end of its digits. At most `fuel` zeros are dropped. -/
def trimmed (d : Decimal) : Nat → Decimal
  | 0 => d
  | fuel + 1 =>
    if d.digits ≠ 0 ∧ d.digits % 10 = 0 then
      trimmed { digits := d.digits / 10, power := d.power + 1 } fuel
    else d

def shortest (tie : Tie) (b : Binary) : Decimal :=
  let s := b.scaled
  (s.firstGrid tie (magnitude s.value s.den) (List.range' 1 17)).trimmed 18

end Decimal

end ThresholdAlerts
