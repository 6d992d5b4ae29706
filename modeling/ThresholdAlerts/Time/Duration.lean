/-! Spans of time in whole nanoseconds. A span holds at most 2⁶⁴ seconds; sums and multiples past that
stay at the longest span. -/
namespace ThresholdAlerts

structure Duration where
  nanos : Nat
deriving DecidableEq, Repr, Ord, Inhabited

namespace Duration

instance : LE Duration := ⟨fun a b => a.nanos ≤ b.nanos⟩
instance : LT Duration := ⟨fun a b => a.nanos < b.nanos⟩
instance (a b : Duration) : Decidable (a ≤ b) := inferInstanceAs (Decidable (a.nanos ≤ b.nanos))
instance (a b : Duration) : Decidable (a < b) := inferInstanceAs (Decidable (a.nanos < b.nanos))
instance : Min Duration := minOfLe
instance : Max Duration := maxOfLe
instance : Add Duration := ⟨fun a b => ⟨a.nanos + b.nanos⟩⟩
instance : Zero Duration := ⟨⟨0⟩⟩

def longest : Duration := ⟨Nat.pow 2 64 * 1000000000 - 1⟩

def ofMillis (ms : Nat) : Duration := ⟨ms * 1000000⟩

def ofSeconds (s : Nat) : Duration := ⟨s * 1000000000⟩

def toMillis (d : Duration) : Nat := d.nanos / 1000000

def saturatingAdd (a b : Duration) : Duration :=
  min (a + b) longest

def saturatingMul (d : Duration) (n : Nat) : Duration :=
  min ⟨d.nanos * n⟩ longest

/-- The fraction `rest / 10 ^ width` behind a point, without zeros at its end. -/
def fraction (rest width : Nat) : String :=
  let digits := Nat.toDigits 10 rest
  let all := List.replicate (width - digits.length) '0' ++ digits
  let kept := (all.reverse.dropWhile (· = '0')).reverse
  if kept.isEmpty then "" else "." ++ String.ofList kept

/-- The text of a span: its largest unit among s, ms, µs and ns that is not zero, with the smaller
ones as a fraction. -/
def text (d : Duration) : String :=
  let shown (unit width : Nat) (name : String) :=
    toString (d.nanos / unit) ++ fraction (d.nanos % unit) width ++ name
  if 1000000000 ≤ d.nanos then shown 1000000000 9 "s"
  else if 1000000 ≤ d.nanos then shown 1000000 6 "ms"
  else if 1000 ≤ d.nanos then shown 1000 3 "µs"
  else toString d.nanos ++ "ns"

end Duration

end ThresholdAlerts
