import ThresholdAlerts.Decimal.Shortest
/-! How a double is written. A `Layout` holds the choices that differ between the two texts the
program produces: alert messages (`message`) and JSON documents (`document`). -/
namespace ThresholdAlerts.Decimal

/-- The choices of a written form.
`positional` tells for which places of the decimal point (counted from the first digit) the number
is written without an exponent. -/
structure Layout where
  tie : Tie
  positional : Int → Bool
  /-- Written behind a number without a fraction. -/
  whole : String
  /-- Whether a positive exponent carries its sign. -/
  exponentSign : Bool

/-- Numbers in messages never carry an exponent, and a tie goes up. -/
def Layout.message : Layout :=
  { tie := .up, positional := fun _ => true, whole := "", exponentSign := false }

/-- Numbers in documents carry an exponent outside `1e-5 ≤ |x| < 1e16`, keep `.0` and send a tie to
the even neighbour. -/
def Layout.document : Layout :=
  { tie := .toEven, positional := fun point => decide (-5 < point ∧ point ≤ 16), whole := ".0"
    exponentSign := true }

def zeros (n : Nat) : String :=
  String.ofList (List.replicate n '0')

/-- The digits with the decimal point behind the first `point` of them. -/
def Layout.position (l : Layout) (digits : List Char) (point : Int) : String :=
  let n := digits.length
  if (n : Int) ≤ point then
    String.ofList digits ++ zeros (point - n).toNat ++ l.whole
  else if 0 < point then
    String.ofList (digits.take point.toNat) ++ "." ++ String.ofList (digits.drop point.toNat)
  else
    "0." ++ zeros (-point).toNat ++ String.ofList digits

/-- One digit, the others behind a point, and the exponent. -/
def Layout.scientific (l : Layout) (digits : List Char) (point : Int) : String :=
  let exponent := point - 1
  let fraction := match digits.drop 1 with
    | [] => ""
    | rest => "." ++ String.ofList rest
  let sign := if exponent < 0 then "-" else if l.exponentSign then "+" else ""
  String.ofList (digits.take 1) ++ fraction ++ "e" ++ sign ++ toString exponent.natAbs

def Layout.magnitude (l : Layout) (d : Decimal) : String :=
  let digits := Nat.toDigits 10 d.digits
  let point := (digits.length : Int) + d.power
  if l.positional point then l.position digits point else l.scientific digits point

def Layout.finite (l : Layout) (x : Float) : String :=
  let b := Binary.ofBits x.toBits
  let d : Decimal := if b.mantissa = 0 then { digits := 0, power := 0 } else shortest l.tie b
  (if x.toBits.toNat < Nat.pow 2 63 then "" else "-") ++ l.magnitude d

def inMessage (x : Float) : String :=
  if x.isNaN then "NaN"
  else if x.isInf then (if 0 < x then "inf" else "-inf")
  else Layout.message.finite x

/-- A double as a JSON document holds it; there is no number for NaN and the infinities. -/
def inDocument? (x : Float) : Option String :=
  if x.isFinite then some (Layout.document.finite x) else none

end ThresholdAlerts.Decimal
