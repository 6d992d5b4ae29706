import ThresholdAlerts.Decimal.Reading
/-! JSON values. A value may stem from a text with a fault in it: what comes before the fault is
there, a container that the fault left open says so, and a value that the fault fell into is
`broken`. Going through the value in order thus meets the fault where the text has it. -/
namespace ThresholdAlerts

inductive JsonNumber where
  /-- A whole number below 2⁶⁴. -/
  | natural (n : Nat)
  /-- The whole number `-n`, not below -2⁶³ and not zero. -/
  | negative (n : Nat)
  | real (x : Float)
  /-- A number past the range of doubles. -/
  | tooLarge
deriving DecidableEq, Repr

inductive Json where
  | null
  | bool (b : Bool)
  | number (n : JsonNumber)
  /-- A text; nothing if an escape in it stands for no character. -/
  | string (s : Option String)
  | array (items : List Json) (closed : Bool)
  /-- The members of an object; a key is nothing if an escape in it stands for no character. -/
  | object (members : List (Option String × Json)) (closed : Bool)
  /-- An object that has this value in the place of its first key. -/
  | keyless (v : Json)
  | broken
deriving Repr, Inhabited

namespace Json

def text (s : String) : Json :=
  .string (some s)

def list (items : List Json) : Json :=
  .array items true

def record (members : List (String × Json)) : Json :=
  .object (members.map fun (key, v) => (some key, v)) true

def nat (n : Nat) : Json :=
  .number (.natural n)

/-- A finite double; the others have no number and become `null`. -/
def float (x : Float) : Json :=
  if x.isFinite then .number (.real x) else .null

def optional (f : α → Json) : Option α → Json
  | none => .null
  | some a => f a

/-- Whether the text of the value was read to its end. -/
def isComplete : Json → Bool
  | .array _ closed => closed
  | .object _ closed => closed
  | .keyless _ => false
  | .broken => false
  | _ => true

end Json

/-- The value of a number in its written parts. Whole numbers stay whole while they fit. -/
def JsonNumber.ofParts (negative : Bool) (whole part : List Nat) (exponent : Option Int) :
    JsonNumber :=
  let real : JsonNumber :=
    match Decimal.read? whole part (exponent.getD 0) with
    | some x => .real (if negative then -x else x)
    | none => .tooLarge
  if part.isEmpty && exponent.isNone then
    let n := whole.foldl (fun n d => 10 * n + d) 0
    if negative then (if 0 < n ∧ n ≤ Nat.pow 2 63 then .negative n else real)
    else if n < Nat.pow 2 64 then .natural n else real
  else real

end ThresholdAlerts
