import ThresholdAlerts.Json.Basic
/-! The JSON reader: an automaton over characters with a stack of open containers. It never stops
early; from the first fault on it stays in the mode `broken`. -/
namespace ThresholdAlerts.Json

/-- A container that is not closed yet; its parts are in reverse order. -/
inductive Frame where
  | array (items : List Json)
  | object (members : List (Option String × Json))
  /-- An object whose member `key` waits for its value. -/
  | member (members : List (Option String × Json)) (key : Option String)
  /-- An object with a value in the place of its first key, once that was read. -/
  | keyless (v : Option Json)

/-- Where in an escape the reader is. -/
inductive Escape where
  | none
  | backslash
  /-- In the four hexadecimal digits of a code unit, `left` of them to come. -/
  | unit (left : Nat) (value : Nat)

structure Quoted where
  isKey : Bool
  /-- The characters so far, in reverse order. -/
  chars : List Char := []
  escape : Escape := .none
  /-- The first half of a pair of code units. -/
  high : Option Nat := none
  /-- Whether every escape so far stands for a character. -/
  sound : Bool := true

/-- The part of a number that was read last. -/
inductive Part where
  | sign
  | zero
  | whole
  | point
  | fraction
  | exponent
  | exponentSign
  | power
deriving DecidableEq

/-- A number that is being read; digits are in reverse order. -/
structure Numeral where
  part : Part
  negative : Bool := false
  whole : List Nat := []
  fraction : List Nat := []
  powerNegative : Bool := false
  power : List Nat := []

inductive Mode where
  | value
  /-- Behind an opening bracket: an item or the closing bracket. -/
  | firstItem
  /-- Behind an opening brace: a key or the closing brace. -/
  | firstKey
  | key
  | colon
  /-- Behind a value. -/
  | after
  | quoted (q : Quoted)
  | numeral (n : Numeral)
  /-- Inside a word that stands for `result`. -/
  | word (left : List Char) (result : Json)
  | broken

/-- The reader between two characters. -/
structure Reader where
  stack : List Frame := []
  result : Option Json := none
  mode : Mode := .value

namespace Reader

def isSpace (c : Char) : Bool :=
  c = ' ' || c = '\n' || c = '\t' || c = '\r'

def fail (r : Reader) : Reader :=
  { r with mode := .broken }

def place (r : Reader) (v : Json) : Reader :=
  match r.stack with
  | [] => { r with result := some v, mode := .after }
  | .array items :: rest => { r with stack := .array (v :: items) :: rest, mode := .after }
  | .member members key :: rest =>
    { r with stack := .object ((key, v) :: members) :: rest, mode := .after }
  | .keyless _ :: rest => { r with stack := .keyless (some v) :: rest, mode := .broken }
  | .object _ :: _ => r.fail

def close (r : Reader) (bracket : Char) : Reader :=
  match r.stack, bracket with
  | .array items :: rest, ']' => { r with stack := rest }.place (.array items.reverse true)
  | .object members :: rest, '}' => { r with stack := rest }.place (.object members.reverse true)
  | _, _ => r.fail

def digit (c : Char) : Nat :=
  c.toNat - '0'.toNat

def startValue (r : Reader) (c : Char) : Reader :=
  if c = '"' then { r with mode := .quoted { isKey := false } }
  else if c = '[' then { r with stack := .array [] :: r.stack, mode := .firstItem }
  else if c = '{' then { r with stack := .object [] :: r.stack, mode := .firstKey }
  else if c = 'n' then { r with mode := .word ['u', 'l', 'l'] .null }
  else if c = 't' then { r with mode := .word ['r', 'u', 'e'] (.bool true) }
  else if c = 'f' then { r with mode := .word ['a', 'l', 's', 'e'] (.bool false) }
  else if c = '-' then { r with mode := .numeral { part := .sign, negative := true } }
  else if c = '0' then { r with mode := .numeral { part := .zero, whole := [0] } }
  else if c.isDigit then { r with mode := .numeral { part := .whole, whole := [digit c] } }
  else r.fail

def startKey (r : Reader) (c : Char) : Reader :=
  if c = '"' then { r with mode := .quoted { isKey := true } } else r.fail

/-- The first key of an object. A value in its place is read as far as its kind can be told by it. -/
def startFirstKey (r : Reader) (c : Char) : Reader :=
  match r.stack with
  | .object [] :: rest =>
    if c = '"' then r.startKey c else { r with stack := .keyless none :: rest }.startValue c
  | _ => r.fail

def stepAfter (r : Reader) (c : Char) : Reader :=
  if isSpace c then { r with mode := .after }
  else if c = ',' then
    match r.stack with
    | .array _ :: _ => { r with mode := .value }
    | .object _ :: _ => { r with mode := .key }
    | _ => r.fail
  else r.close c

def Part.canEnd : Part → Bool
  | .zero | .whole | .fraction | .power => true
  | _ => false

end Reader

def Numeral.value (n : Numeral) : JsonNumber :=
  let power : Nat := n.power.reverse.foldl (fun p d => 10 * p + d) 0
  let exponent : Option Int :=
    if n.power.isEmpty then none else some (if n.powerNegative then -(power : Int) else power)
  JsonNumber.ofParts n.negative n.whole.reverse n.fraction.reverse exponent

/-- One more character of a numeral, if it belongs to it. -/
def Numeral.extend? (n : Numeral) (c : Char) : Option Numeral :=
  let d := Reader.digit c
  match n.part with
  | .sign =>
    if c = '0' then some { n with part := .zero, whole := [0] }
    else if c.isDigit then some { n with part := .whole, whole := [d] }
    else none
  | .zero =>
    if c = '.' then some { n with part := .point }
    else if c = 'e' || c = 'E' then some { n with part := .exponent }
    else none
  | .whole =>
    if c.isDigit then some { n with whole := d :: n.whole }
    else if c = '.' then some { n with part := .point }
    else if c = 'e' || c = 'E' then some { n with part := .exponent }
    else none
  | .point => if c.isDigit then some { n with part := .fraction, fraction := [d] } else none
  | .fraction =>
    if c.isDigit then some { n with fraction := d :: n.fraction }
    else if c = 'e' || c = 'E' then some { n with part := .exponent }
    else none
  | .exponent =>
    if c = '+' then some { n with part := .exponentSign }
    else if c = '-' then some { n with part := .exponentSign, powerNegative := true }
    else if c.isDigit then some { n with part := .power, power := [d] }
    else none
  | .exponentSign => if c.isDigit then some { n with part := .power, power := [d] } else none
  | .power => if c.isDigit then some { n with power := d :: n.power } else none

/-- Whether a numeral may not be followed by `c`: nothing but a point or an exponent may stand behind a
leading zero. -/
def Numeral.forbids (n : Numeral) (c : Char) : Bool :=
  n.part = .zero && c.isDigit

def hexDigit? (c : Char) : Option Nat :=
  if c.isDigit then some (c.toNat - '0'.toNat)
  else if 'a' ≤ c ∧ c ≤ 'f' then some (c.toNat - 'a'.toNat + 10)
  else if 'A' ≤ c ∧ c ≤ 'F' then some (c.toNat - 'A'.toNat + 10)
  else none

namespace Quoted

/-- A plain character, or one that an escape of one letter stands for. -/
def push (q : Quoted) (c : Char) : Quoted :=
  { q with
    chars := c :: q.chars
    escape := .none
    high := none
    sound := q.sound && q.high.isNone }

/-- A code unit written with four hexadecimal digits. Two of them from the surrogate ranges make one
character; one alone makes none. -/
def pushUnit (q : Quoted) (u : Nat) : Quoted :=
  match q.high with
  | some h =>
    if 0xDC00 ≤ u ∧ u ≤ 0xDFFF then
      let c := Char.ofNat ((h - 0xD800) * 0x400 + (u - 0xDC00) + 0x10000)
      { q with chars := c :: q.chars, escape := .none, high := none }
    else { q with escape := .none, high := none, sound := false }
  | none =>
    if 0xD800 ≤ u ∧ u ≤ 0xDBFF then { q with escape := .none, high := some u }
    else if 0xDC00 ≤ u ∧ u ≤ 0xDFFF then { q with escape := .none, sound := false }
    else { q with chars := Char.ofNat u :: q.chars, escape := .none }

def finish (q : Quoted) : Option String :=
  if q.sound && q.high.isNone then some (String.ofList q.chars.reverse) else none

end Quoted

/-- The character that a backslash and this letter stand for. -/
def escapeLetter? (c : Char) : Option Char :=
  match c with
  | '"' => some '"'
  | '\\' => some '\\'
  | '/' => some '/'
  | 'b' => some '\x08'
  | 'f' => some '\x0c'
  | 'n' => some '\n'
  | 'r' => some '\r'
  | 't' => some '\t'
  | _ => none

namespace Reader

def endQuoted (r : Reader) (q : Quoted) : Reader :=
  if q.isKey then
    match r.stack with
    | .object members :: rest =>
      { r with stack := .member members q.finish :: rest, mode := .colon }
    | _ => r.fail
  else r.place (.string q.finish)

def stepQuoted (r : Reader) (q : Quoted) (c : Char) : Reader :=
  match q.escape with
  | .none =>
    if c = '"' then r.endQuoted q
    else if c = '\\' then { r with mode := .quoted { q with escape := .backslash } }
    else if c.toNat < 0x20 then r.fail
    else { r with mode := .quoted (q.push c) }
  | .backslash =>
    if c = 'u' then { r with mode := .quoted { q with escape := .unit 4 0 } }
    else match escapeLetter? c with
      | some d => { r with mode := .quoted (q.push d) }
      | none => r.fail
  | .unit left value =>
    match hexDigit? c with
    | none => r.fail
    | some d =>
      let value := 16 * value + d
      if left ≤ 1 then { r with mode := .quoted (q.pushUnit value) }
      else { r with mode := .quoted { q with escape := .unit (left - 1) value } }

def stepNumeral (r : Reader) (n : Numeral) (c : Char) : Reader :=
  match n.extend? c with
  | some n => { r with mode := .numeral n }
  | none =>
    if Part.canEnd n.part && !n.forbids c then
      let r := r.place (.number n.value)
      match r.mode with
      | .after => r.stepAfter c
      | _ => r
    else r.fail

def stepWord (r : Reader) (left : List Char) (v : Json) (c : Char) : Reader :=
  match left with
  | [d] => if c = d then r.place v else r.fail
  | d :: rest => if c = d then { r with mode := .word rest v } else r.fail
  | [] => r.fail

def step (r : Reader) (c : Char) : Reader :=
  match r.mode with
  | .broken => r
  | .quoted q => r.stepQuoted q c
  | .numeral n => r.stepNumeral n c
  | .word left v => r.stepWord left v c
  | .after => r.stepAfter c
  | .value => if isSpace c then r else r.startValue c
  | .firstItem =>
    if isSpace c then r else if c = ']' then r.close c else r.startValue c
  | .firstKey => if isSpace c then r else if c = '}' then r.close c else r.startFirstKey c
  | .key => if isSpace c then r else r.startKey c
  | .colon =>
    if isSpace c then r else if c = ':' then { r with mode := .value } else r.fail

/-- The open containers around a fault, from the innermost to the outermost. -/
def unwind (inner : Json) : List Frame → Json
  | [] => inner
  | .array items :: rest => unwind (.array (inner :: items).reverse false) rest
  | .object members :: rest => unwind (.object members.reverse false) rest
  | .member members key :: rest => unwind (.object ((key, inner) :: members).reverse false) rest
  | .keyless v :: rest => unwind (.keyless (v.getD inner)) rest

/-- The end of the text: the value that was read, and whether the text held it and nothing else. -/
def finish (r : Reader) : Json × Bool :=
  let r := match r.mode with
    | .numeral n => if Part.canEnd n.part then r.place (.number n.value) else r.fail
    | _ => r
  match r.result, r.mode with
  | some v, .after => (v, true)
  | some v, _ => (v, false)
  | none, _ => (unwind .broken r.stack, false)

end Reader

/-- Reads a text: the value it starts with, and whether it holds nothing else. -/
def read (s : String) : Json × Bool :=
  (s.toList.foldl Reader.step {}).finish

end ThresholdAlerts.Json
