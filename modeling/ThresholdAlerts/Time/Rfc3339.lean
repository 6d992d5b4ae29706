import ThresholdAlerts.Text.Blank
import ThresholdAlerts.Time.Timestamp
/-! RFC 3339 text of an instant. `write` gives the one canonical form, in UTC with `Z` and 0, 3, 6
or 9 digits of fraction. `read?` is lenient: blanks may stand before each number, the date and the
time may be joined by `t`, `T` or a space, the offset may be `UTC` and its parts may be split by
colons or blanks. -/
namespace ThresholdAlerts.Timestamp
open Text

def padded (width n : Nat) : String :=
  let digits := Nat.toDigits 10 n
  String.ofList (List.replicate (width - digits.length) '0' ++ digits)

/-- Years of four digits stand alone; any other carries its sign. -/
def writeYear (year : Int) : String :=
  if 0 ≤ year ∧ year ≤ 9999 then padded 4 year.toNat
  else (if year < 0 then "-" else "+") ++ padded 4 year.natAbs

def writeFraction (nanos : Nat) : String :=
  if nanos = 0 then ""
  else if nanos % 1000000 = 0 then "." ++ padded 3 (nanos / 1000000)
  else if nanos % 1000 = 0 then "." ++ padded 6 (nanos / 1000)
  else "." ++ padded 9 nanos

def write (t : Timestamp) : String :=
  let date := Date.ofDays (t.seconds / 86400)
  let second := (t.seconds % 86400).toNat
  writeYear date.year ++ "-" ++ padded 2 date.month ++ "-" ++ padded 2 date.day ++ "T"
    ++ padded 2 (second / 3600) ++ ":" ++ padded 2 (second / 60 % 60) ++ ":"
    ++ padded 2 (second % 60 + t.nanos / 1000000000) ++ writeFraction (t.nanos % 1000000000) ++ "Z"

/-- The digits at the start of a text, at most `limit` of them, and the rest. -/
def digitRun (limit : Nat) (s : List Char) : List Char × List Char :=
  let run := (s.take limit).takeWhile Char.isDigit
  (run, s.drop run.length)

def digitsValue (digits : List Char) : Nat :=
  digits.foldl (fun n c => 10 * n + (c.toNat - '0'.toNat)) 0

/-- A number of one to `limit` digits, after blanks. -/
def readNumber? (limit : Nat) (s : List Char) : Option (Nat × List Char) :=
  match digitRun limit (trimStart s) with
  | ([], _) => none
  | (run, rest) => some (digitsValue run, rest)

/-- A year: four digits at most, or a sign and any number of digits. -/
def readYear? (s : List Char) : Option (Int × List Char) :=
  match trimStart s with
  | '-' :: rest => signed (-1) rest
  | '+' :: rest => signed 1 rest
  | rest => (readNumber? 4 rest).map fun (n, rest) => ((n : Int), rest)
where
  signed (sign : Int) (s : List Char) : Option (Int × List Char) :=
    match digitRun s.length s with
    | ([], _) => none
    | (run, rest) =>
      let n := digitsValue run
      if n < Nat.pow 2 31 then some (sign * n, rest) else none

/-- The character `c`, after blanks. -/
def expect? (c : Char) (s : List Char) : Option (List Char) :=
  match trimStart s with
  | d :: rest => if d = c then some rest else none
  | [] => none

/-- A fraction of a second in nanoseconds; digits past the ninth are dropped. -/
def readFraction? : List Char → Option (Nat × List Char)
  | '.' :: s =>
    match digitRun 9 s with
    | ([], _) => none
    | (run, rest) => some (digitsValue run * Nat.pow 10 (9 - run.length), rest.dropWhile Char.isDigit)
  | s => some (0, s)

def readPair? (top : Char) : List Char → Option (Nat × List Char)
  | a :: b :: rest =>
    if '0' ≤ a ∧ a ≤ top ∧ b.isDigit then some (digitsValue [a, b], rest) else none
  | _ => none

def readOffset? (s : List Char) : Option (Int × List Char) :=
  match s with
  | 'Z' :: rest => some (0, rest)
  | 'z' :: rest => some (0, rest)
  | '+' :: rest => parts 1 rest
  | '-' :: rest => parts (-1) rest
  | '−' :: rest => parts (-1) rest
  | _ =>
    if (s.take 3).map Char.toUpper = ['U', 'T', 'C'] then some (0, s.drop 3) else none
where
  parts (sign : Int) (s : List Char) : Option (Int × List Char) := do
    let (hours, s) ← readPair? '9' s
    let (minutes, s) ← readPair? '5' (s.dropWhile fun c => c = ':' || isBlank c)
    let offset := hours * 3600 + minutes * 60
    guard (offset < 86400)
    some (sign * offset, s)

/-- Years are counted from `-yearLimit` up to `yearLimit`, which itself is past the end. -/
def yearLimit : Int := 262143

/-- Whether an instant lies in a year that is counted. -/
def isCounted (t : Timestamp) : Bool :=
  let date := Date.ofDays (t.seconds / 86400)
  decide (-yearLimit ≤ date.year ∧ date.year < yearLimit)

/-- Reads an instant; nothing but blanks may follow it. Neither the date that is written nor the
instant that its offset makes of it may lie outside the years that are counted. -/
def readChars? (s : List Char) : Option Timestamp := do
  let (year, s) ← readYear? s
  let (month, s) ← readNumber? 2 (← expect? '-' s)
  let (day, s) ← readNumber? 2 (← expect? '-' s)
  let s ← match s with
    | 't' :: rest => some rest
    | 'T' :: rest => some rest
    | ' ' :: rest => some rest
    | _ => none
  let (hour, s) ← readNumber? 2 s
  let (minute, s) ← readNumber? 2 (← expect? ':' s)
  let (second, s) ← readNumber? 2 (← expect? ':' s)
  let (fraction, s) ← readFraction? s
  let (offset, s) ← readOffset? (trimStart s)
  guard ((trimStart s).isEmpty)
  let date : Date := { year, month, day }
  guard (date.valid ∧ -yearLimit ≤ year ∧ year < yearLimit)
  guard (hour < 24 ∧ minute < 60 ∧ second ≤ 60)
  let leap := second / 60
  let t : Timestamp := {
    seconds := date.toDays * 86400 + hour * 3600 + minute * 60 + (second - leap : Nat) - offset
    nanos := leap * 1000000000 + fraction }
  guard t.isCounted
  some t

def read? (s : String) : Option Timestamp :=
  readChars? s.toList

end ThresholdAlerts.Timestamp
