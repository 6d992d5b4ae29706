import ThresholdAlerts.Ingest.Error
import ThresholdAlerts.Ingest.Sample
import ThresholdAlerts.Text.Utf8
/-! Reading samples from newline-delimited JSON. Lines end at a line feed, and one carriage return
before it is dropped; blank lines are skipped. A malformed line is reported with its number and
reading goes on; a line that is no text is reported without being counted. -/
namespace ThresholdAlerts

/-- Parts bytes into the lines that end among them and the start of the next one, whose bytes are kept
in reverse order. -/
def takeLines (line : List UInt8) : List UInt8 → List (List UInt8) × List UInt8
  | [] => ([], line)
  | b :: rest =>
    if b = 0x0A then
      let (lines, left) := takeLines [] rest
      ((b :: line).reverse :: lines, left)
    else takeLines (b :: line) rest

/-- The lines of an input, each with its line feed. The last one needs none, but it is no line if it
is empty. -/
def inputLines (bytes : List UInt8) : List (List UInt8) :=
  let (lines, left) := takeLines [] bytes
  if left.isEmpty then lines else lines ++ [left.reverse]

/-- The line without its line feed and a carriage return before that. -/
def chomp (line : List UInt8) : List UInt8 :=
  match line.reverse with
  | 0x0A :: 0x0D :: before => before.reverse
  | 0x0A :: before => before.reverse
  | _ => line

/-- A reader: the lines that are left, and how many were counted. -/
structure SampleReader where
  lines : List (List UInt8)
  lineNumber : Nat := 0
deriving Repr

namespace SampleReader

def ofBytes (bytes : List UInt8) : SampleReader :=
  { lines := inputLines bytes }

/-- What one line holds: nothing, a sample or a mistake. -/
def readLine (now : Timestamp) (number : Nat) (line : String) :
    Option (Except IngestError Sample) :=
  let line := Text.trim line
  if line.isEmpty then none
  else
    match Json.decodeWhole (Sample.ofJson now) line with
    | .ok sample => some (.ok sample)
    | .error fault => some (.error (.malformed number fault.message))

def nextFrom (now : Timestamp) :
    List (List UInt8) → Nat → SampleReader × Option (Except IngestError Sample)
  | [], number => ({ lines := [], lineNumber := number }, none)
  | bytes :: lines, number =>
    match Text.decodeUtf8 (chomp bytes) with
    | .error fault => ({ lines, lineNumber := number }, some (.error (.io fault.message)))
    | .ok line =>
      match readLine now (number + 1) line with
      | some item => ({ lines, lineNumber := number + 1 }, some item)
      | none => nextFrom now lines (number + 1)

/-- Whatever the lines hold up to the first error that ends the reading, and how many were counted. -/
def readAll (now : Timestamp) : List (List UInt8) → Nat → List (Except IngestError Sample) × Nat
  | [], number => ([], number)
  | bytes :: lines, number =>
    match Text.decodeUtf8 (chomp bytes) with
    | .error fault => ([.error (.io fault.message)], number)
    | .ok line =>
      let (items, last) := readAll now lines (number + 1)
      ((readLine now (number + 1) line).toList ++ items, last)

/-- The next sample or error, or nothing at the end of the input. -/
def next (r : SampleReader) (now : Timestamp) : SampleReader × Option (Except IngestError Sample) :=
  nextFrom now r.lines r.lineNumber

end SampleReader

end ThresholdAlerts
