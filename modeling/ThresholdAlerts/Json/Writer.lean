import ThresholdAlerts.Decimal.Layout
import ThresholdAlerts.Json.Basic
/-! Writing JSON: on one line without blanks, or over several lines indented by two blanks. -/
namespace ThresholdAlerts.Json

def hexLetter (n : Nat) : Char :=
  if n < 10 then Char.ofNat ('0'.toNat + n) else Char.ofNat ('a'.toNat + n - 10)

/-- A character inside quotes. Quotes, backslashes and the control characters are escaped. -/
def escaped (c : Char) : List Char :=
  if c = '"' then ['\\', '"']
  else if c = '\\' then ['\\', '\\']
  else if c = '\n' then ['\\', 'n']
  else if c = '\r' then ['\\', 'r']
  else if c = '\t' then ['\\', 't']
  else if c = '\x08' then ['\\', 'b']
  else if c = '\x0c' then ['\\', 'f']
  else if c.toNat < 0x20 then
    ['\\', 'u', '0', '0', hexLetter (c.toNat / 16), hexLetter (c.toNat % 16)]
  else [c]

def quote (s : String) : String :=
  String.ofList ('"' :: (s.toList.flatMap escaped ++ ['"']))

def writeNumber : JsonNumber → String
  | .natural n => toString n
  | .negative n => "-" ++ toString n
  | .real x => (Decimal.inDocument? x).getD "null"
  | .tooLarge => "null"

def commas : List String → String
  | [] => ""
  | [s] => s
  | s :: rest => s ++ "," ++ commas rest

mutual

def write : Json → String
  | .null => "null"
  | .bool true => "true"
  | .bool false => "false"
  | .number n => writeNumber n
  | .string s => quote (s.getD "")
  | .array items _ => "[" ++ commas (writeItems items) ++ "]"
  | .object members _ => "\x7b" ++ commas (writeMembers members) ++ "\x7d"
  | .keyless _ => "null"
  | .broken => "null"

def writeItems : List Json → List String
  | [] => []
  | v :: rest => write v :: writeItems rest

def writeMembers : List (Option String × Json) → List String
  | [] => []
  | (key, v) :: rest => (quote (key.getD "") ++ ":" ++ write v) :: writeMembers rest

end

def indent (depth : Nat) : String :=
  "\n" ++ String.ofList (List.replicate (2 * depth) ' ')

def block (opening closing : String) (depth : Nat) (parts : List String) : String :=
  if parts.isEmpty then opening ++ closing
  else
    opening ++ commas (parts.map (indent (depth + 1) ++ ·)) ++ indent depth ++ closing

mutual

/-- The text of a value over several lines, `depth` levels deep. -/
def pretty (depth : Nat) : Json → String
  | .array items _ => block "[" "]" depth (prettyItems depth items)
  | .object members _ => block "\x7b" "\x7d" depth (prettyMembers depth members)
  | .null => "null"
  | .bool true => "true"
  | .bool false => "false"
  | .number n => writeNumber n
  | .string s => quote (s.getD "")
  | .keyless _ => "null"
  | .broken => "null"

def prettyItems (depth : Nat) : List Json → List String
  | [] => []
  | v :: rest => pretty (depth + 1) v :: prettyItems depth rest

def prettyMembers (depth : Nat) : List (Option String × Json) → List String
  | [] => []
  | (key, v) :: rest =>
    (quote (key.getD "") ++ ": " ++ pretty (depth + 1) v) :: prettyMembers depth rest

end

end ThresholdAlerts.Json
