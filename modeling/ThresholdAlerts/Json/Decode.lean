import ThresholdAlerts.Json.Reader
/-! Decoding JSON values into records. The first problem in the order of the text wins: a value of the
wrong kind before a fault further on, a missing field only at the end of its object. A record may
also be written as an array of its fields in order. -/
namespace ThresholdAlerts.Json

inductive Fault where
  /-- The text is no JSON, or a text in it cannot be read as what it should be. -/
  | malformed
  | missingField (name : String)
  | duplicateField (name : String)
  | unknownVariant (name : String)
  | invalidType
  | invalidValue
  | invalidLength
deriving DecidableEq, Repr

/-- What a fault is called. Of text that is no JSON only this is kept: `other` stands for whatever
the reader says of it. -/
def Fault.message : Fault → String
  | .malformed => "other"
  | .missingField name => "missing field `" ++ name ++ "`"
  | .duplicateField name => "duplicate field `" ++ name ++ "`"
  | .unknownVariant name => "unknown variant `" ++ name ++ "`"
  | .invalidType => "invalid type"
  | .invalidValue => "invalid value"
  | .invalidLength => "invalid length"

/-- Where a value comes from: straight from the text, or from an object that was read to its end
first. The two differ in which fault some mistakes count as. -/
inductive Origin where
  | direct
  | buffered
deriving DecidableEq, Repr

/-- The fault of an array with more items than the record has fields. -/
def Origin.tooMany : Origin → Fault
  | .direct => .malformed
  | .buffered => .invalidLength

def Origin.notAName : Origin → Fault
  | .direct => .malformed
  | .buffered => .invalidType

/-- The fault of a value of the wrong kind; one that could not be read at all is malformed. -/
def mismatch : Json → Fault
  | .broken => .malformed
  | .string none => .malformed
  | .number .tooLarge => .malformed
  | _ => .invalidType

def decodeText : Json → Except Fault String
  | .string (some s) => .ok s
  | v => .error v.mismatch

def decodeBool : Json → Except Fault Bool
  | .bool b => .ok b
  | v => .error v.mismatch

def decodeFloat : Json → Except Fault Float
  | .number (.natural n) => .ok n.toUInt64.toFloat
  | .number (.negative n) => .ok (-n.toUInt64.toFloat)
  | .number (.real x) => .ok x
  | v => .error v.mismatch

def decodeNat (limit : Nat) : Json → Except Fault Nat
  | .number (.natural n) => if n < limit then .ok n else .error .invalidValue
  | .number (.negative _) => .error .invalidValue
  | v => .error v.mismatch

def decodeOption (decode : Json → Except Fault α) : Json → Except Fault (Option α)
  | .null => .ok none
  | v => (decode v).map some

/-- Whether a value may stand behind a name that needs none. -/
def Origin.isNothing : Origin → Json → Bool
  | _, .null => true
  | .buffered, .object [] _ => true
  | _, _ => false

/-- A name, as a text or as the only key of an object whose value is nothing. -/
def decodeName (origin : Origin) (ofName? : String → Option α) : Json → Except Fault α
  | .string (some s) => known s
  | .object [(key, v)] closed => do
    let a ← keyed key
    if !origin.isNothing v then .error v.mismatch
    else if closed then .ok a
    else .error .malformed
  | .object [] closed =>
    .error (if closed then (match origin with | .direct => .malformed | .buffered => .invalidValue)
      else .malformed)
  | .object ((key, v) :: _) _ =>
    match origin with
    | .buffered => .error .invalidValue
    | .direct => do
      discard (keyed key)
      .error (if origin.isNothing v then .malformed else v.mismatch)
  | .keyless v => .error v.mismatch
  | .broken => .error .malformed
  | .string none => .error .malformed
  | _ => .error origin.notAName
where
  known (s : String) : Except Fault α :=
    match ofName? s with
    | some a => .ok a
    | none => .error (.unknownVariant s)
  keyed : Option String → Except Fault α
    | some s => known s
    | none => .error .malformed

def decodeList (decode : Json → Except Fault α) : Json → Except Fault (List α)
  | .array items closed => do
    let all ← items.mapM decode
    if closed then .ok all else .error .malformed
  | v => .error v.mismatch

/-- Whether a record was written with its field names. -/
inductive Form where
  | named
  | positional
deriving DecidableEq, Repr

/-- The fields of a record in order, and how one of them is taken into a draft of it. -/
structure Schema (Draft : Type) where
  fields : List String
  put : String → Json → Draft → Except Fault Draft

namespace Schema

variable {Draft : Type}

/-- Takes in the members of an object; `seen` are the fields met so far. Members with other names
only have to be complete. -/
def putMembers (schema : Schema Draft) :
    List String → List (Option String × Json) → Draft → Except Fault Draft
  | _, [], draft => .ok draft
  | _, (none, _) :: _, _ => .error .malformed
  | seen, (some name, v) :: rest, draft =>
    if schema.fields.contains name then
      if seen.contains name then .error (.duplicateField name)
      else do
        let draft ← schema.put name v draft
        schema.putMembers (name :: seen) rest draft
    else if v.isComplete then schema.putMembers seen rest draft
    else .error .malformed

/-- Takes in the items of an array, one for each field as far as they go. -/
def putItems (schema : Schema Draft) (origin : Origin) :
    List String → List Json → Bool → Draft → Except Fault Draft
  | [], [], closed, draft => if closed then .ok draft else .error .malformed
  | [], _ :: _, _, _ => .error origin.tooMany
  | _ :: _, [], closed, draft => if closed then .ok draft else .error .malformed
  | name :: names, v :: rest, closed, draft => do
    let draft ← schema.put name v draft
    schema.putItems origin names rest closed draft

/-- The draft of the record that a value holds, and how it is written. -/
def decode (schema : Schema Draft) (origin : Origin) (start : Draft) :
    Json → Except Fault (Draft × Form)
  | .object members closed => do
    let draft ← schema.putMembers [] members start
    if closed then .ok (draft, .named) else .error .malformed
  | .array items closed => do
    let draft ← schema.putItems origin schema.fields items closed start
    .ok (draft, .positional)
  | .keyless _ => .error .malformed
  | v => .error v.mismatch

end Schema

def required (form : Form) (name : String) : Option α → Except Fault α
  | some a => .ok a
  | none =>
    match form with
    | .named => .error (.missingField name)
    | .positional => .error .invalidLength

/-- A field whose value may be `null`; its name may be left out, its place in an array may not. -/
def nullable (form : Form) : Option (Option α) → Except Fault (Option α)
  | some a => .ok a
  | none =>
    match form with
    | .named => .ok none
    | .positional => .error .invalidLength

/-- Containers may be nested this deep in an object that is read to its end first. -/
def bufferDepth : Nat := 127

mutual

/-- Whether a value can be kept for later: it is complete and sound all through, and no more than
`depth` containers are nested in it. -/
def isSound (depth : Nat) : Json → Bool
  | .null => true
  | .bool _ => true
  | .number n => n ≠ .tooLarge
  | .string s => s.isSome
  | .array items closed =>
    match depth with
    | 0 => false
    | depth + 1 => closed && allSound depth items
  | .object members closed =>
    match depth with
    | 0 => false
    | depth + 1 => closed && allMembersSound depth members
  | .keyless _ => false
  | .broken => false

def allSound (depth : Nat) : List Json → Bool
  | [] => true
  | v :: rest => isSound depth v && allSound depth rest

def allMembersSound (depth : Nat) : List (Option String × Json) → Bool
  | [] => true
  | (key, v) :: rest => key.isSome && isSound depth v && allMembersSound depth rest

end

/-- Decodes a text that holds one value and nothing else. -/
def decodeWhole (decode : Json → Except Fault α) (s : String) : Except Fault α := do
  let (v, alone) := read s
  let a ← decode v
  if alone then .ok a else .error .malformed

end ThresholdAlerts.Json
