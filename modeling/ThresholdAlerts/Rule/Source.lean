import ThresholdAlerts.Text.Utf8
import ThresholdAlerts.Time.Duration
import ThresholdAlerts.Wire.Rule
import Std.Data.TreeMap
/-! Where rule definitions come from: a table in memory, a fixed list or a JSON file. A source can be
told to fail and to take its time. -/
namespace ThresholdAlerts

inductive SourceError where
  | unavailable (text : String)
  | io (text : String)
  | parse (text : String)
deriving DecidableEq, Repr

def SourceError.message : SourceError → String
  | .unavailable text => "Rule repository unavailable: " ++ text
  | .io text => "Failed to read rules: " ++ text
  | .parse text => "Failed to parse rules: " ++ text

/-- What a file holds, or why it cannot be read. -/
inductive FileContents where
  | bytes (all : List UInt8)
  | unreadable (why : String)
deriving Repr

def FileContents.missing : FileContents :=
  .unreadable "No such file or directory (os error 2)"

inductive RuleContents where
  /-- One rule for each id. -/
  | table (rules : Std.TreeMap RuleId Rule) (unavailable : Bool)
  | listed (rules : List Rule)
  | file (path : String) (contents : FileContents)

namespace RuleContents

/-- The table that a list of rules makes; the last of several rules with one id stays. -/
def ofList (rules : List Rule) : RuleContents :=
  .table (rules.foldl (fun t r => t.insert r.id r) ∅) false

/-- Reads the text of a rules file. -/
def readFile (path : String) : FileContents → Except SourceError (List Rule)
  | .unreadable why => .error (.io (path ++ ": " ++ why))
  | .bytes all =>
    match Text.decodeUtf8 all with
    | .error _ => .error (.io (path ++ ": stream did not contain valid UTF-8"))
    | .ok text =>
      match Rule.listOfText text with
      | .error fault => .error (.parse (path ++ ": " ++ fault.message))
      | .ok rules => .ok (rules.filter (·.enabled))

/-- The rules to be served. A list is served as it is; of the others only the enabled rules. -/
def rules : RuleContents → Except SourceError (List Rule)
  | .table rules unavailable =>
    if unavailable then .error (.unavailable "memory repository marked unavailable")
    else .ok (rules.values.filter (·.enabled))
  | .listed rules => .ok rules
  | .file path contents => readFile path contents

end RuleContents

structure RuleSource where
  contents : RuleContents
  /-- While this is set, every fetch fails with it. -/
  failure : Option SourceError := none
  /-- Time that a fetch takes. -/
  delay : Duration := 0
  fetches : Nat := 0

namespace RuleSource

def fetch (s : RuleSource) : Except SourceError (List Rule) :=
  match s.failure with
  | some e => .error e
  | none => s.contents.rules

def readsFile (s : RuleSource) : Bool :=
  match s.failure, s.contents with
  | none, .file .. => true
  | _, _ => false

def get? (s : RuleSource) (id : RuleId) : Option Rule :=
  match s.contents with
  | .table rules _ => rules.get? id
  | _ => none

/-- An edit of a source; each kind of contents heeds those that are meant for it. -/
inductive Edit where
  | upsert (rule : Rule)
  | remove (id : RuleId)
  | setEnabled (id : RuleId) (enabled : Bool)
  | setUnavailable (unavailable : Bool)
  | setList (rules : List Rule)
  | setFile (contents : FileContents)
  | setFailure (failure : Option SourceError)
  | setDelay (delay : Duration)

def editTable (f : Std.TreeMap RuleId Rule → Std.TreeMap RuleId Rule) : RuleContents → RuleContents
  | .table rules unavailable => .table (f rules) unavailable
  | c => c

def edit (s : RuleSource) : Edit → RuleSource
  | .upsert rule => { s with contents := editTable (·.insert rule.id rule) s.contents }
  | .remove id => { s with contents := editTable (·.erase id) s.contents }
  | .setEnabled id enabled =>
    match s.get? id with
    | some rule => { s with contents := editTable (·.insert id { rule with enabled }) s.contents }
    | none => s
  | .setUnavailable unavailable =>
    match s.contents with
    | .table rules _ => { s with contents := .table rules unavailable }
    | _ => s
  | .setList rules =>
    match s.contents with
    | .listed _ => { s with contents := .listed rules }
    | _ => s
  | .setFile contents =>
    match s.contents with
    | .file path _ => { s with contents := .file path contents }
    | _ => s
  | .setFailure failure => { s with failure }
  | .setDelay delay => { s with delay }

end RuleSource

end ThresholdAlerts
