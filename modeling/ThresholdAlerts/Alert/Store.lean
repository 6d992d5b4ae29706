import Std.Data.TreeMap
import ThresholdAlerts.Alert.Basic
import ThresholdAlerts.Time.Duration
/-! The store of alert records. `create` and `resolve` may be repeated: a record that exists is not
overwritten, and a time of resolution is not changed. Near its capacity the store lets go of closed
records first; an open one is never dropped. -/
namespace ThresholdAlerts

inductive SinkError where
  | unavailable (text : String)
  | timeout (limit : Duration)
  | notFound (id : AlertId)
  | rejected (text : String)
  | backlogFull (waiting : Nat)
deriving DecidableEq, Repr

namespace SinkError

def message : SinkError → String
  | .unavailable text => "Alert sink unavailable: " ++ text
  | .timeout limit => "Alert sink call timed out after " ++ limit.text
  | .notFound id => "Alert not found: " ++ id
  | .rejected text => "Alert rejected: " ++ text
  | .backlogFull waiting => "Delivery backlog full (" ++ toString waiting ++ " events waiting)"

def isRetryable : SinkError → Bool
  | .unavailable _ => true
  | .timeout _ => true
  | _ => false

end SinkError

structure AlertStore where
  alerts : Std.TreeMap AlertId Alert := ∅
  /-- While this is set, every call fails. -/
  unavailable : Bool := false
deriving Inhabited

namespace AlertStore

def capacity : Nat := 10000

/-- From this size on, closed records go before a new one is taken in. -/
def highWater : Nat := capacity * 9 / 10

def empty : AlertStore := {}

def get? (s : AlertStore) (id : AlertId) : Option Alert :=
  s.alerts.get? id

def size (s : AlertStore) : Nat :=
  s.alerts.size

def insert (s : AlertStore) (a : Alert) : AlertStore :=
  { s with alerts := s.alerts.insert a.id a }

/-- Order of a listing: by time of opening, then by rule and id. -/
def listed (a b : Alert) : Bool :=
  ((compare a.openedAt b.openedAt).then
    ((compare a.ruleId b.ruleId).then (compare a.id b.id))).isLE

def all (s : AlertStore) : List Alert :=
  s.alerts.values.mergeSort listed

def openAlerts (s : AlertStore) : List Alert :=
  s.all.filter Alert.isOpen

def openCountFor (s : AlertStore) (rule : RuleId) : Nat :=
  s.alerts.values.countP fun a => a.ruleId = rule && a.isOpen

def checkAvailable (s : AlertStore) : Except SinkError Unit :=
  if s.unavailable then .error (.unavailable "memory alert store marked unavailable") else .ok ()

/-- Lets go of closed records once the store is nearly full. -/
def makeRoom (s : AlertStore) : AlertStore :=
  if highWater ≤ s.size then { s with alerts := s.alerts.filter fun _ a => a.isOpen } else s

/-- Takes in a new record and answers the id it is kept under. -/
def create (s : AlertStore) (a : Alert) : AlertStore × Except SinkError AlertId :=
  match s.checkAvailable with
  | .error e => (s, .error e)
  | .ok _ =>
    let s := s.makeRoom
    if s.alerts.contains a.id then (s, .ok a.id)
    else if capacity ≤ s.size then
      (s, .error (.rejected ("alert store full (" ++ toString s.size ++ " open alerts)")))
    else (s.insert a, .ok a.id)

def resolve (s : AlertStore) (id : AlertId) (time : Timestamp) :
    AlertStore × Except SinkError Unit :=
  match s.checkAvailable with
  | .error e => (s, .error e)
  | .ok _ =>
    match s.get? id with
    | some a => ({ s with alerts := s.alerts.insert id (a.resolve time) }, .ok ())
    | none => (s, .error (.notFound id))

def newestOpen? (s : AlertStore) (rule : RuleId) : Option Alert :=
  (s.openAlerts.filter fun a => a.ruleId = rule).getLast?

def findOpen (s : AlertStore) (rule : RuleId) : Except SinkError (Option Alert) := do
  s.checkAvailable
  return s.newestOpen? rule

def findAllOpen (s : AlertStore) : Except SinkError (List Alert) := do
  s.checkAvailable
  return s.openAlerts

end AlertStore

end ThresholdAlerts
