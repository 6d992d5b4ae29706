import ThresholdAlerts.Alert.Basic
/-! The firing state of one rule: clear, pending with a streak of breaches, or open with an alert.
A streak is counted under one fingerprint of the rule; when the fingerprint changes the streak
starts over and an open alert is resolved. -/
namespace ThresholdAlerts

inductive Phase where
  | clear
  | pending (breaches : Nat)
  | opened (alertId : AlertId) (breaches : Nat)
deriving DecidableEq, Repr

/-- What others see of a firing state. -/
inductive FiringStatus where
  | clear
  | pending
  | opened
deriving DecidableEq, Repr

def FiringStatus.name : FiringStatus → String
  | .clear => "CLEAR"
  | .pending => "PENDING"
  | .opened => "OPEN"

structure FiringState where
  ruleId : RuleId
  phase : Phase := .clear
  /-- The fingerprint under which the streak is counted; unknown before the first sample and for an
  alert found in storage. -/
  fingerprint : Option Fingerprint := none
  lastSampleAt : Option Timestamp := none
deriving DecidableEq, Repr

namespace FiringState

def initial (ruleId : RuleId) : FiringState :=
  { ruleId }

def recovered (ruleId : RuleId) (alertId : AlertId) : FiringState :=
  { ruleId, phase := .opened alertId 0 }

def status (s : FiringState) : FiringStatus :=
  match s.phase with
  | .clear => .clear
  | .pending _ => .pending
  | .opened .. => .opened

def breaches (s : FiringState) : Nat :=
  match s.phase with
  | .clear => 0
  | .pending n => n
  | .opened _ n => n

def openAlertId (s : FiringState) : Option AlertId :=
  match s.phase with
  | .opened id _ => some id
  | _ => none

def isOpen (s : FiringState) : Bool :=
  s.openAlertId.isSome

/-- Streaks are counted up to this number and stay there. -/
def maxBreaches : Nat := Nat.pow 2 32 - 1

def oneMore (n : Nat) : Nat :=
  min (n + 1) maxBreaches

/-- Counts a breach on top of `previous` ones while no alert is open. `fresh` names the alert that it
may open. -/
def countBreach (previous : Nat) (fresh : AlertId) (rule : Rule) (value : Float) (time : Timestamp) :
    Phase × Option Event :=
  let n := oneMore previous
  if rule.needed ≤ n then
    (.opened fresh n, some (.opened (Alert.ofRule fresh rule value time)))
  else (.pending n, none)

def closing (s : FiringState) (id : AlertId) (reason : ResolveReason) (time : Timestamp) : Event :=
  .resolved id s.ruleId time reason

/-- The phase after a sample, and the event that the change of phase produces. -/
def nextPhase (s : FiringState) (fresh : AlertId) (rule : Rule) (breached : Bool) (value : Float)
    (time : Timestamp) : Phase × Option Event :=
  match s.phase, breached with
  | .clear, false => (.clear, none)
  | .clear, true => countBreach 0 fresh rule value time
  | .pending n, true => countBreach n fresh rule value time
  | .pending _, false => (.clear, none)
  | .opened id n, true => (.opened id (oneMore n), none)
  | .opened id _, false => (.clear, some (s.closing id .recovered time))

/-- Applies the decision on one sample. A state without a fingerprint takes the rule's. -/
def transition (s : FiringState) (fresh : AlertId) (rule : Rule) (breached : Bool) (value : Float)
    (time : Timestamp) : FiringState × Option Event :=
  let (phase, event) := s.nextPhase fresh rule breached value time
  ({ s with
      phase
      fingerprint := s.fingerprint <|> some rule.fingerprint
      lastSampleAt := some time }, event)

def forceResolve (s : FiringState) (reason : ResolveReason) (time : Timestamp) :
    FiringState × Option Event :=
  ({ s with phase := .clear }, s.openAlertId.map fun id => s.closing id reason time)

/-- Takes over the rule's present fingerprint. If another one was remembered, the streak starts over
and an open alert is closed. -/
def syncRule (s : FiringState) (rule : Rule) (time : Timestamp) : FiringState × Option Event :=
  let adopted := { s with fingerprint := some rule.fingerprint }
  match s.fingerprint with
  | some known =>
    if known = rule.fingerprint then (s, none) else adopted.forceResolve .ruleChanged time
  | none => (adopted, none)

def dropPending (s : FiringState) : FiringState :=
  match s.phase with
  | .pending _ => { s with phase := .clear }
  | _ => s

/-- Restarts the streak after an edit of the rule was announced. An open alert stays if the rule's
fingerprint is the same. -/
def resetHysteresis (s : FiringState) (rule : Rule) (time : Timestamp) :
    FiringState × Option Event :=
  let (s, event) := s.syncRule rule time
  (s.dropPending, event)

inductive Change where
  | transition (fresh : AlertId) (rule : Rule) (breached : Bool) (value : Float) (time : Timestamp)
  | sync (rule : Rule) (time : Timestamp)
  | reset (rule : Rule) (time : Timestamp)
  | force (reason : ResolveReason) (time : Timestamp)

def apply (s : FiringState) : Change → FiringState × Option Event
  | .transition fresh rule breached value time => s.transition fresh rule breached value time
  | .sync rule time => s.syncRule rule time
  | .reset rule time => s.resetHysteresis rule time
  | .force reason time => s.forceResolve reason time

/-- The state after a list of changes, and the events they produced. -/
def applyAll : FiringState → List Change → FiringState × List Event
  | s, [] => (s, [])
  | s, change :: rest =>
    let (s, event) := s.apply change
    let (s, events) := applyAll s rest
    (s, event.toList ++ events)

end FiringState

end ThresholdAlerts
