import Std.Data.TreeMap
import Std.Data.TreeSet
import ThresholdAlerts.Alert.FiringState
import ThresholdAlerts.Alert.Outbox
import ThresholdAlerts.Rule.Store
/-! Slots: the firing state and the outbox of each rule, behind a queue of the calls that want them.
The call at the head of a slot's queue holds it. A slot whose rule is gone is detached once nothing
is left to deliver; calls that still queue for it then have to look the rule up again. -/
namespace ThresholdAlerts

abbrev SlotId := Nat

structure Slot where
  ruleId : RuleId
  state : FiringState
  outbox : Outbox := []
  /-- The rule left the enabled set; the slot goes once its outbox is empty. -/
  retired : Bool := false
  /-- The slot is no longer the one of its rule. -/
  detached : Bool := false
  /-- The call that holds the slot, and those that wait for it. -/
  queue : List Ticket := []
deriving DecidableEq, Repr

def Slot.initial (ruleId : RuleId) : Slot :=
  { ruleId, state := FiringState.initial ruleId }

/-- Whether a call makes the slot it asks for, or wants it only if it is there. -/
inductive Acquire where
  | create
  | existing
deriving DecidableEq, Repr

structure Claim where
  ticket : Ticket
  rule : RuleId
  mode : Acquire
  slot : SlotId
deriving DecidableEq, Repr

structure TrackerSummary where
  trackedRules : Nat := 0
  pending : Nat := 0
  openAlerts : Nat := 0
  pendingDeliveries : Nat := 0
deriving DecidableEq, Repr

structure Tracker where
  slots : Std.TreeMap SlotId Slot := ∅
  /-- The slot of each tracked rule. -/
  index : Std.TreeMap RuleId SlotId := ∅
  /-- Rules whose outbox has to be looked after. -/
  backlogged : Std.TreeSet RuleId := ∅
  nextSlot : SlotId := 0
deriving Inhabited

namespace Tracker

/-- The slot with this id; an unused id has an untouched slot without a rule. -/
def slot (t : Tracker) (id : SlotId) : Slot :=
  t.slots.getD id (Slot.initial "")

def find? (t : Tracker) (rule : RuleId) : Option SlotId :=
  t.index.get? rule

def update (t : Tracker) (id : SlotId) (f : Slot → Slot) : Tracker :=
  { t with slots := t.slots.insert id (f (t.slot id)) }

/-- The slot of a rule, made if there is none. -/
def ensure (t : Tracker) (rule : RuleId) : Tracker × SlotId :=
  match t.find? rule with
  | some id => (t, id)
  | none =>
    ({ t with
        slots := t.slots.insert t.nextSlot (Slot.initial rule)
        index := t.index.insert rule t.nextSlot
        nextSlot := t.nextSlot + 1 }, t.nextSlot)

def join (t : Tracker) (id : SlotId) (ticket : Ticket) : Tracker :=
  t.update id fun s => { s with queue := s.queue ++ [ticket] }

def holds (t : Tracker) (id : SlotId) (ticket : Ticket) : Bool :=
  (t.slot id).queue.head? = some ticket

/-- The call that gets a slot when its holder lets go of it. -/
def next? (t : Tracker) (id : SlotId) : Option Ticket :=
  (t.slot id).queue.tail.head?

/-- The holder of a slot lets go of it. A detached slot that nobody waits for is forgotten. -/
def leave (t : Tracker) (id : SlotId) : Tracker :=
  let s := t.slot id
  if s.detached && s.queue.length ≤ 1 then { t with slots := t.slots.erase id }
  else t.update id fun s => { s with queue := s.queue.tail }

def request (t : Tracker) (ticket : Ticket) (rule : RuleId) (mode : Acquire) :
    Tracker × Option Claim :=
  match mode with
  | .create =>
    let (t, slot) := t.ensure rule
    (t.join slot ticket, some { ticket, rule, mode, slot })
  | .existing =>
    match t.find? rule with
    | some slot => (t.join slot ticket, some { ticket, rule, mode, slot })
    | none => (t, none)

def take (t : Tracker) (c : Claim) : Tracker :=
  match c.mode with
  | .create => t.update c.slot fun s => { s with retired := false }
  | .existing => t

/-- The holder of a slot lets go of it for good if its rule is gone and nothing is left to deliver.
Answers whether the slot was detached.

The index, the mark of the backlog and the slot change one after the other with no await between
them. They are taken as one step: nothing is taken to come between them, also not from a call on
another thread. -/
def release (t : Tracker) (id : SlotId) : Tracker × Bool :=
  let s := t.slot id
  if s.retired && s.outbox.isEmpty then
    let t : Tracker := { t with
      index := t.index.erase s.ruleId
      backlogged := t.backlogged.erase s.ruleId }
    ((t.update id fun s => { s with detached := true }).leave id, true)
  else (t.leave id, false)

def setState (t : Tracker) (id : SlotId) (state : FiringState) : Tracker :=
  t.update id fun s => { s with state }

def setOutbox (t : Tracker) (id : SlotId) (outbox : Outbox) : Tracker :=
  t.update id fun s => { s with outbox }

def retire (t : Tracker) (id : SlotId) : Tracker :=
  t.update id fun s => { s with retired := true }

def change (t : Tracker) (id : SlotId) (c : FiringState.Change) : Tracker × Option Event :=
  let (state, event) := (t.slot id).state.apply c
  (t.setState id state, event)

/-- Makes the rule of a slot open with an alert found in storage, unless it is open already. Answers
whether it did. -/
def seed (t : Tracker) (id : SlotId) (alertId : AlertId) : Tracker × Bool :=
  let s := t.slot id
  if s.state.isOpen then (t, false)
  else (t.setState id (FiringState.recovered s.ruleId alertId), true)

def markBacklogged (t : Tracker) (rule : RuleId) : Tracker :=
  { t with backlogged := t.backlogged.insert rule }

def unmarkBacklogged (t : Tracker) (rule : RuleId) : Tracker :=
  { t with backlogged := t.backlogged.erase rule }

def ruleIds (t : Tracker) : List RuleId :=
  t.index.keys

def slotIds (t : Tracker) : List SlotId :=
  t.index.values

def size (t : Tracker) : Nat :=
  t.index.size

end Tracker

def TrackerSummary.add (s : TrackerSummary) (slot : Slot) : TrackerSummary :=
  { trackedRules := s.trackedRules + 1
    pending := s.pending + (if slot.state.status = .pending then 1 else 0)
    openAlerts := s.openAlerts + (if slot.state.status = .opened then 1 else 0)
    pendingDeliveries := s.pendingDeliveries + slot.outbox.length }

/-- The counts over all tracked rules at one moment. -/
def Tracker.summary (t : Tracker) : TrackerSummary :=
  (t.slotIds.map t.slot).foldl TrackerSummary.add {}

end ThresholdAlerts
