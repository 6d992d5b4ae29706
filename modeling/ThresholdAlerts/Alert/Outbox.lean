import ThresholdAlerts.Alert.Retry
import ThresholdAlerts.Alert.Store
/-! Undelivered events. Each rule has an outbox, a queue that is sent front to back; the events that
are given up are kept in a bounded log. -/
namespace ThresholdAlerts

/-- An event that waits to be delivered. -/
structure Delivery where
  event : Event
  /-- Failed attempts so far. -/
  failures : Nat := 0
  /-- The moment from which it may be tried. -/
  dueAt : Duration
  lastError : Option SinkError := none
deriving DecidableEq, Repr

namespace Delivery

/-- Waits behind earlier events and was not tried yet. -/
def queued (event : Event) (now : Duration) : Delivery :=
  { event, dueAt := now }

/-- Failures are counted up to this number and stay there. -/
def maxFailures : Nat := Nat.pow 2 32 - 1

def recordFailure (d : Delivery) (error : SinkError) (policy : RetryPolicy) (now : Duration)
    (jitter : Nat) : Delivery :=
  let failures := min (d.failures + 1) maxFailures
  { d with failures, dueAt := now + policy.backoff failures jitter, lastError := some error }

def isDue (d : Delivery) (now : Duration) : Bool :=
  d.dueAt ≤ now

end Delivery

/-- The undelivered events of one rule, oldest first. -/
abbrev Outbox := List Delivery

namespace Outbox

def capacity : Nat := 256

inductive Enqueued where
  | queued
  /-- The event closes an alert whose opening was never sent; both are gone. -/
  | collapsed (opening : Event)
  /-- There was no room for the event. -/
  | overflow (event : Event)
deriving DecidableEq, Repr

def isUnsentOpening (id : AlertId) (d : Delivery) : Bool :=
  match d.event with
  | .opened alert => d.failures = 0 && alert.id = id
  | .resolved .. => false

/-- The last delivery, if `event` cancels it. -/
def cancelledBy? (outbox : Outbox) (event : Event) : Option Delivery :=
  match event with
  | .opened _ => none
  | .resolved id _ _ _ => outbox.getLast?.filter (isUnsentOpening id)

/-- Appends an event. The end of an alert whose opening is last in the outbox and was never tried
cancels it, so that a rule that flaps while the sink is away does not fill its outbox. -/
def enqueue (outbox : Outbox) (event : Event) (now : Duration) : Outbox × Enqueued :=
  match cancelledBy? outbox event with
  | some opening => (outbox.dropLast, .collapsed opening.event)
  | none =>
    if capacity ≤ outbox.length then (outbox, .overflow event)
    else (outbox ++ [Delivery.queued event now], .queued)

end Outbox

structure DeadLetter where
  event : Event
  attempts : Nat
  error : SinkError
  failedAt : Timestamp
deriving DecidableEq, Repr

/-- The events given up last, oldest first. -/
structure DeadLetters where
  entries : List DeadLetter := []
deriving DecidableEq, Repr, Inhabited

namespace DeadLetters

def capacity : Nat := 1000

/-- Appends an entry; the oldest ones make room for it. -/
def push (log : DeadLetters) (letter : DeadLetter) : DeadLetters :=
  { entries := log.entries.drop (log.entries.length + 1 - capacity) ++ [letter] }

def size (log : DeadLetters) : Nat :=
  log.entries.length

end DeadLetters

end ThresholdAlerts
