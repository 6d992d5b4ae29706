import ThresholdAlerts.Rule.Snapshot
import ThresholdAlerts.Rule.Source
/-! The store of the present rule snapshot. A fetch that fails leaves the snapshot as it is; the store
then counts as degraded until a fetch succeeds. -/
namespace ThresholdAlerts

/-- Names one call that waits for something. -/
abbrev Ticket := Nat

structure RuleStore where
  snapshot : RuleSnapshot := {}
  /-- The next read has to fetch first. -/
  invalidated : Bool := true
  /-- Fetches that failed since the last one that succeeded. -/
  failures : Nat := 0
  lastError : Option SourceError := none
  maxStaleness : Duration
  /-- The call that is refreshing, and those that wait to refresh. -/
  turns : List Ticket := []
deriving Inhabited

structure StoreHealth where
  degraded : Bool
  stale : Bool
  consecutiveFailures : Nat
  lastError : Option String
  lastRefreshedAt : Option Timestamp
  generation : Nat
  ruleCount : Nat
deriving Repr

namespace RuleStore

/-- Failures are counted up to this number and stay there. -/
def maxFailures : Nat := Nat.pow 2 32 - 1

def invalidate (s : RuleStore) : RuleStore :=
  { s with invalidated := true }

/-- A fetch begins. The mark is taken off first, so that an invalidation during the fetch asks for
another one. -/
def beginFetch (s : RuleStore) : RuleStore :=
  { s with invalidated := false }

def loaded (s : RuleStore) (rules : List Rule) (now : Timestamp) : RuleStore :=
  { s with
    snapshot := RuleSnapshot.build rules (s.snapshot.generation + 1) now
    failures := 0
    lastError := none }

def failed (s : RuleStore) (error : SourceError) : RuleStore :=
  { s with failures := min (s.failures + 1) maxFailures, lastError := some error }

/-- Whether the snapshot is older than allowed at the moment `now`, or was never loaded. -/
def isStale (s : RuleStore) (now : Timestamp) : Bool :=
  match s.snapshot.loadedAt with
  | some loadedAt => (s.maxStaleness.nanos : Int) < now.toNanos - loadedAt.toNanos
  | none => true

def health (s : RuleStore) (now : Timestamp) : StoreHealth :=
  { degraded := 0 < s.failures
    stale := s.isStale now
    consecutiveFailures := s.failures
    lastError := s.lastError.map SourceError.message
    lastRefreshedAt := s.snapshot.loadedAt
    generation := s.snapshot.generation
    ruleCount := s.snapshot.size }

end RuleStore

end ThresholdAlerts
