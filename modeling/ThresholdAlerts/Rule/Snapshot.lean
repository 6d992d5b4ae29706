import Std.Data.TreeMap
import ThresholdAlerts.Rule.Basic
import ThresholdAlerts.Time.Timestamp
/-! The indexed view of the enabled rules at one moment. Of several rules with one id the first
counts; the rules of a metric come worst severity first and then by id. -/
namespace ThresholdAlerts

/-- Rules by id and by metric key. Generation 0 means that nothing was ever loaded. -/
structure RuleSnapshot where
  byId : Std.TreeMap RuleId Rule := ∅
  byMetric : Std.TreeMap String (List Rule) := ∅
  generation : Nat := 0
  loadedAt : Option Timestamp := none
deriving Inhabited

namespace RuleSnapshot

/-- The order of the rules of one metric: falling severity, then rising id. -/
def before (a b : Rule) : Bool :=
  ((compare b.severity a.severity).then (compare a.id b.id)).isLE

/-- Takes one rule into the two indexes, unless it is disabled or its id is taken. -/
def add (s : RuleSnapshot) (r : Rule) : RuleSnapshot :=
  if r.enabled && !s.byId.contains r.id then
    { s with
      byId := s.byId.insert r.id r
      byMetric := s.byMetric.insert r.metricKey (r :: s.byMetric.getD r.metricKey []) }
  else s

def build (rules : List Rule) (generation : Nat) (loadedAt : Timestamp) : RuleSnapshot :=
  let s := rules.foldl add { generation, loadedAt := some loadedAt }
  { s with byMetric := s.byMetric.map fun _ rules => rules.mergeSort before }

/-- The enabled rules that watch a metric. -/
def rulesFor (s : RuleSnapshot) (metric : String) : List Rule :=
  s.byMetric.getD metric []

def get? (s : RuleSnapshot) (id : RuleId) : Option Rule :=
  s.byId.get? id

def contains (s : RuleSnapshot) (id : RuleId) : Bool :=
  s.byId.contains id

def rules (s : RuleSnapshot) : List Rule :=
  s.byId.values

def size (s : RuleSnapshot) : Nat :=
  s.byId.size

end RuleSnapshot

end ThresholdAlerts
