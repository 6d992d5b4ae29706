/-! What may go wrong between the input and the workers. -/
namespace ThresholdAlerts

inductive IngestError where
  | io (text : String)
  | malformed (line : Nat) (reason : String)
  | workerStopped (worker : Nat)
deriving DecidableEq, Repr

namespace IngestError

def message : IngestError → String
  | .io text => "Failed to read input: " ++ text
  | .malformed line reason => "Malformed sample on line " ++ toString line ++ ": " ++ reason
  | .workerStopped worker => "Dispatch worker " ++ toString worker ++ " has stopped"

/-- Whether reading ends here; only a malformed line can be skipped. -/
def isFatal : IngestError → Bool
  | .malformed .. => false
  | _ => true

end IngestError

end ThresholdAlerts
