import ThresholdAlerts.Engine.Request
/-! Programs: the calls of the engine as trees. A program reads and writes the world, makes requests
and goes on with their answers, and may do several tasks side by side, whose events it gets in the
order of the tasks. What runs between two requests is not interrupted. -/
namespace ThresholdAlerts

inductive Prog (Task α : Type) where
  | done (a : α)
  | get (next : World → Prog Task α)
  | set (w : World) (next : Prog Task α)
  | ask (r : Request) (next : r.Answer → Prog Task α)
  | fork (tasks : List Task) (next : List (List Event) → Prog Task α)

namespace Prog

/-- Goes on with the result of a program. -/
def bind : Prog T α → (α → Prog T β) → Prog T β
  | .done a, f => f a
  | .get next, f => .get fun w => (next w).bind f
  | .set w next, f => .set w (next.bind f)
  | .ask r next, f => .ask r fun a => (next a).bind f
  | .fork tasks next, f => .fork tasks fun results => (next results).bind f

instance : Monad (Prog T) where
  pure := .done
  bind := bind

def request (r : Request) : Prog T r.Answer :=
  .ask r .done

def read (f : World → α) : Prog T α :=
  .get fun w => .done (f w)

def modify (f : World → World) : Prog T Unit :=
  .get fun w => .set (f w) (.done ())

/-- Changes the world in one step that has a result. -/
def step (f : World → World × α) : Prog T α :=
  .get fun w =>
    let (w, a) := f w
    .set w (.done a)

/-- Does tasks side by side and answers their events in the order of the tasks. -/
def all (tasks : List T) : Prog T (List Event) :=
  .fork tasks fun results => .done results.flatten

end Prog

end ThresholdAlerts
