import ThresholdAlerts.Engine.World
/-! Groups of things that go on side by side, and whose turn it is in them. In a small group everything
is polled in order whenever the group is. In a larger one a member is polled only once its wait came
to an end, and the members go on in the order in which that happened. -/
namespace ThresholdAlerts

/-- How the members of a group are polled. -/
structure Members (C : Type) where
  poll : C → World → World × C
  isFinished : C → Bool
  /-- What a member waits with. -/
  tickets : C → List Ticket

/-- Those whose turn has come. -/
structure Line where
  /-- Their places in the group. -/
  queue : List Nat := []
  /-- Wake-ups that were taken into account. -/
  seen : Nat := 0
deriving Repr

namespace Line

/-- Everyone's turn has come. -/
def all (size : Nat) (w : World) : Line :=
  { queue := List.range size, seen := w.woken.size }

/-- Nobody stands in the line twice. -/
def join (l : Line) (place : Nat) : Line :=
  if l.queue.contains place then l else { l with queue := l.queue ++ [place] }

/-- Wake-ups since the last look, the oldest first. -/
def news (l : Line) (w : World) : List Ticket :=
  (w.woken.extract l.seen w.woken.size).toList

/-- Lets those join that were woken since the last look. -/
def look (l : Line) (w : World) (tickets : C → List Ticket) (group : List C) : Line :=
  let l' := (l.news w).foldl (fun l t =>
    match group.findIdx? fun c => (tickets c).contains t with
    | some place => l.join place
    | none => l) l
  { l' with seen := w.woken.size }

end Line

namespace Members

def smallGroup : Nat := 30

def pollEach (m : Members C) : List C → World → World × List C
  | [], w => (w, [])
  | c :: rest, w =>
    let (w, c) := m.poll c w
    let (w, others) := m.pollEach rest w
    (w, c :: others)

/-- Polls those in the line, `unfinished` being the number of members that are not finished. Ends
after as many polls in a row as that without one that finishes its member, so that a group that keeps
waking itself lets others go on. -/
def pollLine (m : Members C) : Nat → Nat → Line → List C → World → World × List C × Line
  | unfinished + 1, polls + 1, { queue := place :: rest, seen }, group, w =>
    match group[place]? with
    | none => m.pollLine (unfinished + 1) polls { queue := rest, seen } group w
    | some c =>
      let (w, c) := m.poll c w
      let group := group.set place c
      let line := { queue := rest, seen : Line }.look w m.tickets group
      if m.isFinished c then m.pollLine unfinished unfinished line group w
      else m.pollLine (unfinished + 1) polls line group w
  | _, _, line, group, w => (w, group, line)
termination_by unfinished polls => (unfinished, polls)

def pollGroup (m : Members C) (group : List C) (line : Line) (w : World) :
    World × List C × Line :=
  if group.length ≤ smallGroup then
    let (w, group) := m.pollEach group w
    (w, group, line)
  else
    let unfinished := group.countP fun c => !m.isFinished c
    m.pollLine unfinished unfinished (line.look w m.tickets group) group w

end Members

end ThresholdAlerts
