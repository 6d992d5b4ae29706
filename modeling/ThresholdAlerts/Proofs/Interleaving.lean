import Mathlib.Logic.Relation
import ThresholdAlerts.Engine.Thread
/-! Calls interleaved in any way. A thread moves from one wait to the next, each task of a group of
tasks is a thread of its own, and between two such moves any other thread may move, a call may begin
and the world may change from outside. Main statement: polling a thread makes moves of this kind, so
that what holds of every interleaving holds of every run that polls. -/
namespace ThresholdAlerts

open Relation

/-- Whether a request has its answer at once and nothing can come between. -/
def Request.isSettled : (r : Request) → r.Wait → Bool
  | .existingSlot _, none => true
  | _, _ => false

/-- Runs a program up to the next request that others may come in between, and begins that request.
Tasks are set up but not begun. -/
def Prog.stretch (t : Tasks T C) : Prog T α → World → World × Thread T C α
  | .done a, w => (w, .finished a)
  | .get next, w => (next w).stretch t w
  | .set w next, _ => next.stretch t w
  | .ask r next, w =>
    let (w, ticket) := w.takeTicket
    let (w, wait) := r.start ticket w
    match r.isSettled wait, r.poll wait w with
    | true, (w, .answered a) => (next a).stretch t w
    | _, _ => (w, .waiting r ticket wait next)
  | .fork tasks next, w => (w, .joining (tasks.map t.ready) {} next)

/-- One move of a thread; `childMove` tells how a task moves that is done beside others. -/
inductive Thread.Move (t : Tasks T C) (childMove : World → C → World → C → Prop) :
    World → Thread T C α → World → Thread T C α → Prop
  | begin {w p} : Move t childMove w (.ready p) (p.stretch t w).1 (p.stretch t w).2
  | resume {w r ticket wait next w' a} (answered : r.poll wait w = (w', .answered a)) :
      Move t childMove w (.waiting r ticket wait next)
        ((next a).stretch t w').1 ((next a).stretch t w').2
  | wait {w r ticket wait next w' wait'} (waiting : r.poll wait w = (w', .waiting wait')) :
      Move t childMove w (.waiting r ticket wait next) w' (.waiting r ticket wait' next)
  | child {w children line next i c w' c'} (member : children[i]? = some c)
      (move : childMove w c w' c') :
      Move t childMove w (.joining children line next) w' (.joining (children.set i c') line next)
  | line {w children line next} (line' : Line) :
      Move t childMove w (.joining children line next) w (.joining children line' next)
  | join {w children line next results} (all : t.results? children = some results) :
      Move t childMove w (.joining children line next)
        ((next results).stretch t w).1 ((next results).stretch t w).2

def Strand.Move : World → Strand → World → Strand → Prop :=
  Thread.Move Tasks.none fun _ _ _ _ => False

def CallThread.Move : World → CallThread α → World → CallThread α → Prop :=
  Thread.Move Visit.tasks Strand.Move

def Request.got? : (r : Request) → r.Answer → Option SlotId
  | .slot _, id => some id
  | .existingSlot _, id => id
  | .knownSlot id, still => if still then some id else none
  | _, _ => none

/-- A poll that does not hand over the slot of a barred rule. -/
def Request.Spares (barred : RuleId → Prop) (r : Request) (wait : r.Wait) (w : World) : Prop :=
  ∀ {w' a id}, r.poll wait w = (w', .answered a) → r.got? a = some id → ¬ barred (w'.slot id).ruleId

def Thread.Spares (barred : RuleId → Prop) (w : World) : Thread T C α → Prop
  | .waiting r _ wait _ => r.Spares barred wait w
  | _ => True

/-- A move that does not get the slot of a barred rule. -/
def Strand.Sparing (barred : RuleId → Prop) (w : World) (s : Strand) (w' : World) (s' : Strand) : Prop :=
  s.Spares barred w ∧ Strand.Move w s w' s'

def CallThread.Sparing (barred : RuleId → Prop) (w : World) (c : CallThread α) (w' : World) (c' : CallThread α) :
    Prop :=
  c.Spares barred w ∧ Thread.Move Visit.tasks (Strand.Sparing barred) w c w' c'

/-- A world with the calls that were made in it. -/
structure Scene where
  world : World
  calls : List (CallThread Reply) := []

/-- What happens in a scene: a call is made, a call moves, or the world changes from outside. -/
inductive Scene.Step (admitted : Call → Prop) (outside : World → World → Prop) :
    Scene → Scene → Prop
  | call {s} (c : Call) (ok : admitted c) :
      Step admitted outside s { s with calls := s.calls ++ [.ready c.program] }
  | move {s i c w c'} (member : s.calls[i]? = some c) (move : CallThread.Move s.world c w c') :
      Step admitted outside s { world := w, calls := s.calls.set i c' }
  | outside {s w} (change : outside s.world w) : Step admitted outside s { s with world := w }

/-- The same, but nobody gets the slot of a barred rule. -/
inductive Scene.Sparing (barred : RuleId → Prop) (admitted : Call → Prop) (outside : World → World → Prop) :
    Scene → Scene → Prop
  | call {s} (c : Call) (ok : admitted c) :
      Sparing barred admitted outside s { s with calls := s.calls ++ [.ready c.program] }
  | move {s i c w c'} (member : s.calls[i]? = some c) (move : CallThread.Sparing barred s.world c w c') :
      Sparing barred admitted outside s { world := w, calls := s.calls.set i c' }
  | outside {s w} (change : outside s.world w) : Sparing barred admitted outside s { s with world := w }

def Scene.Run (admitted : Call → Prop) (outside : World → World → Prop) : Scene → Scene → Prop :=
  ReflTransGen (Scene.Step admitted outside)

theorem Scene.Run.mono {admitted : Call → Prop} {outside outside' : World → World → Prop} {s s' : Scene}
    (run : Scene.Run admitted outside s s') (more : ∀ {w w'}, outside w w' → outside' w w') :
    Scene.Run admitted outside' s s' := by
  refine ReflTransGen.mono (fun s s' step => ?_) _ _ run
  cases step with
  | call c ok => exact .call c ok
  | move member move => exact .move member move
  | outside change => exact .outside (more change)

theorem Scene.Run.admits {admitted admitted' : Call → Prop} {outside : World → World → Prop} {s s' : Scene}
    (run : Scene.Run admitted outside s s') (more : ∀ {c}, admitted c → admitted' c) :
    Scene.Run admitted' outside s s' := by
  refine ReflTransGen.mono (fun s s' step => ?_) _ _ run
  cases step with
  | call c ok => exact .call c (more ok)
  | move member move => exact .move member move
  | outside change => exact .outside change

theorem Thread.Move.mono {T C α : Type} {t : Tasks T C} {childMove childMove' : World → C → World → C → Prop}
    {w w' : World} {th th' : Thread T C α} (move : Thread.Move t childMove w th w' th')
    (more : ∀ {w c w' c'}, childMove w c w' c' → childMove' w c w' c') : Thread.Move t childMove' w th w' th' := by
  cases move with
  | begin => exact .begin
  | resume answered => exact .resume answered
  | wait waiting => exact .wait waiting
  | child member move => exact .child member (more move)
  | line line' => exact .line line'
  | join all => exact .join all

theorem Thread.spares_none {T C α : Type} (th : Thread T C α) (w : World) : th.Spares (fun _ => False) w := by
  cases th with
  | waiting r ticket wait next => exact fun _ _ => id
  | _ => exact trivial

theorem Strand.Move.sparing {w w' : World} {s s' : Strand} (h : Strand.Move w s w' s') :
    Strand.Sparing (fun _ => False) w s w' s' :=
  ⟨s.spares_none w, h⟩

theorem CallThread.Move.sparing {w w' : World} {c c' : CallThread α} (h : CallThread.Move w c w' c') :
    CallThread.Sparing (fun _ => False) w c w' c' :=
  ⟨c.spares_none w, h.mono Strand.Move.sparing⟩

theorem Scene.Step.sparing {admitted : Call → Prop} {outside : World → World → Prop} {s s' : Scene}
    (step : Scene.Step admitted outside s s') : Scene.Sparing (fun _ => False) admitted outside s s' := by
  cases step with
  | call c ok => exact .call c ok
  | move member move => exact .move member move.sparing
  | outside change => exact .outside change

/-- Whether every call that was made has come to its end. -/
def Scene.AllFinished (s : Scene) : Prop :=
  ∀ c ∈ s.calls, ∃ reply, c = .finished reply

/-- What may change from outside of the engine: the source of rules, the sink with all it stores, the
clocks, and the draws of random delays. Time does not go back. -/
def World.Elsewhere (w w' : World) : Prop :=
  ∃ source sink clock calendar jitter lulls woken, w.clock ≤ clock ∧
    w' = { w with source, sink, clock, calendar, jitter, lulls, woken }

/-! ### Polling makes moves -/

theorem set_of_getElem? {l : List α} {i : Nat} {a : α} (member : l[i]? = some a) :
    l.set i a = l := by
  obtain ⟨inside, rfl⟩ := List.getElem?_eq_some_iff.mp member
  exact List.set_getElem_self inside

def Thread.Moves (t : Tasks T C) (childMove : World → C → World → C → Prop) :
    World × Thread T C α → World × Thread T C α → Prop :=
  ReflTransGen fun a b => Thread.Move t childMove a.1 a.2 b.1 b.2

section Polling

variable {T C α : Type} {t : Tasks T C} {childMove : World → C → World → C → Prop}

theorem Thread.Moves.single {w w' : World} {th th' : Thread T C α}
    (h : Thread.Move t childMove w th w' th') : Thread.Moves t childMove (w, th) (w', th') :=
  ReflTransGen.single h

def PollsMove (t : Tasks T C) (childMove : World → C → World → C → Prop) : Prop :=
  ∀ w c, ReflTransGen (fun (a b : World × C) => childMove a.1 a.2 b.1 b.2) (w, c) (t.poll c w)

theorem Thread.moves_child {children : List C} {line : Line} {next : List (List Event) → Prog T α}
    {i : Nat} {a b : World × C} (member : children[i]? = some a.2)
    (moves : ReflTransGen (fun (a b : World × C) => childMove a.1 a.2 b.1 b.2) a b) :
    Thread.Moves t childMove (a.1, .joining children line next)
      (b.1, .joining (children.set i b.2) line next) := by
  have inside : i < children.length := (List.getElem?_eq_some_iff.mp member).1
  induction moves with
  | refl =>
      rw [set_of_getElem? member]
      exact ReflTransGen.refl
  | @tail b c _ move ih =>
      have here : (children.set i b.2)[i]? = some b.2 := List.getElem?_set_self inside
      have step : Thread.Move t childMove b.1 (.joining (children.set i b.2) line next) c.1
          (.joining ((children.set i b.2).set i c.2) line next) := .child here move
      rw [List.set_set] at step
      exact ih.tail step

theorem Thread.moves_pollEach (polls : PollsMove t childMove) (before rest : List C) (w : World)
    (line : Line) (next : List (List Event) → Prog T α) :
    Thread.Moves t childMove (w, .joining (before ++ rest) line next)
      ((t.members.pollEach rest w).1, .joining (before ++ (t.members.pollEach rest w).2) line next) := by
  induction rest generalizing before w with
  | nil => exact ReflTransGen.refl
  | cons c rest ih =>
      have here : (before ++ c :: rest)[before.length]? = some c := by simp
      have first : Thread.Moves t childMove (w, .joining (before ++ c :: rest) line next) _ :=
        Thread.moves_child (a := (w, c)) (b := t.poll c w) here (polls w c)
      rw [List.set_append_right _ _ (Nat.le_refl _), Nat.sub_self, List.set_cons_zero] at first
      have others := ih (before ++ [(t.poll c w).2]) (t.poll c w).1
      simp only [List.append_assoc, List.singleton_append] at others
      exact first.trans others

theorem Thread.moves_pollLine (polls : PollsMove t childMove) (unfinished turns : Nat) (line : Line)
    (group : List C) (w : World) (next : List (List Event) → Prog T α) :
    Thread.Moves t childMove (w, .joining group line next)
      ((t.members.pollLine unfinished turns line group w).1,
        .joining (t.members.pollLine unfinished turns line group w).2.1
          (t.members.pollLine unfinished turns line group w).2.2 next) := by
  fun_induction Members.pollLine t.members unfinished turns line group w with
  | case1 unfinished turns place rest seen group w absent ih =>
      exact (Thread.Moves.single (.line _)).trans ih
  | case2 unfinished turns place rest seen group w c member w' c' polled group' line' done ih =>
      have moved : Thread.Moves t childMove (w, .joining group line' next) _ :=
        Thread.moves_child (a := (w, c)) (b := (w', c')) member (by rw [← polled]; exact polls w c)
      exact ((Thread.Moves.single (.line _)).trans moved).trans ih
  | case3 unfinished turns place rest seen group w c member w' c' polled group' line' more ih =>
      have moved : Thread.Moves t childMove (w, .joining group line' next) _ :=
        Thread.moves_child (a := (w, c)) (b := (w', c')) member (by rw [← polled]; exact polls w c)
      exact ((Thread.Moves.single (.line _)).trans moved).trans ih
  | case4 => exact ReflTransGen.refl

theorem Thread.moves_pollGroup (polls : PollsMove t childMove) (group : List C) (line line' : Line)
    (w : World) (next : List (List Event) → Prog T α) :
    Thread.Moves t childMove (w, .joining group line next)
      ((t.members.pollGroup group line' w).1,
        .joining (t.members.pollGroup group line' w).2.1
          (t.members.pollGroup group line' w).2.2 next) := by
  unfold Members.pollGroup
  split
  · exact (Thread.Moves.single (.line _)).trans (Thread.moves_pollEach polls [] group w _ next)
  · exact (Thread.Moves.single (.line _)).trans (Thread.moves_pollLine polls _ _ _ group w next)

theorem Thread.moves_advance (polls : PollsMove t childMove) (p : Prog T α) (w : World) :
    Thread.Moves t childMove (p.stretch t w) (p.advance t w) := by
  induction p generalizing w with
  | done a => exact ReflTransGen.refl
  | get next ih => exact ih w w
  | set w' next ih => exact ih w'
  | ask r next ih =>
      -- A request that is not settled at once ends the stretch; its first poll is a move of its own.
      rw [Prog.stretch, Prog.advance]
      generalize w.takeTicket = taken
      obtain ⟨w₁, ticket⟩ := taken
      dsimp only
      generalize r.start ticket w₁ = started
      obtain ⟨w₂, wait⟩ := started
      dsimp only
      generalize hp : r.poll wait w₂ = polled
      obtain ⟨w₃, progress⟩ := polled
      cases progress with
      | answered a =>
          have rest := ih a w₃
          cases r.isSettled wait with
          | true => exact rest
          | false => exact (Thread.Moves.single (.resume hp)).trans rest
      | waiting wait' =>
          have one : Thread.Moves t childMove (w₂, .waiting r ticket wait next) _ :=
            Thread.Moves.single (.wait hp)
          cases r.isSettled wait <;> exact one
  | fork tasks next ih =>
      rw [Prog.stretch, Prog.advance]
      have group := Thread.moves_pollGroup polls (tasks.map t.ready) {}
        (.all (tasks.map t.ready).length w) w next
      generalize t.members.pollGroup _ _ w = polled at group
      obtain ⟨w', children, line⟩ := polled
      cases hr : t.results? children with
      | none => simpa only [hr] using group
      | some results =>
          simp only [hr]
          exact (group.trans (Thread.Moves.single (.join hr))).trans (ih results w')

theorem Thread.moves_poll (polls : PollsMove t childMove) (th : Thread T C α) (w : World) :
    Thread.Moves t childMove (w, th) (th.poll t w) := by
  cases th with
  | ready p => exact (Thread.Moves.single .begin).trans (Thread.moves_advance polls p w)
  | finished a => exact ReflTransGen.refl
  | waiting r ticket wait next =>
      rw [Thread.poll]
      generalize hp : r.poll wait w = polled
      obtain ⟨w', progress⟩ := polled
      cases progress with
      | answered a =>
          exact (Thread.Moves.single (.resume hp)).trans (Thread.moves_advance polls (next a) w')
      | waiting wait' => exact Thread.Moves.single (.wait hp)
  | joining children line next =>
      rw [Thread.poll]
      have group := Thread.moves_pollGroup polls children line line w next
      generalize t.members.pollGroup children line w = polled at group
      obtain ⟨w', children', line'⟩ := polled
      cases hr : t.results? children' with
      | none => simpa only [hr] using group
      | some results =>
          simp only [hr]
          exact (group.trans (Thread.Moves.single (.join hr))).trans
            (Thread.moves_advance polls (next results) w')

end Polling

theorem Visit.pollsMove : PollsMove Visit.tasks Strand.Move := by
  intro w c
  exact Thread.moves_poll (fun _ child => nomatch child) c w

theorem CallThread.moves_poll (c : CallThread α) (w : World) :
    ReflTransGen (fun (a b : World × CallThread α) => CallThread.Move a.1 a.2 b.1 b.2)
      (w, c) (c.poll w) :=
  Thread.moves_poll Visit.pollsMove c w

theorem Scene.run_poll {admitted : Call → Prop} {outside : World → World → Prop} {s : Scene} {i : Nat}
    {c : CallThread Reply} (member : s.calls[i]? = some c) :
    Scene.Run admitted outside s
      { world := (c.poll s.world).1, calls := s.calls.set i (c.poll s.world).2 } := by
  have inside : i < s.calls.length := (List.getElem?_eq_some_iff.mp member).1
  suffices ∀ b : World × CallThread Reply,
      ReflTransGen (fun (a b : World × CallThread Reply) => CallThread.Move a.1 a.2 b.1 b.2)
        (s.world, c) b →
      Scene.Run admitted outside s { world := b.1, calls := s.calls.set i b.2 } from
    this _ (CallThread.moves_poll c s.world)
  intro b moves
  induction moves with
  | refl =>
      rw [set_of_getElem? member]
      exact ReflTransGen.refl
  | @tail b d _ move ih =>
      have here : (s.calls.set i b.2)[i]? = some b.2 := List.getElem?_set_self inside
      have step : Scene.Step admitted outside { world := b.1, calls := s.calls.set i b.2 } _ :=
        .move here move
      simp only [List.set_set] at step
      exact ih.tail step

/-- A call is made and polled once. -/
def Scene.make (s : Scene) (c : Call) : Scene :=
  let polled := CallThread.poll (.ready c.program) s.world
  { world := polled.1, calls := s.calls ++ [polled.2] }

theorem Scene.run_make {admitted : Call → Prop} {outside : World → World → Prop} (s : Scene) {c : Call}
    (ok : admitted c) : Scene.Run admitted outside s (s.make c) := by
  have made : Scene.Step admitted outside s { s with calls := s.calls ++ [.ready c.program] } :=
    .call c ok
  have member : (s.calls ++ [.ready c.program])[s.calls.length]? = some (.ready c.program) := by simp
  have polled : Scene.Run admitted outside { s with calls := s.calls ++ [.ready c.program] } _ :=
    Scene.run_poll member
  rw [List.set_append_right _ _ (Nat.le_refl _), Nat.sub_self, List.set_cons_zero] at polled
  exact (ReflTransGen.single made).trans polled

end ThresholdAlerts
