import Mathlib.Data.List.Forall2
import ThresholdAlerts.Proofs.Desks
import ThresholdAlerts.Proofs.Groups
/-! Calls that are made one at a time. A call is polled until it is finished; between two polls, and between two
calls, the world may change from outside. The visits of a call are polled side by side, as groups are. Main
statements: a call that is made alone ends with what its program ensures, and so do visits at different desks. -/
namespace ThresholdAlerts

open Relation

/-- A call is polled until it is finished, and the world may change before each poll but the first. -/
inductive CallThread.Completes (outside : World → World → Prop) :
    World → CallThread α → World → α → Prop
  | finished {w a} : Completes outside w (.finished a) w a
  | polled {w w₁ w' c a} (waits : Thread.result? c = none) (change : outside w w₁)
      (rest : Completes outside (CallThread.poll c w₁).1 (CallThread.poll c w₁).2 w' a) :
      Completes outside w c w' a

/-- A call that was made, and the worlds in which it began and ended. -/
structure Passage where
  call : Call
  before : World
  after : World
  reply : Reply

theorem CallThread.eq_finished {c : CallThread α} {a : α} (ends : Thread.result? c = some a) : c = .finished a := by
  cases c with
  | finished a' => exact congrArg Thread.finished (Option.some.inj ends)
  | _ => exact absurd ends nofun

/-- The call is made with no other under way. -/
def Passage.Runs (during : World → World → Prop) (p : Passage) : Prop :=
  let started := CallThread.start p.call.program p.before
  started.2.Completes during started.1 p.after p.reply

/-- A call that is finished as soon as it is made. -/
def Passage.made (call : Call) (before : World) : Passage :=
  let started := CallThread.start call.program before
  { call, before, after := started.1, reply := (Thread.result? started.2).getD (.events []) }

theorem Passage.runs_made {during : World → World → Prop} {call : Call} {before : World}
    (finished : (Thread.result? (CallThread.start call.program before).2).isSome) :
    (Passage.made call before).Runs during := by
  obtain ⟨reply, ends⟩ := Option.isSome_iff_exists.mp finished
  rw [Runs, made, ends, Option.getD_some]
  dsimp only
  rw [CallThread.eq_finished ends]
  exact .finished

/-- Calls that are made one after the other, each when the one before it is finished. -/
inductive Course (runs : Passage → Prop) (between : World → World → Prop) :
    World → List Passage → World → Prop
  | nil (w) : Course runs between w [] w
  | cons {w p ps w'} (gap : between w p.before) (ran : runs p) (rest : Course runs between p.after ps w') :
      Course runs between w (p :: ps) w'

/-- What holds at the beginning, and is kept by each call and in between, holds around each call. -/
theorem Course.keeps {runs : Passage → Prop} {between : World → World → Prop} {I : World → Prop}
    {w w' : World} {ps : List Passage} (course : Course runs between w ps w') (begun : I w)
    (gap : ∀ {w w'}, I w → between w w' → I w') (call : ∀ p ∈ ps, I p.before → runs p → I p.after) :
    (∀ p ∈ ps, runs p ∧ I p.before ∧ I p.after) ∧ I w' := by
  induction course with
  | nil => exact ⟨by simp, begun⟩
  | cons change ran rest ih =>
    have before := gap begun change
    have after := call _ List.mem_cons_self before ran
    obtain ⟨each, last⟩ := ih after fun p mem => call p (List.mem_cons_of_mem _ mem)
    exact ⟨List.forall_mem_cons.mpr ⟨⟨ran, before, after⟩, each⟩, last⟩

/-- Calls that are finished as soon as they are made, each of them after a change of the world. -/
def Passage.madeEach : World → List ((World → World) × Call) → List Passage
  | _, [] => []
  | w, (change, call) :: rest => made call (change w) :: madeEach (made call (change w)).after rest

theorem Passage.calls_madeEach (w : World) (calls : List ((World → World) × Call)) :
    (madeEach w calls).map Passage.call = calls.map (·.2) := by
  induction calls generalizing w with
  | nil => rfl
  | cons c calls ih => exact congrArg (c.2 :: ·) (ih _)

theorem Passage.forall_call {P : Call → Prop} {ps ps' : List Passage}
    (calls : ps'.map (·.call) = ps.map (·.call)) (each : ∀ p ∈ ps, P p.call) : ∀ p ∈ ps', P p.call := by
  intro p mem
  have mem : p.call ∈ ps'.map (·.call) := List.mem_map_of_mem mem
  rw [calls] at mem
  obtain ⟨p₀, mem₀, same⟩ := List.mem_map.mp mem
  exact same ▸ each p₀ mem₀

def Passage.last (w : World) (ps : List Passage) : World :=
  (ps.map Passage.after).getLastD w

theorem Course.madeEach {during between : World → World → Prop} {w : World}
    {calls : List ((World → World) × Call)} (changes : ∀ c ∈ calls, ∀ w, between w (c.1 w))
    (finished : (Passage.madeEach w calls).all fun p =>
      (Thread.result? (CallThread.start p.call.program p.before).2).isSome) :
    Course (Passage.Runs during) between w (Passage.madeEach w calls) (Passage.last w (Passage.madeEach w calls)) := by
  induction calls generalizing w with
  | nil => exact .nil w
  | cons c calls ih =>
    obtain ⟨change, others⟩ := List.forall_mem_cons.mp changes
    obtain ⟨here, later⟩ := Bool.and_eq_true_iff.mp finished
    have rest := ih others later
    rw [Passage.madeEach, Passage.last, List.map_cons, List.getLastD_cons]
    exact .cons (change w) (Passage.runs_made here) rest

/-! ### What a call alone ensures -/

def Pact.alone (outside : World → World → Prop) : Pact where
  others := outside
  self _ _ := True
  still _ := trivial
  goesOn _ _ := trivial

/-- What holds of visits that go on side by side, however often they are polled. -/
structure Party (outside : World → World → Prop) (J : World → List Strand → Prop)
    (post : List (List Event) → World → Prop) : Prop where
  others : ∀ {w w' visits}, J w visits → outside w w' → J w' visits
  polled : ∀ {a b}, J a.1 a.2 → Visit.tasks.members.Polled a b → J b.1 b.2
  ends : ∀ {w visits results}, J w visits → Visit.tasks.results? visits = some results → post results w

/-- The visits of a call, each of them polled once before any is polled again. -/
def Team.polled (outside : World → World → Prop) : Team Visit :=
  fun visits w post => ∃ J, Party outside J post ∧
    let first := Visit.tasks.members.pollEach (visits.map Visit.tasks.ready) w
    J first.1 first.2

instance (outside : World → World → Prop) : (Team.polled outside).Monotone where
  imp := fun ⟨J, party, first⟩ weaker =>
    ⟨J, ⟨party.others, party.polled, fun j all => weaker _ _ (party.ends j all)⟩, first⟩

section Alone

variable {outside : World → World → Prop} {w w' : World} {post : α → World → Prop}

def CallThread.Stands (outside : World → World → Prop) (post : α → World → Prop) (w : World) :
    CallThread α → Prop
  | .ready _ => False
  | .finished a => post a w
  | .waiting r _ wait next => ∃ I, I w wait ∧ r.Guarded (Pact.alone outside) I fun a w' =>
      (next a).Ensures (Pact.alone outside) (Team.polled outside) w' post
  | .joining visits _ next => ∃ J, J w visits ∧ Party outside J fun results w' =>
      (next results).Ensures (Pact.alone outside) (Team.polled outside) w' post

theorem Party.polls {J : World → List Strand → Prop} {post : List (List Event) → World → Prop}
    (party : Party outside J post) {a b : World × List Strand} (j : J a.1 a.2)
    (polls : Visit.tasks.members.Polls a b) : J b.1 b.2 := by
  induction polls with
  | refl => exact j
  | tail _ polled ih => exact party.polled ih polled

theorem Prog.Ensures.advance {p : Prog Visit α}
    (h : p.Ensures (Pact.alone outside) (Team.polled outside) w post) :
    CallThread.Stands outside post (p.advance Visit.tasks w).1 (p.advance Visit.tasks w).2 := by
  induction p generalizing w with
  | done a => exact h
  | get next ih => exact ih w h
  | set w' next ih => exact ih h.2
  | ask r next ih =>
    obtain ⟨-, I, begun, guarded⟩ := h
    rw [Prog.advance]
    generalize w.takeTicket = taken at begun
    obtain ⟨w₁, ticket⟩ := taken
    dsimp only at begun ⊢
    generalize r.start ticket w₁ = started at begun
    obtain ⟨w₂, wait⟩ := started
    dsimp only at begun ⊢
    generalize polled : r.poll wait w₂ = result
    obtain ⟨w₃, progress⟩ := result
    cases progress with
    | answered a => exact ih a (guarded.answers begun polled).2
    | waiting wait' => exact ⟨I, (guarded.waits begun polled).2, guarded⟩
  | fork visits next ih =>
    obtain ⟨J, party, first⟩ := h
    rw [Prog.advance]
    have fresh : ∀ c ∈ visits.map Visit.tasks.ready, Visit.tasks.members.isFinished c = false := by
      intro c mem
      obtain ⟨v, -, rfl⟩ := List.mem_map.mp mem
      rfl
    have polls := party.polls first (Members.polls_first (visits.map Visit.tasks.ready) w fresh)
    dsimp only at polls ⊢
    generalize Visit.tasks.members.pollGroup _ _ w = polled at polls
    obtain ⟨w', children, line⟩ := polled
    dsimp only at polls ⊢
    cases all : Visit.tasks.results? children with
    | some results => exact ih results (party.ends polls all)
    | none => exact ⟨J, polls, party⟩

theorem CallThread.Stands.poll {c : CallThread α} (h : c.Stands outside post w) :
    (c.poll w).2.Stands outside post (c.poll w).1 := by
  cases c with
  | ready p => exact h.elim
  | finished a => exact h
  | waiting r ticket wait next =>
    obtain ⟨I, here, guarded⟩ := h
    rw [CallThread.poll, Thread.poll]
    generalize polled : r.poll wait w = result
    obtain ⟨w', progress⟩ := result
    cases progress with
    | answered a => exact (guarded.answers here polled).2.advance
    | waiting wait' => exact ⟨I, (guarded.waits here polled).2, guarded⟩
  | joining visits line next =>
    obtain ⟨J, here, party⟩ := h
    rw [CallThread.poll, Thread.poll]
    have polls := party.polls here (Members.polls_pollGroup visits line w)
    dsimp only at polls ⊢
    generalize Visit.tasks.members.pollGroup visits line w = polled at polls
    obtain ⟨w', children, line'⟩ := polled
    dsimp only at polls ⊢
    cases all : Visit.tasks.results? children with
    | some results => exact (party.ends polls all).advance
    | none => exact ⟨J, polls, party⟩

theorem CallThread.Stands.others {c : CallThread α} (h : c.Stands outside post w)
    (waits : Thread.result? c = none) (change : outside w w') : c.Stands outside post w' := by
  cases c with
  | ready p => exact h
  | finished a => exact absurd waits (by simp [Thread.result?])
  | waiting r ticket wait next =>
    obtain ⟨I, here, guarded⟩ := h
    exact ⟨I, guarded.others here change, guarded⟩
  | joining visits line next =>
    obtain ⟨J, here, party⟩ := h
    exact ⟨J, party.others here change, party⟩

theorem CallThread.Completes.ends {c : CallThread α} {a : α} (completes : c.Completes outside w w' a)
    (h : c.Stands outside post w) : post a w' := by
  induction completes with
  | finished => exact h
  | polled waits change rest ih => exact ih (h.others waits change).poll

theorem Passage.Runs.ends {p : Passage} {post : Reply → World → Prop} (runs : p.Runs outside)
    (h : p.call.program.Ensures (Pact.alone outside) (Team.polled outside) p.before post) :
    post p.reply p.after :=
  CallThread.Completes.ends runs h.advance

end Alone

/-! ### Visits at different desks -/

theorem forall₂_set {R R' : α → β → Prop} {l : List α} {l' : List β} {i : Nat} {b b' : β}
    (h : List.Forall₂ R l l') (here : l'[i]? = some b)
    (own : ∀ a, l[i]? = some a → R a b → R' a b')
    (others : ∀ j a c, j ≠ i → l[j]? = some a → R a c → R' a c) : List.Forall₂ R' l (l'.set i b') := by
  obtain ⟨same, each⟩ := List.forall₂_iff_get.mp h
  obtain ⟨inside, rfl⟩ := List.getElem?_eq_some_iff.mp here
  refine List.forall₂_iff_get.mpr ⟨by simpa using same, fun j left right => ?_⟩
  simp only [List.get_eq_getElem] at each ⊢
  rw [List.getElem_set]
  split
  · next eq =>
    subst eq
    exact own _ (List.getElem?_eq_getElem left) (each i left inside)
  · next ne => exact others j _ _ (Ne.symm ne) (List.getElem?_eq_getElem left) (each j left (same ▸ left))

section Visits

variable {outside : World → World → Prop} {w w₀ w' : World} {rule : RuleId}

theorem World.Elsewhere.quiet (h : w.Elsewhere w') : w.Quiet w' :=
  h.notes.quiet (by simp)

theorem Prog.Ensures.alone {T : Type} {team : Team T} [team.Monotone] {p : Prog T α} {post : α → World → Prop}
    (h : p.Ensures (Pact.desk rule) Team.nobody w post) (calm : ∀ {w w'}, outside w w' → w.Elsewhere w') :
    p.Ensures (Pact.alone outside) team w fun a w' =>
      post a w' ∧ w.Keeps (· ≠ rule) w' ∧ w.Quiet w' := by
  let pact : Pact := { Pact.desk rule with others := outside }
  have here : p.Ensures pact Team.nobody w post :=
    h.imp (fun change => (calm change).keeps _) (fun self => self) (fun team => team) fun _ _ ends => ends
  have spans : p.Ensures pact Team.nobody w fun a w' => post a w' ∧ w.Keeps (· ≠ rule) w' ∧ w.Quiet w' :=
    here.span (S := fun w w' => w.Keeps (· ≠ rule) w' ∧ w.Quiet w')
      (fun h h' => (Pact.desk rule).goesOn h h') (fun change => ⟨(calm change).keeps _, (calm change).quiet⟩)
      (fun self => self) ((Pact.desk rule).still w)
  exact spans.imp (fun change => change) (fun _ => trivial) (fun impossible => impossible.elim)
    fun _ _ ends => ends

/-- A visit at the desk of a rule and what it is to end with, which does not depend on what is done at other
desks. -/
structure Errand where
  rule : RuleId
  post : List Event → World → Prop
  settled : ∀ {events w w'}, post events w → w.Keeps (· = rule) w' → post events w'

namespace Errand

def Stands (w : World) (e : Errand) (c : Strand) : Prop :=
  c.Keeps (Pact.desk e.rule) e.post w

theorem Stands.others {e : Errand} {c : Strand} (h : e.Stands w c) (keeps : w.Keeps (· = e.rule) w') :
    e.Stands w' c :=
  Thread.Keeps.others h e.settled keeps

theorem Stands.poll {e : Errand} {c : Strand} (h : e.Stands w c) :
    (Pact.desk e.rule).self w (Visit.tasks.poll c w).1 ∧
      e.Stands (Visit.tasks.poll c w).1 (Visit.tasks.poll c w).2 :=
  Thread.Keeps.moves (Visit.pollsMove w c) h

def Frames (errands : List Errand) (w w' : World) : Prop :=
  w.Keeps (· ∉ errands.map (·.rule)) w' ∧ w.Quiet w'

theorem Frames.trans {errands : List Errand} {w₁ w₂ w₃ : World} (h : Frames errands w₁ w₂)
    (h' : Frames errands w₂ w₃) : Frames errands w₁ w₃ :=
  ⟨h.1.trans h'.1, h.2.trans h'.2⟩

theorem frames_elsewhere (errands : List Errand) (change : w.Elsewhere w') : Frames errands w w' :=
  ⟨change.keeps _, change.quiet⟩

theorem frames_desk {errands : List Errand} {e : Errand} (mem : e ∈ errands)
    (self : (Pact.desk e.rule).self w w') : Frames errands w w' :=
  ⟨self.1.mono fun away same => away (same ▸ List.mem_map_of_mem mem), self.2⟩

/-- What the results of visits amount to when all of them are finished. -/
theorem forall₂_results {R : α → Strand → Prop} {S : α → List Event → Prop} {l : List α}
    {visits : List Strand} {results : List (List Event)} (each : List.Forall₂ R l visits)
    (all : Visit.tasks.results? visits = some results)
    (ends : ∀ a events, R a (.finished events) → S a events) : List.Forall₂ S l results := by
  induction each generalizing results with
  | nil =>
    obtain rfl := Option.some.inj all
    exact .nil
  | @cons a c l rest here others ih =>
    simp only [Tasks.results?, List.mapM_cons, Option.bind_eq_bind, Option.bind_eq_some_iff] at all
    obtain ⟨events, first, others, later, same⟩ := all
    obtain rfl := Option.some.inj same
    cases c with
    | finished a =>
      obtain rfl := Option.some.inj first
      exact .cons (ends _ _ here) (ih later)
    | _ => exact absurd first (by simp [Visit.tasks, Thread.result?])

/-- Visits at different desks end with what each of them ensures. -/
theorem party (errands : List Errand) (apart : (errands.map (·.rule)).Nodup)
    (calm : ∀ {w w'}, outside w w' → w.Elsewhere w') (w₀ : World) :
    Party outside (fun w visits => List.Forall₂ (Stands w) errands visits ∧ Frames errands w₀ w)
      fun results w => List.Forall₂ (fun e events => e.post events w) errands results ∧ Frames errands w₀ w where
  others := fun ⟨each, frame⟩ change =>
    ⟨each.imp fun e c stands => stands.others ((calm change).keeps _),
      frame.trans (frames_elsewhere errands (calm change))⟩
  polled := fun {a b} ⟨each, frame⟩ polled => by
    obtain ⟨i, c, here, rfl⟩ := polled
    have inside : i < errands.length := each.length_eq ▸ (List.getElem?_eq_some_iff.mp here).1
    have found := List.getElem?_eq_getElem inside
    have stands : errands[i].Stands a.1 c := by
      have all := (List.forall₂_iff_get.mp each).2 i inside (List.getElem?_eq_some_iff.mp here).1
      rwa [List.get_eq_getElem, List.get_eq_getElem, (List.getElem?_eq_some_iff.mp here).2] at all
    obtain ⟨self, stands'⟩ := stands.poll
    refine ⟨forall₂_set each here (fun e there _ => ?_) fun j e d ne there stands'' => ?_,
      frame.trans (frames_desk (List.getElem_mem inside) self)⟩
    · rw [found] at there
      exact Option.some.inj there ▸ stands'
    · refine stands''.others (self.1.mono ?_)
      rintro _ rfl same
      obtain ⟨inside', rfl⟩ := List.getElem?_eq_some_iff.mp there
      refine ne ((@List.Nodup.getElem_inj_iff _ _ apart j (by simpa using inside') i (by simpa using inside)).mp ?_)
      rwa [List.getElem_map, List.getElem_map]
  ends := fun ⟨each, frame⟩ all => ⟨forall₂_results each all fun _ _ stands => stands, frame⟩

theorem team {errands : List Errand} {visits : List Visit} (apart : (errands.map (·.rule)).Nodup)
    (calm : ∀ {w w'}, outside w w' → w.Elsewhere w')
    (each : List.Forall₂ (fun e v => e.Stands w (Visit.tasks.ready v)) errands visits) :
    Team.polled outside visits w fun results w' =>
      List.Forall₂ (fun e events => e.post events w') errands results ∧ Frames errands w w' := by
  have party := party errands apart calm w
  have still : Frames errands w w := ⟨.refl _ w, .refl w⟩
  exact ⟨_, party, party.polls (a := (w, visits.map Visit.tasks.ready))
    ⟨List.forall₂_map_right_iff.mpr each, still⟩ (Members.polls_pollEach [] _ w)⟩

end Errand

end Visits

end ThresholdAlerts
