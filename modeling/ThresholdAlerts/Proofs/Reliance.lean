import Mathlib.Logic.Relation
import ThresholdAlerts.Proofs.Interleaving
/-! What a program ensures while it may rely on what others leave alone. A program waits under a pact: it is
told what others may do in the meantime, and says what it does itself between two waits. Main statement: a
thread that moves in any way keeps its side of the pact, and ends with what its program ensures. -/
namespace ThresholdAlerts

open Relation

/-- What others may do while a program waits, and what the program does itself. -/
structure Pact where
  others : World → World → Prop
  self : World → World → Prop
  still : ∀ w, self w w
  goesOn : ∀ {w₁ w₂ w₃}, self w₁ w₂ → self w₂ w₃ → self w₁ w₃

/-- What holds while a request waits: others keep it, and so do polls, until one of them is answered. -/
structure Request.Guarded (pact : Pact) (r : Request) (I : World → r.Wait → Prop)
    (post : r.Answer → World → Prop) : Prop where
  others : ∀ {w w' wait}, I w wait → pact.others w w' → I w' wait
  waits : ∀ {w w' wait wait'}, I w wait → r.poll wait w = (w', .waiting wait') →
    pact.self w w' ∧ I w' wait'
  answers : ∀ {w w' wait a}, I w wait → r.poll wait w = (w', .answered a) → pact.self w w' ∧ post a w'

def Request.Handled (pact : Pact) (r : Request) (w : World) (post : r.Answer → World → Prop) : Prop :=
  let started := r.start w.takeTicket.2 w.takeTicket.1
  pact.self w started.1 ∧ ∃ I, I started.1 started.2 ∧ r.Guarded pact I post

/-- What is known of work that is done side by side, given what it is to lead on to. -/
abbrev Team (T : Type) := List T → World → (List (List Event) → World → Prop) → Prop

def Team.nobody : Team T :=
  fun _ _ _ => False

/-- What a program comes to, whatever others do under the pact while it waits. -/
def Prog.Ensures (pact : Pact) (team : Team T) : Prog T α → World → (α → World → Prop) → Prop
  | .done a, w, post => post a w
  | .get next, w, post => (next w).Ensures pact team w post
  | .set w' next, w, post => pact.self w w' ∧ next.Ensures pact team w' post
  | .ask r next, w, post => r.Handled pact w fun a w' => (next a).Ensures pact team w' post
  | .fork ts next, w, post => team ts w fun results w' => (next results).Ensures pact team w' post

/-! ### The parts of a program -/

section Parts

variable {pact : Pact} {team : Team T} {w : World} {post : β → World → Prop}

theorem Request.Guarded.imp {r : Request} {I : World → r.Wait → Prop} {post post' : r.Answer → World → Prop}
    (h : r.Guarded pact I post) (weaker : ∀ a w', post a w' → post' a w') : r.Guarded pact I post' :=
  ⟨h.others, h.waits, fun i polled => (h.answers i polled).imp_right (weaker _ _)⟩

theorem Request.Handled.imp {r : Request} {post post' : r.Answer → World → Prop}
    (h : r.Handled pact w post) (weaker : ∀ a w', post a w' → post' a w') : r.Handled pact w post' := by
  obtain ⟨starts, I, begun, guarded⟩ := h
  exact ⟨starts, I, begun, guarded.imp weaker⟩

theorem Request.Handled.under {pact' : Pact} {r : Request} {post : r.Answer → World → Prop}
    (h : r.Handled pact w post) (calmer : ∀ {w w'}, pact'.others w w' → pact.others w w')
    (freer : ∀ {w w'}, pact.self w w' → pact'.self w w') : r.Handled pact' w post := by
  obtain ⟨starts, I, begun, guarded⟩ := h
  exact ⟨freer starts, I, begun, fun i others => guarded.others i (calmer others),
    fun i polled => (guarded.waits i polled).imp_left freer,
    fun i polled => (guarded.answers i polled).imp_left freer⟩

/-- What leads on to more leads on to less. -/
class Team.Monotone (team : Team T) : Prop where
  imp : ∀ {ts w post post'}, team ts w post → (∀ results w', post results w' → post' results w') →
    team ts w post'

instance : (Team.nobody : Team T).Monotone :=
  ⟨fun impossible => impossible.elim⟩

theorem Prog.ensures_bind (p : Prog T α) (f : α → Prog T β) (w : World) :
    (p >>= f).Ensures pact team w post =
      p.Ensures pact team w fun a w' => (f a).Ensures pact team w' post := by
  change (p.bind f).Ensures pact team w post = _
  induction p generalizing w with
  | done a => rfl
  | get next ih => exact ih w w
  | set w' next ih => simp only [bind, Ensures, ih]
  | ask r next ih => simp only [bind, Ensures, ih]
  | fork ts next ih => simp only [bind, Ensures, ih]

theorem Prog.ensures_then {p : Prog T α} {f : α → Prog T β}
    (h : p.Ensures pact team w fun a w' => (f a).Ensures pact team w' post) :
    (p >>= f).Ensures pact team w post :=
  (ensures_bind p f w).symm ▸ h

theorem Prog.ensures_pure {b : β} (h : post b w) : (pure b : Prog T β).Ensures pact team w post := h

theorem Prog.ensures_read {f : World → α} {k : α → Prog T β} (h : (k (f w)).Ensures pact team w post) :
    (read f >>= k).Ensures pact team w post := h

theorem Prog.ensures_request {r : Request} {k : r.Answer → Prog T β}
    (h : r.Handled pact w fun a w' => (k a).Ensures pact team w' post) :
    (request r >>= k).Ensures pact team w post := h

theorem Prog.ensures_modify {f : World → World} {k : Unit → Prog T β} (self : pact.self w (f w))
    (h : (k ()).Ensures pact team (f w) post) : (modify f >>= k).Ensures pact team w post := ⟨self, h⟩

theorem Prog.ensures_step {f : World → World × α} {k : α → Prog T β} (self : pact.self w (f w).1)
    (h : (k (f w).2).Ensures pact team (f w).1 post) : (step f >>= k).Ensures pact team w post := ⟨self, h⟩

theorem Prog.Ensures.imp {pact' : Pact} {team' : Team T} [team'.Monotone] {post' : β → World → Prop}
    {p : Prog T β} (h : p.Ensures pact team w post) (calmer : ∀ {w w'}, pact'.others w w' → pact.others w w')
    (freer : ∀ {w w'}, pact.self w w' → pact'.self w w')
    (stronger : ∀ {ts w post}, team ts w post → team' ts w post)
    (weaker : ∀ a w', post a w' → post' a w') : p.Ensures pact' team' w post' := by
  induction p generalizing w with
  | done a => exact weaker a w h
  | get next ih => exact ih w h
  | set w' next ih => exact ⟨freer h.1, ih h.2⟩
  | ask r next ih =>
    exact (Request.Handled.under h calmer freer).imp fun a w' goes => ih a goes
  | fork ts next ih => exact Team.Monotone.imp (stronger h) fun results w' => ih results

theorem Prog.Ensures.weaken [team.Monotone] {post' : β → World → Prop} {p : Prog T β}
    (h : p.Ensures pact team w post) (weaker : ∀ a w', post a w' → post' a w') :
    p.Ensures pact team w post' :=
  h.imp id id id weaker

theorem Prog.Ensures.bind [team.Monotone] {mid : α → World → Prop} {p : Prog T α} {f : α → Prog T β}
    (h : p.Ensures pact team w mid) (next : ∀ a w', mid a w' → (f a).Ensures pact team w' post) :
    (p >>= f).Ensures pact team w post :=
  ensures_then (h.weaken next)

theorem Request.Handled.span {S : World → World → Prop} {r : Request} {post : r.Answer → World → Prop}
    {w₀ : World} (h : r.Handled pact w post) (trans : ∀ {w₁ w₂ w₃}, S w₁ w₂ → S w₂ w₃ → S w₁ w₃)
    (others : ∀ {w w'}, pact.others w w' → S w w') (self : ∀ {w w'}, pact.self w w' → S w w')
    (begun : S w₀ w) : r.Handled pact w fun a w' => post a w' ∧ S w₀ w' := by
  obtain ⟨starts, I, here, guarded⟩ := h
  refine ⟨starts, fun w' wait => I w' wait ∧ S w₀ w', ⟨here, trans begun (self starts)⟩,
    fun ⟨i, so⟩ o => ⟨guarded.others i o, trans so (others o)⟩, fun ⟨i, so⟩ polled => ?_,
    fun ⟨i, so⟩ polled => ?_⟩
  · obtain ⟨own, i'⟩ := guarded.waits i polled
    exact ⟨own, i', trans so (self own)⟩
  · obtain ⟨own, next⟩ := guarded.answers i polled
    exact ⟨own, next, trans so (self own)⟩

theorem Prog.Ensures.span {S : World → World → Prop} {p : Prog T β} {w₀ : World}
    (h : p.Ensures pact Team.nobody w post) (trans : ∀ {w₁ w₂ w₃}, S w₁ w₂ → S w₂ w₃ → S w₁ w₃)
    (others : ∀ {w w'}, pact.others w w' → S w w') (self : ∀ {w w'}, pact.self w w' → S w w')
    (begun : S w₀ w) : p.Ensures pact Team.nobody w fun b w' => post b w' ∧ S w₀ w' := by
  induction p generalizing w with
  | done a => exact ⟨h, begun⟩
  | get next ih => exact ih w h begun
  | set w' next ih => exact ⟨h.1, ih h.2 (trans begun (self h.1))⟩
  | ask r next ih =>
    refine Request.Handled.imp (Request.Handled.span (S := S) h trans others self begun) fun a w' goes => ?_
    exact ih a goes.1 goes.2
  | fork ts next ih => exact h.elim

end Parts

/-! ### How far a program comes -/

/-- `K` holds wherever a program can stop: at its end, where it waits, and where work is done side by side. -/
structure Thread.Stops (t : Tasks T C) (pact : Pact) (team : Team T) (post : α → World → Prop)
    (K : World → Thread T C α → Prop) : Prop where
  ends : ∀ {a w}, post a w → K w (.finished a)
  waits : ∀ {w r ticket wait next} {I : World → r.Wait → Prop}, I w wait →
    r.Guarded pact I (fun a w' => (next a).Ensures pact team w' post) → K w (.waiting r ticket wait next)
  forks : ∀ {w ts next}, team ts w (fun results w' => (next results).Ensures pact team w' post) →
    K w (.joining (ts.map t.ready) {} next)

theorem Prog.Ensures.stops {pact : Pact} {team : Team T} {w : World} {post : α → World → Prop} {t : Tasks T C}
    {K : World → Thread T C α → Prop} {p : Prog T α} (h : p.Ensures pact team w post)
    (stops : Thread.Stops t pact team post K) :
    pact.self w (p.stretch t w).1 ∧ K (p.stretch t w).1 (p.stretch t w).2 := by
  induction p generalizing w with
  | done a => exact ⟨pact.still w, stops.ends h⟩
  | get next ih => exact ih w h
  | set w' next ih =>
    obtain ⟨own, keeps⟩ := ih h.2
    exact ⟨pact.goesOn h.1 own, keeps⟩
  | ask r next ih =>
    obtain ⟨starts, I, begun, guarded⟩ := h
    rw [stretch]
    generalize w.takeTicket = taken at starts begun
    obtain ⟨w₁, ticket⟩ := taken
    dsimp only at starts begun ⊢
    generalize r.start ticket w₁ = started at starts begun
    obtain ⟨w₂, wait⟩ := started
    dsimp only at starts begun ⊢
    have waits : pact.self w w₂ ∧ K w₂ (.waiting r ticket wait next) := ⟨starts, stops.waits begun guarded⟩
    generalize polled : r.poll wait w₂ = result
    obtain ⟨w₃, progress⟩ := result
    cases r.isSettled wait with
    | false => exact waits
    | true =>
      cases progress with
      | waiting wait' => exact waits
      | answered a =>
        obtain ⟨own, goes⟩ := guarded.answers begun polled
        obtain ⟨own', keeps⟩ := ih a goes
        exact ⟨pact.goesOn starts (pact.goesOn own own'), keeps⟩
  | fork ts next ih => exact ⟨pact.still w, stops.forks h⟩

/-! ### Threads without tasks of their own -/

def Thread.Keeps (pact : Pact) (post : α → World → Prop) (w : World) : Thread T C α → Prop
  | .ready p => ∃ I : World → Prop, I w ∧ (∀ {w w'}, I w → pact.others w w' → I w') ∧
      ∀ {w}, I w → p.Ensures pact Team.nobody w post
  | .finished a => post a w
  | .waiting r _ wait next => ∃ I, I w wait ∧
      r.Guarded pact I fun a w' => (next a).Ensures pact Team.nobody w' post
  | .joining .. => False

section Threads

variable {pact : Pact} {w w' : World} {post : α → World → Prop} {t : Tasks T C}

theorem Prog.Ensures.stretch {p : Prog T α} (h : p.Ensures pact Team.nobody w post) :
    pact.self w (p.stretch t w).1 ∧ (p.stretch t w).2.Keeps pact post (p.stretch t w).1 :=
  h.stops (K := fun w th => th.Keeps pact post w)
    { ends := id, waits := fun begun guarded => ⟨_, begun, guarded⟩, forks := False.elim }

variable {childMove : World → C → World → C → Prop}

theorem Thread.Keeps.move {th th' : Thread T C α} (h : th.Keeps pact post w)
    (move : Thread.Move t childMove w th w' th') : pact.self w w' ∧ th'.Keeps pact post w' := by
  cases move with
  | begin =>
    obtain ⟨I, here, -, ensures⟩ := h
    exact (ensures here).stretch
  | resume answered =>
    obtain ⟨I, here, guarded⟩ := h
    obtain ⟨own, goes⟩ := guarded.answers here answered
    obtain ⟨own', keeps⟩ := goes.stretch (t := t)
    exact ⟨pact.goesOn own own', keeps⟩
  | wait waiting =>
    obtain ⟨I, here, guarded⟩ := h
    obtain ⟨own, here'⟩ := guarded.waits here waiting
    exact ⟨own, I, here', guarded⟩
  | child member move => exact h.elim
  | line line' => exact h.elim
  | join all => exact h.elim

theorem Thread.Keeps.others {th : Thread T C α} (h : th.Keeps pact post w)
    (stable : ∀ {a w w'}, post a w → pact.others w w' → post a w') (others : pact.others w w') :
    th.Keeps pact post w' := by
  cases th with
  | ready p =>
    obtain ⟨I, here, kept, ensures⟩ := h
    exact ⟨I, kept here others, kept, ensures⟩
  | finished a => exact stable h others
  | waiting r ticket wait next =>
    obtain ⟨I, here, guarded⟩ := h
    exact ⟨I, guarded.others here others, guarded⟩
  | joining children line next => exact h.elim

theorem Thread.Keeps.moves {a b : World × Thread T C α} (moves : Thread.Moves t childMove a b)
    (h : a.2.Keeps pact post a.1) : pact.self a.1 b.1 ∧ b.2.Keeps pact post b.1 := by
  induction moves with
  | refl => exact ⟨pact.still _, h⟩
  | tail _ move ih =>
    obtain ⟨own, keeps⟩ := ih
    obtain ⟨own', keeps'⟩ := keeps.move move
    exact ⟨pact.goesOn own own', keeps'⟩

end Threads

end ThresholdAlerts
