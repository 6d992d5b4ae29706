import ThresholdAlerts.Proofs.Programs
import ThresholdAlerts.Proofs.Waits
/-! Scenes: the calls that are under way keep to the conduct and to the order among them. Main statement:
a property of the world and of the holders of its slots that is kept by what happens under slots, by
what is no business of them and from outside is kept by every step of a scene. -/
namespace ThresholdAlerts

open Function Relation

variable {regime : Regime} {barred : RuleId → Prop} {T C α : Type} {tasks : T → Prop} {σ : Stance} {w w' : World}

def Thread.Sound (regime : Regime) (tasks : T → Prop) : Thread T C α → Stance → World → Prop
  | .ready p, σ, w => σ = .free ∧ ∀ w', w.Relies regime w' → w'.engine.tracker.Coherent →
    p.Follows regime tasks .free w' Ends
  | .finished _, σ, _ => σ = .free
  | .waiting r _ wait next, σ, w =>
    r.Awaits regime wait σ w fun a σ' w' => (next a).Follows regime tasks σ' w' Ends
  | .joining _ _ next, σ, _ => σ = .free ∧ regime ≠ .recovering ∧
    ∀ results w', (next results).Follows regime tasks .free w' Ends

theorem Thread.Sound.later {th : Thread T C α} (h : th.Sound regime tasks σ w)
    (relies : w.Relies regime w') (ages : w.engine.tracker.Ages w'.engine.tracker)
    (undisturbed : σ.Undisturbed w w') : th.Sound regime tasks σ w' := by
  cases th with
  | ready p => exact ⟨h.1, fun w'' relies' => h.2 w'' (relies.trans relies')⟩
  | finished a => exact h
  | waiting r ticket wait next => exact Request.Awaits.later h relies ages undisturbed
  | joining children line next => exact h

theorem Thread.Sound.steady {th : Thread T C α} (h : th.Sound regime tasks σ w) : σ.Steady := by
  cases th with
  | ready p => exact h.1 ▸ trivial
  | finished a => exact (show σ = .free from h) ▸ trivial
  | joining children line next => exact h.1 ▸ trivial
  | waiting r ticket wait next =>
      cases r with
      | slot rule =>
          cases wait with
          | none => exact h.elim
          | some c => exact h.1 ▸ trivial
      | existingSlot rule =>
          cases wait with
          | none => exact h.elim
          | some c => exact h.1 ▸ trivial
      | knownSlot id =>
          obtain ⟨⟨rule, rfl⟩ | ⟨rfl, -⟩, -⟩ := h <;> exact trivial
      | deliver event =>
          obtain ⟨flight, limit⟩ := wait
          obtain ⟨rule, id, ticket, attempt, rfl, -⟩ := h
          cases attempt <;> exact trivial
      | fetch =>
          obtain ⟨ticket, rfl, -⟩ := h
          exact trivial
      | sleep span => exact h.elim
      | _ => exact h.1 ▸ trivial

section Surroundings

variable {E : Stance → World → Prop}

theorem Surroundings.steps (env : Surroundings regime barred E) {a b : World × Stance}
    (steps : ReflTransGen (Stance.Step regime) a b) (e : E a.2 a.1) : E b.2 b.1 := by
  induction steps with
  | refl => exact e
  | tail _ step ih =>
      cases step with
      | chore chore turns => exact env.chore ih chore turns
      | yields => exact env.move ih (.yields chore_endTurn rfl) trivial
      | edit edit => exact env.works ih (.edit edit)

/-- A program that follows the conduct runs up to its next wait by moves, and waits there for what it
has to be able to go on with. Tasks that it sets up are those it may do. -/
theorem Prog.stretch_sound (env : Surroundings regime barred E) (t : Tasks T C) (p : Prog T α)
    (follows : p.Follows regime tasks σ w Ends) (e : E σ w) :
    ∃ σ', E σ' (p.stretch t w).1 ∧ (p.stretch t w).2.Sound regime tasks σ' (p.stretch t w).1 ∧
      ∀ children line next, (p.stretch t w).2 = .joining children line next →
        ∃ ts : List T, children = ts.map t.ready ∧ ∀ v ∈ ts, tasks v := by
  induction p generalizing σ w with
  | done a => exact ⟨σ, e, follows, fun _ _ _ h => absurd h (by simp [stretch])⟩
  | get next ih =>
      obtain ⟨σ', steps, follows'⟩ := follows
      exact ih w follows' (env.steps steps e)
  | set w' next ih =>
      obtain ⟨σ', steps, follows'⟩ := follows
      exact ih follows' (env.steps steps e)
  | fork ts next ih =>
      obtain ⟨rfl, serves, allowed, goes⟩ := follows
      refine ⟨.free, e, ⟨rfl, serves, goes⟩, fun children line next' h => ⟨ts, ?_, allowed⟩⟩
      rw [stretch, Thread.joining.injEq] at h
      exact h.1.symm
  | ask r next ih =>
      have started := Request.started env follows e
      rw [stretch]
      generalize w.takeTicket = taken at started
      obtain ⟨w₁, ticket⟩ := taken
      dsimp only at started ⊢
      generalize r.start ticket w₁ = begun at started
      obtain ⟨w₂, wait⟩ := begun
      rcases started with ⟨σ', e', awaits⟩ | ⟨a, w₃, settled, answered, σ', e', goes⟩
      · dsimp only at awaits e' ⊢
        rw [awaits.unsettled]
        exact ⟨σ', e', awaits, fun _ _ _ h => absurd h (by simp)⟩
      · dsimp only at settled answered ⊢
        rw [settled, answered]
        exact ih a goes e'

/-- The tasks of a thread are those it had, or all of those are finished and there are new ones. -/
def Thread.Renews (t : Tasks T C) (tasks : T → Prop) (th th' : Thread T C α) : Prop :=
  (∃ children line next line', th = .joining children line next ∧
    th' = .joining children line' next) ∨
  (∀ children line next, th = .joining children line next → ∃ results,
    t.results? children = some results) ∧
  ∀ children line next, th' = .joining children line next →
    ∃ ts : List T, children = ts.map t.ready ∧ ∀ v ∈ ts, tasks v

/-- A move of a thread is a sequence of moves by the conduct, or a move of one of its tasks. -/
theorem Thread.Sound.move (env : Surroundings regime barred E) {t : Tasks T C}
    {childMove : World → C → World → C → Prop} {th th' : Thread T C α}
    (sound : th.Sound regime tasks σ w) (e : E σ w) (move : Thread.Move t childMove w th w' th')
    (spares : th.Spares barred w) :
    (∃ σ', E σ' w' ∧ th'.Sound regime tasks σ' w' ∧ Thread.Renews t tasks th th') ∨
      ∃ children line next i c c', th = .joining children line next ∧ children[i]? = some c ∧
        childMove w c w' c' ∧ th' = .joining (children.set i c') line next := by
  cases move with
  | @begin p =>
      obtain ⟨rfl, follows⟩ := sound
      obtain ⟨σ', e', sound', fresh⟩ :=
        p.stretch_sound env t (follows w (.of_rules rfl rfl) (env.coherent e)) e
      exact .inl ⟨σ', e', sound', .inr ⟨fun _ _ _ h => absurd h (by simp), fresh⟩⟩
  | @resume r ticket wait next w₁ a answered =>
      have polled := Request.polled env sound e spares
      rw [answered] at polled
      obtain ⟨σ₁, e₁, follows⟩ := polled
      obtain ⟨σ', e', sound', fresh⟩ := (next a).stretch_sound env t follows e₁
      exact .inl ⟨σ', e', sound', .inr ⟨fun _ _ _ h => absurd h (by simp), fresh⟩⟩
  | wait waiting =>
      have polled := Request.polled env sound e spares
      rw [waiting] at polled
      obtain ⟨σ', e', awaits⟩ := polled
      exact .inl ⟨σ', e', awaits, .inr ⟨fun _ _ _ h => absurd h (by simp),
        fun _ _ _ h => absurd h (by simp)⟩⟩
  | child member move => exact .inr ⟨_, _, _, _, _, _, rfl, member, move, rfl⟩
  | line line' => exact .inl ⟨σ, e, sound, .inl ⟨_, _, _, _, rfl, rfl⟩⟩
  | @join children line next results all =>
      obtain ⟨rfl, -, goes⟩ := sound
      obtain ⟨σ', e', sound', fresh⟩ := (next results).stretch_sound env t (goes results w) e
      refine .inl ⟨σ', e', sound', .inr ⟨fun children' line' next' h => ⟨results, ?_⟩, fresh⟩⟩
      rw [Thread.joining.injEq] at h
      rw [← h.1, all]

end Surroundings

/-! ### All calls together -/

/-- No time passes, and no id of a slot is used a second time. -/
structure World.Lasts (w w' : World) : Prop where
  paces : w.Paces w'
  ages : w.engine.tracker.Ages w'.engine.tracker

/-- What is known around the call at `p`: whatever it does, the others are not disturbed, and no time
passes. -/
def Around (I : World → (RuleId → Option Work) → Prop) (st : Place → Stance) (p : Place)
    (w₀ : World) (σ : Stance) (w : World) : Prop :=
  ∃ holders, Orderly w (update st p σ) holders ∧ I w holders ∧
    (∀ q ≠ p, (st q).Undisturbed w₀ w) ∧ w₀.Lasts w

theorem Stance.Undisturbed.trans {w₁ w₂ w₃ : World} (h : σ.Undisturbed w₁ w₂)
    (h' : σ.Undisturbed w₂ w₃) : σ.Undisturbed w₁ w₃ := by
  cases σ with
  | holding rule id ticket work => exact Slot.Alike.trans h h'
  | _ => exact trivial

theorem Stance.Undisturbed.refl (σ : Stance) (w : World) : σ.Undisturbed w w := by
  cases σ with
  | holding rule id ticket work => exact Slot.Alike.refl _
  | _ => exact trivial

variable {I : World → (RuleId → Option Work) → Prop} {st : Place → Stance} {p : Place} {w₀ : World}

theorem Stance.Moves.paces {σ' : Stance} (move : Stance.Moves regime w σ w' σ') : w.Paces w' := by
  cases move with
  | chore chore => exact chore.aside.paces
  | asks chore => exact chore.aside.paces
  | begins => exact .refl w
  | yields chore => exact chore.aside.paces
  | joins shuffles => exact shuffles.aside.paces
  | requeues shuffles => exact shuffles.aside.paces
  | leaves shuffles => exact shuffles.aside.paces
  | acquires => exact .of_same rfl rfl rfl
  | works happens => exact happens.paces

theorem surroundings (kept : KeptBarring regime barred I) (steady : ∀ q ≠ p, (st q).Steady) :
    Surroundings regime barred (Around I st p w₀) where
  coherent := fun ⟨_, o, _⟩ => o.coherent
  stands := fun {σ w} ⟨_, o, _⟩ => by
    have stands := o.stands p
    rwa [update_self] at stands
  ripe := fun ⟨_, o, _⟩ => o.ripe
  tidy := fun {c w} ⟨holders, o, _⟩ found head => by
    -- Whoever is at the head of the queue has the slot, so nobody holds it.
    have idle : holders c.rule = none := by
      by_contra busy
      obtain ⟨work, held⟩ := Option.ne_none_iff_exists'.mp busy
      obtain ⟨q, id, ticket, there⟩ := o.held.mp held
      have own : (update st p (.queued c) p).ticket? = some c.ticket := by rw [update_self]; rfl
      obtain rfl := o.lined.only found head own there
      rw [update_self] at there
      exact absurd there (by simp)
    have tidy := o.tidy c.rule idle
    rwa [World.account_of_find found] at tidy
  move := fun {σ σ' w w'} ⟨holders, o, i, undisturbed, lasts⟩ move spares => by
    have steady' : ∀ q ≠ p, (update st p σ q).Steady := fun q ne => by
      rw [update_of_ne ne]
      exact steady q ne
    obtain ⟨holders', o', i', undisturbed', ages⟩ := o.move kept i steady' (update_self ..) move spares
    rw [update_idem] at o'
    refine ⟨holders', o', i', fun q ne => (undisturbed q ne).trans ?_, lasts.paces.trans move.paces,
      lasts.ages.trans ages⟩
    have here := undisturbed' q ne
    rwa [update_of_ne ne] at here

def CallThread.visit? (c : CallThread α) (k : Nat) : Option Strand :=
  match c with
  | .joining children _ _ => children[k]?
  | _ => none

structure CallThread.Sound (regime : Regime) (c : CallThread α) (σ : Stance) (σs : Nat → Stance)
    (w : World) : Prop where
  own : Thread.Sound regime (Visit.Follows regime) c σ w
  visits : ∀ {k s}, c.visit? k = some s → Thread.Sound regime (fun _ => True) s (σs k) w
  idle : ∀ {k}, c.visit? k = none → σs k = .free

/-- The scene is in order, and `I` holds of its world and of the holders of the slots. -/
structure Scene.Sound (regime : Regime) (I : World → (RuleId → Option Work) → Prop)
    (s : Scene) (st : Place → Stance) (holders : RuleId → Option Work) : Prop where
  orderly : Orderly s.world st holders
  property : I s.world holders
  calls : ∀ {i c}, s.calls[i]? = some c →
    CallThread.Sound regime c (st (i, none)) (fun k => st (i, some k)) s.world
  vacant : ∀ {i}, s.calls[i]? = none → ∀ k, st (i, k) = .free
  alone : regime = .recovering → s.calls.length ≤ 1
  blank : regime = .recovering → s.calls = [] → s.world.engine.rules.snapshot.generation = 0

variable {s : Scene} {holders : RuleId → Option Work}

theorem Scene.Sound.steady (h : s.Sound regime I st holders) (p : Place) : (st p).Steady := by
  obtain ⟨i, k⟩ := p
  cases here : s.calls[i]? with
  | none => exact h.vacant here k ▸ trivial
  | some c =>
      have sound := h.calls here
      cases k with
      | none => exact sound.own.steady
      | some k =>
          cases there : c.visit? k with
          | none => exact (show st (i, some k) = .free from sound.idle there) ▸ trivial
          | some s => exact (sound.visits there).steady

theorem results?_getElem {children : List Strand} {results : List (List Event)}
    (all : Visit.tasks.results? children = some results) {k : Nat} {s : Strand}
    (member : children[k]? = some s) : ∃ events, s = .finished events := by
  induction children generalizing k results with
  | nil => exact absurd member (by simp)
  | cons c rest ih =>
      simp only [Tasks.results?, List.mapM_cons, Option.bind_eq_bind, Option.bind_eq_some_iff] at all
      obtain ⟨events, first, others, later, -⟩ := all
      cases k with
      | zero =>
          obtain rfl := Option.some.inj member
          cases c with
          | finished a => exact ⟨a, rfl⟩
          | _ => exact absurd first (by simp [Visit.tasks, Thread.result?])
      | succ k => exact ih later member

theorem CallThread.Sound.later {c : CallThread α} {σs σs' : Nat → Stance}
    (h : c.Sound regime σ σs w) (relies : w.Relies regime w')
    (ages : w.engine.tracker.Ages w'.engine.tracker) (undisturbed : σ.Undisturbed w w')
    (same : σs' = σs) (visits : ∀ k, (σs k).Undisturbed w w') : c.Sound regime σ σs' w' := by
  subst same
  exact ⟨h.own.later relies ages undisturbed,
    fun there => (h.visits there).later relies ages (visits _), h.idle⟩

theorem Scene.Sound.others (h : s.Sound regime I st holders) {i j : Nat} {σ' : Stance}
    {k : Option Nat} {c d : CallThread Reply} (here : s.calls[i]? = some c)
    (there : s.calls[j]? = some d) (ne : j ≠ i)
    (undisturbed : ∀ q ≠ (i, k), (st q).Undisturbed s.world w') (lasts : s.world.Lasts w') :
    CallThread.Sound regime d (update st (i, k) σ' (j, none))
      (fun k' => update st (i, k) σ' (j, some k')) w' := by
  have apart (k' : Option Nat) : (j, k') ≠ (i, k) := fun same => ne (congrArg Prod.fst same)
  have relies : s.world.Relies regime w' := by
    refine .of_paces lasts.paces fun recovers => ?_
    have one := h.alone recovers
    have first := (List.getElem?_eq_some_iff.mp here).1
    have second := (List.getElem?_eq_some_iff.mp there).1
    omega
  rw [update_of_ne (apart none)]
  refine (h.calls there).later relies lasts.ages (undisturbed _ (apart none)) ?_
    fun k' => undisturbed _ (apart _)
  funext k'
  rw [update_of_ne (apart (some k'))]

theorem CallThread.Sound.renewed {c c' : CallThread α} {σ' : Stance} {σs : Nat → Stance}
    (h : c.Sound regime σ σs w) (own : Thread.Sound regime (Visit.Follows regime) c' σ' w')
    (renews : Thread.Renews Visit.tasks (Visit.Follows regime) c c')
    (visits : ∀ k, (σs k).Undisturbed w w') (lasts : w.Lasts w') : c'.Sound regime σ' σs w' := by
  rcases renews with ⟨children, line, next, line', rfl, rfl⟩ | ⟨done, fresh⟩
  · have relies : w.Relies regime w' := .of_paces lasts.paces fun recovers => absurd recovers own.2.1
    exact ⟨own, fun there => (h.visits there).later relies lasts.ages (visits _), h.idle⟩
  · have free (k : Nat) : σs k = .free := by
      cases there : c.visit? k with
      | none => exact h.idle there
      | some s =>
          have sound := h.visits there
          cases c with
          | joining children line next =>
              obtain ⟨results, all⟩ := done children line next rfl
              obtain ⟨events, rfl⟩ := results?_getElem all there
              exact sound
          | _ => exact absurd there (by simp [CallThread.visit?])
    refine ⟨own, fun {k s} there => ?_, fun {k} _ => free k⟩
    cases c' with
    | joining children line next =>
        obtain ⟨ts, rfl, follows⟩ := fresh children line next rfl
        rw [CallThread.visit?, List.getElem?_map, Option.map_eq_some_iff] at there
        obtain ⟨v, member, rfl⟩ := there
        exact ⟨free k, fun w'' _ _ => follows v (List.mem_of_getElem? member) w''⟩
    | _ => exact absurd there (by simp [CallThread.visit?])

theorem visit?_set {children : List Strand} {line : Line}
    {next : List (List Event) → Prog Visit α} {k k' : Nat} {s' : Strand} (ne : k' ≠ k) :
    CallThread.visit? (.joining (children.set k s') line next : CallThread α) k' =
      CallThread.visit? (.joining children line next : CallThread α) k' :=
  List.getElem?_set_ne ne.symm

theorem Scene.Sound.vacant_set (h : s.Sound regime I st holders) {i : Nat} {k : Option Nat}
    {σ' : Stance} {c c' : CallThread Reply} (here : s.calls[i]? = some c) {j : Nat}
    (empty : (s.calls.set i c')[j]? = none) (k' : Option Nat) :
    update st (i, k) σ' (j, k') = .free := by
  have empty' : s.calls[j]? = none := by
    rw [List.getElem?_eq_none_iff, List.length_set] at empty
    exact List.getElem?_eq_none_iff.mpr empty
  have ne : j ≠ i := fun same => by
    rw [same, here] at empty'
    exact absurd empty' (by simp)
  rw [update_of_ne fun same => ne (congrArg Prod.fst same)]
  exact h.vacant empty' k'

theorem Scene.Sound.around (h : s.Sound regime I st holders) (p : Place) :
    Around I st p s.world (st p) s.world :=
  ⟨holders, (update_eq_self p st).symm ▸ h.orderly, h.property, fun _ _ => .refl _ _, .refl _, .refl _⟩

theorem Scene.Sound.alone_set (h : s.Sound regime I st holders) {i : Nat} {c' : CallThread Reply}
    (recovers : regime = .recovering) : (s.calls.set i c').length ≤ 1 := by
  rw [List.length_set]
  exact h.alone recovers

theorem set_ne_nil {l : List α} {i : Nat} {a b : α} (here : l[i]? = some a) : l.set i b ≠ [] := by
  intro empty
  obtain ⟨inside, -⟩ := List.getElem?_eq_some_iff.mp here
  have none := congrArg List.length empty
  rw [List.length_set, List.length_nil] at none
  omega

/-- A move of a visit of a call changes where the visit stands, and keeps the rest. -/
theorem Scene.Sound.visit_spared (kept : KeptBarring regime barred I) (h : s.Sound regime I st holders) {i k : Nat}
    {children : List Strand} {line : Line} {next : List (List Event) → Prog Visit Reply} {v v' : Strand}
    (here : s.calls[i]? = some (.joining children line next)) (member : children[k]? = some v)
    (move : Strand.Sparing barred s.world v w' v') :
    ∃ σ' holders', Thread.Sound regime (fun _ => True) v' σ' w' ∧
      Scene.Sound regime I { world := w', calls := s.calls.set i (.joining (children.set k v') line next) }
        (update st (i, some k) σ') holders' := by
  have call := h.calls here
  have inside : i < s.calls.length := (List.getElem?_eq_some_iff.mp here).1
  have visit : Thread.Sound regime (fun _ => True) v (st (i, some k)) s.world := call.visits member
  rcases visit.move (surroundings kept fun q _ => h.steady q) (h.around (i, some k)) move.2 move.1 with
    ⟨σ', ⟨holders', o, property, undisturbed, lasts⟩, own, -⟩ | ⟨_, _, _, _, _, _, -, -, impossible, -⟩
  · have relies : s.world.Relies regime w' :=
      .of_paces lasts.paces fun recovers => absurd recovers call.own.2.1
    refine ⟨σ', holders', own, o, property, fun {j d} there => ?_, h.vacant_set here, h.alone_set,
      fun _ empty => absurd empty (set_ne_nil here)⟩
    by_cases same : j = i
    · subst same
      rw [List.getElem?_set_self inside] at there
      obtain rfl := Option.some.inj there
      have parent : ((j, none) : Place) ≠ (j, some k) := by simp
      have place : k < children.length := (List.getElem?_eq_some_iff.mp member).1
      rw [update_of_ne parent]
      refine ⟨call.own, fun {k' s} there => ?_, fun {k'} empty => ?_⟩
      · by_cases mine : k' = k
        · subst mine
          rw [CallThread.visit?, List.getElem?_set_self place] at there
          obtain rfl := Option.some.inj there
          rw [update_self]
          exact own
        · rw [visit?_set mine] at there
          have apart : ((j, some k') : Place) ≠ (j, some k) := by simpa using mine
          rw [update_of_ne apart]
          exact (call.visits there).later relies lasts.ages (undisturbed _ apart)
      · by_cases mine : k' = k
        · subst mine
          rw [CallThread.visit?, List.getElem?_set_self place] at empty
          exact absurd empty (by simp)
        · rw [visit?_set mine] at empty
          rw [update_of_ne (by simpa using mine)]
          exact call.idle empty
    · rw [List.getElem?_set_ne (Ne.symm same)] at there
      exact h.others here there same undisturbed lasts
  · exact impossible.elim

/-- A move of a call keeps a scene in order, and what is kept by all that happens under slots while nobody
gets the slot of a barred rule. -/
theorem Scene.Sound.spared (kept : KeptBarring regime barred I) (h : s.Sound regime I st holders) {i : Nat}
    {c c' : CallThread Reply} (here : s.calls[i]? = some c)
    (move : CallThread.Sparing barred s.world c w' c') :
    ∃ st' holders', Scene.Sound regime I { world := w', calls := s.calls.set i c' } st' holders' := by
  have call := h.calls here
  have inside : i < s.calls.length := (List.getElem?_eq_some_iff.mp here).1
  -- Either the call itself moves, or one of the visits that it does side by side.
  rcases call.own.move (surroundings kept fun q _ => h.steady q) (h.around (i, none)) move.2 move.1 with
    ⟨σ', ⟨holders', o, property, undisturbed, lasts⟩, own, renews⟩ |
    ⟨children, line, next, k, v, v', rfl, member, childMove, rfl⟩
  · refine ⟨_, holders', o, property, fun {j d} there => ?_, h.vacant_set here, h.alone_set,
      fun _ empty => absurd empty (set_ne_nil here)⟩
    by_cases same : j = i
    · subst same
      rw [List.getElem?_set_self inside] at there
      obtain rfl := Option.some.inj there
      have apart (k : Nat) : ((j, some k) : Place) ≠ (j, none) := by simp
      rw [update_self]
      have visits : (fun k => update st (j, none) σ' (j, some k)) = fun k => st (j, some k) :=
        funext fun k => update_of_ne (apart k) _ _
      rw [visits]
      exact call.renewed own renews (fun k => undisturbed _ (apart k)) lasts
    · rw [List.getElem?_set_ne (Ne.symm same)] at there
      exact h.others here there same undisturbed lasts
  · obtain ⟨σ', holders', -, sound⟩ := h.visit_spared kept here member childMove
    exact ⟨_, holders', sound⟩

/-- A move of a call keeps a scene in order, and what is kept by all that happens under slots. -/
theorem Scene.Sound.move (kept : Kept regime I) (h : s.Sound regime I st holders) {i : Nat}
    {c c' : CallThread Reply} (here : s.calls[i]? = some c)
    (move : CallThread.Move s.world c w' c') :
    ∃ st' holders', Scene.Sound regime I { world := w', calls := s.calls.set i c' } st' holders' :=
  h.spared (kept.barring _) here move.sparing

theorem World.Elsewhere.engine (h : w.Elsewhere w') :
    w'.engine = w.engine ∧ w'.moves = w.moves ∧ w'.journal = w.journal ∧ w'.ids = w.ids := by
  obtain ⟨source, sink, clock, calendar, jitter, lulls, woken, -, rfl⟩ := h
  exact ⟨rfl, rfl, rfl, rfl⟩

theorem World.Elsewhere.clock (h : w.Elsewhere w') : w.clock ≤ w'.clock := by
  obtain ⟨source, sink, clock, calendar, jitter, lulls, woken, later, rfl⟩ := h
  exact later

theorem World.Elsewhere.account (h : w.Elsewhere w') (rule : RuleId) :
    w'.account rule = w.account rule := by
  obtain ⟨source, sink, clock, calendar, jitter, lulls, woken, -, rfl⟩ := h
  rfl

theorem World.Elsewhere.relies (h : w.Elsewhere w') : w.Relies regime w' :=
  ⟨h.clock, fun _ => congrArg (·.rules.snapshot) h.engine.1⟩

theorem World.Elsewhere.ages (h : w.Elsewhere w') : w.engine.tracker.Ages w'.engine.tracker :=
  h.engine.1.symm ▸ .refl _

theorem World.Elsewhere.slot (h : w.Elsewhere w') (id : SlotId) : w'.slot id = w.slot id := by
  rw [World.slot, h.engine.1, World.slot]

theorem World.Elsewhere.undisturbed (h : w.Elsewhere w') (σ : Stance) : σ.Undisturbed w w' := by
  cases σ with
  | holding rule id ticket work =>
      rw [Stance.Undisturbed, h.slot]
      exact .refl _
  | _ => exact trivial

theorem World.Elsewhere.stands (h : w.Elsewhere w') (stands : σ.Stands w) : σ.Stands w' := by
  obtain ⟨engine, -⟩ := h.engine
  cases σ with
  | free => exact trivial
  | queued c =>
      rw [Stance.Stands, engine]
      exact stands
  | holding rule id ticket work =>
      rw [Stance.Stands, engine, h.slot]
      exact stands
  | awaiting ticket =>
      rw [Stance.Stands, World.turns, engine]
      exact stands
  | refreshing ticket =>
      rw [Stance.Stands, World.turns, engine]
      exact stands

theorem Orderly.elsewhere {st : Place → Stance} {holders : RuleId → Option Work} (o : Orderly w st holders)
    (change : w.Elsewhere w') : Orderly w' st holders := by
  obtain ⟨engine, moves, -, -⟩ := change.engine
  have queue : w'.queue = w.queue :=
    World.queue_of_same (congrArg (·.tracker.queues) engine) (congrArg (·.rules.turns) engine)
  refine ⟨engine.symm ▸ o.coherent, engine.symm ▸ o.sound, fun p => change.stands (o.stands p),
    fun here => moves.symm ▸ o.early here, o.apart, queue.symm ▸ o.manned, o.held, fun rule => ?_, fun rule => ?_,
    fun rule => ?_⟩
  · rw [change.account]
    exact o.tagged rule
  · rw [change.account]
    exact (o.ripe rule).later change.clock
  · rw [change.account]
    exact o.tidy rule

theorem Scene.Sound.outside (h : s.Sound regime I st holders) (change : s.world.Elsewhere w')
    (property : I w' holders) : Scene.Sound regime I { s with world := w' } st holders := by
  refine ⟨h.orderly.elsewhere change, property,
    fun there => (h.calls there).later change.relies change.ages (change.undisturbed _) rfl fun _ => change.undisturbed _,
    h.vacant, h.alone, fun recovers empty => ?_⟩
  rw [show Scene.world { s with world := w' } = w' from rfl, change.engine.1]
  exact h.blank recovers empty

theorem Scene.Sound.call (h : s.Sound regime I st holders) {c : Call} (admitted : c.Admitted regime)
    (first : regime = .recovering → s.calls = []) :
    Scene.Sound regime I { s with calls := s.calls ++ [.ready c.program] } st holders := by
  refine ⟨h.orderly, h.property, fun {i d} there => ?_, fun {i} empty => h.vacant ?_,
    fun recovers => ?_, fun _ empty => absurd empty (by simp)⟩
  · rw [List.getElem?_append] at there
    split at there
    · exact h.calls there
    · next outside =>
      have empty : s.calls[i]? = none := List.getElem?_eq_none_iff.mpr (Nat.le_of_not_lt outside)
      obtain ⟨k, rfl⟩ : ∃ k, i = s.calls.length + k := ⟨i - s.calls.length, by omega⟩
      rw [Nat.add_sub_cancel_left] at there
      cases k with
      | succ k => exact absurd there (by simp)
      | zero =>
          obtain rfl := Option.some.inj there
          refine ⟨⟨h.vacant empty none, fun w'' relies coherent =>
              Call.follows admitted w'' coherent fun recovers => ?_⟩,
            fun there => absurd there (by simp [CallThread.visit?]), fun _ => h.vacant empty _⟩
          rw [relies.rules recovers]
          exact h.blank recovers (first recovers)
  · rw [List.getElem?_eq_none_iff, List.length_append] at empty
    exact List.getElem?_eq_none_iff.mpr (Nat.le_of_add_right_le empty)
  · rw [first recovers]
    exact Nat.le_refl 1

/-- The changes from outside that a property has to bear with. -/
structure Bears (outside : World → World → Prop) (I : World → (RuleId → Option Work) → Prop) :
    Prop where
  elsewhere : ∀ {w w'}, outside w w' → w.Elsewhere w'
  kept : ∀ {w w' holders}, outside w w' → I w holders → I w' holders

theorem Bears.and {outside : World → World → Prop} {I J : World → (RuleId → Option Work) → Prop}
    (i : Bears outside I) (j : Bears outside J) :
    Bears outside fun w holders => I w holders ∧ J w holders where
  elsewhere := i.elsewhere
  kept change both := ⟨i.kept change both.1, j.kept change both.2⟩

theorem bears_accounts {P : RuleId → Account → Option Work → Prop} :
    Bears World.Elsewhere fun w holders => ∀ rule, P rule (w.account rule) (holders rule) where
  elsewhere change := change
  kept := fun {w w' holders} change all rule => by
    rw [change.account]
    exact all rule

/-- A step in which nobody gets the slot of a barred rule keeps a scene in order, and what is kept by all
else that happens under slots and outside. -/
theorem Scene.Sound.sparing {outside : World → World → Prop} (kept : KeptBarring regime barred I)
    (bears : Bears outside I) {s s' : Scene} (h : s.Sound regime I st holders)
    (step : Scene.Sparing barred (Call.Admitted regime) outside s s')
    (alone : regime = .recovering → s'.calls.length ≤ 1) :
    ∃ st' holders', s'.Sound regime I st' holders' := by
  cases step with
  | call c admitted =>
      refine ⟨st, holders, h.call admitted fun recovers => ?_⟩
      have one := alone recovers
      rw [List.length_append, List.length_singleton] at one
      exact List.eq_nil_of_length_eq_zero (by omega)
  | move member move => exact h.spared kept member move
  | outside change =>
      exact ⟨st, holders, h.outside (bears.elsewhere change) (bears.kept change h.property)⟩

/-- Every step of a scene keeps it in order, and what is kept by all that happens under slots and
outside. -/
theorem Scene.Sound.step {outside : World → World → Prop} (kept : Kept regime I)
    (bears : Bears outside I) {s s' : Scene} (h : s.Sound regime I st holders)
    (step : Scene.Step (Call.Admitted regime) outside s s')
    (alone : regime = .recovering → s'.calls.length ≤ 1) :
    ∃ st' holders', s'.Sound regime I st' holders' :=
  h.sparing (kept.barring _) bears step.sparing alone

theorem Scene.Step.length_le {admitted : Call → Prop} {outside : World → World → Prop} {s s' : Scene}
    (step : Scene.Step admitted outside s s') : s.calls.length ≤ s'.calls.length := by
  cases step with
  | call c ok =>
      rw [List.length_append]
      exact Nat.le_add_right _ _
  | move member move => exact Nat.le_of_eq List.length_set.symm
  | outside change => exact Nat.le_refl _

/-- What holds of a scene in order, and is kept by all that happens under slots and outside, holds
however the calls are interleaved. -/
theorem Scene.Sound.run {outside : World → World → Prop} (kept : Kept regime I)
    (bears : Bears outside I) {s s' : Scene} (h : s.Sound regime I st holders)
    (run : Scene.Run (Call.Admitted regime) outside s s')
    (alone : regime = .recovering → s'.calls.length ≤ 1) :
    ∃ st' holders', s'.Sound regime I st' holders' := by
  induction run with
  | refl => exact ⟨st, holders, h⟩
  | tail _ step ih =>
      obtain ⟨st₁, holders₁, h₁⟩ := ih fun recovers => Nat.le_trans step.length_le (alone recovers)
      exact h₁.step kept bears step alone

/-! ### Scenes at rest -/

/-- A new engine, in a world where nothing has happened to any event yet. -/
structure World.Begins (w : World) : Prop where
  engine : ∃ c, w.engine = .ofConfig c
  journal : w.journal = []

theorem World.Begins.account (h : w.Begins) (rule : RuleId) :
    w.account rule = { state := .initial rule } := by
  obtain ⟨⟨c, engine⟩, journal⟩ := h
  rw [World.account, engine, journal]
  rfl

/-- Nobody has anything to do with a new engine. -/
theorem Scene.sound_new {c : Config} (new : w.engine = .ofConfig c) (property : I w fun _ => none) :
    Scene.Sound regime I { world := w } (fun _ => .free) fun _ => none := by
  have outbox (rule : RuleId) : (w.account rule).outbox = [] := by
    rw [World.account, new]
    rfl
  refine ⟨⟨?_, ?_, fun _ => trivial, fun here => absurd here (by simp [Stance.ticket?]),
    fun here => absurd here (by simp [Stance.ticket?]), ?_, by simp, fun rule => ?_, fun rule => ?_,
    fun rule _ retired => ?_⟩, property, fun there => absurd there (by simp), fun _ _ => rfl, fun _ => Nat.zero_le 1, fun _ _ => ?_⟩
  · rw [new]
    exact Tracker.coherent_empty
  · rw [new]
    exact ⟨fun got => absurd got (by simp [RuleSnapshot.get?, Engine.ofConfig]), fun _ _ => rfl⟩
  · have empty : w.queue = fun _ => [] := by
      funext l
      cases l <;> rw [World.queue] <;> simp only [World.turns, new] <;> rfl
    exact empty ▸ ⟨fun _ => List.nodup_nil, fun mem => absurd mem (by simp)⟩
  · rw [outbox]
    exact ⟨by simp, by simp⟩
  · rw [outbox]
    exact fun d mem => absurd mem (by simp)
  · rw [World.account, new] at retired
    exact absurd retired Bool.false_ne_true
  · rw [new]
    rfl

theorem Scene.sound_begins (h : w.Begins) (property : I w fun _ => none) :
    Scene.Sound regime I { world := w } (fun _ => .free) fun _ => none := by
  obtain ⟨c, new⟩ := h.engine
  exact sound_new new property

theorem Scene.Sound.free (h : s.Sound regime I st holders) (finished : s.AllFinished) (p : Place) :
    st p = .free := by
  obtain ⟨i, k⟩ := p
  cases here : s.calls[i]? with
  | none => exact h.vacant here k
  | some c =>
      have sound := h.calls here
      obtain ⟨reply, rfl⟩ := finished c (List.mem_of_getElem? here)
      cases k with
      | none => exact sound.own
      | some k => exact sound.idle rfl

theorem Scene.allFinished_of_results (h : s.calls.all fun c => (Thread.result? c).isSome) :
    s.AllFinished := by
  intro c mem
  have some := List.all_eq_true.mp h c mem
  cases c with
  | finished reply => exact ⟨reply, rfl⟩
  | _ => exact absurd some (by simp [Thread.result?])

theorem Scene.Sound.nobody (h : s.Sound regime I st holders) (finished : s.AllFinished) :
    holders = fun _ => none := by
  funext rule
  cases held : holders rule with
  | none => rfl
  | some work =>
      obtain ⟨p, id, ticket, here⟩ := h.orderly.held.mp held
      rw [h.free finished] at here
      exact absurd here (by simp)

theorem Scene.Sound.again {regime' : Regime} {I' : World → (RuleId → Option Work) → Prop}
    (h : s.Sound regime I st holders) (finished : s.AllFinished) (serves : regime' ≠ .recovering)
    (property : I' s.world fun _ => none) :
    Scene.Sound regime' I' { world := s.world } (fun _ => .free) fun _ => none := by
  obtain ⟨coherent, sound, -, -, -, ⟨once, owned⟩, -, tagged, ripe, tidy⟩ := h.orderly
  rw [h.nobody finished] at tagged tidy
  have manned : Manned s.world.queue fun (_ : Place) => .free := by
    refine ⟨once, fun mem => ?_⟩
    obtain ⟨p, there⟩ := owned mem
    rw [h.free finished] at there
    exact absurd there (by simp [Stance.spot?])
  exact ⟨⟨coherent, sound, fun _ => trivial, fun here => absurd here (by simp [Stance.ticket?]),
    fun here => absurd here (by simp [Stance.ticket?]), manned, by simp, tagged, ripe, tidy⟩, property,
    fun there => absurd there (by simp), fun _ _ => rfl, fun recovers => absurd recovers serves,
    fun recovers => absurd recovers serves⟩

theorem Scene.Sound.imp {I' : World → (RuleId → Option Work) → Prop}
    (h : s.Sound regime I st holders) (property : I' s.world holders) :
    s.Sound regime I' st holders :=
  ⟨h.orderly, property, h.calls, h.vacant, h.alone, h.blank⟩

/-! ### A world to look at -/

/-- A rule that is breached while the load is above 90. -/
def Rule.highLoad : Rule :=
  { id := "high-load", name := "High load", metricKey := "load", operator := .gt, threshold := some 90 }

/-- A world with one rule, in which nothing has happened yet. Alerts are named by letters, each by one
more than the one before. -/
def World.watched (c : Config) (sink : Sink) : World :=
  { World.fresh c { contents := .listed [.highLoad] } default
      (fun n => String.ofList (List.replicate n 'a')) fun _ => 0 with sink }

theorem World.begins_watched (c : Config) (sink : Sink) : (World.watched c sink).Begins :=
  ⟨⟨c, rfl⟩, rfl⟩

theorem World.injective_watched (c : Config) (sink : Sink) :
    Injective (World.watched c sink).ids.value := by
  intro m n same
  have letters : List.replicate m 'a' = List.replicate n 'a' := String.ofList_injective same
  simpa using congrArg List.length letters

end ThresholdAlerts
