import ThresholdAlerts.Proofs.Scenes
/-! Draws of random delays. Main statement: in one move of a call at most one delay is drawn, the one for
the failure that it learns of at the beginning of the move. -/
namespace ThresholdAlerts

open Function Relation

variable {regime : Regime} {T C α : Type} {tasks : T → Prop} {σ σ' : Stance} {w w' : World}
  {E : Stance → World → Prop}

def Stance.debt : Stance → Nat
  | .holding _ _ _ work => Work.debt (some work)
  | _ => 0

theorem Stance.debt_le (σ : Stance) : σ.debt ≤ 1 := by
  cases σ with
  | holding rule id ticket work =>
      rw [debt, Work.debt.eq_def]
      split <;> decide
  | _ => exact Nat.zero_le 1

theorem Stance.Step.draws {a b : World × Stance} (step : Stance.Step regime a b) :
    b.1.jitter.taken + b.2.debt ≤ a.1.jitter.taken + a.2.debt := by
  cases step with
  | @chore w w' σ chore => exact Nat.le_of_eq (congrArg (·.taken + σ.debt) chore.aside.jitter)
  | yields => exact Nat.le_refl _
  | @edit w w' rule id ticket work x edit =>
      obtain ⟨n, few, spares⟩ := edit.spares
      have settled : (Stance.after rule id ticket x).debt = 0 := by
        cases x with
        | none => rfl
        | some work' => exact edit.settled
      rw [settled, spares.jitter]
      exact Nat.add_le_add_left few _

theorem Stance.steps_draws {a b : World × Stance} (steps : ReflTransGen (Stance.Step regime) a b) :
    b.1.jitter.taken + b.2.debt ≤ a.1.jitter.taken + a.2.debt := by
  induction steps with
  | refl => exact Nat.le_refl _
  | tail _ step ih => exact Nat.le_trans step.draws ih

/-! ### Requests draw nothing -/

theorem Request.jitter_start (r : Request) (ticket : Ticket) (w : World) :
    (r.start ticket w).1.jitter = w.jitter := by
  cases r with
  | knownSlot id =>
      rw [start]
      split <;> rfl
  | findOpen rules =>
      have lookups : w.Chore .mixed (startLookups w rules).1 := chore_startLookups w rules
      exact lookups.aside.jitter
  | _ => rfl

theorem Request.jitter_poll (r : Request) (wait : r.Wait) (w : World) :
    (r.poll wait w).1.jitter = w.jitter := by
  obtain ⟨_, _, _, _, _, same⟩ := r.world_poll wait w
  rw [same]

/-! ### Moves -/

/-- Up to its next wait a program draws nothing but for the failure that it begins with. -/
theorem Prog.stretch_draws (t : Tasks T C) (p : Prog T α)
    (follows : p.Follows regime tasks σ w Ends) :
    (p.stretch t w).1.jitter.taken ≤ w.jitter.taken + σ.debt := by
  induction p generalizing σ w with
  | done a => exact Nat.le_add_right _ _
  | get next ih =>
      obtain ⟨σ', steps, follows'⟩ := follows
      exact Nat.le_trans (ih w follows') (Stance.steps_draws steps)
  | set w' next ih =>
      obtain ⟨σ', steps, follows'⟩ := follows
      exact Nat.le_trans (ih follows') (Stance.steps_draws steps)
  | fork ts next ih => exact Nat.le_add_right _ _
  | ask r next ih =>
      have started : (r.start w.takeTicket.2 w.takeTicket.1).1.jitter = w.jitter := r.jitter_start _ _
      have relies : w.Relies regime (r.start w.takeTicket.2 w.takeTicket.1).1 := r.start_relies w
      have absent (rule : RuleId) := r.absent_of_settled rule w.takeTicket.2 w.takeTicket.1
      rw [stretch]
      generalize w.takeTicket = taken at started relies absent
      obtain ⟨w₁, ticket⟩ := taken
      dsimp only at started relies absent ⊢
      generalize r.start ticket w₁ = begun at started relies absent
      obtain ⟨w₂, wait⟩ := begun
      dsimp only at started relies absent ⊢
      cases settled : r.isSettled wait with
      | false => exact started ▸ Nat.le_add_right _ _
      | true =>
          cases r with
          | existingSlot rule =>
              cases wait with
              | some c => exact absurd settled (by simp [Request.isSettled])
              | none =>
                  obtain ⟨rfl, goes⟩ := follows
                  have moved : w.Relies regime w₂.moved := relies.trans (.of_rules rfl rfl)
                  have later := ih none ((goes w₂.moved moved).1 (absent rule rfl rfl))
                  exact started ▸ later
          | _ => exact absurd settled (by simp [Request.isSettled])

/-- A move of a thread draws at most once, if the moves of its tasks do. -/
theorem Thread.Sound.draws (env : Surroundings regime (fun _ => False) E) {t : Tasks T C}
    {childMove : World → C → World → C → Prop} {th th' : Thread T C α}
    (sound : th.Sound regime tasks σ w) (e : E σ w) (move : Thread.Move t childMove w th w' th')
    (child : ∀ {children line next} {i : Nat} {c c' : C}, th = .joining children line next →
      children[i]? = some c → childMove w c w' c' → w'.jitter.taken ≤ w.jitter.taken + 1) :
    w'.jitter.taken ≤ w.jitter.taken + 1 := by
  have once {σ : Stance} {w w' : World} (h : w'.jitter.taken ≤ w.jitter.taken + σ.debt) :
      w'.jitter.taken ≤ w.jitter.taken + 1 :=
    Nat.le_trans h (Nat.add_le_add_left σ.debt_le _)
  cases move with
  | @begin p =>
      obtain ⟨rfl, follows⟩ := sound
      exact once (p.stretch_draws t (follows w (.of_rules rfl rfl) (env.coherent e)))
  | @resume r ticket wait next w₁ a answered =>
      have polled := Request.polled env sound e fun _ _ => id
      have same := r.jitter_poll wait w
      rw [answered] at polled same
      obtain ⟨σ₁, -, follows⟩ := polled
      have drawn := once ((next a).stretch_draws t follows)
      exact same ▸ drawn
  | @wait r ticket wait next w' wait' waiting =>
      have same := r.jitter_poll wait w
      rw [waiting] at same
      exact same ▸ Nat.le_succ _
  | child member move => exact child rfl member move
  | line => exact Nat.le_succ _
  | @join children line next results all =>
      obtain ⟨rfl, -, goes⟩ := sound
      exact once ((next results).stretch_draws t (goes results w))

/-- However many calls are under way, a move of one of them draws at most once. -/
theorem Scene.Sound.draws {I : World → (RuleId → Option Work) → Prop} {s : Scene}
    {st : Place → Stance} {holders : RuleId → Option Work} (h : s.Sound regime I st holders) {i : Nat}
    {c c' : CallThread Reply} (here : s.calls[i]? = some c) (move : CallThread.Move s.world c w' c') :
    w'.jitter.taken ≤ s.world.jitter.taken + 1 := by
  have kept : Kept regime fun _ _ => True := ⟨fun _ any => any, fun _ _ any => any⟩
  have free : s.Sound regime (fun _ _ => True) st holders := h.imp trivial
  have call := h.calls here
  refine call.own.draws (surroundings (kept.barring _) fun q _ => h.steady q) (free.around (i, none)) move ?_
  rintro children line next k v v' rfl member childMove
  have visit : Thread.Sound regime (fun _ => True) v (st (i, some k)) s.world := call.visits member
  exact visit.draws (surroundings (kept.barring _) fun q _ => h.steady q) (free.around (i, some k)) childMove
    fun _ _ impossible => impossible.elim

end ThresholdAlerts
