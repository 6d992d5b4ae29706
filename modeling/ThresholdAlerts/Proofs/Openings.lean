import ThresholdAlerts.Proofs.Lines
/-! The ids of new alerts. Main statement: the ids of the alerts that are opened in a course of calls are drawn from
the supply one after the other. -/
namespace ThresholdAlerts

open Function

def Supply.Yields (s : Supply α) (values : List α) : Prop :=
  values = (List.range' s.taken values.length).map s.value

section Ids

variable {s : Supply α} {values values' : List α}

theorem Supply.yields_nil (s : Supply α) : s.Yields [] := rfl

theorem Supply.Yields.append (first : s.Yields values) (later : (s.after values.length).Yields values') :
    s.Yields (values ++ values') := by
  rw [Yields] at first later ⊢
  have whole : List.range' s.taken (values ++ values').length =
      List.range' s.taken values.length ++ List.range' (s.taken + values.length) values'.length := by
    rw [List.length_append, List.range'_append_1]
  rw [whole, List.map_append, ← first]
  exact congrArg (values ++ ·) later

theorem Supply.Yields.zip {s' : Supply α} (yields : s.Yields values) (yields' : s'.Yields values') :
    ∀ pair ∈ values.zip values', ∃ n, s.value (s.taken + n) = pair.1 ∧ s'.value (s'.taken + n) = pair.2 := by
  intro pair mem
  rw [yields, yields'] at mem
  obtain ⟨n, inside, rfl⟩ := List.mem_iff_getElem.mp mem
  exact ⟨n, by simp, by simp⟩

namespace FiringState

theorem opens_judge (s : FiringState) (fresh : AlertId) (r : Rule) (value : Float) (time : Timestamp) :
    Event.opens (s.judge fresh r value time).2 = [] ∨ Event.opens (s.judge fresh r value time).2 = [fresh] := by
  rw [judge]
  cases r.breaches value with
  | error e => exact .inl rfl
  | ok breached =>
    dsimp only
    rw [Event.opens_append, opens_syncRule, List.nil_append]
    generalize (s.syncRule r time).1 = s
    simp only [transition, nextPhase, countBreach]
    repeat' split
    all_goals first | exact .inl rfl | exact .inr rfl

theorem yields_judgeEach (state : RuleId → FiringState) (value : Float) (time : Timestamp) (ids : Supply AlertId)
    (rules : List Rule) : ids.Yields (Event.opens ((judgeEach state value time ids rules).flatMap (·.2))) := by
  induction rules generalizing ids with
  | nil => exact ids.yields_nil
  | cons r rest ih =>
    rw [judgeEach, List.flatMap_cons, Event.opens_append]
    refine Supply.Yields.append ?_ (ih _)
    rcases (state r.id).opens_judge ids.next r value time with none | one
    · rw [none]
      exact ids.yields_nil
    · rw [one]
      rfl

/-- Only samples open alerts. -/
theorem opens_settle (s : FiringState) (definition : Option Rule) (announced : Bool) (time : Timestamp) :
    Event.opens (s.settle definition announced time).2.toList = [] := by
  cases definition with
  | none =>
    rw [settle, forceResolve]
    cases s.openAlertId <;> rfl
  | some r =>
    cases announced with
    | false => exact s.opens_syncRule r time
    | true => exact s.opens_syncRule r time

end FiringState

end Ids

section Openings

variable {outside : World → World → Prop} {w w₁ w' : World}

/-! ### Rounds -/

theorem World.Judged.yields {value : Float} {time : Timestamp} {listed : List Rule}
    {rulings : List (FiringState × List Event)} (judged : w.Judged value time listed rulings w') :
    w.ids.Yields (Event.opens (rulings.flatMap (·.2))) := by
  rw [judged.judged]
  exact FiringState.yields_judgeEach ..

theorem Event.opens_flatMap_eq_nil {α : Type} {l : List α} {f : α → List Event}
    (each : ∀ a ∈ l, Event.opens (f a) = []) : Event.opens (l.flatMap f) = [] := by
  induction l with
  | nil => rfl
  | cons a l ih =>
    obtain ⟨here, others⟩ := List.forall_mem_cons.mp each
    rw [List.flatMap_cons, Event.opens_append, here, ih others, List.nil_append]

theorem Holding.Reconciled.opens {definition : Option Rule} {announced : Bool} {h h' : Option Holding}
    {events : List Event} (reconciled : Holding.Reconciled definition announced h events h') :
    Event.opens events = [] := by
  cases reconciled with
  | untracked => rfl
  | tracked => exact FiringState.opens_settle ..

theorem World.TakesUp.opens {generation : Nat} {events : List Event} (takes : w.TakesUp generation events w') :
    Event.opens events = [] := by
  cases takes with
  | claims newer events aligned => exact Event.opens_flatMap_eq_nil fun rule mem => (aligned.each rule mem).opens
  | passes older => rfl

/-! ### Calls -/

theorem World.Reads.ids (reads : w.Reads outside w') : w'.ids = w.ids := by
  cases reads with
  | valid fresh same => exact same.ids
  | fetched stale answer fetched source => exact fetched.ids

/-- The ids of the alerts that a call opens are drawn one after the other. -/
theorem Call.Comes.yields {call : Call} {reply : Reply} (comes : call.Comes outside w reply w') :
    w.ids.Yields (Event.opens (reply.events?.getD [])) ∧
      w'.ids = w.ids.after (Event.opens (reply.events?.getD [])).length := by
  cases comes with
  | @sampled _ _ _ _ _ _ _ early rulings reads takes judged =>
    have ids := takes.ids.trans reads.ids
    have opens : Event.opens (early ++ rulings.flatMap (·.2)) = Event.opens (rulings.flatMap (·.2)) := by
      rw [Event.opens_append, takes.opens, List.nil_append]
    change w.ids.Yields (Event.opens (early ++ _)) ∧ _ = w.ids.after (Event.opens (early ++ _)).length
    rw [opens, ← ids]
    exact ⟨judged.yields, judged.ids⟩
  | notEdited fetched source aligned => exact ⟨w.ids.yields_nil, aligned.ids.trans fetched.ids⟩
  | @edited rule' _ _ _ _ _ early late fetched source takes aligned =>
    have opens : Event.opens (early ++ late) = [] := by
      rw [Event.opens_append, takes.opens, (aligned.each rule' (List.mem_singleton_self rule')).opens, List.nil_append]
    change w.ids.Yields (Event.opens (early ++ late)) ∧ _ = w.ids.after (Event.opens (early ++ late)).length
    rw [opens]
    exact ⟨w.ids.yields_nil, aligned.ids.trans (takes.ids.trans fetched.ids)⟩
  | notRefreshed fetched source => exact ⟨w.ids.yields_nil, fetched.ids⟩
  | @refreshed _ _ _ _ events fetched source takes =>
    change w.ids.Yields (Event.opens events) ∧ _ = w.ids.after (Event.opens events).length
    rw [takes.opens]
    exact ⟨w.ids.yields_nil, takes.ids.trans fetched.ids⟩
  | retried relieved => exact ⟨w.ids.yields_nil, relieved.ids⟩

/-- What some calls produced, the oldest first. -/
def Passage.events (qs : List Passage) : List Event :=
  qs.flatMap fun q => q.reply.events?.getD []

/-- The ids of the alerts that are opened in a course of calls are drawn one after the other. -/
theorem Course.yields {during : World → World → Prop} {ps : List Passage} (line : w.InLine)
    (calm : ∀ {w w'}, during w w' → w.Elsewhere w')
    (course : Course (Passage.Runs during) World.Elsewhere w ps w') (routine : ∀ p ∈ ps, p.call.IsRoutine) :
    w.ids.Yields (Event.opens (Passage.events ps)) := by
  induction course with
  | nil => exact Supply.yields_nil _
  | @cons w p ps w' gap ran rest ih =>
    obtain ⟨here, later⟩ := List.forall_mem_cons.mp routine
    have before := line.elsewhere gap
    have comes := ran.comes before.rest calm here
    obtain ⟨first, ids⟩ := comes.yields
    have others := ih (comes.inLine before) later
    obtain ⟨-, -, -, same⟩ := gap.engine
    rw [same] at first ids
    rw [ids] at others
    rw [Passage.events, List.flatMap_cons, Event.opens_append]
    exact first.append others

/-- No two alerts are opened under one id unless the id is drawn twice. -/
theorem Course.opens_nodup {during : World → World → Prop} {ps : List Passage} (line : w.InLine)
    (distinct : Injective w.ids.value) (calm : ∀ {w w'}, during w w' → w.Elsewhere w')
    (course : Course (Passage.Runs during) World.Elsewhere w ps w') (routine : ∀ p ∈ ps, p.call.IsRoutine) :
    (Event.opens (Passage.events ps)).Nodup := by
  rw [course.yields line calm routine]
  exact List.Nodup.map distinct List.nodup_range'

end Openings

end ThresholdAlerts
