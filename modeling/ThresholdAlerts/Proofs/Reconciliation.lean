import ThresholdAlerts.Proofs.Books
import ThresholdAlerts.Proofs.Rebuilds
/-! Reconciliation over any course of calls. Main statement: after each call the tracked rules are in line with
the rules of the present snapshot, and a refresh closes exactly the open alerts whose rules are gone or were
changed since. -/
namespace ThresholdAlerts

open Prog

/-- Why an open alert is closed when its rule has this definition. -/
def FiringState.endReason (s : FiringState) (definition : Option Rule) : Option ResolveReason :=
  match definition, s.fingerprint with
  | none, _ => some .ruleRemoved
  | some r, some known => if known = r.fingerprint then none else some .ruleChanged
  | some _, none => none

/-- The end of the open alert of a rule that is due at the rules of `w'`. -/
def World.closing (w w' : World) (rule : RuleId) (time : Timestamp) : Option Event :=
  (w.firing rule).openAlertId.bind fun id =>
    ((w.firing rule).endReason (w'.rule? rule)).map fun reason => .resolved id rule time reason

section Reconciliation

variable {outside : World → World → Prop} {w w₁ w' : World} {rule : RuleId}

theorem FiringState.settle_snd (s : FiringState) (definition : Option Rule) (time : Timestamp) :
    (s.settle definition false time).2 =
      s.openAlertId.bind fun id => (s.endReason definition).map fun reason => s.closing id reason time := by
  cases definition with
  | none =>
    rw [settle, forceResolve]
    cases s.openAlertId <;> simp [endReason]
  | some r =>
    rw [settle, if_neg Bool.false_ne_true, syncRule]
    cases remembered : s.fingerprint with
    | none => simp [endReason, remembered]
    | some known =>
      dsimp only
      split
      · next same => simp [endReason, remembered, same]
      · next other =>
        rw [forceResolve]
        change (s.openAlertId.map fun id => s.closing id .ruleChanged time) = _
        cases s.openAlertId <;> simp [endReason, remembered, other]

/-- What is produced for a rule that is brought in line is the end of its alert, if that is due. -/
theorem Holding.Reconciled.closing {events : List Event} {h' : Option Holding} (rest : w.AtRest)
    (reconciled : Holding.Reconciled (w'.rule? rule) false (w.engine.tracker.held rule) events h') :
    ∃ time, events = (w.closing w' rule time).toList := by
  have firing := w.firing_eq rule
  have named : (w.firing rule).ruleId = rule := rest.firing_ruleId rule
  generalize w.engine.tracker.held rule = h at reconciled firing
  cases reconciled with
  | untracked =>
    refine ⟨default, ?_⟩
    rw [World.closing, firing]
    rfl
  | @tracked h h' time =>
    refine ⟨time, ?_⟩
    rw [show h.state = w.firing rule from firing.symm, FiringState.settle_snd, World.closing]
    simp only [FiringState.closing, named]

theorem World.Aligned.named {announced : Bool} {rules : List RuleId} {events : RuleId → List Event}
    (aligned : w.Aligned announced rules events w') (rest : w.AtRest) (mem : rule ∈ rules) :
    ∀ event ∈ events rule, event.ruleId = rule := by
  intro event made
  have reconciled := aligned.each rule mem
  have own : ∀ h ∈ w.engine.tracker.held rule, h.state.ruleId = rule := fun h => rest.named
  generalize w.engine.tracker.held rule = before at reconciled own
  generalize w'.engine.tracker.held rule = after at reconciled
  generalize events rule = events at reconciled made
  cases reconciled with
  | untracked => exact absurd made (by simp)
  | tracked time => exact (FiringState.ruleId_settle (Option.mem_toList.mp made)).trans (own _ rfl)

/-- When new rules are taken up, each tracked rule has a part of its own in the events. -/
theorem World.TakesUp.parted {rules : List Rule} {events : List Event} (line : w.InLine)
    (fetched : w.Fetched (.ok rules) w₁)
    (takes : w₁.TakesUp w₁.engine.rules.snapshot.generation events w') :
    ∃ each, (w₁.claimed w₁.engine.rules.snapshot.generation).Aligned false w.engine.tracker.ruleIds each w' ∧
      ∀ rule, events.filter (·.ruleId = rule) = if rule ∈ w.engine.tracker.ruleIds then each rule else [] := by
  obtain ⟨each, rfl, aligned⟩ := takes.claimed line fetched
  have rest : (w₁.claimed w₁.engine.rules.snapshot.generation).AtRest := (fetched.atRest line.rest).of_same rfl rfl
  refine ⟨each, aligned, fun rule => ?_⟩
  have own (rule' : RuleId) (mem : rule' ∈ w.engine.tracker.ruleIds) :
      (each rule').filter (·.ruleId = rule) = if rule' = rule then each rule' else [] := by
    have named := aligned.named rest mem
    split
    · next here => exact List.filter_eq_self.mpr fun event made => decide_eq_true ((named event made).trans here)
    · next other =>
      refine List.filter_eq_nil_iff.mpr fun event made about => other ?_
      exact (named event made).symm.trans (of_decide_eq_true about)
  rw [List.filter_flatMap, List.flatMap_congr own, flatMap_of_nodup w.engine.tracker.nodup_ruleIds]

/-- When new rules are taken up exactly the open alerts are closed that are due. -/
theorem World.TakesUp.closings {rules : List Rule} {events : List Event} (line : w.InLine)
    (fetched : w.Fetched (.ok rules) w₁)
    (takes : w₁.TakesUp w₁.engine.rules.snapshot.generation events w') (rule : RuleId) :
    ∃ time, events.filter (·.ruleId = rule) = (w.closing w' rule time).toList := by
  obtain ⟨each, aligned, parts⟩ := takes.parted line fetched
  have known : (w₁.claimed w₁.engine.rules.snapshot.generation).rule? rule = w'.rule? rule := by
    rw [World.rule?, World.rule?, aligned.rules]
  rw [parts]
  split
  · next mem =>
    have reconciled := aligned.each rule mem
    rw [known] at reconciled
    change Holding.Reconciled _ _ (w₁.engine.tracker.held rule) _ _ at reconciled
    rw [fetched.tracker] at reconciled
    exact reconciled.closing line.rest
  · next absent =>
    refine ⟨default, ?_⟩
    rw [World.closing, World.firing_eq, Tracker.held_of_unlisted absent]
    rfl

/-! ### Courses -/

/-- A course of calls leaves all firing states in line, if a recovery is made at the beginning at most. -/
theorem Course.inLine {c : Config} {ps : List Passage} (new : w.engine = .ofConfig c)
    (course : Course (Passage.Runs World.Elsewhere) World.Elsewhere w ps w')
    (first : ∀ p ∈ ps.head?, p.call = .recover ∨ p.call.IsRoutine)
    (later : ∀ p ∈ ps.tail, p.call.IsRoutine) :
    ∀ p ∈ ps, p.Runs World.Elsewhere ∧ p.before.InLine ∧ p.after.InLine := by
  have line : w.InLine := World.inLine_new new
  have gap {w w' : World} (line : w.InLine) (change : w.Elsewhere w') : w'.InLine := line.elsewhere change
  have call (p : Passage) (routine : p.call.IsRoutine) (line : p.before.InLine)
      (ran : p.Runs World.Elsewhere) : p.after.InLine :=
    (ran.comes line.rest id routine).inLine line
  cases course with
  | nil => simp
  | @cons _ p ps _ change ran rest =>
    have before := line.elsewhere change
    have after : p.after.InLine := by
      rcases first p rfl with recovers | routine
      · have ends : p.call.program.Ensures (Pact.alone World.Elsewhere) (Team.polled World.Elsewhere) p.before
            fun _ w' => w'.InLine := by
          rw [recovers]
          refine (ensures_recover before id fun rule => ?_).bind fun answer w' ⟨line, _⟩ => ?_
          · rw [change.engine.1, new]
            rfl
          · cases answer <;> exact ensures_pure line
        exact ran.ends ends
      · exact call p routine before ran
    obtain ⟨each, -⟩ := rest.keeps after gap fun p mem => call p (later p mem)
    exact List.forall_mem_cons.mpr ⟨⟨ran, before, after⟩, each⟩

/-- After each call of a course a tracked rule that is gone is clear and has something to be delivered, and a
tracked rule that is there remembers its present fingerprint or none. A refresh that succeeds returns the ends
of the open alerts that are due, and nothing else. -/
theorem Course.reconciles {c : Config} {ps : List Passage} (new : w.engine = .ofConfig c)
    (course : Course (Passage.Runs World.Elsewhere) World.Elsewhere w ps w')
    (first : ∀ p ∈ ps.head?, p.call = .recover ∨ p.call.IsRoutine)
    (later : ∀ p ∈ ps.tail, p.call.IsRoutine) :
    ∀ p ∈ ps,
      (∀ rule ∈ p.after.engine.tracker.ruleIds,
        (p.after.rule? rule = none →
          (p.after.firing rule).status = .clear ∧ (p.after.account rule).outbox ≠ []) ∧
        ∀ r, p.after.rule? rule = some r →
          ∀ known ∈ (p.after.firing rule).fingerprint, known = r.fingerprint) ∧
      ∀ events, p.call = .refresh → p.reply = .events events →
        ∀ rule, ∃ time, events.filter (·.ruleId = rule) = (p.before.closing p.after rule time).toList := by
  intro p mem
  obtain ⟨ran, before, after⟩ := course.inLine new first later p mem
  refine ⟨fun rule tracked => ?_, fun events refresh answered rule => ?_⟩
  · obtain ⟨h, held⟩ := Option.ne_none_iff_exists'.mp fun absent =>
      Tracker.mem_ruleIds.mp tracked (Tracker.find?_eq_none.mpr absent)
    have firing : p.after.firing rule = h.state := by rw [World.firing_eq, held, Option.getD_some]
    have outbox : (p.after.account rule).outbox = h.outbox := by
      rw [(after.rest.vacant rule).account, held]
      rfl
    have line := after.each rule h held
    refine ⟨fun gone => ?_, fun r there known remembered => ?_⟩
    · obtain ⟨clear, waits⟩ := line.spent (line.gone gone)
      rw [firing, FiringState.status, clear, outbox]
      exact ⟨rfl, waits⟩
    · exact line.current r there known (firing ▸ remembered)
  · have comes := ran.comes before.rest id (by rw [refresh]; trivial)
    rw [refresh, answered] at comes
    cases comes with
    | refreshed fetched source takes => exact takes.closings before fetched rule

end Reconciliation

/-- The load rises, the rule is taken away, and the refresh closes its alert. -/
theorem Course.reconciles_removed_rule :
    let w : World := .watched { workers := 1 } {}
    let loaded := Passage.made .refresh w
    let risen := Passage.made (.sample "load" 95 default) loaded.after
    let removed := Passage.made .refresh (risen.after.editSource (.setList []))
    (removed.before.closing removed.after "high-load" default =
        some (.resolved "" "high-load" default .ruleRemoved)) ∧
      ∃ events, removed.reply = .events events ∧ ∀ rule, ∃ time,
        events.filter (·.ruleId = rule) = (removed.before.closing removed.after rule time).toList := by
  intro w loaded risen removed
  have still (w : World) : w.Elsewhere w := ⟨_, _, _, _, _, _, _, Nat.le_refl _, rfl⟩
  have edited : risen.after.Elsewhere removed.before := ⟨_, _, _, _, _, _, _, Nat.le_refl _, rfl⟩
  have ran₁ : loaded.Runs World.Elsewhere := Passage.runs_made (by decide +kernel)
  have ran₂ : risen.Runs World.Elsewhere := Passage.runs_made (by decide +kernel)
  have ran₃ : removed.Runs World.Elsewhere := Passage.runs_made (by decide +kernel)
  have course : Course (Passage.Runs World.Elsewhere) World.Elsewhere w [loaded, risen, removed] removed.after :=
    .cons (still _) ran₁ (.cons (still _) ran₂ (.cons edited ran₃ (.nil _)))
  obtain ⟨events, answered⟩ := Option.isSome_iff_exists.mp
    (show (removed.reply.events?).isSome = true by decide +kernel)
  have answered := Reply.eq_events answered
  have routine : ∀ p ∈ [risen, removed], p.call.IsRoutine := by
    intro p mem
    rcases List.mem_pair.mp mem with rfl | rfl <;> trivial
  obtain ⟨-, closings⟩ := Course.reconciles (c := { workers := 1 }) rfl course
    (fun p mem => .inr (by obtain rfl := Option.some.inj mem; trivial)) routine removed
    (by simp)
  exact ⟨by decide +kernel, events, answered, closings events rfl answered⟩

end ThresholdAlerts
