import ThresholdAlerts.Proofs.Passages
/-! Firing states in line with the rules: a rule that is gone is clear and tracked for its outbox alone, and
whatever is remembered of a rule is its present fingerprint. Main statement: every call that is made alone
leaves all firing states in line. -/
namespace ThresholdAlerts

open Prog

structure Holding.InLine (definition : Option Rule) (h : Holding) : Prop where
  spent : h.retired = true → h.state.phase = .clear ∧ h.outbox ≠ []
  gone : definition = none → h.retired = true
  current : ∀ r ∈ definition, ∀ known ∈ h.state.fingerprint, known = r.fingerprint

/-- All firing states are in line with the rules. -/
structure World.InLine (w : World) : Prop where
  rest : w.AtRest
  reconciled : w.engine.reconciled = w.engine.rules.snapshot.generation
  each : ∀ rule, ∀ h ∈ w.engine.tracker.held rule, h.InLine (w.rule? rule)

section Lines

variable {outside : World → World → Prop} {w w₁ w' : World} {rule : RuleId}

theorem Holding.mem_remains {h held : Holding} (mem : held ∈ h.remains) :
    held = h ∧ (h.retired = true → h.outbox ≠ []) := by
  rw [remains] at mem
  split at mem
  · exact absurd mem (by simp)
  · next kept => exact ⟨(Option.some.inj mem).symm, fun retired empty => kept ⟨retired, empty⟩⟩

/-- Whatever is brought in line is in line, unless it was retired while it was not clear. -/
theorem Holding.Reconciled.inLine {definition : Option Rule} {announced : Bool} {h h' : Option Holding}
    {events : List Event} (reconciled : Holding.Reconciled definition announced h events h')
    (spent : ∀ held ∈ h, held.retired = true → held.state.phase = .clear) :
    ∀ held ∈ h', held.InLine definition := by
  intro held mem
  cases reconciled with
  | untracked => exact absurd mem (by simp)
  | @tracked h h' time state retired outbox quiet =>
    obtain ⟨rfl, waits⟩ := Holding.mem_remains mem
    refine ⟨fun now => ⟨?_, waits now⟩, fun gone => ?_, fun r defined known remembered => ?_⟩
    · rw [state]
      cases was : h.retired with
      | true => exact (FiringState.settle_clear (spent h rfl was) ..).1
      | false =>
        rw [retired, was, Bool.false_or, Option.isNone_iff_eq_none] at now
        rw [now]
        rfl
    · rw [retired, gone]
      exact Bool.or_true _
    · obtain rfl := Option.mem_def.mp defined
      rw [state, FiringState.fingerprint_settle] at remembered
      exact (Option.some.inj remembered).symm

theorem World.InLine.spent (line : w.InLine) {h : Holding} (held : h ∈ w.engine.tracker.held rule)
    (retired : h.retired = true) : h.state.phase = .clear :=
  ((line.each rule h held).spent retired).1

theorem World.InLine.fits (line : w.InLine) {r : Rule} (defined : r ∈ w.rule? rule) :
    ∀ known ∈ (w.firing rule).fingerprint, known = r.fingerprint := by
  rw [World.firing_eq]
  cases before : w.engine.tracker.held rule with
  | none => exact fun _ => nofun
  | some h => exact (line.each rule h before).current r defined

theorem World.InLine.of_same (line : w.InLine) (tracker : w'.engine.tracker = w.engine.tracker)
    (snapshot : w'.engine.rules.snapshot = w.engine.rules.snapshot)
    (reconciled : w'.engine.reconciled = w.engine.reconciled) (rest : w'.AtRest) : w'.InLine := by
  refine ⟨rest, ?_, fun rule h held => ?_⟩
  · rw [reconciled, snapshot, line.reconciled]
  · rw [tracker] at held
    rw [World.rule?, snapshot]
    exact line.each rule h held

theorem World.InLine.invalidate (line : w.InLine) : (w.onRules (·.invalidate)).InLine :=
  line.of_same rfl rfl rfl line.rest.invalidate

theorem World.InLine.elsewhere (line : w.InLine) (change : w.Elsewhere w') : w'.InLine := by
  have engine := change.engine.1
  exact line.of_same (by rw [engine]) (by rw [engine]) (by rw [engine])
    (line.rest.of_same (by rw [engine]) (by rw [engine]))

theorem World.inLine_new {c : Config} (new : w.engine = .ofConfig c) : w.InLine := by
  have untracked (rule : RuleId) : w.engine.tracker.held rule = none := by
    rw [new]
    rfl
  refine ⟨⟨?_, fun rule => ?_, fun rule held mem => ?_, ?_, ?_⟩, ?_, fun rule h held => ?_⟩
  · rw [new]
    exact Tracker.coherent_empty
  · rw [new]
    rfl
  · exact absurd mem (by simp [untracked])
  · rw [new]
    rfl
  · rw [new]
    exact RuleSnapshot.indexed_empty 0 none
  · rw [new]
    rfl
  · exact absurd held (by simp [untracked])

/-! ### The rounds of a call -/

theorem World.Aligned.inLine {announced : Bool} {rules : List RuleId} {events : RuleId → List Event}
    (aligned : w.Aligned announced rules events w')
    (reconciled : w.engine.reconciled = w.engine.rules.snapshot.generation)
    (spent : ∀ rule, ∀ h ∈ w.engine.tracker.held rule, h.retired = true → h.state.phase = .clear)
    (others : ∀ rule ∉ rules, ∀ h ∈ w.engine.tracker.held rule, h.InLine (w.rule? rule)) : w'.InLine := by
  refine ⟨aligned.rest, by rw [aligned.reconciled, aligned.rules, reconciled], fun rule h held => ?_⟩
  rw [World.rule?, aligned.rules, ← World.rule?]
  by_cases mem : rule ∈ rules
  · exact (aligned.each rule mem).inLine (spent rule) h held
  · rw [aligned.others rule mem] at held
    exact others rule mem h held

theorem World.InLine.announced {events : RuleId → List Event} (line : w.InLine)
    (aligned : w.Aligned true [rule] events w') : w'.InLine :=
  aligned.inLine line.reconciled (fun _ _ => line.spent) fun rule' _ => line.each rule'

theorem World.TakesUp.same {events : List Event} (line : w.InLine)
    (takes : w.TakesUp w.engine.rules.snapshot.generation events w') : w' = w ∧ events = [] := by
  cases takes with
  | claims newer => exact absurd newer (by rw [line.reconciled]; exact Nat.lt_irrefl _)
  | passes => exact ⟨rfl, rfl⟩

theorem World.Fetched.inLine {e : SourceError} (line : w.InLine) (fetched : w.Fetched (.error e) w₁) : w₁.InLine :=
  line.of_same fetched.tracker fetched.took fetched.reconciled (fetched.atRest line.rest)

/-- New rules are of a generation that was not taken up before, and all that are tracked take them up. -/
theorem World.TakesUp.claimed {rules : List Rule} {events : List Event} (line : w.InLine)
    (fetched : w.Fetched (.ok rules) w₁) (takes : w₁.TakesUp w₁.engine.rules.snapshot.generation events w') :
    ∃ each, events = w.engine.tracker.ruleIds.flatMap each ∧
      (w₁.claimed w₁.engine.rules.snapshot.generation).Aligned false w.engine.tracker.ruleIds each w' := by
  rw [← fetched.tracker]
  cases takes with
  | claims newer each aligned => exact ⟨each, rfl, aligned⟩
  | passes older =>
    obtain ⟨now, same⟩ := fetched.took
    rw [fetched.reconciled, line.reconciled, same, RuleSnapshot.generation_build] at older
    exact absurd older (Nat.not_succ_le_self _)

theorem World.TakesUp.inLine {events : List Event} (line : w.InLine)
    (answer : Except SourceError (List Rule)) (fetched : w.Fetched answer w₁)
    (takes : w₁.TakesUp w₁.engine.rules.snapshot.generation events w') : w'.InLine := by
  cases answer with
  | error e =>
    have line₁ := fetched.inLine line
    exact (takes.same line₁).1 ▸ line₁
  | ok rules =>
    obtain ⟨each, -, aligned⟩ := takes.claimed line fetched
    refine aligned.inLine rfl (fun rule h held => line.spent (fetched.tracker ▸ held)) fun rule absent h held => ?_
    have untracked : w₁.engine.tracker.held rule = none := by
      rw [fetched.tracker]
      exact Tracker.held_of_unlisted absent
    exact absurd (untracked.symm.trans held) (by simp)

theorem World.Judged.inLine {value : Float} {time : Timestamp} {metric : String}
    {rulings : List (FiringState × List Event)} (line : w.InLine)
    (judged : w.Judged value time (w.engine.rules.snapshot.rulesFor metric) rulings w') : w'.InLine := by
  refine ⟨judged.rest, by rw [judged.reconciled, judged.rules, line.reconciled], fun rule h held => ?_⟩
  rw [World.rule?, judged.rules, ← World.rule?]
  by_cases mem : rule ∈ (w.engine.rules.snapshot.rulesFor metric).map Rule.id
  · obtain ⟨r, listed, rfl⟩ := List.mem_map.mp mem
    have known : w.rule? r.id = some r := (line.rest.indexed.listed listed).1
    obtain ⟨fresh, h', -, there, state, kept⟩ := judged.judges listed
    obtain rfl := Option.some.inj (there.symm.trans held)
    rw [known]
    refine ⟨fun retired => absurd (kept.symm.trans retired) Bool.false_ne_true, by simp, ?_⟩
    intro r' defined known remembered
    obtain rfl := Option.some.inj defined
    rw [state] at remembered
    rcases (w.firing r.id).fingerprint_judge fresh r value time with old | new
    · rw [old] at remembered
      exact line.fits ‹w.rule? r.id = some r› known remembered
    · rw [new] at remembered
      exact (Option.some.inj remembered).symm
  · rw [judged.others rule mem] at held
    exact line.each rule h held

theorem World.Relieved.inLine (line : w.InLine) (relieved : w.Relieved w') : w'.InLine := by
  refine ⟨relieved.rest, by rw [relieved.reconciled, relieved.rules, line.reconciled], fun rule h held => ?_⟩
  rw [World.rule?, relieved.rules, ← World.rule?]
  rcases relieved.each rule with same | sent
  · exact line.each rule h (same ▸ held)
  · have each := line.each rule
    generalize w.engine.tracker.held rule = before at sent each
    generalize w'.engine.tracker.held rule = after at sent held
    cases sent with
    | untracked => exact absurd held (by simp)
    | gone => exact absurd held (by simp)
    | @tracked h₀ h' state retired outbox spent =>
      obtain rfl := Option.some.inj held
      have was := each h₀ rfl
      refine ⟨fun now => ⟨?_, fun empty => spent now empty⟩, fun gone => retired.trans (was.gone gone), ?_⟩
      · rw [state]
        exact (was.spent (retired.symm.trans now)).1
      · rw [state]
        exact was.current

/-! ### Every call -/

theorem World.Reads.inLine {events : List Event} (line : w.InLine) (reads : w.Reads outside w₁)
    (takes : w₁.TakesUp w₁.engine.rules.snapshot.generation events w') : w'.InLine := by
  cases reads with
  | valid fresh same =>
    have line₁ : w₁.InLine := line.of_same same.tracker (congrArg RuleStore.snapshot same.rules) same.reconciled
      (same.atRest line.rest)
    exact (takes.same line₁).1 ▸ line₁
  | fetched stale answer fetched source => exact takes.inLine line answer fetched

/-- Every call that is made alone leaves all firing states in line. -/
theorem Call.Comes.inLine {call : Call} {reply : Reply} (line : w.InLine) (comes : call.Comes outside w reply w') :
    w'.InLine := by
  cases comes with
  | sampled reads takes judged =>
    have snapshot := congrArg RuleStore.snapshot takes.rules
    rw [← snapshot] at judged
    exact judged.inLine (reads.inLine line takes)
  | notEdited fetched source aligned =>
    exact (fetched.inLine line).invalidate.announced aligned
  | edited fetched source takes aligned => exact (takes.inLine line _ fetched).announced aligned
  | notRefreshed fetched source => exact fetched.inLine line
  | refreshed fetched source takes => exact takes.inLine line _ fetched
  | retried relieved => exact relieved.inLine line

end Lines

end ThresholdAlerts
