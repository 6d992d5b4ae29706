import Mathlib.Data.List.Sort
import ThresholdAlerts.Proofs.Reconciliation
/-! Two engines that get the same calls, the same rules and the same supply of ids, but different sinks. They
may track different rules, remember different fingerprints of rules that are clear and have other events
waiting. Main statement: their firing states go the same way all the same, and they answer with the same
events. -/
namespace ThresholdAlerts

open Prog

namespace FiringState

/-- The states differ at most in what is remembered of a rule while it is clear, and in when it was seen. -/
structure Agrees (s s' : FiringState) : Prop where
  ruleId : s'.ruleId = s.ruleId
  phase : s'.phase = s.phase
  fingerprint : s.phase ≠ .clear → s'.fingerprint = s.fingerprint

variable {s s' s'' : FiringState}

theorem Agrees.refl (s : FiringState) : s.Agrees s :=
  ⟨rfl, rfl, fun _ => rfl⟩

theorem Agrees.symm (h : s.Agrees s') : s'.Agrees s :=
  ⟨h.ruleId.symm, h.phase.symm, fun busy => (h.fingerprint (h.phase ▸ busy)).symm⟩

theorem Agrees.trans (h : s.Agrees s') (h' : s'.Agrees s'') : s.Agrees s'' :=
  ⟨h'.ruleId.trans h.ruleId, h'.phase.trans h.phase,
    fun busy => (h'.fingerprint (h.phase.symm ▸ busy)).trans (h.fingerprint busy)⟩

theorem agrees_of_clear (ruleId : s'.ruleId = s.ruleId) (clear : s.phase = .clear) (clear' : s'.phase = .clear) :
    s.Agrees s' :=
  ⟨ruleId, clear'.trans clear.symm, fun busy => absurd clear busy⟩

theorem Agrees.eq (h : s.Agrees s') (busy : s.phase ≠ .clear) : s' = { s with lastSampleAt := s'.lastSampleAt } := by
  obtain ⟨ruleId, phase, fingerprint⟩ := h
  rw [← ruleId, ← phase, ← fingerprint busy]

theorem agrees_seen (s : FiringState) (seen : Option Timestamp) : s.Agrees { s with lastSampleAt := seen } :=
  ⟨rfl, rfl, fun _ => rfl⟩

theorem Agrees.status (h : s.Agrees s') : s'.status = s.status := by
  rw [FiringState.status, h.phase, FiringState.status]

theorem Agrees.breaches (h : s.Agrees s') : s'.breaches = s.breaches := by
  rw [FiringState.breaches, h.phase, FiringState.breaches]

theorem Agrees.openAlertId (h : s.Agrees s') : s'.openAlertId = s.openAlertId := by
  rw [FiringState.openAlertId, h.phase, FiringState.openAlertId]

/-! ### Settling -/

theorem syncRule_seen (s : FiringState) (seen : Option Timestamp) (r : Rule) (time : Timestamp) :
    FiringState.syncRule { s with lastSampleAt := seen } r time =
      ({ (s.syncRule r time).1 with lastSampleAt := seen }, (s.syncRule r time).2) := by
  obtain ⟨rule, phase, fingerprint, last⟩ := s
  simp only [syncRule]
  cases fingerprint with
  | none => rfl
  | some known =>
    dsimp only
    split <;> rfl

theorem dropPending_seen (s : FiringState) (seen : Option Timestamp) :
    FiringState.dropPending { s with lastSampleAt := seen } = { s.dropPending with lastSampleAt := seen } := by
  obtain ⟨rule, phase, fingerprint, last⟩ := s
  cases phase <;> rfl

theorem settle_seen (s : FiringState) (seen : Option Timestamp) (definition : Option Rule) (announced : Bool)
    (time : Timestamp) :
    FiringState.settle { s with lastSampleAt := seen } definition announced time =
      ({ (s.settle definition announced time).1 with lastSampleAt := seen },
        (s.settle definition announced time).2) := by
  cases definition with
  | none => rfl
  | some r =>
    cases announced with
    | false => exact s.syncRule_seen seen r time
    | true =>
      simp only [settle, if_pos, resetHysteresis, syncRule_seen]
      exact congrArg (·, _) ((s.syncRule r time).1.dropPending_seen seen)

theorem settle_ruleId (s : FiringState) (definition : Option Rule) (announced : Bool) (time : Timestamp) :
    (s.settle definition announced time).1.ruleId = s.ruleId := by
  obtain ⟨c, same, -⟩ := s.settle_eq_apply definition announced time
  rw [same, apply_ruleId]

theorem Agrees.settle (h : s.Agrees s') (definition : Option Rule) (announced : Bool) (time : Timestamp) :
    (s.settle definition announced time).1.Agrees (s'.settle definition announced time).1 ∧
      (s'.settle definition announced time).2 = (s.settle definition announced time).2 := by
  by_cases clear : s.phase = .clear
  · obtain ⟨stays, silent⟩ := settle_clear clear definition announced time
    obtain ⟨stays', silent'⟩ := settle_clear (h.phase.trans clear) definition announced time
    refine ⟨agrees_of_clear ?_ stays stays', silent'.trans silent.symm⟩
    rw [settle_ruleId, settle_ruleId, h.ruleId]
  · have same := s.settle_seen s'.lastSampleAt definition announced time
    rw [← h.eq clear] at same
    rw [same]
    exact ⟨agrees_seen _ _, rfl⟩

end FiringState

/-- The events are the same, but for the time at which an alert is closed whose rule was edited or taken
away. -/
inductive Event.Matches : Event → Event → Prop
  | same (event : Event) : Matches event event
  | closed (id : AlertId) (rule : RuleId) (time time' : Timestamp) {reason : ResolveReason}
      (other : reason ≠ .recovered) : Matches (.resolved id rule time reason) (.resolved id rule time' reason)

theorem Event.forall₂_matches (events : List Event) : List.Forall₂ Event.Matches events events :=
  List.forall₂_same.mpr fun event _ => .same event

namespace FiringState

variable {s s' : FiringState}

theorem forceResolve_later (s : FiringState) {reason : ResolveReason} (other : reason ≠ .recovered)
    (time time' : Timestamp) : (s.forceResolve reason time').1 = (s.forceResolve reason time).1 ∧
      List.Forall₂ Event.Matches (s.forceResolve reason time).2.toList (s.forceResolve reason time').2.toList := by
  refine ⟨rfl, ?_⟩
  rw [forceResolve, forceResolve]
  cases s.openAlertId with
  | none => exact .nil
  | some id => exact .cons (.closed id s.ruleId time time' other) .nil

theorem syncRule_later (s : FiringState) (r : Rule) (time time' : Timestamp) :
    (s.syncRule r time').1 = (s.syncRule r time).1 ∧
      List.Forall₂ Event.Matches (s.syncRule r time).2.toList (s.syncRule r time').2.toList := by
  rw [syncRule, syncRule]
  cases s.fingerprint with
  | none => exact ⟨rfl, .nil⟩
  | some known =>
    dsimp only
    split
    · exact ⟨rfl, .nil⟩
    · exact forceResolve_later _ (by decide) time time'

/-- When a state is settled only shows in its events. -/
theorem settle_later (s : FiringState) (definition : Option Rule) (announced : Bool) (time time' : Timestamp) :
    (s.settle definition announced time').1 = (s.settle definition announced time).1 ∧
      List.Forall₂ Event.Matches (s.settle definition announced time).2.toList
        (s.settle definition announced time').2.toList := by
  cases definition with
  | none => exact s.forceResolve_later (by decide) time time'
  | some r =>
    obtain ⟨state, events⟩ := s.syncRule_later r time time'
    cases announced with
    | false => exact ⟨state, events⟩
    | true => exact ⟨congrArg dropPending state, events⟩

theorem Agrees.settle_later (h : s.Agrees s') (definition : Option Rule) (announced : Bool)
    (time time' : Timestamp) :
    (s.settle definition announced time).1.Agrees (s'.settle definition announced time').1 ∧
      List.Forall₂ Event.Matches (s.settle definition announced time).2.toList
        (s'.settle definition announced time').2.toList := by
  obtain ⟨state, events⟩ := h.settle definition announced time'
  obtain ⟨same, matching⟩ := s.settle_later definition announced time time'
  rw [events]
  exact ⟨same ▸ state, matching⟩

/-! ### Judging -/

theorem Agrees.transition (h : s.Agrees s') (fingerprint : s'.fingerprint = s.fingerprint) (fresh : AlertId)
    (r : Rule) (breached : Bool) (value : Float) (time : Timestamp) :
    s'.transition fresh r breached value time = s.transition fresh r breached value time := by
  obtain ⟨rule, phase, known, seen⟩ := s
  obtain ⟨rule', phase', known', seen'⟩ := s'
  obtain ⟨rfl, rfl, -⟩ := h
  obtain rfl := fingerprint
  rfl

/-- States that agree judge a sample alike, for the fingerprint of the rule is renewed first. -/
theorem Agrees.judge (h : s.Agrees s') (fresh : AlertId) (r : Rule) (value : Float) (time : Timestamp) :
    (s.judge fresh r value time).1.Agrees (s'.judge fresh r value time).1 ∧
      (s'.judge fresh r value time).2 = (s.judge fresh r value time).2 := by
  rw [FiringState.judge, FiringState.judge]
  cases r.breaches value with
  | error e => exact ⟨h, rfl⟩
  | ok breached =>
    obtain ⟨agrees, ended⟩ : (s.syncRule r time).1.Agrees (s'.syncRule r time).1 ∧
        (s'.syncRule r time).2 = (s.syncRule r time).2 := h.settle (some r) false time
    have known : (s'.syncRule r time).1.fingerprint = (s.syncRule r time).1.fingerprint := by
      rw [fingerprint_syncRule, fingerprint_syncRule]
    have moved := agrees.transition known fresh r breached value time
    dsimp only
    rw [moved, ended]
    exact ⟨.refl _, rfl⟩

theorem judgeEach_agrees {state state' : RuleId → FiringState} (agrees : ∀ rule, (state rule).Agrees (state' rule))
    (value : Float) (time : Timestamp) (ids : Supply AlertId) (rules : List Rule) :
    List.Forall₂ (fun ruling ruling' => ruling.1.Agrees ruling'.1 ∧ ruling'.2 = ruling.2)
      (judgeEach state value time ids rules) (judgeEach state' value time ids rules) := by
  induction rules generalizing ids with
  | nil => exact .nil
  | cons r rest ih =>
    have here := (agrees r.id).judge ids.next r value time
    refine .cons here ?_
    rw [here.2]
    exact ih _

end FiringState

/-! ### What each round does to a firing state -/

section Rounds

variable {w w₁ w' : World} {rule : RuleId}

/-- Bringing a holding in line settles its state, and it is let go of only if it is clear. -/
theorem Holding.Reconciled.settles {definition : Option Rule} {announced : Bool} {h h' : Option Holding}
    {events : List Event} (reconciled : Holding.Reconciled definition announced h events h')
    (named : ∀ held ∈ h, held.state.ruleId = rule)
    (spent : ∀ held ∈ h, held.retired = true → held.state.phase = .clear) :
    let state := (h.getD (.initial rule)).state
    ∃ time, events = (state.settle definition announced time).2.toList ∧
      (state.settle definition announced time).1.Agrees (h'.getD (.initial rule)).state := by
  cases reconciled with
  | untracked =>
    obtain ⟨clear, silent⟩ := FiringState.settle_clear (s := (Holding.initial rule).state) rfl definition announced
      default
    refine ⟨default, ?_, FiringState.agrees_of_clear ?_ clear rfl⟩
    · rw [Option.getD_none, silent]
      rfl
    · rw [FiringState.settle_ruleId]
  | @tracked h h' time state retired outbox quiet =>
    refine ⟨time, rfl, ?_⟩
    rw [Option.getD_some, Holding.remains]
    split
    · next gone =>
      refine FiringState.agrees_of_clear ?_ ?_ rfl
      · rw [FiringState.settle_ruleId, named h rfl]
        rfl
      · cases was : h.retired with
        | true => exact (FiringState.settle_clear (spent h rfl was) ..).1
        | false =>
          rw [retired, was, Bool.false_or, Option.isNone_iff_eq_none] at gone
          rw [gone.1]
          rfl
    · rw [Option.getD_some, state]
      exact .refl _

theorem World.Aligned.settles {announced : Bool} {rules : List RuleId} {events : RuleId → List Event}
    (aligned : w.Aligned announced rules events w') (line : w₁.InLine)
    (tracker : w.engine.tracker = w₁.engine.tracker) (mem : rule ∈ rules) :
    ∃ time, events rule = ((w₁.firing rule).settle (w.rule? rule) announced time).2.toList ∧
      ((w₁.firing rule).settle (w.rule? rule) announced time).1.Agrees (w'.firing rule) := by
  have reconciled := aligned.each rule mem
  rw [tracker] at reconciled
  rw [World.firing_eq, World.firing_eq]
  exact reconciled.settles (fun _ => line.rest.named) fun _ => line.spent

/-- New rules settle every firing state, those of rules that are not tracked to no effect. -/
theorem World.TakesUp.settles {rules : List Rule} {events : List Event} (line : w.InLine)
    (fetched : w.Fetched (.ok rules) w₁) (takes : w₁.TakesUp w₁.engine.rules.snapshot.generation events w') :
    ∃ each, events = w.engine.tracker.ruleIds.flatMap each ∧ ∀ rule, ∃ time,
      (rule ∈ w.engine.tracker.ruleIds →
        each rule = ((w.firing rule).settle (w₁.rule? rule) false time).2.toList) ∧
      ((w.firing rule).settle (w₁.rule? rule) false time).1.Agrees (w'.firing rule) := by
  obtain ⟨each, same, aligned⟩ := takes.claimed line fetched
  refine ⟨each, same, fun rule => ?_⟩
  by_cases mem : rule ∈ w.engine.tracker.ruleIds
  · obtain ⟨time, events, agrees⟩ := aligned.settles line fetched.tracker mem
    exact ⟨time, fun _ => events, agrees⟩
  · have untracked := Tracker.held_of_unlisted mem
    have clear : (w.firing rule).phase = .clear := by
      rw [World.firing_eq, untracked]
      rfl
    have still : w'.engine.tracker.held rule = w.engine.tracker.held rule := by
      rw [aligned.others rule mem, ← fetched.tracker]
      rfl
    refine ⟨default, fun tracked => absurd tracked mem, ?_⟩
    rw [World.firing_of_held still]
    exact FiringState.agrees_of_clear (FiringState.settle_ruleId ..).symm (FiringState.settle_clear clear ..).1 clear

theorem World.Judged.firing {value : Float} {time : Timestamp} {rules : List Rule}
    {rulings : List (FiringState × List Event)} (judged : w.Judged value time rules rulings w') :
    List.Forall₂ (fun r ruling => w'.firing r.id = ruling.1) rules rulings ∧
      ∀ rule ∉ rules.map Rule.id, w'.firing rule = w.firing rule := by
  refine ⟨judged.each.imp ?_, fun rule absent => World.firing_of_held (judged.others rule absent)⟩
  rintro r ruling ⟨h, held, state, -⟩
  rw [World.firing_eq, held, Option.getD_some, state]

/-- Where the same rules judged a sample alike, the firing states go on having in common what they had. -/
theorem World.Judged.alike (common : FiringState → FiringState → Prop) {v v' : World} {value value' : Float}
    {time time' : Timestamp} {rules : List Rule} {rulings rulings' : List (FiringState × List Event)}
    (judged : v.Judged value time rules rulings v') (judged' : w.Judged value' time' rules rulings' w')
    (alike : List.Forall₂ (fun ruling ruling' => common ruling.1 ruling'.1) rulings rulings')
    (before : ∀ rule, common (v.firing rule) (w.firing rule)) (rule : RuleId) :
    common (v'.firing rule) (w'.firing rule) := by
  by_cases mem : rule ∈ rules.map Rule.id
  · obtain ⟨r, listed, rfl⟩ := List.mem_map.mp mem
    obtain ⟨i, inside, rfl⟩ := List.mem_iff_getElem.mp listed
    have inside₁ : i < rulings.length := judged.each.length_eq ▸ inside
    have inside₂ : i < rulings'.length := judged'.each.length_eq ▸ inside
    have after := judged.firing.1.get inside inside₁
    have after' := judged'.firing.1.get inside inside₂
    rw [List.get_eq_getElem] at after after'
    rw [after, after']
    exact alike.get inside₁ inside₂
  · rw [judged.firing.2 rule mem, judged'.firing.2 rule mem]
    exact before rule

theorem World.Relieved.firing (line : w.InLine) (relieved : w.Relieved w') (rule : RuleId) :
    (w.firing rule).Agrees (w'.firing rule) := by
  rcases relieved.each rule with same | sent
  · rw [World.firing_of_held same]
    exact .refl _
  · have spent : ∀ h ∈ w.engine.tracker.held rule, h.retired = true → h.state.phase = .clear := fun _ => line.spent
    have named : ∀ h ∈ w.engine.tracker.held rule, h.state.ruleId = rule := fun _ => line.rest.named
    rw [World.firing_eq, World.firing_eq]
    generalize w.engine.tracker.held rule = before at sent spent named
    generalize w'.engine.tracker.held rule = after at sent
    cases sent with
    | untracked => exact .refl _
    | @gone h retired => exact FiringState.agrees_of_clear (named h rfl).symm (spent h rfl retired) rfl
    | tracked state =>
      rw [Option.getD_some, Option.getD_some, state]
      exact .refl _

end Rounds

/-! ### Two engines -/

/-- Two engines that are in line with the same rules and whose firing states agree. -/
structure World.Twins (v w : World) : Prop where
  lines : v.InLine ∧ w.InLine
  firing : ∀ rule, (v.firing rule).Agrees (w.firing rule)
  rules : v.engine.rules.snapshot.Alike w.engine.rules.snapshot
  invalidated : w.engine.rules.invalidated = v.engine.rules.invalidated
  ids : w.ids = v.ids

/-- The answers are the same, but for what was retried and for when alerts of other rules were closed. -/
inductive Reply.Matches : Reply → Reply → Prop
  | events {made made' : List Event} (each : List.Forall₂ Event.Matches made made') :
      Matches (.events made) (.events made')
  | failed (e : EngineError) : Matches (.failed e) (.failed e)
  | retried (report report' : RetryReport) : Matches (.retried report) (.retried report')

theorem forall₂_flatMap {R : β → β → Prop} {l : List α} {f g : α → List β}
    (each : ∀ a ∈ l, List.Forall₂ R (f a) (g a)) : List.Forall₂ R (l.flatMap f) (l.flatMap g) := by
  induction l with
  | nil => exact .nil
  | cons a l ih =>
    obtain ⟨here, others⟩ := List.forall_mem_cons.mp each
    exact List.rel_append here (ih others)

theorem flatMap_filter_of_nil {l : List α} {p : α → Bool} {f : α → List β}
    (others : ∀ a ∈ l, p a = false → f a = []) : (l.filter p).flatMap f = l.flatMap f := by
  induction l with
  | nil => rfl
  | cons a l ih =>
    obtain ⟨here, others⟩ := List.forall_mem_cons.mp others
    rw [List.flatMap_cons, List.filter_cons, ← ih others]
    split
    · exact List.flatMap_cons
    · next skipped => rw [here (Bool.eq_false_iff.mpr skipped), List.nil_append]

theorem Tracker.filter_ruleIds {t t' : Tracker} {p p' : RuleId → Bool} (same : ∀ rule, p' rule = p rule)
    (tracked : ∀ rule, p rule → rule ∈ t.ruleIds ∧ rule ∈ t'.ruleIds) :
    t'.ruleIds.filter p' = t.ruleIds.filter p := by
  have ordered (t : Tracker) (p : RuleId → Bool) :
      (t.ruleIds.filter p).Pairwise fun rule rule' : RuleId => rule < rule' := by
    have keys : t.ruleIds.Pairwise fun rule rule' : RuleId => compare rule rule' = .lt := Std.TreeMap.ordered_keys
    exact (keys.imp fun lt => compareOfLessAndEq_eq_lt.mp lt).filter p
  refine (ordered t' p').eq_of_mem_iff (ordered t p) fun rule => ?_
  rw [List.mem_filter, List.mem_filter, same]
  exact ⟨fun ⟨_, holds⟩ => ⟨(tracked rule holds).1, holds⟩, fun ⟨_, holds⟩ => ⟨(tracked rule holds).2, holds⟩⟩

section Twins

variable {outside : World → World → Prop} {v v₁ v' w w₁ w' : World} {rule : RuleId}

theorem World.Twins.rule? (twins : v.Twins w) (rule : RuleId) : w.rule? rule = v.rule? rule :=
  twins.rules.get? rule

theorem World.Twins.elsewhere (twins : v.Twins w) (change : v.Elsewhere v') (change' : w.Elsewhere w') :
    v'.Twins w' := by
  obtain ⟨engine, -, -, ids⟩ := change.engine
  obtain ⟨engine', -, -, ids'⟩ := change'.engine
  refine ⟨⟨twins.lines.1.elsewhere change, twins.lines.2.elsewhere change'⟩, fun rule => ?_, ?_, ?_, ?_⟩
  · rw [World.firing, World.firing, engine, engine']
    exact twins.firing rule
  · rw [engine, engine']
    exact twins.rules
  · rw [engine, engine']
    exact twins.invalidated
  · rw [ids, ids', twins.ids]

theorem World.Twins.notFetched {e : SourceError} (twins : v.Twins w) (fetched : v.Fetched (.error e) v')
    (fetched' : w.Fetched (.error e) w') : v'.Twins w' := by
  have kept : v'.engine.rules.snapshot = v.engine.rules.snapshot := fetched.took
  have kept' : w'.engine.rules.snapshot = w.engine.rules.snapshot := fetched'.took
  refine ⟨⟨fetched.inLine twins.lines.1, fetched'.inLine twins.lines.2⟩, fun rule => ?_, ?_, ?_, ?_⟩
  · rw [World.firing_of_tracker fetched.tracker, World.firing_of_tracker fetched'.tracker]
    exact twins.firing rule
  · rw [kept, kept']
    exact twins.rules
  · rw [fetched.invalidated, fetched'.invalidated]
  · rw [fetched.ids, fetched'.ids, twins.ids]

theorem FiringState.settle_shut {s : FiringState} (shut : s.isOpen = false) (definition : Option Rule)
    (time : Timestamp) : (s.settle definition false time).2 = none := by
  have none : s.openAlertId = none := Option.isSome_eq_false_iff.mp shut |> Option.isNone_iff_eq_none.mp
  rw [settle_snd, none, Option.bind_none]

theorem World.listed_of_open (isOpen : (w.firing rule).isOpen) : rule ∈ w.engine.tracker.ruleIds := by
  refine Classical.not_not.mp fun absent => ?_
  rw [World.firing_eq, Tracker.held_of_unlisted absent] at isOpen
  exact absurd isOpen Bool.false_ne_true

/-- New rules close the same alerts for both, in the order of their rules. -/
theorem World.Twins.takesUp {rules : List Rule} {events events' : List Event} (twins : v.Twins w)
    (fetched : v.Fetched (.ok rules) v₁) (fetched' : w.Fetched (.ok rules) w₁)
    (takes : v₁.TakesUp v₁.engine.rules.snapshot.generation events v')
    (takes' : w₁.TakesUp w₁.engine.rules.snapshot.generation events' w') :
    List.Forall₂ Event.Matches events events' ∧ v'.Twins w' := by
  obtain ⟨line, line'⟩ := twins.lines
  have alike : v₁.engine.rules.snapshot.Alike w₁.engine.rules.snapshot := by
    obtain ⟨now, same⟩ := fetched.took
    obtain ⟨now', same'⟩ := fetched'.took
    rw [same, same']
    exact RuleSnapshot.alike_build ..
  have afterwards : v'.engine.rules.snapshot.Alike w'.engine.rules.snapshot := by
    rw [takes.rules, takes'.rules]
    exact alike
  have invalidated : w'.engine.rules.invalidated = v'.engine.rules.invalidated := by
    rw [takes.rules, takes'.rules, fetched.invalidated, fetched'.invalidated]
  have ids : w'.ids = v'.ids := by rw [takes.ids, takes'.ids, fetched.ids, fetched'.ids, twins.ids]
  have lines := And.intro (takes.inLine line _ fetched) (takes'.inLine line' _ fetched')
  obtain ⟨each, rfl, settles⟩ := takes.settles line fetched
  obtain ⟨each', rfl, settles'⟩ := takes'.settles line' fetched'
  have known (rule : RuleId) : w₁.rule? rule = v₁.rule? rule := alike.get? rule
  refine ⟨?_, lines, fun rule => ?_, afterwards, invalidated, ids⟩
  · have silent (rule : RuleId) (mem : rule ∈ v.engine.tracker.ruleIds)
        (shut : (v.firing rule).isOpen = false) : each rule = [] := by
      obtain ⟨time, events, -⟩ := settles rule
      rw [events mem, FiringState.settle_shut shut]
      rfl
    have silent' (rule : RuleId) (mem : rule ∈ w.engine.tracker.ruleIds)
        (shut : (w.firing rule).isOpen = false) : each' rule = [] := by
      obtain ⟨time, events, -⟩ := settles' rule
      rw [events mem, FiringState.settle_shut shut]
      rfl
    have isOpen (rule : RuleId) : (w.firing rule).isOpen = (v.firing rule).isOpen :=
      congrArg Option.isSome (twins.firing rule).openAlertId
    rw [← flatMap_filter_of_nil silent, ← flatMap_filter_of_nil silent', Tracker.filter_ruleIds isOpen fun rule open_ =>
      ⟨World.listed_of_open open_, World.listed_of_open ((isOpen rule).trans open_)⟩]
    refine forall₂_flatMap fun rule mem => ?_
    obtain ⟨mem, open_⟩ := List.mem_filter.mp mem
    obtain ⟨time, events, -⟩ := settles rule
    obtain ⟨time', events', -⟩ := settles' rule
    rw [events mem, events' (World.listed_of_open ((isOpen rule).trans open_)), known]
    exact ((twins.firing rule).settle_later _ _ _ _).2
  · obtain ⟨time, -, settled⟩ := settles rule
    obtain ⟨time', -, settled'⟩ := settles' rule
    rw [known] at settled'
    exact settled.symm.trans (((twins.firing rule).settle_later _ _ _ _).1.trans settled')

theorem World.Twins.announced {events events' : RuleId → List Event} (twins : v.Twins w)
    (aligned : v.Aligned true [rule] events v') (aligned' : w.Aligned true [rule] events' w') :
    List.Forall₂ Event.Matches (events rule) (events' rule) ∧ v'.Twins w' := by
  obtain ⟨line, line'⟩ := twins.lines
  obtain ⟨time, made, settled⟩ := aligned.settles line rfl (List.mem_singleton_self rule)
  obtain ⟨time', made', settled'⟩ := aligned'.settles line' rfl (List.mem_singleton_self rule)
  rw [twins.rule?] at made' settled'
  obtain ⟨agrees, matching⟩ := (twins.firing rule).settle_later (v.rule? rule) true time time'
  rw [made, made']
  refine ⟨matching, ⟨line.announced aligned, line'.announced aligned'⟩, fun rule' => ?_, ?_, ?_, ?_⟩
  · by_cases same : rule' = rule
    · subst same
      exact settled.symm.trans (agrees.trans settled')
    · have away : rule' ∉ [rule] := fun mem => same (List.mem_singleton.mp mem)
      rw [World.firing_of_held (aligned.others rule' away), World.firing_of_held (aligned'.others rule' away)]
      exact twins.firing rule'
  · rw [aligned.rules, aligned'.rules]
    exact twins.rules
  · rw [aligned.rules, aligned'.rules]
    exact twins.invalidated
  · rw [aligned.ids, aligned'.ids, twins.ids]

/-- Both judge a sample by the same rules, and draw the same ids for the alerts that it opens. -/
theorem World.Twins.judged {metric : String} {value : Float} {time : Timestamp}
    {rulings rulings' : List (FiringState × List Event)} (twins : v.Twins w)
    (judged : v.Judged value time (v.engine.rules.snapshot.rulesFor metric) rulings v')
    (judged' : w.Judged value time (w.engine.rules.snapshot.rulesFor metric) rulings' w') :
    rulings'.flatMap (·.2) = rulings.flatMap (·.2) ∧ v'.Twins w' := by
  obtain ⟨line, line'⟩ := twins.lines
  have lines := And.intro (judged.inLine line) (judged'.inLine line')
  rw [twins.rules.rulesFor] at judged'
  have agree := FiringState.judgeEach_agrees twins.firing value time v.ids (v.engine.rules.snapshot.rulesFor metric)
  have rulings_eq := judged'.judged
  rw [twins.ids] at rulings_eq
  rw [← judged.judged, ← rulings_eq] at agree
  have events : rulings'.flatMap (·.2) = rulings.flatMap (·.2) := by
    rw [List.flatMap_def, List.flatMap_def]
    refine congrArg List.flatten (List.forall₂_eq_eq_eq ▸ ?_)
    rw [List.forall₂_map_left_iff, List.forall₂_map_right_iff]
    exact (agree.imp fun _ _ h => h.2).flip
  refine ⟨events, lines, judged.alike _ judged' (agree.imp fun _ _ => And.left) twins.firing, ?_, ?_, ?_⟩
  · rw [judged.rules, judged'.rules]
    exact twins.rules
  · rw [judged.rules, judged'.rules]
    exact twins.invalidated
  · rw [judged.ids, judged'.ids, twins.ids, events]

theorem World.Twins.relieved (twins : v.Twins w) (relieved : v.Relieved v') (relieved' : w.Relieved w') :
    v'.Twins w' := by
  obtain ⟨line, line'⟩ := twins.lines
  refine ⟨⟨relieved.inLine line, relieved'.inLine line'⟩, fun rule => ?_, ?_, ?_, ?_⟩
  · exact (relieved.firing line rule).symm.trans ((twins.firing rule).trans (relieved'.firing line' rule))
  · rw [relieved.rules, relieved'.rules]
    exact twins.rules
  · rw [relieved.rules, relieved'.rules]
    exact twins.invalidated
  · rw [relieved.ids, relieved'.ids, twins.ids]

theorem World.Twins.fetched {answer : Except SourceError (List Rule)} {events events' : List Event}
    (twins : v.Twins w) (fetched : v.Fetched answer v₁) (fetched' : w.Fetched answer w₁)
    (takes : v₁.TakesUp v₁.engine.rules.snapshot.generation events v')
    (takes' : w₁.TakesUp w₁.engine.rules.snapshot.generation events' w') :
    List.Forall₂ Event.Matches events events' ∧ v'.Twins w' := by
  cases answer with
  | ok rules => exact twins.takesUp fetched fetched' takes takes'
  | error e =>
    have twins₁ := twins.notFetched fetched fetched'
    obtain ⟨rfl, rfl⟩ := takes.same twins₁.lines.1
    obtain ⟨rfl, rfl⟩ := takes'.same twins₁.lines.2
    exact ⟨.nil, twins₁⟩

theorem World.Twins.unmoved (twins : v.Twins w) (same : v.Unmoved v') (same' : w.Unmoved w') : v'.Twins w' := by
  obtain ⟨line, line'⟩ := twins.lines
  refine ⟨⟨same.inLine line, same'.inLine line'⟩, fun rule => ?_, ?_, ?_, ?_⟩
  · rw [World.firing_of_tracker same.tracker, World.firing_of_tracker same'.tracker]
    exact twins.firing rule
  · rw [same.rules, same'.rules]
    exact twins.rules
  · rw [same.rules, same'.rules]
    exact twins.invalidated
  · rw [same.ids, same'.ids, twins.ids]

/-- Both fetch the rules before a sample or neither does. -/
theorem World.Twins.reads {events events' : List Event} (twins : v.Twins w) (steady : SteadySource outside)
    (source : w.source.fetch = v.source.fetch) (reads : v.Reads outside v₁) (reads' : w.Reads outside w₁)
    (takes : v₁.TakesUp v₁.engine.rules.snapshot.generation events v')
    (takes' : w₁.TakesUp w₁.engine.rules.snapshot.generation events' w') :
    List.Forall₂ Event.Matches events events' ∧ v'.Twins w' := by
  have invalidated := twins.invalidated
  cases reads with
  | valid fresh same =>
    cases reads' with
    | valid fresh' same' =>
      have twins₁ := twins.unmoved same same'
      obtain ⟨rfl, rfl⟩ := takes.same twins₁.lines.1
      obtain ⟨rfl, rfl⟩ := takes'.same twins₁.lines.2
      exact ⟨.nil, twins₁⟩
    | fetched stale' => exact absurd (fresh.symm.trans (invalidated.symm.trans stale')) nofun
  | fetched stale answer fetched answers =>
    cases reads' with
    | valid fresh' => exact absurd (fresh'.symm.trans (invalidated.trans stale)) nofun
    | fetched stale' answer' fetched' answers' =>
      obtain rfl : answer' = answer := (answers' steady).trans (source.trans (answers steady).symm)
      exact twins.fetched fetched fetched' takes takes'

/-- A call that both get comes to the same for both. -/
theorem Call.Comes.twins {call : Call} {reply reply' : Reply} (steady : SteadySource outside) (twins : v.Twins w)
    (source : w.source.fetch = v.source.fetch) (comes : call.Comes outside v reply v')
    (comes' : call.Comes outside w reply' w') : reply.Matches reply' ∧ v'.Twins w' := by
  cases comes with
  | sampled reads takes judged =>
    cases comes' with
    | sampled reads' takes' judged' =>
      obtain ⟨early, twins₁⟩ := twins.reads steady source reads reads' takes takes'
      rw [← congrArg RuleStore.snapshot takes.rules] at judged
      rw [← congrArg RuleStore.snapshot takes'.rules] at judged'
      obtain ⟨late, twins'⟩ := twins₁.judged judged judged'
      rw [late]
      exact ⟨.events (List.rel_append early (Event.forall₂_matches _)), twins'⟩
  | notEdited fetched answers aligned =>
    cases comes' with
    | notEdited fetched' answers' aligned' =>
      obtain rfl := Except.error.inj ((answers' steady).trans (source.trans (answers steady).symm))
      have twins₁ := twins.notFetched fetched fetched'
      have stale : (World.onRules _ (·.invalidate)).Twins (World.onRules _ (·.invalidate)) :=
        ⟨⟨twins₁.lines.1.invalidate, twins₁.lines.2.invalidate⟩, twins₁.firing, twins₁.rules, rfl, twins₁.ids⟩
      exact ⟨.failed _, (stale.announced aligned aligned').2⟩
    | edited _ answers' => exact absurd ((answers' steady).trans (source.trans (answers steady).symm)) nofun
  | edited fetched answers takes aligned =>
    cases comes' with
    | notEdited _ answers' => exact absurd ((answers' steady).trans (source.trans (answers steady).symm)) nofun
    | edited fetched' answers' takes' aligned' =>
      obtain rfl := Except.ok.inj ((answers' steady).trans (source.trans (answers steady).symm))
      obtain ⟨early, twins₁⟩ := twins.takesUp fetched fetched' takes takes'
      obtain ⟨late, twins'⟩ := twins₁.announced aligned aligned'
      exact ⟨.events (List.rel_append early late), twins'⟩
  | notRefreshed fetched answers =>
    cases comes' with
    | notRefreshed fetched' answers' =>
      obtain rfl := Except.error.inj ((answers' steady).trans (source.trans (answers steady).symm))
      exact ⟨.failed _, twins.notFetched fetched fetched'⟩
    | refreshed _ answers' => exact absurd ((answers' steady).trans (source.trans (answers steady).symm)) nofun
  | refreshed fetched answers takes =>
    cases comes' with
    | notRefreshed _ answers' => exact absurd ((answers' steady).trans (source.trans (answers steady).symm)) nofun
    | refreshed fetched' answers' takes' =>
      obtain rfl := Except.ok.inj ((answers' steady).trans (source.trans (answers steady).symm))
      obtain ⟨events, twins'⟩ := twins.takesUp fetched fetched' takes takes'
      exact ⟨.events events, twins'⟩
  | retried relieved =>
    cases comes' with
    | retried relieved' => exact ⟨.retried _ _, twins.relieved relieved relieved'⟩

/-! ### Courses -/

/-- From outside anything changes but the rules of the source and its failures. -/
def World.BesideSource (w w' : World) : Prop :=
  w.Elsewhere w' ∧ w.SameSource w'

theorem World.twins_new {c c' : Config} (new : v.engine = .ofConfig c) (new' : w.engine = .ofConfig c')
    (ids : w.ids = v.ids) : v.Twins w := by
  refine ⟨⟨World.inLine_new new, World.inLine_new new'⟩, fun rule => ?_, ?_, ?_, ids⟩
  · rw [World.firing, World.firing, new, new']
    exact .refl _
  · rw [new, new']
    exact ⟨rfl, rfl⟩
  · rw [new, new']
    rfl

theorem World.Twins.course {ps ps' : List Passage} (twins : v.Twins w)
    (course : Course (Passage.Runs World.BesideSource) World.Elsewhere v ps v')
    (course' : Course (Passage.Runs World.BesideSource) World.Elsewhere w ps' w')
    (routine : ∀ p ∈ ps, p.call.IsRoutine)
    (calls : ps'.map (·.call) = ps.map (·.call))
    (fetches : ps'.map (·.before.source.fetch) = ps.map (·.before.source.fetch)) :
    List.Forall₂ (fun p p' => p.reply.Matches p'.reply ∧ p.after.Twins p'.after) ps ps' := by
  induction course generalizing w ps' with
  | nil =>
    obtain rfl := List.map_eq_nil_iff.mp calls
    exact .nil
  | cons gap ran rest ih =>
    obtain ⟨p', ps', rfl, same, calls⟩ := List.map_eq_cons_iff.mp calls
    obtain ⟨source, fetches⟩ := List.cons.inj fetches
    cases course' with
    | cons gap' ran' rest' =>
      obtain ⟨here, later⟩ := List.forall_mem_cons.mp routine
      have before := twins.elsewhere gap gap'
      have comes := ran.comes before.lines.1.rest And.left here
      have comes' := ran'.comes before.lines.2.rest And.left (same ▸ here)
      rw [same] at comes'
      obtain ⟨reply, after⟩ := comes.twins (fun _ _ => And.right) before source comes'
      exact .cons ⟨reply, after⟩ (ih after rest' later calls fetches)

/-- Two new engines with the same supply of ids get the same calls and the same rules, but their sinks and
settings differ. Then they answer every call with the same events, and after every call every rule has the
same status, breach count and open alert. -/
theorem Course.insulated {c c' : Config} {ps ps' : List Passage} (new : v.engine = .ofConfig c)
    (new' : w.engine = .ofConfig c') (ids : w.ids = v.ids)
    (course : Course (Passage.Runs World.BesideSource) World.Elsewhere v ps v')
    (course' : Course (Passage.Runs World.BesideSource) World.Elsewhere w ps' w')
    (routine : ∀ p ∈ ps, p.call.IsRoutine)
    (calls : ps'.map (·.call) = ps.map (·.call))
    (fetches : ps'.map (·.before.source.fetch) = ps.map (·.before.source.fetch)) :
    List.Forall₂ (fun p p' => p.reply.Matches p'.reply ∧ ∀ rule,
      (p'.after.firing rule).status = (p.after.firing rule).status ∧
      (p'.after.firing rule).breaches = (p.after.firing rule).breaches ∧
      (p'.after.firing rule).openAlertId = (p.after.firing rule).openAlertId) ps ps' :=
  ((World.twins_new new new' ids).course course course' routine calls fetches).imp fun _ _ ⟨reply, twins⟩ =>
    ⟨reply, fun rule => ⟨(twins.firing rule).status, (twins.firing rule).breaches, (twins.firing rule).openAlertId⟩⟩

end Twins

/-- The load rises and falls. One engine delivers both events at once; the sink of the other is away, and there
the pair is still waiting when the rule is taken away. -/
theorem Course.insulated_while_away :
    let away : Script := { default := { deed := .fail (.unavailable "away") } }
    let calls : List ((World → World) × Call) := [(id, .refresh), (id, .sample "load" 95 default),
      (id, .sample "load" 50 default), ((·.editSource (.setList [])), .refresh)]
    let ps := Passage.madeEach (.watched { workers := 1 } {}) calls
    let ps' := Passage.madeEach
      (.watched { workers := 1, retryMaxAttempts := 3 } { create := away, resolve := away }) calls
    ps.map (fun p => p.reply.events?.map List.length) = [some 0, some 1, some 1, some 0] ∧
      ps.map (·.after.engine.tracker.size) = [0, 1, 1, 0] ∧
      ps'.map (·.after.engine.tracker.size) = [0, 1, 1, 1] ∧
      List.Forall₂ (fun p p' => p.reply.Matches p'.reply ∧ ∀ rule,
        (p'.after.firing rule).status = (p.after.firing rule).status ∧
        (p'.after.firing rule).breaches = (p.after.firing rule).breaches ∧
        (p'.after.firing rule).openAlertId = (p.after.firing rule).openAlertId) ps ps' := by
  intro away calls ps ps'
  have changes : ∀ c ∈ calls, ∀ w : World, w.Elsewhere (c.1 w) := by
    have still (w : World) : w.Elsewhere w := ⟨_, _, _, _, _, _, _, Nat.le_refl _, rfl⟩
    have edited (w : World) : w.Elsewhere (w.editSource (.setList [])) := ⟨_, _, _, _, _, _, _, Nat.le_refl _, rfl⟩
    simp only [calls, List.forall_mem_cons]
    exact ⟨still, still, still, edited, by simp⟩
  have course : Course (Passage.Runs World.BesideSource) World.Elsewhere _ ps (Passage.last _ ps) :=
    Course.madeEach changes (by decide +kernel)
  have course' : Course (Passage.Runs World.BesideSource) World.Elsewhere _ ps' (Passage.last _ ps') :=
    Course.madeEach changes (by decide +kernel)
  have routine : ∀ p ∈ ps, p.call.IsRoutine := by
    simp only [ps, calls, Passage.madeEach, List.forall_mem_cons]
    exact ⟨trivial, trivial, trivial, trivial, by simp⟩
  have same : ps'.map (·.call) = ps.map (·.call) :=
    (Passage.calls_madeEach _ calls).trans (Passage.calls_madeEach _ calls).symm
  have new : (World.watched { workers := 1 } {}).engine = .ofConfig { workers := 1 } := rfl
  have new' : (World.watched { workers := 1, retryMaxAttempts := 3 } { create := away, resolve := away }).engine =
      .ofConfig { workers := 1, retryMaxAttempts := 3 } := rfl
  exact ⟨by decide +kernel, by decide +kernel, by decide +kernel,
    Course.insulated new new' rfl course course' routine same (by decide +kernel)⟩

end ThresholdAlerts
