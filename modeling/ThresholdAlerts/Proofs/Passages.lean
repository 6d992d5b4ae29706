import ThresholdAlerts.Proofs.Rounds
/-! What a call comes to that is made alone. Main statement: each call looks at the rules, takes them up, and
judges, announces or sends what it was made for, in rounds that begin and end with nobody at a desk. -/
namespace ThresholdAlerts

open Prog

/-- The calls that are made all the time; the others are made at the start or only look. -/
def Call.IsRoutine : Call → Prop
  | .recover | .health => False
  | _ => True

def Reply.events? : Reply → Option (List Event)
  | .events made => some made
  | _ => none

theorem Reply.eq_events {reply : Reply} {events : List Event} (answered : reply.events? = some events) :
    reply = .events events := by
  cases reply with
  | events made => exact congrArg Reply.events (Option.some.inj answered)
  | _ => exact absurd answered nofun

structure World.Unmoved (w w' : World) : Prop where
  tracker : w'.engine.tracker = w.engine.tracker
  rules : w'.engine.rules = w.engine.rules
  reconciled : w'.engine.reconciled = w.engine.reconciled
  ids : w'.ids = w.ids
  journal : w'.journal = w.journal

/-- The rules were looked at, and fetched first if they had been invalidated. -/
inductive World.Reads (outside : World → World → Prop) (w w' : World) : Prop
  | valid (fresh : w.engine.rules.invalidated = false) (same : w.Unmoved w')
  | fetched (stale : w.engine.rules.invalidated = true) (answer : Except SourceError (List Rule))
      (fetched : w.Fetched answer w') (source : SteadySource outside → answer = w.source.fetch)

/-- What a call comes to, by its answer. -/
inductive Call.Comes (outside : World → World → Prop) : Call → World → Reply → World → Prop
  | sampled {metric value time w w₁ w₂ w' early rulings} (reads : World.Reads outside w w₁)
      (takes : w₁.TakesUp w₁.engine.rules.snapshot.generation early w₂)
      (judged : w₂.Judged value time (w₁.engine.rules.snapshot.rulesFor metric) rulings w') :
      Comes outside (.sample metric value time) w (.events (early ++ rulings.flatMap (·.2))) w'
  | notEdited {rule w w₁ w' e events} (fetched : w.Fetched (.error e) w₁)
      (source : SteadySource outside → .error e = w.source.fetch)
      (aligned : (w₁.onRules (·.invalidate)).Aligned true [rule] (fun _ => events) w') :
      Comes outside (.announceEdit rule) w (.failed (.ruleStore e)) w'
  | edited {rule w w₁ w₂ w' rules early late} (fetched : w.Fetched (.ok rules) w₁)
      (source : SteadySource outside → .ok rules = w.source.fetch)
      (takes : w₁.TakesUp w₁.engine.rules.snapshot.generation early w₂)
      (aligned : w₂.Aligned true [rule] (fun _ => late) w') :
      Comes outside (.announceEdit rule) w (.events (early ++ late)) w'
  | notRefreshed {w w' e} (fetched : w.Fetched (.error e) w')
      (source : SteadySource outside → .error e = w.source.fetch) :
      Comes outside .refresh w (.failed (.ruleStore e)) w'
  | refreshed {w w₁ w' rules events} (fetched : w.Fetched (.ok rules) w₁)
      (source : SteadySource outside → .ok rules = w.source.fetch)
      (takes : w₁.TakesUp w₁.engine.rules.snapshot.generation events w') :
      Comes outside .refresh w (.events events) w'
  | retried {w w' report} (relieved : w.Relieved w') : Comes outside .retry w (.retried report) w'

section Calls

variable {outside : World → World → Prop} {w w' : World}

theorem World.Unmoved.atRest (same : w.Unmoved w') (rest : w.AtRest) : w'.AtRest :=
  rest.of_same same.tracker same.rules

theorem World.AtRest.invalidate (rest : w.AtRest) : (w.onRules (·.invalidate)).AtRest :=
  ⟨rest.coherent, rest.idle, rest.tagged, rest.turns, rest.indexed⟩

theorem World.TakesUp.rules {generation : Nat} {events : List Event} (takes : w.TakesUp generation events w') :
    w'.engine.rules = w.engine.rules := by
  cases takes with
  | claims newer events aligned => exact aligned.rules
  | passes older => rfl

theorem World.TakesUp.ids {generation : Nat} {events : List Event} (takes : w.TakesUp generation events w') :
    w'.ids = w.ids := by
  cases takes with
  | claims newer events aligned => exact aligned.ids
  | passes older => rfl

/-- The rules that are listed for a metric judge a sample; if there are none nothing is left to be done. -/
theorem ensures_judging (rest : w.AtRest) (calm : ∀ {w w'}, outside w w' → w.Elsewhere w') (metric : String)
    (value : Float) (time : Timestamp) (early : List Event) :
    (match w.engine.rules.snapshot.rulesFor metric with
      | [] => return early
      | rules => do
        let evaluated ← all (rules.map fun r => Visit.evaluate r.id metric value time)
        return early ++ evaluated : Prog Visit (List Event)).Ensures (Pact.alone outside) (Team.polled outside) w
      fun events w' => ∃ rulings, events = early ++ rulings.flatMap (·.2) ∧
        w.Judged value time (w.engine.rules.snapshot.rulesFor metric) rulings w' := by
  have once := rest.indexed.once metric
  have listed : ∀ r ∈ w.engine.rules.snapshot.rulesFor metric, w.rule? r.id = some r ∧ r.metricKey = metric :=
    fun r mem => rest.indexed.listed mem
  generalize w.engine.rules.snapshot.rulesFor metric = rules at once listed
  cases rules with
  | nil =>
    exact ensures_pure ⟨[], (List.append_nil early).symm, rest, rfl, .nil, fun _ _ => rfl, rfl, rfl, rfl⟩
  | cons r rules =>
    refine (ensures_evaluateEach rest calm once listed).bind fun events w' ⟨rulings, same, judged⟩ => ?_
    exact ensures_pure ⟨rulings, same ▸ rfl, judged⟩

theorem ensures_evaluateAll {w₀ : World} (rest : w.AtRest) (calm : ∀ {w w'}, outside w w' → w.Elsewhere w')
    (reads : w₀.Reads outside w) (metric : String) (value : Float) (time : Timestamp) :
    (evaluateAll w.engine.rules.snapshot metric value time).Ensures (Pact.alone outside) (Team.polled outside) w
      fun events w' => Call.Comes outside (.sample metric value time) w₀ (.events events) w' := by
  refine (ensures_reconcileIfNewer rest calm).bind fun early w₁ takes => ?_
  have same := congrArg RuleStore.snapshot takes.rules
  rw [← same]
  refine (ensures_judging (takes.atRest rest) calm metric value time early).weaken ?_
  rintro events w' ⟨rulings, rfl, judged⟩
  rw [same] at judged
  exact .sampled reads takes judged

theorem ensures_takeSample (rest : w.AtRest) (calm : ∀ {w w'}, outside w w' → w.Elsewhere w') (metric : String)
    (value : Float) (time : Timestamp) :
    (takeSample metric value time).Ensures (Pact.alone outside) (Team.polled outside) w
      fun events w' => Call.Comes outside (.sample metric value time) w (.events events) w' := by
  -- What was counted before is of no account to the rest.
  have goes {w₁ : World} (same : w.Unmoved w₁) (source : w₁.source = w.source) :
      (do evaluateAll (← currentRules) metric value time).Ensures (Pact.alone outside) (Team.polled outside) w₁
        fun events w' => Call.Comes outside (.sample metric value time) w (.events events) w' := by
    have rest₁ := same.atRest rest
    refine ensures_then (ensures_currentRules rest₁ calm (fun fresh => ?_) fun stale answer w₂ fetched answers => ?_)
    · exact ensures_evaluateAll rest₁ calm (.valid (same.rules ▸ fresh) same) metric value time
    · obtain ⟨tracker, reconciled, ids, journal, turns, invalidated, lastError, took⟩ := fetched
      have fetched : w.Fetched answer w₂ := by
        rw [same.tracker] at tracker
        rw [same.reconciled] at reconciled
        rw [same.ids] at ids
        rw [same.journal] at journal
        rw [same.rules] at took
        exact ⟨tracker, reconciled, ids, journal, turns, invalidated, lastError, took⟩
      rw [same.rules] at stale
      rw [source] at answers
      exact ensures_evaluateAll (fetched.atRest rest) calm (.fetched stale answer fetched answers) metric value time
  refine ensures_modify trivial ?_
  split
  · exact ensures_modify trivial (goes ⟨rfl, rfl, rfl, rfl, rfl⟩ rfl)
  · exact goes ⟨rfl, rfl, rfl, rfl, rfl⟩ rfl

theorem ensures_announceEdit (rest : w.AtRest) (calm : ∀ {w w'}, outside w w' → w.Elsewhere w') (rule : RuleId) :
    (Call.program (.announceEdit rule)).Ensures (Pact.alone outside) (Team.polled outside) w
      (Call.Comes outside (.announceEdit rule) w) := by
  refine ensures_then (ensures_modify trivial (ensures_then (ensures_refreshRules rest.invalidate calm ?_)))
  rintro (e | rules) w₁ ⟨tracker, reconciled, ids, journal, turns, invalidated, lastError, took⟩ source
  · have fetched : w.Fetched (.error e) w₁ :=
      ⟨tracker, reconciled, ids, journal, turns, invalidated, lastError, took⟩
    refine ensures_modify trivial ?_
    refine (ensures_announced (fetched.atRest rest).invalidate true calm).bind fun events w' aligned => ?_
    exact ensures_pure (.notEdited fetched source aligned)
  · have fetched : w.Fetched (.ok rules) w₁ :=
      ⟨tracker, reconciled, ids, journal, turns, invalidated, lastError, took⟩
    have rest₁ := fetched.atRest rest
    refine (ensures_reconcileIfNewer rest₁ calm).bind fun early w₂ takes => ?_
    refine (ensures_announced (takes.atRest rest₁) true calm).bind fun late w' aligned => ?_
    exact ensures_pure (.edited fetched source takes aligned)

theorem ensures_refresh (rest : w.AtRest) (calm : ∀ {w w'}, outside w w' → w.Elsewhere w') :
    (Call.program .refresh).Ensures (Pact.alone outside) (Team.polled outside) w
      (Call.Comes outside .refresh w) := by
  refine ensures_then (ensures_then (ensures_refreshRules rest calm ?_))
  rintro (e | rules) w₁ fetched source
  · exact ensures_pure (.notRefreshed fetched source)
  · refine (ensures_reconcileIfNewer (fetched.atRest rest) calm).bind fun events w' takes => ?_
    exact ensures_pure (.refreshed fetched source takes)

/-- A call that is made alone comes to what it is to. -/
theorem Passage.Runs.comes {p : Passage} (runs : p.Runs outside) (rest : p.before.AtRest)
    (calm : ∀ {w w'}, outside w w' → w.Elsewhere w') (routine : p.call.IsRoutine) :
    p.call.Comes outside p.before p.reply p.after := by
  refine runs.ends ?_
  obtain ⟨call, before, after, reply⟩ := p
  dsimp only at rest routine ⊢
  cases call with
  | sample metric value time =>
    refine (ensures_takeSample rest calm metric value time).bind fun events w' comes => ?_
    exact ensures_pure comes
  | announceEdit rule => exact ensures_announceEdit rest calm rule
  | refresh => exact ensures_refresh rest calm
  | recover => exact routine.elim
  | retry =>
    refine (ensures_retry rest calm).bind fun report w' relieved => ?_
    exact ensures_pure (.retried relieved)
  | health => exact routine.elim

end Calls

end ThresholdAlerts
