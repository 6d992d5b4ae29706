import ThresholdAlerts.Alert.FiringState
/-! The streak behind a firing state. What an owner does to a state is a history of samples, syncs, resets
and forced resolutions; of it only the breaching samples since the last restart count. Main statement: status
and counter show that number, an alert opens with the sample that brings it to the number the rule asks for,
and is closed with the step that restarts it from there. -/
namespace ThresholdAlerts

namespace FiringState

/-- What an owner does to a firing state. A sample first meets the rule as it is now and is then counted. -/
inductive Step where
  | sample (fresh : AlertId) (rule : Rule) (breached : Bool) (value : Float) (time : Timestamp)
  | sync (rule : Rule) (time : Timestamp)
  | reset (rule : Rule) (time : Timestamp)
  | force (reason : ResolveReason) (time : Timestamp)

namespace Step

def changes : Step → List Change
  | .sample fresh rule breached value time =>
    [.sync rule time, .transition fresh rule breached value time]
  | .sync rule time => [.sync rule time]
  | .reset rule time => [.reset rule time]
  | .force reason time => [.force reason time]

/-- The rule that a step shows to the state. -/
def rule? : Step → Option Rule
  | .sample _ rule _ _ _ => some rule
  | .sync rule _ => some rule
  | .reset rule _ => some rule
  | .force .. => none

def isBreach : Step → Bool
  | .sample _ _ breached _ _ => breached
  | _ => false

end Step

/-- The rule that a history, the newest step first, showed to the state last. -/
def remembered (past : List Step) : Option Rule :=
  past.findSome? Step.rule?

/-- The streak that opens an alert after a history. -/
def needed (past : List Step) : Nat :=
  (remembered past).elim 1 Rule.needed

/-- Whether a rule differs, in what it compares, from the one that the history showed last. -/
def isEdited (past : List Step) (rule : Rule) : Bool :=
  (remembered past).any fun known => known.fingerprint ≠ rule.fingerprint

/-- Whether a step starts the streak over that stands at `streak` after the history. -/
def restarts (past : List Step) (streak : Nat) : Step → Bool
  | .sample _ rule breached _ _ => !breached || isEdited past rule
  | .sync rule _ => isEdited past rule
  | .reset rule _ => isEdited past rule || (0 < streak && streak < needed past)
  | .force .. => true

/-- The part of a history that begins with its last restart. -/
def sinceRestart : List Step → List Step
  | [] => []
  | step :: past =>
    if restarts past ((sinceRestart past).countP Step.isBreach) step then [step]
    else step :: sinceRestart past

/-- The breaching samples since the last restart. -/
def streak (past : List Step) : Nat :=
  (sinceRestart past).countP Step.isBreach

/-- Whether the step after a history starts a streak over that had an alert open. -/
def ends (past : List Step) (step : Step) : Bool :=
  restarts past (streak past) step && needed past ≤ streak past

/-- Whether the step after a history is the sample that brings the streak to the number that is asked for. -/
def begins (past : List Step) (step : Step) : Bool :=
  step.isBreach && streak (step :: past) = needed (step :: past)

/-- The state of a rule after a history. -/
def after (ruleId : RuleId) (past : List Step) : FiringState :=
  ((initial ruleId).applyAll (past.reverse.flatMap Step.changes)).1

def take (s : FiringState) (step : Step) : FiringState × List Event :=
  s.applyAll step.changes

/-- The events that the step after a history produces. -/
def emitted (ruleId : RuleId) (past : List Step) (step : Step) : List Event :=
  ((after ruleId past).take step).2

/-- How a phase shows a streak of `k` breaches where `n` open an alert. -/
inductive Shows : Phase → Nat → Nat → Prop where
  | clear {n : Nat} : Shows .clear 0 n
  | pending {k n : Nat} (some : 0 < k) (few : k < n) : Shows (.pending (min k maxBreaches)) k n
  | opened {k n : Nat} {id : AlertId} (some : 0 < k) (enough : n ≤ k) :
    Shows (.opened id (min k maxBreaches)) k n

/-- What a state says about the history behind it. -/
structure Tells (past : List Step) (s : FiringState) : Prop where
  fingerprint : s.fingerprint = (remembered past).map Rule.fingerprint
  phase : Shows s.phase (streak past) (needed past)

variable {s : FiringState} {past : List Step} {rule known : Rule} {time : Timestamp} {k n : Nat}
  {phase : Phase} {step : Step}

theorem one_le_needed (rule : Rule) : 1 ≤ rule.needed := Nat.le_max_right ..

theorem needed_le_maxBreaches (rule : Rule) : rule.needed ≤ maxBreaches := by
  have bound := rule.required.toNat_lt
  simp only [Rule.needed, maxBreaches, Nat.pow_eq]
  omega

theorem needed_eq (same : known.fingerprint = rule.fingerprint) : known.needed = rule.needed := by
  have required : known.required = rule.required := congrArg Fingerprint.required same
  simp only [Rule.needed, required]

theorem applyAll_append (s : FiringState) (changes more : List Change) :
    s.applyAll (changes ++ more) =
      (((s.applyAll changes).1.applyAll more).1,
        (s.applyAll changes).2 ++ ((s.applyAll changes).1.applyAll more).2) := by
  induction changes generalizing s with
  | nil => rfl
  | cons change rest ih => simp [applyAll, ih]

@[simp] theorem after_cons (ruleId : RuleId) (step : Step) (past : List Step) :
    after ruleId (step :: past) = ((after ruleId past).take step).1 := by
  simp [after, take, applyAll_append]

@[simp] theorem take_sample (s : FiringState) (fresh : AlertId) (rule : Rule) (breached : Bool) (value : Float)
    (time : Timestamp) :
    s.take (.sample fresh rule breached value time) =
      (((s.syncRule rule time).1.transition fresh rule breached value time).1,
        (s.syncRule rule time).2.toList ++
          ((s.syncRule rule time).1.transition fresh rule breached value time).2.toList) := by
  simp [take, Step.changes, applyAll, apply]

@[simp] theorem take_sync (s : FiringState) (rule : Rule) (time : Timestamp) :
    s.take (.sync rule time) = ((s.syncRule rule time).1, (s.syncRule rule time).2.toList) := by
  simp [take, Step.changes, applyAll, apply]

@[simp] theorem take_reset (s : FiringState) (rule : Rule) (time : Timestamp) :
    s.take (.reset rule time) =
      ((s.syncRule rule time).1.dropPending, (s.syncRule rule time).2.toList) := by
  simp [take, Step.changes, applyAll, apply, resetHysteresis]

@[simp] theorem take_force (s : FiringState) (reason : ResolveReason) (time : Timestamp) :
    s.take (.force reason time) =
      ({ s with phase := .clear }, (s.openAlertId.map fun id => s.closing id reason time).toList) := by
  simp [take, Step.changes, applyAll, apply, forceResolve]

@[simp] theorem dropPending_fingerprint (s : FiringState) : s.dropPending.fingerprint = s.fingerprint := by
  cases phase_eq : s.phase <;> simp [dropPending, phase_eq]

theorem remembered_cons (step : Step) (past : List Step) :
    remembered (step :: past) = (step.rule? <|> remembered past) := by
  cases shown : step.rule? <;> simp [remembered, shown]

theorem streak_cons (step : Step) (past : List Step) :
    streak (step :: past) =
      (if restarts past (streak past) step then 0 else streak past) + step.isBreach.toNat := by
  cases breach : step.isBreach <;>
    by_cases restart : restarts past (streak past) step <;>
    simp_all [streak, sinceRestart]

theorem streak_eq_zero (unseen : remembered past = none) : streak past = 0 := by
  cases past with
  | nil => rfl
  | cons step past =>
    cases step with
    | force reason time => rfl
    | sample | sync | reset => simp [remembered_cons, Step.rule?] at unseen

/-- A rule that is not edited asks for the streak that the history asked for, unless the history showed no rule
at all. -/
theorem needed_of_same (same : isEdited past rule = false) : streak past = 0 ∨ needed past = rule.needed := by
  cases seen : remembered past with
  | none => exact .inl (streak_eq_zero seen)
  | some known =>
    have fingerprint : known.fingerprint = rule.fingerprint := by simpa [isEdited, seen] using same
    exact .inr (by simp [needed, seen, needed_eq fingerprint])

namespace Shows

theorem eq_clear (shows : Shows phase 0 n) : phase = .clear := by
  generalize zero : 0 = k at shows
  cases shows with
  | clear => rfl
  | pending some few => omega
  | opened some enough => omega

theorem isOpen (shows : Shows s.phase k n) (positive : 1 ≤ n) : s.isOpen = decide (n ≤ k) := by
  generalize phase_eq : s.phase = phase at shows
  cases shows with
  | clear => simp [FiringState.isOpen, openAlertId, phase_eq]; omega
  | pending some few => simp [FiringState.isOpen, openAlertId, phase_eq]; omega
  | opened some enough => simp [FiringState.isOpen, openAlertId, phase_eq, enough]

theorem status (shows : Shows s.phase k n) (positive : 1 ≤ n) :
    (s.status = .clear ↔ k = 0) ∧ (s.status = .pending ↔ 0 < k ∧ k < n) ∧ (s.status = .opened ↔ n ≤ k) ∧
    s.breaches = min k maxBreaches := by
  generalize phase_eq : s.phase = phase at shows
  cases shows with
  | clear => simp [FiringState.status, breaches, phase_eq]; omega
  | pending some few => simp [FiringState.status, breaches, phase_eq]; omega
  | opened some enough => simp [FiringState.status, breaches, phase_eq]; omega

theorem countBreach (few : k < rule.needed) (fresh : AlertId) (value : Float) (time : Timestamp) :
    Shows (FiringState.countBreach k fresh rule value time).1 (k + 1) rule.needed ∧
    (FiringState.countBreach k fresh rule value time).2 =
      if k + 1 = rule.needed then some (.opened (Alert.ofRule fresh rule value time)) else none := by
  have bound := needed_le_maxBreaches rule
  have next : oneMore k = min (k + 1) maxBreaches := rfl
  have small : min (k + 1) maxBreaches = k + 1 := by omega
  by_cases enough : rule.needed ≤ k + 1
  · have last : k + 1 = rule.needed := by omega
    simp only [FiringState.countBreach, next, small, if_pos enough, if_pos last, and_true]
    have opened : Shows (.opened fresh (min (k + 1) maxBreaches)) (k + 1) rule.needed :=
      .opened (Nat.succ_pos k) enough
    simpa only [small] using opened
  · have more : k + 1 ≠ rule.needed := by omega
    simp only [FiringState.countBreach, next, small, if_neg enough, if_neg more, and_true]
    simpa only [small] using Shows.pending (Nat.succ_pos k) (Nat.lt_of_not_le enough)

theorem dropPending (shows : Shows s.phase k n) :
    Shows s.dropPending.phase (if 0 < k ∧ k < n then 0 else k) n := by
  generalize phase_eq : s.phase = phase at shows
  cases shows with
  | clear => simpa [FiringState.dropPending, phase_eq] using Shows.clear
  | pending some few => simpa [FiringState.dropPending, phase_eq, some, few] using Shows.clear
  | opened some enough =>
    have kept : ¬ (0 < k ∧ k < n) := by omega
    simpa only [FiringState.dropPending, phase_eq, if_neg kept] using Shows.opened some enough

end Shows

theorem nextPhase_breach (shows : Shows s.phase k rule.needed) (fresh : AlertId) (value : Float)
    (time : Timestamp) :
    Shows (s.nextPhase fresh rule true value time).1 (k + 1) rule.needed ∧
    (s.nextPhase fresh rule true value time).2 =
      if k + 1 = rule.needed then some (.opened (Alert.ofRule fresh rule value time)) else none := by
  generalize phase_eq : s.phase = phase at shows
  simp only [nextPhase, phase_eq]
  cases shows with
  | clear => exact Shows.countBreach (one_le_needed rule) fresh value time
  | pending some few =>
    have small : min k maxBreaches = k := by
      have := needed_le_maxBreaches rule
      omega
    simpa only [small] using Shows.countBreach few fresh value time
  | @opened _ _ id some enough =>
    have next : oneMore (min k maxBreaches) = min (k + 1) maxBreaches := by
      simp only [oneMore]
      omega
    have past : k + 1 ≠ rule.needed := by omega
    have stays : Shows (.opened id (min (k + 1) maxBreaches)) (k + 1) rule.needed :=
      .opened (Nat.succ_pos k) (Nat.le_succ_of_le enough)
    simpa only [next, if_neg past, and_true] using stays

theorem nextPhase_quiet (s : FiringState) (fresh : AlertId) (rule : Rule) (value : Float)
    (time : Timestamp) :
    s.nextPhase fresh rule false value time =
      (.clear, s.openAlertId.map fun id => s.closing id .recovered time) := by
  cases phase_eq : s.phase <;> simp [nextPhase, openAlertId, phase_eq]

theorem one_le_needed_past (past : List Step) : 1 ≤ needed past := by
  cases seen : remembered past with
  | none => simp [needed, seen]
  | some rule => simpa [needed, seen] using one_le_needed rule

theorem needed_cons (shown : step.rule? = some rule) : needed (step :: past) = rule.needed := by
  simp [needed, remembered_cons, shown]

/-- Closing the open alert, if there is one, is seen exactly when the streak had reached its number. -/
theorem Shows.kind_closing (shows : Shows s.phase k n) (positive : 1 ≤ n) (reason : ResolveReason)
    (time : Timestamp) :
    (s.openAlertId.map fun id => s.closing id reason time).toList.map Event.kind =
      if n ≤ k then ["ALERT_RESOLVED"] else [] := by
  have tracked := shows.isOpen positive
  cases open_eq : s.openAlertId with
  | none =>
    have few : ¬ n ≤ k := by simpa [FiringState.isOpen, open_eq] using tracked
    rw [if_neg few]
    rfl
  | some id =>
    have enough : n ≤ k := by simpa [FiringState.isOpen, open_eq] using tracked
    rw [if_pos enough]
    rfl

def kinds (past : List Step) (step : Step) : List String :=
  (if ends past step then ["ALERT_RESOLVED"] else []) ++ (if begins past step then ["ALERT_OPENED"] else [])

namespace Tells

/-- Meeting a rule starts the streak over if the rule was edited, and changes nothing else. -/
theorem syncRule (tells : Tells past s) (rule : Rule) (time : Timestamp) :
    (s.syncRule rule time).1.fingerprint = some rule.fingerprint ∧
    Shows (s.syncRule rule time).1.phase (if isEdited past rule then 0 else streak past) rule.needed ∧
    (s.syncRule rule time).2.toList.map Event.kind =
      if isEdited past rule ∧ needed past ≤ streak past then ["ALERT_RESOLVED"] else [] := by
  have fingerprint := tells.fingerprint
  have phase := tells.phase
  cases seen : remembered past with
  | none =>
    have unedited : isEdited past rule = false := by simp [isEdited, seen]
    rw [streak_eq_zero seen] at phase
    have clear := phase.eq_clear
    simpa [FiringState.syncRule, fingerprint, seen, unedited, streak_eq_zero seen, clear] using Shows.clear
  | some known =>
    rw [seen] at fingerprint
    by_cases same : known.fingerprint = rule.fingerprint
    · have unedited : isEdited past rule = false := by simp [isEdited, seen, same]
      have asked : needed past = rule.needed := by simp [needed, seen, needed_eq same]
      simpa [FiringState.syncRule, fingerprint, same, unedited, asked] using phase
    · have edited : isEdited past rule = true := by simp [isEdited, seen, same]
      have closed := phase.kind_closing (one_le_needed_past past) .ruleChanged time
      simpa [FiringState.syncRule, fingerprint, same, edited, forceResolve, openAlertId, closing] using
        ⟨Shows.clear, closed⟩

theorem force (tells : Tells past s) (reason : ResolveReason) (time : Timestamp) :
    Tells (.force reason time :: past) (s.take (.force reason time)).1 ∧
    (s.take (.force reason time)).2.map Event.kind = kinds past (.force reason time) := by
  have ended : streak (.force reason time :: past) = 0 := by simp [streak_cons, restarts, Step.isBreach]
  have closed := tells.phase.kind_closing (one_le_needed_past past) reason time
  refine ⟨⟨?_, ?_⟩, ?_⟩
  · simpa [remembered_cons, Step.rule?] using tells.fingerprint
  · simpa [ended] using Shows.clear
  · simpa [kinds, begins, ends, restarts, Step.isBreach] using closed

theorem sync (tells : Tells past s) (rule : Rule) (time : Timestamp) :
    Tells (.sync rule time :: past) (s.take (.sync rule time)).1 ∧
    (s.take (.sync rule time)).2.map Event.kind = kinds past (.sync rule time) := by
  obtain ⟨fingerprint, shows, closed⟩ := tells.syncRule rule time
  have asked : needed (.sync rule time :: past) = rule.needed := needed_cons rfl
  have counted : streak (.sync rule time :: past) = if isEdited past rule then 0 else streak past :=
    streak_cons ..
  refine ⟨⟨?_, ?_⟩, ?_⟩
  · simpa [remembered_cons, Step.rule?] using fingerprint
  · simpa [counted, asked] using shows
  · simpa [kinds, begins, ends, restarts, Step.isBreach] using closed

theorem reset (tells : Tells past s) (rule : Rule) (time : Timestamp) :
    Tells (.reset rule time :: past) (s.take (.reset rule time)).1 ∧
    (s.take (.reset rule time)).2.map Event.kind = kinds past (.reset rule time) := by
  obtain ⟨fingerprint, shows, closed⟩ := tells.syncRule rule time
  have asked : needed (.reset rule time :: past) = rule.needed := needed_cons rfl
  refine ⟨⟨?_, ?_⟩, ?_⟩
  · simpa [remembered_cons, Step.rule?] using fingerprint
  · have dropped := shows.dropPending
    rw [take_reset, asked, streak_cons]
    cases edited : isEdited past rule with
    | true => simpa [restarts, edited, Step.isBreach] using dropped
    | false =>
      obtain none | same := needed_of_same edited
      · simpa [restarts, edited, Step.isBreach, none] using dropped
      · simpa [restarts, edited, Step.isBreach, same] using dropped
  -- the restart of a pending streak has no alert to close
  · have ended : ends past (.reset rule time) = (isEdited past rule && needed past ≤ streak past) := by
      by_cases enough : needed past ≤ streak past
      · simp [ends, restarts, enough, Nat.not_lt.mpr enough]
      · simp [ends, enough]
    simpa [kinds, begins, ended, Step.isBreach] using closed

theorem breach (tells : Tells past s) (fresh : AlertId) (rule : Rule) (value : Float) (time : Timestamp) :
    Tells (.sample fresh rule true value time :: past) (s.take (.sample fresh rule true value time)).1 ∧
    (s.take (.sample fresh rule true value time)).2.map Event.kind =
      kinds past (.sample fresh rule true value time) := by
  obtain ⟨fingerprint, shows, closed⟩ := tells.syncRule rule time
  obtain ⟨risen, opened⟩ := nextPhase_breach shows fresh value time
  have asked : needed (.sample fresh rule true value time :: past) = rule.needed := needed_cons rfl
  have counted : streak (.sample fresh rule true value time :: past) =
      (if isEdited past rule then 0 else streak past) + 1 := by
    simp [streak_cons, restarts, Step.isBreach]
  refine ⟨⟨?_, ?_⟩, ?_⟩
  · simp [transition, fingerprint, remembered_cons, Step.rule?]
  · rw [counted, asked]
    exact risen
  · have ended : ends past (.sample fresh rule true value time) =
        (isEdited past rule && needed past ≤ streak past) := by
      simp [ends, restarts]
    have begun : begins past (.sample fresh rule true value time) =
        decide ((if isEdited past rule then 0 else streak past) + 1 = rule.needed) := by
      simp [begins, Step.isBreach, counted, asked]
    simp only [take_sample, List.map_append, closed, transition, opened, kinds, ended, begun,
      Bool.and_eq_true, decide_eq_true_eq]
    congr 1
    by_cases last : (if isEdited past rule = true then 0 else streak past) + 1 = rule.needed
    · rw [if_pos last, if_pos last]
      rfl
    · rw [if_neg last, if_neg last]
      rfl

theorem quiet (tells : Tells past s) (fresh : AlertId) (rule : Rule) (value : Float) (time : Timestamp) :
    Tells (.sample fresh rule false value time :: past) (s.take (.sample fresh rule false value time)).1 ∧
    (s.take (.sample fresh rule false value time)).2.map Event.kind =
      kinds past (.sample fresh rule false value time) := by
  obtain ⟨fingerprint, shows, closed⟩ := tells.syncRule rule time
  have ended : streak (.sample fresh rule false value time :: past) = 0 := by
    simp [streak_cons, restarts, Step.isBreach]
  have recovered := shows.kind_closing (one_le_needed rule) .recovered time
  refine ⟨⟨?_, ?_⟩, ?_⟩
  · simp [transition, fingerprint, remembered_cons, Step.rule?]
  · simpa [transition, nextPhase_quiet, ended] using Shows.clear
  -- an edited rule closes the alert before the sample is counted, any other one with the sample
  · simp only [take_sample, List.map_append, closed, transition, nextPhase_quiet, recovered]
    have few : ¬ rule.needed ≤ 0 := Nat.not_le.mpr (one_le_needed rule)
    have fewer : ¬ needed past ≤ 0 := Nat.not_le.mpr (one_le_needed_past past)
    cases edited : isEdited past rule with
    | true => simp [kinds, ends, begins, restarts, few, Step.isBreach]
    | false =>
      obtain none | same := needed_of_same edited
      · simp [kinds, ends, begins, restarts, few, fewer, none, Step.isBreach]
      · simp [kinds, ends, begins, restarts, same, Step.isBreach]

theorem next (tells : Tells past s) (step : Step) :
    Tells (step :: past) (s.take step).1 ∧ (s.take step).2.map Event.kind = kinds past step := by
  cases step with
  | sample fresh rule breached value time =>
    cases breached with
    | true => exact tells.breach fresh rule value time
    | false => exact tells.quiet fresh rule value time
  | sync rule time => exact tells.sync rule time
  | reset rule time => exact tells.reset rule time
  | force reason time => exact tells.force reason time

end Tells

theorem tells_after (ruleId : RuleId) (past : List Step) : Tells past (after ruleId past) := by
  induction past with
  | nil => exact ⟨rfl, Shows.clear⟩
  | cons step past ih =>
    rw [after_cons]
    exact (ih.next step).1

/-- An alert is open exactly while the breaching samples since the last restart are as many as the rule asks
for; it opens with the sample that makes them so many and is closed with the step that restarts them. -/
theorem open_with_streak (ruleId : RuleId) (past : List Step) (step : Step) :
    ((after ruleId past).status = .clear ↔ streak past = 0) ∧
    ((after ruleId past).status = .pending ↔ 0 < streak past ∧ streak past < needed past) ∧
    ((after ruleId past).status = .opened ↔ needed past ≤ streak past) ∧
    (after ruleId past).breaches = min (streak past) maxBreaches ∧
    (emitted ruleId past step).map Event.kind =
      (if ends past step then ["ALERT_RESOLVED"] else []) ++
        (if begins past step then ["ALERT_OPENED"] else []) := by
  have tells := tells_after ruleId past
  obtain ⟨clear, pending, opened, counted⟩ := tells.phase.status (one_le_needed_past past)
  exact ⟨clear, pending, opened, counted, (tells.next step).2⟩

end FiringState

end ThresholdAlerts
