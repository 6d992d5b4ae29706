import ThresholdAlerts.Proofs.Dispatching
import ThresholdAlerts.Proofs.Transparency
/-! Two engines that get the same calls, and one rule that compares the same for both. What it is called and how
severe it is may differ, and so may all other rules, the sinks and the supplies of ids. Main statement: the rule
goes the same way for both, up to the ids of its alerts. -/
namespace ThresholdAlerts

open Function Prog

/-! ### One rule under two labels -/

/-- What the first enabled rule of an id compares, if there is one. -/
def Fingerprint.of (rule : RuleId) (rules : List Rule) : Option Fingerprint :=
  (rules.find? fun r => r.enabled && r.id = rule).map Rule.fingerprint

structure Rule.Kin (r r' : Rule) : Prop where
  id : r'.id = r.id
  fingerprint : r'.fingerprint = r.fingerprint

theorem toBits_injective : Injective Float.toBits := by
  rintro ⟨⟨bits, valid⟩⟩ ⟨⟨bits', valid'⟩⟩ rfl
  rfl

theorem Rule.Kin.eq {r r' : Rule} (kin : r.Kin r') :
    r' = { r with name := r'.name, severity := r'.severity, enabled := r'.enabled } := by
  obtain ⟨id, name, metricKey, operator, threshold, severity, enabled, required⟩ := r
  obtain ⟨id', name', metricKey', operator', threshold', severity', enabled', required'⟩ := r'
  obtain ⟨rfl, same⟩ := kin
  obtain ⟨rfl, rfl, bits, rfl⟩ := Fingerprint.mk.inj same
  obtain rfl := Option.map_injective toBits_injective bits
  rfl

/-- The events are the same, but for the id of the alert, for how its rule is labelled, and for when an alert is
closed whose rule was edited or taken away. -/
inductive Event.Akin (R : AlertId → AlertId → Prop) : Event → Event → Prop
  | opened {alert : Alert} {id : AlertId} {name : String} {severity : Severity} (stands : R alert.id id) :
      Akin R (.opened alert) (.opened { alert with id, ruleName := name, severity })
  | resolved {id id' : AlertId} {rule : RuleId} {time time' : Timestamp} {reason : ResolveReason}
      (stands : R id id') (recovery : reason = .recovered → time' = time) :
      Akin R (.resolved id rule time reason) (.resolved id' rule time' reason)

def Event.relabelled (name : String) (severity : Severity) : Event → Event
  | .opened alert => .opened { alert with ruleName := name, severity }
  | event => event

section Events

variable {R R' : AlertId → AlertId → Prop} {e e₁ e' : Event} {events events₁ events' : List Event}

theorem Event.Akin.relabelled (akin : e.Akin R e') (name : String) (severity : Severity) :
    e.Akin R (e'.relabelled name severity) := by
  cases akin with
  | opened stands => exact .opened stands
  | resolved stands recovery => exact .resolved stands recovery

theorem Event.Renamed.akin (renamed : e.Renamed R e₁) (later : e₁.Matches e') : e.Akin R e' := by
  cases renamed with
  | opened stands =>
    cases later with
    | same => exact .opened stands
  | resolved stands =>
    cases later with
    | same => exact .resolved stands fun _ => rfl
    | closed _ _ _ _ other => exact .resolved stands fun recovered => absurd recovered other

theorem Event.forall₂_akin (renamed : List.Forall₂ (Event.Renamed R) events events₁)
    (later : List.Forall₂ Event.Matches events₁ events') : List.Forall₂ (Event.Akin R) events events' := by
  induction renamed generalizing events' with
  | nil =>
    cases later
    exact .nil
  | cons here others ih =>
    cases later with
    | cons closed rest => exact .cons (here.akin closed) (ih rest)

theorem Event.opens_akin (akin : List.Forall₂ (Event.Akin R) events events') :
    List.Forall₂ R (Event.opens events) (Event.opens events') := by
  induction akin with
  | nil => exact .nil
  | cons here others ih =>
    cases here with
    | opened stands => exact .cons stands ih
    | resolved stands recovery => exact ih

theorem Event.opens_relabelled (name : String) (severity : Severity) (events : List Event) :
    Event.opens (events.map (Event.relabelled name severity)) = Event.opens events := by
  induction events with
  | nil => rfl
  | cons e events ih =>
    cases e with
    | opened alert => exact congrArg (alert.id :: ·) ih
    | resolved => exact ih

theorem Event.relabelled_of_opens {name : String} {severity : Severity} (none : Event.opens events = []) :
    events.map (Event.relabelled name severity) = events := by
  induction events with
  | nil => rfl
  | cons e events ih =>
    cases e with
    | opened alert => exact absurd none (List.cons_ne_nil _ _)
    | resolved id rule time reason => exact congrArg (.resolved id rule time reason :: ·) (ih none)

end Events

namespace FiringState

/-- The firing states are the same for a rule, but for the id of the open alert, for what is remembered of the
rule while it is clear, and for when it was seen. -/
structure Akin (R : AlertId → AlertId → Prop) (s s' : FiringState) : Prop where
  ruleId : s'.ruleId = s.ruleId
  phase : Phase.Renamed R (· = ·) s.phase s'.phase
  fingerprint : s.phase ≠ .clear → s'.fingerprint = s.fingerprint

section Akin

variable {R R' : AlertId → AlertId → Prop} {N : Nat → Nat → Prop} {r r' : Rule} {s s' t t' : FiringState}

theorem clear_iff_renamed {phase phase' : Phase} (h : Phase.Renamed R N phase phase') :
    phase' = .clear ↔ phase = .clear := by
  cases h <;> simp

theorem akin_initial (rule : RuleId) : (initial rule).Akin R (initial rule) :=
  ⟨rfl, .clear, fun _ => rfl⟩

theorem Akin.mono (akin : s.Akin R s') (more : ∀ {a b}, R a b → R' a b) : s.Akin R' s' :=
  ⟨akin.ruleId, akin.phase.mono more, akin.fingerprint⟩

theorem Akin.renamed (akin : s.Akin R s') (known : s'.fingerprint = s.fingerprint) (r : Rule) :
    s.Renamed R (· = ·) r s' :=
  ⟨akin.ruleId, akin.phase, by rw [Fits, known, Fits]⟩

theorem Akin.agrees (akin : s.Akin R s') (left : s.Agrees t) (right : s'.Agrees t') : t.Akin R t' := by
  refine ⟨?_, ?_, fun busy => ?_⟩
  · rw [right.ruleId, left.ruleId, akin.ruleId]
  · rw [left.phase, right.phase]
    exact akin.phase
  · rw [left.phase] at busy
    rw [right.fingerprint (mt (clear_iff_renamed akin.phase).mp busy), left.fingerprint busy, akin.fingerprint busy]

theorem akin_of_clear (ruleId : s'.ruleId = s.ruleId) (clear : s.phase = .clear) (clear' : s'.phase = .clear) :
    s.Akin R s' := by
  refine ⟨ruleId, ?_, fun busy => absurd clear busy⟩
  rw [clear, clear']
  exact .clear

theorem Akin.status (akin : s.Akin R s') : s'.status = s.status := by
  have phase := akin.phase
  rw [FiringState.status, FiringState.status]
  generalize s.phase = p at phase
  generalize s'.phase = p' at phase
  cases phase <;> rfl

theorem Akin.breaches (akin : s.Akin R s') : s'.breaches = s.breaches := by
  have phase := akin.phase
  rw [FiringState.breaches, FiringState.breaches]
  generalize s.phase = p at phase
  generalize s'.phase = p' at phase
  cases phase with
  | clear => rfl
  | pending n => rfl
  | opened stands counts => exact counts.symm

/-! ### Settling -/

theorem Renamed.dropPending (h : s.Renamed R N r s') : Phase.Renamed R N s.dropPending.phase s'.dropPending.phase := by
  have phase := h.phase
  obtain ⟨rule, p, known, seen⟩ := s
  obtain ⟨rule', p', known', seen'⟩ := s'
  cases phase with
  | clear => exact .clear
  | pending n => exact .clear
  | opened stands counts => exact .opened stands counts

theorem Renamed.forceResolve (h : s.Renamed R N r s') (reason : ResolveReason) (time : Timestamp) :
    List.Forall₂ (Event.Renamed R) (s.forceResolve reason time).2.toList (s'.forceResolve reason time).2.toList := by
  have phase := h.phase
  simp only [FiringState.forceResolve, openAlertId, closing, h.ruleId]
  generalize s.phase = p at phase
  generalize s'.phase = p' at phase
  cases phase with
  | clear => exact .nil
  | pending n => exact .nil
  | opened stands counts => exact .cons (.resolved stands) .nil

theorem Renamed.settle (h : ∀ r, s.Renamed R N r s') (definition : Option Rule) (announced : Bool)
    (time : Timestamp) :
    List.Forall₂ (Event.Renamed R) (s.settle definition announced time).2.toList
        (s'.settle definition announced time).2.toList ∧
      Phase.Renamed R N (s.settle definition announced time).1.phase
        (s'.settle definition announced time).1.phase := by
  cases definition with
  | none => exact ⟨(h default).forceResolve .ruleRemoved time, .clear⟩
  | some r =>
    obtain ⟨ended, synced⟩ := (h r).syncRule time
    cases announced with
    | false => exact ⟨ended, synced.phase⟩
    | true => exact ⟨ended, synced.dropPending⟩

theorem settle_congr {definition definition' : Option Rule}
    (same : definition'.map Rule.fingerprint = definition.map Rule.fingerprint) (s : FiringState) (announced : Bool)
    (time : Timestamp) : s.settle definition' announced time = s.settle definition announced time := by
  cases definition with
  | none =>
    obtain rfl := Option.map_eq_none_iff.mp same
    rfl
  | some r =>
    obtain ⟨r', rfl, known⟩ := Option.map_eq_some_iff.mp same
    have synced : s.syncRule r' time = s.syncRule r time := by rw [syncRule, known, syncRule]
    rw [settle, resetHysteresis, synced, settle, resetHysteresis]

theorem Akin.settle {definition definition' : Option Rule} (akin : s.Akin R s')
    (same : definition'.map Rule.fingerprint = definition.map Rule.fingerprint) (announced : Bool)
    (time time' : Timestamp) :
    List.Forall₂ (Event.Akin R) (s.settle definition announced time).2.toList
        (s'.settle definition' announced time').2.toList ∧
      (s.settle definition announced time).1.Akin R (s'.settle definition' announced time').1 := by
  rw [settle_congr same]
  have ruleId : (s'.settle definition announced time').1.ruleId = (s.settle definition announced time).1.ruleId := by
    rw [settle_ruleId, settle_ruleId, akin.ruleId]
  -- What is clear is settled to no effect; of all else the same is remembered.
  by_cases clear : s.phase = .clear
  · obtain ⟨stays, silent⟩ := settle_clear clear definition announced time
    obtain ⟨stays', silent'⟩ := settle_clear ((clear_iff_renamed akin.phase).mpr clear) definition announced time'
    rw [silent, silent']
    exact ⟨.nil, akin_of_clear ruleId stays stays'⟩
  · obtain ⟨state, later⟩ := s'.settle_later definition announced time time'
    obtain ⟨ended, phase⟩ := Renamed.settle (akin.renamed (akin.fingerprint clear)) definition announced time
    refine ⟨Event.forall₂_akin ended later, ruleId, state ▸ phase, fun busy => ?_⟩
    cases definition with
    | none => exact absurd rfl busy
    | some r => rw [fingerprint_settle, fingerprint_settle]

/-! ### Judging -/

section Labels

variable (fresh : AlertId) (r : Rule) (name : String) (severity : Severity) (enabled : Bool) (value : Float)
  (time : Timestamp)

theorem countBreach_relabelled (n : Nat) : countBreach n fresh { r with name, severity, enabled } value time =
    ((countBreach n fresh r value time).1,
      (countBreach n fresh r value time).2.map (Event.relabelled name severity)) := by
  have needed : Rule.needed { r with name, severity, enabled } = r.needed := rfl
  rw [countBreach, countBreach, needed]
  split <;> rfl

theorem transition_relabelled (s : FiringState) (breached : Bool) :
    s.transition fresh { r with name, severity, enabled } breached value time =
      ((s.transition fresh r breached value time).1,
        (s.transition fresh r breached value time).2.map (Event.relabelled name severity)) := by
  have moved : s.nextPhase fresh { r with name, severity, enabled } breached value time =
      ((s.nextPhase fresh r breached value time).1,
        (s.nextPhase fresh r breached value time).2.map (Event.relabelled name severity)) := by
    rw [nextPhase.eq_def, nextPhase.eq_def]
    split
    case h_2 => exact countBreach_relabelled ..
    case h_3 => exact countBreach_relabelled ..
    all_goals rfl
  rw [transition, moved]
  rfl

/-- The labels of a rule are only copied to the alerts that it opens. -/
theorem judge_relabelled (s : FiringState) :
    s.judge fresh { r with name, severity, enabled } value time =
      ((s.judge fresh r value time).1, (s.judge fresh r value time).2.map (Event.relabelled name severity)) := by
  have breaches : Rule.breaches { r with name, severity, enabled } value = r.breaches value := rfl
  have synced : s.syncRule { r with name, severity, enabled } time = s.syncRule r time := rfl
  rw [judge, judge, breaches]
  cases r.breaches value with
  | error e => rfl
  | ok breached =>
    dsimp only
    rw [synced, transition_relabelled, List.map_append, Event.relabelled_of_opens (s.opens_syncRule r time),
      Option.toList_map]

end Labels

theorem Akin.judge_same {fresh fresh' : AlertId} (akin : s.Akin R s') (value : Float) (time : Timestamp)
    (opening : Opening R (s.judge fresh r value time).2 (s'.judge fresh' r value time).2) :
    List.Forall₂ (Event.Akin R) (s.judge fresh r value time).2 (s'.judge fresh' r value time).2 ∧
      (s.judge fresh r value time).1.Akin R (s'.judge fresh' r value time).1 := by
  rw [FiringState.judge, FiringState.judge] at opening ⊢
  cases judged : r.breaches value with
  | error e => exact ⟨.nil, akin⟩
  | ok breached =>
    rw [judged] at opening
    dsimp only at opening ⊢
    obtain ⟨ended, synced⟩ :
        List.Forall₂ (Event.Akin R) (s.syncRule r time).2.toList (s'.syncRule r time).2.toList ∧
          (s.syncRule r time).1.Akin R (s'.syncRule r time).1 :=
      akin.settle (Eq.refl ((some r).map Rule.fingerprint)) false time time
    rw [Opening, Event.opens_append, Event.opens_append, opens_syncRule, opens_syncRule] at opening
    have known : (s'.syncRule r time).1.fingerprint = (s.syncRule r time).1.fingerprint := by
      rw [fingerprint_syncRule, fingerprint_syncRule]
    obtain ⟨opened, moved⟩ := (synced.renamed known r).transition known breached value time (fun _ => rfl)
      (fun _ _ same => congrArg oneMore same) opening
    have made := Event.forall₂_akin opened (Event.forall₂_matches _)
    exact ⟨List.rel_append ended made, moved.ruleId, moved.phase,
      fun _ => congrArg (· <|> some r.fingerprint) known⟩

theorem Akin.judge {fresh fresh' : AlertId} (akin : s.Akin R s') (kin : r.Kin r') (value : Float) (time : Timestamp)
    (opening : Opening R (s.judge fresh r value time).2 (s'.judge fresh' r' value time).2) :
    List.Forall₂ (Event.Akin R) (s.judge fresh r value time).2 (s'.judge fresh' r' value time).2 ∧
      (s.judge fresh r value time).1.Akin R (s'.judge fresh' r' value time).1 := by
  have labels := judge_relabelled fresh' r r'.name r'.severity r'.enabled value time s'
  rw [← kin.eq] at labels
  rw [labels, Opening, Event.opens_relabelled] at opening
  obtain ⟨events, state⟩ := akin.judge_same value time opening
  rw [labels, List.forall₂_map_right_iff]
  exact ⟨events.imp fun _ _ same => same.relabelled _ _, state⟩

end Akin

end FiringState

/-! ### What becomes of one rule in a round -/

section Rounds

variable {w w₁ w' : World} {rule rule' : RuleId} {r : Rule} {metric : String} {value : Float} {time : Timestamp}
  {rulings : List (FiringState × List Event)}

theorem World.Judged.named {rules : List Rule} (rest : w.AtRest) (judged : w.Judged value time rules rulings w') :
    List.Forall₂ (fun r new => ∀ e ∈ new, e.ruleId = r.id) rules (rulings.map (·.2)) := by
  rw [judged.judged, List.forall₂_map_right_iff]
  refine (FiringState.forall₂_judgeEach w.firing value time w.ids rules).imp ?_
  rintro r ruling ⟨fresh, rfl⟩ e made
  exact (FiringState.ruleId_judge (rest.firing_ruleId r.id).symm made).trans (rest.firing_ruleId r.id)

theorem World.Judged.own (line : w.InLine)
    (judged : w.Judged value time (w.engine.rules.snapshot.rulesFor metric) rulings w')
    (listed : r ∈ w.engine.rules.snapshot.rulesFor metric) :
    ∃ fresh, Event.of r.id (rulings.flatMap (·.2)) = ((w.firing r.id).judge fresh r value time).2 ∧
      w'.firing r.id = ((w.firing r.id).judge fresh r value time).1 := by
  have own := (Event.of_flatten (line.rest.indexed.once metric) (judged.named line.rest)).1
  rw [List.forall₂_map_right_iff, ← List.flatMap_def] at own
  obtain ⟨fresh, h, there, held, state, -⟩ := judged.judges listed
  refine ⟨fresh, List.forall₂_zip own there, ?_⟩
  rw [World.firing_eq, held, Option.getD_some, state]

theorem World.Judged.spared {rules : List Rule} (rest : w.AtRest) (judged : w.Judged value time rules rulings w')
    (once : (rules.map Rule.id).Nodup) (absent : rule ∉ rules.map Rule.id) :
    Event.of rule (rulings.flatMap (·.2)) = [] ∧ w'.firing rule = w.firing rule := by
  refine ⟨Event.of_eq_nil fun e made same => absent ?_, judged.firing.2 rule absent⟩
  rw [List.flatMap_def] at made
  exact same ▸ (Event.of_flatten once (judged.named rest)).2 e made

/-- When new rules are taken up each firing state is settled on its own. -/
theorem World.TakesUp.own {rules : List Rule} {events : List Event} (line : w.InLine)
    (fetched : w.Fetched (.ok rules) w₁) (takes : w₁.TakesUp w₁.engine.rules.snapshot.generation events w')
    (rule : RuleId) :
    ∃ time, Event.of rule events = ((w.firing rule).settle (w₁.rule? rule) false time).2.toList ∧
      ((w.firing rule).settle (w₁.rule? rule) false time).1.Agrees (w'.firing rule) := by
  obtain ⟨time, own⟩ := takes.closings line fetched rule
  obtain ⟨_, -, settles⟩ := takes.settles line fetched
  obtain ⟨time', -, agrees⟩ := settles rule
  have known : w'.rule? rule = w₁.rule? rule := by rw [World.rule?, takes.rules, World.rule?]
  refine ⟨time, own.trans ?_, ?_⟩
  · rw [FiringState.settle_snd, World.closing, known]
    simp only [FiringState.closing, line.rest.firing_ruleId rule]
  · rw [((w.firing rule).settle_later (w₁.rule? rule) false time' time).1]
    exact agrees

theorem World.Aligned.own {events : RuleId → List Event} (line : w.InLine)
    (aligned : w.Aligned true [rule] events w') :
    ∃ time, events rule = ((w.firing rule).settle (w.rule? rule) true time).2.toList ∧
      ((w.firing rule).settle (w.rule? rule) true time).1.Agrees (w'.firing rule) ∧
      (∀ e ∈ events rule, e.ruleId = rule) ∧ ∀ rule' ≠ rule, w'.firing rule' = w.firing rule' := by
  obtain ⟨time, made, settled⟩ := aligned.settles line rfl (List.mem_singleton_self rule)
  refine ⟨time, made, settled, fun e there => ?_, fun rule' other => ?_⟩
  · rw [made, Option.mem_toList] at there
    exact (FiringState.ruleId_settle there).trans (line.rest.firing_ruleId rule)
  · exact World.firing_of_held (aligned.others rule' fun mem => other (List.mem_singleton.mp mem))

theorem Event.opens_of_sublist (rule : RuleId) (events : List Event) :
    (Event.opens (Event.of rule events)).Sublist (Event.opens events) :=
  List.filter_sublist.filterMap _

theorem World.TakesUp.opens_of {generation : Nat} {events : List Event} (takes : w.TakesUp generation events w') :
    Event.opens (Event.of rule events) = [] := by
  have none := Event.opens_of_sublist rule events
  rw [takes.opens] at none
  exact List.sublist_nil.mp none

end Rounds

/-! ### Two engines -/

/-- All is in line, and every rule is listed. -/
structure World.Orderly (w : World) : Prop where
  line : w.InLine
  complete : w.engine.rules.snapshot.Complete

/-- Two engines that are orderly, and for which one rule compares the same and is in the same state. -/
structure World.Akin (R : AlertId → AlertId → Prop) (rule : RuleId) (v w : World) : Prop where
  orderly : v.Orderly ∧ w.Orderly
  firing : (v.firing rule).Akin R (w.firing rule)
  known : (w.rule? rule).map Rule.fingerprint = (v.rule? rule).map Rule.fingerprint
  invalidated : w.engine.rules.invalidated = v.engine.rules.invalidated

/-- Both answers are failures, or a rule compares the same by both. -/
inductive RuleSource.Agree (rule : RuleId) : Except SourceError (List Rule) → Except SourceError (List Rule) → Prop
  | failed (e e' : SourceError) : Agree rule (.error e) (.error e')
  | found {rules rules' : List Rule} (same : Fingerprint.of rule rules' = Fingerprint.of rule rules) :
      Agree rule (.ok rules) (.ok rules')

instance (rule : RuleId) : DecidableRel (RuleSource.Agree rule)
  | .error e, .error e' => .isTrue (.failed e e')
  | .ok rules, .ok rules' =>
    decidable_of_iff (Fingerprint.of rule rules' = Fingerprint.of rule rules) ⟨.found, fun | .found same => same⟩
  | .error _, .ok _ => .isFalse nofun
  | .ok _, .error _ => .isFalse nofun

/-- The call reads the rules from their source. -/
def Call.Fetches (w : World) : Call → Prop
  | .sample .. => w.engine.rules.invalidated = true
  | .announceEdit _ | .refresh => True
  | _ => False

instance (w : World) : DecidablePred (Call.Fetches w)
  | .sample .. => inferInstanceAs (Decidable (w.engine.rules.invalidated = true))
  | .announceEdit _ | .refresh => .isTrue trivial
  | .recover | .retry | .health => .isFalse id

def Reply.eventsOf (rule : RuleId) (reply : Reply) : List Event :=
  Event.of rule (reply.events?.getD [])

theorem Reply.eventsOf_append (rule : RuleId) (early late : List Event) :
    (Reply.events (early ++ late)).eventsOf rule = Event.of rule early ++ Event.of rule late :=
  Event.of_append ..

theorem Passage.events_cons (rule : RuleId) (p : Passage) (ps : List Passage) :
    Event.of rule (Passage.events (p :: ps)) = p.reply.eventsOf rule ++ Event.of rule (Passage.events ps) :=
  Event.of_append ..

section Pairs

variable {outside : World → World → Prop} {R R' : AlertId → AlertId → Prop} {v v₁ v' w w₁ w' : World}
  {rule rule' : RuleId} {metric : String} {value : Float} {time : Timestamp}

theorem World.Orderly.mem_watchers (orderly : w.Orderly) :
    rule ∈ (w.watchers metric).map Rule.id ↔
      ∃ known ∈ (w.rule? rule).map Rule.fingerprint, known.metricKey = metric := by
  constructor
  · intro mem
    obtain ⟨r, listed, rfl⟩ := List.mem_map.mp mem
    obtain ⟨got, watches⟩ := orderly.line.rest.indexed.listed listed
    exact ⟨r.fingerprint, Option.mem_map.mpr ⟨r, got, rfl⟩, watches⟩
  · rintro ⟨known, mem, rfl⟩
    obtain ⟨r, got, rfl⟩ := Option.mem_map.mp mem
    exact List.mem_map.mpr ⟨r, orderly.complete _ r got, orderly.line.rest.indexed.named got⟩

theorem World.Fetched.known {rules : List Rule} (fetched : w.Fetched (.ok rules) w') (rule : RuleId) :
    (w'.rule? rule).map Rule.fingerprint = Fingerprint.of rule rules := by
  obtain ⟨now, same⟩ := fetched.took
  rw [World.rule?, same, RuleSnapshot.get?_build, Fingerprint.of]

theorem World.Fetched.complete {rules : List Rule} (fetched : w.Fetched (.ok rules) w') :
    w'.engine.rules.snapshot.Complete := by
  obtain ⟨now, same⟩ := fetched.took
  rw [same]
  exact RuleSnapshot.complete_build rules _ now

namespace World.Akin

theorem mono (akin : World.Akin R rule v w) (more : ∀ {a b}, R a b → R' a b) : World.Akin R' rule v w :=
  ⟨akin.orderly, akin.firing.mono more, akin.known, akin.invalidated⟩

theorem goesOn (akin : World.Akin R rule v w) (lines : v'.InLine ∧ w'.InLine)
    (rules : v'.engine.rules = v.engine.rules) (rules' : w'.engine.rules = w.engine.rules)
    (firing : (v'.firing rule).Akin R (w'.firing rule)) : World.Akin R rule v' w' := by
  obtain ⟨⟨line, complete⟩, line', complete'⟩ := akin.orderly
  refine ⟨⟨⟨lines.1, rules ▸ complete⟩, lines.2, rules' ▸ complete'⟩, firing, ?_, ?_⟩
  · rw [World.rule?, World.rule?, rules, rules']
    exact akin.known
  · rw [rules, rules']
    exact akin.invalidated

theorem elsewhere (akin : World.Akin R rule v w) (change : v.Elsewhere v') (change' : w.Elsewhere w') :
    World.Akin R rule v' w' := by
  obtain ⟨orderly, orderly'⟩ := akin.orderly
  have engine := change.engine.1
  have engine' := change'.engine.1
  refine akin.goesOn ⟨orderly.line.elsewhere change, orderly'.line.elsewhere change'⟩ (congrArg Engine.rules engine)
    (congrArg Engine.rules engine') ?_
  rw [World.firing, World.firing, engine, engine']
  exact akin.firing

theorem unmoved (akin : World.Akin R rule v w) (same : v.Unmoved v') (same' : w.Unmoved w') :
    World.Akin R rule v' w' := by
  obtain ⟨orderly, orderly'⟩ := akin.orderly
  refine akin.goesOn ⟨same.inLine orderly.line, same'.inLine orderly'.line⟩ same.rules same'.rules ?_
  rw [World.firing_of_tracker same.tracker, World.firing_of_tracker same'.tracker]
  exact akin.firing

theorem relieved (akin : World.Akin R rule v w) (relieved : v.Relieved v') (relieved' : w.Relieved w') :
    World.Akin R rule v' w' := by
  obtain ⟨orderly, orderly'⟩ := akin.orderly
  exact akin.goesOn ⟨relieved.inLine orderly.line, relieved'.inLine orderly'.line⟩ relieved.rules relieved'.rules
    (akin.firing.agrees (relieved.firing orderly.line rule) (relieved'.firing orderly'.line rule))

theorem notFetched {e e' : SourceError} (akin : World.Akin R rule v w) (fetched : v.Fetched (.error e) v')
    (fetched' : w.Fetched (.error e') w') : World.Akin R rule v' w' := by
  obtain ⟨orderly, orderly'⟩ := akin.orderly
  have kept : v'.engine.rules.snapshot = v.engine.rules.snapshot := fetched.took
  have kept' : w'.engine.rules.snapshot = w.engine.rules.snapshot := fetched'.took
  refine ⟨⟨⟨fetched.inLine orderly.line, kept ▸ orderly.complete⟩, fetched'.inLine orderly'.line,
    kept' ▸ orderly'.complete⟩, ?_, ?_, ?_⟩
  · rw [World.firing_of_tracker fetched.tracker, World.firing_of_tracker fetched'.tracker]
    exact akin.firing
  · rw [World.rule?, World.rule?, kept, kept']
    exact akin.known
  · rw [fetched.invalidated, fetched'.invalidated]

/-- New rules by which the rule compares the same are taken up alike. -/
theorem takesUp {rules rules' : List Rule} {events events' : List Event} (akin : World.Akin R rule v w)
    (same : Fingerprint.of rule rules' = Fingerprint.of rule rules)
    (fetched : v.Fetched (.ok rules) v₁) (fetched' : w.Fetched (.ok rules') w₁)
    (takes : v₁.TakesUp v₁.engine.rules.snapshot.generation events v')
    (takes' : w₁.TakesUp w₁.engine.rules.snapshot.generation events' w') :
    List.Forall₂ (Event.Akin R) (Event.of rule events) (Event.of rule events') ∧ World.Akin R rule v' w' := by
  obtain ⟨⟨line, -⟩, line', -⟩ := akin.orderly
  -- The states are those from before the fetch, the rules are the new ones.
  have known : (w₁.rule? rule).map Rule.fingerprint = (v₁.rule? rule).map Rule.fingerprint := by
    rw [fetched.known, fetched'.known, same]
  obtain ⟨time, own, settled⟩ := takes.own line fetched rule
  obtain ⟨time', own', settled'⟩ := takes'.own line' fetched' rule
  obtain ⟨ended, firing⟩ := akin.firing.settle known false time time'
  rw [own, own']
  refine ⟨ended, ⟨⟨takes.inLine line _ fetched, ?_⟩, takes'.inLine line' _ fetched', ?_⟩,
    firing.agrees settled settled', ?_, ?_⟩
  · rw [takes.rules]
    exact fetched.complete
  · rw [takes'.rules]
    exact fetched'.complete
  · rw [World.rule?, World.rule?, takes.rules, takes'.rules]
    exact known
  · rw [takes.rules, takes'.rules, fetched.invalidated, fetched'.invalidated]

theorem fetched {answer answer' : Except SourceError (List Rule)} {events events' : List Event}
    (akin : World.Akin R rule v w) (agree : RuleSource.Agree rule answer answer') (fetched : v.Fetched answer v₁)
    (fetched' : w.Fetched answer' w₁) (takes : v₁.TakesUp v₁.engine.rules.snapshot.generation events v')
    (takes' : w₁.TakesUp w₁.engine.rules.snapshot.generation events' w') :
    List.Forall₂ (Event.Akin R) (Event.of rule events) (Event.of rule events') ∧ World.Akin R rule v' w' := by
  cases agree with
  | found same => exact akin.takesUp same fetched fetched' takes takes'
  | failed e e' =>
    have akin₁ := akin.notFetched fetched fetched'
    obtain ⟨rfl, rfl⟩ := takes.same akin₁.orderly.1.line
    obtain ⟨rfl, rfl⟩ := takes'.same akin₁.orderly.2.line
    exact ⟨.nil, akin₁⟩

theorem reads {events events' : List Event} (akin : World.Akin R rule v w) (steady : SteadySource outside)
    (agree : v.engine.rules.invalidated = true → RuleSource.Agree rule v.source.fetch w.source.fetch)
    (reads : v.Reads outside v₁) (reads' : w.Reads outside w₁)
    (takes : v₁.TakesUp v₁.engine.rules.snapshot.generation events v')
    (takes' : w₁.TakesUp w₁.engine.rules.snapshot.generation events' w') :
    List.Forall₂ (Event.Akin R) (Event.of rule events) (Event.of rule events') ∧ World.Akin R rule v' w' := by
  have invalidated := akin.invalidated
  cases reads with
  | valid fresh same =>
    cases reads' with
    | valid fresh' same' =>
      have akin₁ := akin.unmoved same same'
      obtain ⟨rfl, rfl⟩ := takes.same akin₁.orderly.1.line
      obtain ⟨rfl, rfl⟩ := takes'.same akin₁.orderly.2.line
      exact ⟨.nil, akin₁⟩
    | fetched stale' => exact absurd (fresh.symm.trans (invalidated.symm.trans stale')) nofun
  | fetched stale answer fetched answers =>
    cases reads' with
    | valid fresh' => exact absurd (fresh'.symm.trans (invalidated.trans stale)) nofun
    | fetched stale' answer' fetched' answers' =>
      obtain rfl := answers steady
      obtain rfl := answers' steady
      exact akin.fetched (agree stale) fetched fetched' takes takes'

theorem announced {events events' : RuleId → List Event} (akin : World.Akin R rule v w)
    (aligned : v.Aligned true [rule'] events v') (aligned' : w.Aligned true [rule'] events' w') :
    List.Forall₂ (Event.Akin R) (Event.of rule (events rule')) (Event.of rule (events' rule')) ∧
      World.Akin R rule v' w' := by
  obtain ⟨orderly, orderly'⟩ := akin.orderly
  have lines := And.intro (orderly.line.announced aligned) (orderly'.line.announced aligned')
  obtain ⟨time, made, settled, named, others⟩ := aligned.own orderly.line
  obtain ⟨time', made', settled', named', others'⟩ := aligned'.own orderly'.line
  by_cases same : rule = rule'
  · subst same
    obtain ⟨ended, firing⟩ := akin.firing.settle akin.known true time time'
    rw [Event.of_eq_self named, Event.of_eq_self named', made, made']
    exact ⟨ended, akin.goesOn lines aligned.rules aligned'.rules (firing.agrees settled settled')⟩
  · have silent {events : List Event} (named : ∀ e ∈ events, e.ruleId = rule') : Event.of rule events = [] :=
      Event.of_eq_nil fun e mem mine => same (mine.symm.trans (named e mem))
    rw [silent named, silent named']
    refine ⟨.nil, akin.goesOn lines aligned.rules aligned'.rules ?_⟩
    rw [others rule same, others' rule same]
    exact akin.firing

/-- Both rules judge the samples of one metric, and judge them alike. -/
theorem judged {rulings rulings' : List (FiringState × List Event)} (akin : World.Akin R rule v w)
    (judged : v.Judged value time (v.engine.rules.snapshot.rulesFor metric) rulings v')
    (judged' : w.Judged value time (w.engine.rules.snapshot.rulesFor metric) rulings' w')
    (opening : FiringState.Opening R (Event.of rule (rulings.flatMap (·.2)))
      (Event.of rule (rulings'.flatMap (·.2)))) :
    List.Forall₂ (Event.Akin R) (Event.of rule (rulings.flatMap (·.2))) (Event.of rule (rulings'.flatMap (·.2))) ∧
      World.Akin R rule v' w' := by
  obtain ⟨orderly, orderly'⟩ := akin.orderly
  have lines := And.intro (judged.inLine orderly.line) (judged'.inLine orderly'.line)
  -- The rule watches the same metric for both, so it is listed by both or by neither.
  have listed : rule ∈ (w.watchers metric).map Rule.id ↔ rule ∈ (v.watchers metric).map Rule.id := by
    rw [orderly.mem_watchers, orderly'.mem_watchers, akin.known]
  by_cases watches : rule ∈ (v.watchers metric).map Rule.id
  · obtain ⟨r', mem', same⟩ := List.mem_map.mp (listed.mpr watches)
    obtain ⟨r, mem, rfl⟩ := List.mem_map.mp watches
    have got : v.rule? r.id = some r := (orderly.line.rest.indexed.listed mem).1
    have got' : w.rule? r'.id = some r' := (orderly'.line.rest.indexed.listed mem').1
    have kin : r.Kin r' := by
      have known := akin.known
      rw [same] at got'
      rw [got, got'] at known
      exact ⟨same, Option.some.inj known⟩
    obtain ⟨fresh, own, state⟩ := judged.own orderly.line mem
    obtain ⟨fresh', own', state'⟩ := judged'.own orderly'.line mem'
    rw [same] at own' state'
    rw [own, own'] at opening
    obtain ⟨made, firing⟩ := akin.firing.judge kin value time opening
    rw [own, own']
    refine ⟨made, akin.goesOn lines judged.rules judged'.rules ?_⟩
    rw [state, state']
    exact firing
  · obtain ⟨silent, still⟩ := judged.spared orderly.line.rest (orderly.line.rest.indexed.once metric) watches
    obtain ⟨silent', still'⟩ := judged'.spared orderly'.line.rest (orderly'.line.rest.indexed.once metric)
      (mt listed.mp watches)
    rw [silent, silent']
    refine ⟨.nil, akin.goesOn lines judged.rules judged'.rules ?_⟩
    rw [still, still']
    exact akin.firing

end World.Akin

/-! ### Every call -/

/-- A call that both get comes to the same for the rule. -/
theorem Call.Comes.akin {call : Call} {reply reply' : Reply} (steady : SteadySource outside)
    (akin : World.Akin R rule v w)
    (agree : call.Fetches v → RuleSource.Agree rule v.source.fetch w.source.fetch)
    (comes : call.Comes outside v reply v') (comes' : call.Comes outside w reply' w')
    (opening : FiringState.Opening R (reply.eventsOf rule) (reply'.eventsOf rule)) :
    List.Forall₂ (Event.Akin R) (reply.eventsOf rule) (reply'.eventsOf rule) ∧ World.Akin R rule v' w' := by
  have found {answer answer' : Except SourceError (List Rule)}
      (answers : SteadySource outside → answer = v.source.fetch)
      (answers' : SteadySource outside → answer' = w.source.fetch) (fetches : call.Fetches v) :
      RuleSource.Agree rule answer answer' := by
    rw [answers steady, answers' steady]
    exact agree fetches
  cases comes with
  | @sampled _ _ _ _ _ _ _ early rulings reads takes judged =>
    cases comes' with
    | @sampled _ _ _ _ _ _ _ early' rulings' reads' takes' judged' =>
      obtain ⟨ended, akin₁⟩ := akin.reads steady agree reads reads' takes takes'
      rw [← congrArg RuleStore.snapshot takes.rules] at judged
      rw [← congrArg RuleStore.snapshot takes'.rules] at judged'
      rw [FiringState.Opening, Reply.eventsOf_append, Reply.eventsOf_append, Event.opens_append, Event.opens_append,
        takes.opens_of, takes'.opens_of] at opening
      obtain ⟨made, akin'⟩ := akin₁.judged judged judged' opening
      rw [Reply.eventsOf_append, Reply.eventsOf_append]
      exact ⟨List.rel_append ended made, akin'⟩
  | notEdited fetched answers aligned =>
    cases comes' with
    | edited _ answers' => exact nomatch found answers answers' trivial
    | notEdited fetched' answers' aligned' =>
      have akin₁ := akin.notFetched fetched fetched'
      obtain ⟨⟨line, complete⟩, line', complete'⟩ := akin₁.orderly
      have stale : World.Akin R rule (World.onRules _ (·.invalidate)) (World.onRules _ (·.invalidate)) :=
        ⟨⟨⟨line.invalidate, complete⟩, line'.invalidate, complete'⟩, akin₁.firing, akin₁.known, rfl⟩
      exact ⟨.nil, (stale.announced aligned aligned').2⟩
  | edited fetched answers takes aligned =>
    cases comes' with
    | notEdited _ answers' => exact nomatch found answers answers' trivial
    | edited fetched' answers' takes' aligned' =>
      obtain ⟨ended, akin₁⟩ := akin.fetched (found answers answers' trivial) fetched fetched' takes takes'
      obtain ⟨settled, akin'⟩ := akin₁.announced aligned aligned'
      rw [Reply.eventsOf_append, Reply.eventsOf_append]
      exact ⟨List.rel_append ended settled, akin'⟩
  | notRefreshed fetched answers =>
    cases comes' with
    | refreshed _ answers' => exact nomatch found answers answers' trivial
    | notRefreshed fetched' answers' => exact ⟨.nil, akin.notFetched fetched fetched'⟩
  | refreshed fetched answers takes =>
    cases comes' with
    | notRefreshed _ answers' => exact nomatch found answers answers' trivial
    | refreshed fetched' answers' takes' =>
      exact akin.fetched (found answers answers' trivial) fetched fetched' takes takes'
  | retried relieved =>
    cases comes' with
    | retried relieved' => exact ⟨.nil, akin.relieved relieved relieved'⟩

/-- How many alerts of the rule a call opens does not depend on how ids stand for each other. -/
theorem Call.Comes.shape {call : Call} {reply reply' : Reply} (steady : SteadySource outside)
    (akin : World.Akin R rule v w)
    (agree : call.Fetches v → RuleSource.Agree rule v.source.fetch w.source.fetch)
    (comes : call.Comes outside v reply v') (comes' : call.Comes outside w reply' w') :
    (Event.opens (reply.eventsOf rule)).length = (Event.opens (reply'.eventsOf rule)).length := by
  have any : World.Akin (fun _ _ => True) rule v w := akin.mono fun _ => trivial
  have free : FiringState.Opening (fun _ _ => True) (reply.eventsOf rule) (reply'.eventsOf rule) := fun _ _ => trivial
  exact (Event.opens_akin (Call.Comes.akin steady any agree comes comes' free).1).length_eq

/-! ### Courses -/

/-- If the first call reads the rules, then both fail to or one rule compares the same. -/
def Passage.Agree (rule : RuleId) (p p' : Passage) : Prop :=
  p.call.Fetches p.before → RuleSource.Agree rule p.before.source.fetch p'.before.source.fetch

instance (rule : RuleId) : DecidableRel (Passage.Agree rule) :=
  fun p _ => inferInstanceAs (Decidable (p.call.Fetches p.before → _))

/-- A rule comes to the same by both calls. -/
structure Passage.Akin (R : AlertId → AlertId → Prop) (rule : RuleId) (p p' : Passage) : Prop where
  status : (p'.after.firing rule).status = (p.after.firing rule).status
  breaches : (p'.after.firing rule).breaches = (p.after.firing rule).breaches
  events : List.Forall₂ (Event.Akin R) (p.reply.eventsOf rule) (p'.reply.eventsOf rule)

/-- The ids of the alerts that a rule opened stand for each other, in order. -/
def Passage.Counterparts (rule : RuleId) (ps ps' : List Passage) (id id' : AlertId) : Prop :=
  (id, id') ∈ (Event.opens (Event.of rule (Passage.events ps))).zip
    (Event.opens (Event.of rule (Passage.events ps')))

theorem World.akin_new {c c' : Config} (new : v.engine = .ofConfig c) (new' : w.engine = .ofConfig c')
    (rule : RuleId) : World.Akin R rule v w := by
  have orderly {w : World} {c : Config} (new : w.engine = .ofConfig c) : w.Orderly := by
    refine ⟨World.inLine_new new, ?_⟩
    rw [new]
    exact RuleSnapshot.complete_empty 0 none
  refine ⟨⟨orderly new, orderly new'⟩, ?_, ?_, ?_⟩
  · rw [World.firing, World.firing, new, new']
    exact FiringState.akin_initial rule
  · rw [World.rule?, World.rule?, new, new']
    rfl
  · rw [new, new']
    rfl

theorem World.Akin.course {ps ps' : List Passage} (akin : World.Akin R rule v w)
    (course : Course (Passage.Runs World.BesideSource) World.Elsewhere v ps v')
    (course' : Course (Passage.Runs World.BesideSource) World.Elsewhere w ps' w')
    (routine : ∀ p ∈ ps, p.call.IsRoutine) (calls : ps'.map (·.call) = ps.map (·.call))
    (agree : List.Forall₂ (Passage.Agree rule) ps ps')
    (opening : FiringState.Opening R (Event.of rule (Passage.events ps)) (Event.of rule (Passage.events ps'))) :
    List.Forall₂ (Passage.Akin R rule) ps ps' := by
  induction course generalizing w ps' with
  | nil =>
    cases agree
    exact .nil
  | @cons v p ps v' gap ran rest ih =>
    obtain ⟨here, later⟩ := List.forall_mem_cons.mp routine
    cases agree with
    | @cons _ p' _ ps' agrees others =>
      obtain ⟨same, calls⟩ : p'.call = p.call ∧ ps'.map (·.call) = ps.map (·.call) := List.cons.inj calls
      cases course' with
      | cons gap' ran' rest' =>
        have before := akin.elsewhere gap gap'
        have comes := ran.comes before.orderly.1.line.rest And.left here
        have comes' := ran'.comes before.orderly.2.line.rest And.left (same ▸ here)
        rw [same] at comes'
        have steady : SteadySource World.BesideSource := fun _ _ => And.right
        -- The lists of ids are cut at the same place whatever ids stand for each other.
        have shape := Call.Comes.shape steady before agrees comes comes'
        rw [FiringState.Opening, Passage.events_cons, Passage.events_cons, Event.opens_append, Event.opens_append,
          List.zip_append shape] at opening
        obtain ⟨first, rest₁⟩ := List.forall_mem_append.mp opening
        obtain ⟨events, after⟩ := Call.Comes.akin steady before agrees comes comes' first
        exact .cons ⟨after.firing.status, after.firing.breaches, events⟩ (ih after rest' later calls others rest₁)

/-- Two new engines get the same calls. Whenever they read the rules both fail to, or an enabled rule of one id is
there for both or for neither, and the first such rule compares the same. Then after every call this rule has the
same status and the same count of breaches, and its events are the same, but for how the rule is labelled, for
when alerts are closed whose rule was edited or taken away, and for the ids of the alerts. These stand for each
other in the order in which the alerts were opened, one to one if no id is drawn twice. -/
theorem Course.independent {c c' : Config} {ps ps' : List Passage} (new : v.engine = .ofConfig c)
    (new' : w.engine = .ofConfig c')
    (course : Course (Passage.Runs World.BesideSource) World.Elsewhere v ps v')
    (course' : Course (Passage.Runs World.BesideSource) World.Elsewhere w ps' w')
    (routine : ∀ p ∈ ps, p.call.IsRoutine) (calls : ps'.map (·.call) = ps.map (·.call))
    (agree : List.Forall₂ (Passage.Agree rule) ps ps') :
    List.Forall₂ (Passage.Akin (Passage.Counterparts rule ps ps') rule) ps ps' ∧
      (Injective v.ids.value → Injective w.ids.value → Relator.BiUnique (Passage.Counterparts rule ps ps')) := by
  have routine' : ∀ p ∈ ps', p.call.IsRoutine := Passage.forall_call calls routine
  refine ⟨(World.akin_new new new' rule).course course course' routine calls agree fun _ => id,
    fun distinct distinct' => ?_⟩
  have once := (course.opens_nodup (World.inLine_new new) distinct And.left routine).sublist
    (Event.opens_of_sublist rule _)
  have once' := (course'.opens_nodup (World.inLine_new new') distinct' And.left routine').sublist
    (Event.opens_of_sublist rule _)
  constructor
  · intro a b c here there
    exact (eq_iff_of_mem_zip once once' here there).mpr rfl
  · intro a b c here there
    exact (eq_iff_of_mem_zip once once' here there).mp rfl

end Pairs

/-- A rule opens an alert, is edited and opens another. The other engine knows it by another name and severity,
and next to it a rule that is disabled and one of another metric, which takes the first id. -/
theorem Course.independent_of_labels :
    let edited : Rule := { Rule.highLoad with threshold := some 80 }
    let named (r : Rule) : Rule := { r with name := "Load", severity := .critical }
    let others : List Rule :=
      [{ Rule.highLoad with enabled := false }, { Rule.highLoad with id := "cpu", metricKey := "cpu" }]
    let calls : List ((World → World) × Call) := [(id, .refresh), (id, .sample "cpu" 95 default),
      (id, .sample "load" 95 default), ((·.editSource (.setList [edited])), .announceEdit "high-load"),
      (id, .sample "load" 85 default)]
    let calls' : List ((World → World) × Call) :=
      [((·.editSource (.setList (others ++ [named .highLoad]))), .refresh), (id, .sample "cpu" 95 default),
        (id, .sample "load" 95 default), ((·.editSource (.setList [named edited])), .announceEdit "high-load"),
        (id, .sample "load" 85 default)]
    let ps := Passage.madeEach (.watched { workers := 1 } {}) calls
    let ps' := Passage.madeEach (.watched { workers := 1 } {}) calls'
    ps.map (fun p => (p.reply.eventsOf "high-load").map Event.alertId) = [[], [], [""], [""], ["a"]] ∧
      ps'.map (fun p => (p.reply.eventsOf "high-load").map Event.alertId) = [[], [], ["a"], ["a"], ["aa"]] ∧
      List.Forall₂ (Passage.Akin (Passage.Counterparts "high-load" ps ps') "high-load") ps ps' ∧
      Relator.BiUnique (Passage.Counterparts "high-load" ps ps') := by
  intro edited named others calls calls' ps ps'
  have still (w : World) : w.Elsewhere w := ⟨_, _, _, _, _, _, _, Nat.le_refl _, rfl⟩
  have listed (rules : List Rule) (w : World) : w.Elsewhere (w.editSource (.setList rules)) :=
    ⟨_, _, _, _, _, _, _, Nat.le_refl _, rfl⟩
  have changes : ∀ c ∈ calls, ∀ w : World, w.Elsewhere (c.1 w) := by
    simp only [calls, List.forall_mem_cons]
    exact ⟨still, still, still, listed _, still, by simp⟩
  have changes' : ∀ c ∈ calls', ∀ w : World, w.Elsewhere (c.1 w) := by
    simp only [calls', List.forall_mem_cons]
    exact ⟨listed _, still, still, listed _, still, by simp⟩
  have course : Course (Passage.Runs World.BesideSource) World.Elsewhere _ ps (Passage.last _ ps) :=
    Course.madeEach changes (by decide +kernel)
  have course' : Course (Passage.Runs World.BesideSource) World.Elsewhere _ ps' (Passage.last _ ps') :=
    Course.madeEach changes' (by decide +kernel)
  have routine : ∀ p ∈ ps, p.call.IsRoutine := by
    simp only [ps, calls, Passage.madeEach, List.forall_mem_cons]
    exact ⟨trivial, trivial, trivial, trivial, trivial, by simp⟩
  have same : ps'.map (·.call) = ps.map (·.call) :=
    (Passage.calls_madeEach _ calls').trans (Passage.calls_madeEach _ calls).symm
  have agree : List.Forall₂ (Passage.Agree "high-load") ps ps' := by decide +kernel
  have distinct := World.injective_watched { workers := 1 } {}
  have new : (World.watched { workers := 1 } {}).engine = .ofConfig { workers := 1 } := rfl
  obtain ⟨akin, one⟩ := Course.independent new new course course' routine same agree
  exact ⟨by decide +kernel, by decide +kernel, akin, one distinct distinct⟩

end ThresholdAlerts
