import Mathlib.Logic.Relator
import ThresholdAlerts.Proofs.Insulation
import ThresholdAlerts.Proofs.Openings
import ThresholdAlerts.Proofs.Takeovers
/-! A crash and the recovery from it, while the rules stay as they are. Main statement: an engine that took over
from storage answers every further sample as the old one would have, up to the ids of the alerts that are opened
after the crash. -/
namespace ThresholdAlerts

open Function Prog

/-! ### One sample -/

section Judging

variable {R R' : AlertId → AlertId → Prop} {N : Nat → Nat → Prop}

/-- Rules whose firing states are the same up to ids judge a sample alike, if the ids of the alerts that they open
stand for each other. -/
theorem FiringState.renamed_judgeEach {state state' : RuleId → FiringState} {rules : List Rule}
    {ids ids' : Supply AlertId} {value : Float} {time : Timestamp}
    (same : ∀ r ∈ rules, (state r.id).Renamed R N r (state' r.id))
    (counts : ∀ n, N n n) (more : ∀ n n', N n n' → N (oneMore n) (oneMore n'))
    (opening : Opening R ((judgeEach state value time ids rules).flatMap (·.2))
      ((judgeEach state' value time ids' rules).flatMap (·.2))) :
    List.Forall₂ (fun ruling ruling' => List.Forall₂ (Event.Renamed R) ruling.2 ruling'.2 ∧
        Phase.Renamed R N ruling.1.phase ruling'.1.phase)
      (judgeEach state value time ids rules) (judgeEach state' value time ids' rules) := by
  induction rules generalizing ids ids' with
  | nil => exact .nil
  | cons r rest ih =>
    obtain ⟨here, others⟩ := List.forall_mem_cons.mp same
    rw [judgeEach, judgeEach, List.flatMap_cons, List.flatMap_cons] at opening
    have shape := here.shape ids.next ids'.next value time counts more
    rw [Opening, Event.opens_append, Event.opens_append, List.zip_append shape] at opening
    obtain ⟨first, later⟩ := List.forall_mem_append.mp opening
    obtain ⟨made, judged⟩ := here.judge value time counts more first
    exact .cons ⟨made, judged.phase⟩ (ih others later)

end Judging

/-- The firing states are in line with the rules of a list. -/
structure World.GoesBy (w : World) (rules : List Rule) : Prop where
  line : w.InLine
  serves : w.Serves rules

section Samples

variable {outside : World → World → Prop} {v v₁ v' w w' : World} {rules : List Rule} {rule : RuleId}

theorem World.InLine.settled (line : v.InLine) (rule : RuleId) (time : Timestamp) :
    ((v.firing rule).settle (v.rule? rule) false time).1.phase = (v.firing rule).phase ∧
      ((v.firing rule).settle (v.rule? rule) false time).2 = none := by
  cases known : v.rule? rule with
  | some r =>
    have fits : (v.firing rule).Fits r := line.fits known
    rw [FiringState.settle, if_neg Bool.false_ne_true, FiringState.syncRule_of_fits fits]
    exact ⟨rfl, rfl⟩
  | none =>
    have clear : (v.firing rule).phase = .clear := by
      rw [World.firing_eq]
      cases held : v.engine.tracker.held rule with
      | none => rfl
      | some h => exact line.spent held ((line.each rule h held).gone known)
    rw [clear]
    exact FiringState.settle_clear clear none false time

/-- Where the rules were looked at that it goes by already, an engine goes on as it is. -/
structure World.Abides (rules : List Rule) (v w : World) : Prop where
  goes : w.GoesBy rules
  ids : w.ids = v.ids
  phase : ∀ rule, (w.firing rule).phase = (v.firing rule).phase

theorem World.GoesBy.reads {early : List Event} (goes : v.GoesBy rules) (fetches : v.source.fetch = .ok rules)
    (steady : SteadySource outside) (reads : v.Reads outside v₁)
    (takes : v₁.TakesUp v₁.engine.rules.snapshot.generation early v') : early = [] ∧ World.Abides rules v v' := by
  have line' := reads.inLine goes.line takes
  cases reads with
  | valid fresh same =>
    obtain ⟨rfl, rfl⟩ := takes.same (same.inLine goes.line)
    refine ⟨rfl, ⟨line', fun generation now => ?_⟩, same.ids, fun rule => ?_⟩
    · rw [same.rules]
      exact goes.serves generation now
    · rw [World.firing_of_tracker same.tracker]
  | fetched stale answer fetched answers =>
    obtain rfl := (answers steady).trans fetches
    have serves : v₁.Serves rules := fetched.serves
    have known (rule : RuleId) : v₁.rule? rule = v.rule? rule := by
      rw [World.rule?, World.rule?, ← (serves 0 default).get? rule, (goes.serves 0 default).get? rule]
    obtain ⟨each, rfl, settles⟩ := takes.settles goes.line fetched
    obtain ⟨_, -, aligned⟩ := takes.claimed goes.line fetched
    refine ⟨List.flatMap_eq_nil_iff.mpr fun rule mem => ?_, ⟨line', fun generation now => ?_⟩,
      aligned.ids.trans fetched.ids, fun rule => ?_⟩
    · obtain ⟨time, events, -⟩ := settles rule
      rw [events mem, known, (goes.line.settled rule time).2]
      rfl
    · rw [takes.rules]
      exact serves generation now
    · obtain ⟨time, -, agrees⟩ := settles rule
      rw [agrees.phase, known, (goes.line.settled rule time).1]

theorem World.GoesBy.sampled {metric : String} {value : Float} {time : Timestamp} {reply : Reply}
    (goes : v.GoesBy rules) (fetches : v.source.fetch = .ok rules) (steady : SteadySource outside)
    (comes : (Call.sample metric value time).Comes outside v reply v') :
    ∃ u rulings, reply = .events (rulings.flatMap (·.2)) ∧ World.Abides rules v u ∧ v'.GoesBy rules ∧
      u.Judged value time ((RuleSnapshot.build rules 0 default).rulesFor metric) rulings v' := by
  cases comes with
  | @sampled _ _ _ _ v₁ u _ early rulings reads takes judged =>
    obtain ⟨rfl, still⟩ := goes.reads fetches steady reads takes
    rw [← congrArg RuleStore.snapshot takes.rules] at judged
    have line := judged.inLine still.goes.line
    rw [← (still.goes.serves 0 default).rulesFor] at judged
    refine ⟨u, rulings, rfl, still, ⟨line, fun generation now => ?_⟩, judged⟩
    rw [judged.rules]
    exact still.goes.serves generation now

theorem World.GoesBy.elsewhere (goes : v.GoesBy rules) (change : v.Elsewhere w) : World.Abides rules v w := by
  obtain ⟨engine, -, -, ids⟩ := change.engine
  refine ⟨⟨goes.line.elsewhere change, fun generation now => ?_⟩, ids, fun rule => ?_⟩
  · rw [engine]
    exact goes.serves generation now
  · exact congrArg FiringState.phase (World.firing_of_tracker (congrArg Engine.tracker engine))

end Samples

/-! ### Two engines -/

/-- Two engines go by the same rules, and their firing states are the same but for ids and breaches of open
alerts. -/
structure World.Resumes (R : AlertId → AlertId → Prop) (rules : List Rule) (v w : World) : Prop where
  goes : v.GoesBy rules ∧ w.GoesBy rules
  phase : ∀ rule, Phase.Renamed R (fun _ _ => True) (v.firing rule).phase (w.firing rule).phase

section Resuming

variable {R R' : AlertId → AlertId → Prop} {outside : World → World → Prop} {v v₁ v' w w₁ w' : World}
  {rules : List Rule} {metric : String} {value : Float} {time : Timestamp}

theorem World.Resumes.mono (resumes : World.Resumes R rules v w) (more : ∀ {a b}, R a b → R' a b) :
    World.Resumes R' rules v w :=
  ⟨resumes.goes, fun rule => (resumes.phase rule).mono more⟩

theorem World.Resumes.abides (resumes : World.Resumes R rules v w) (abides : World.Abides rules v v')
    (abides' : World.Abides rules w w') : World.Resumes R rules v' w' :=
  ⟨⟨abides.goes, abides'.goes⟩, fun rule => by
    rw [abides.phase, abides'.phase]
    exact resumes.phase rule⟩

theorem World.Resumes.status (resumes : World.Resumes R rules v w) (rule : RuleId) :
    (w.firing rule).status = (v.firing rule).status := by
  have phase := resumes.phase rule
  rw [FiringState.status, FiringState.status]
  generalize (v.firing rule).phase = p at phase
  generalize (w.firing rule).phase = p' at phase
  cases phase <;> rfl

theorem World.Resumes.renamed (resumes : World.Resumes R rules v w) {r : Rule}
    (listed : r ∈ (RuleSnapshot.build rules 0 default).rulesFor metric) :
    (v.firing r.id).Renamed R (fun _ _ => True) r (w.firing r.id) := by
  obtain ⟨goes, goes'⟩ := resumes.goes
  have fits {u : World} (goes : u.GoesBy rules) : (u.firing r.id).Fits r := by
    rw [(goes.serves 0 default).rulesFor] at listed
    exact goes.line.fits (goes.line.rest.indexed.listed listed).1
  refine ⟨?_, resumes.phase r.id, fun _ => fits goes, fun _ => fits goes'⟩
  rw [goes'.line.rest.firing_ruleId, goes.line.rest.firing_ruleId]

theorem World.Resumes.rulings {rulings rulings' : List (FiringState × List Event)}
    (resumes : World.Resumes R rules v w)
    (judged : v.Judged value time ((RuleSnapshot.build rules 0 default).rulesFor metric) rulings v')
    (judged' : w.Judged value time ((RuleSnapshot.build rules 0 default).rulesFor metric) rulings' w')
    (opening : FiringState.Opening R (rulings.flatMap (·.2)) (rulings'.flatMap (·.2))) :
    List.Forall₂ (fun ruling ruling' => List.Forall₂ (Event.Renamed R) ruling.2 ruling'.2 ∧
      Phase.Renamed R (fun _ _ => True) ruling.1.phase ruling'.1.phase) rulings rulings' := by
  rw [judged.judged, judged'.judged] at opening ⊢
  exact FiringState.renamed_judgeEach (fun r listed => resumes.renamed listed) (fun _ => trivial)
    (fun _ _ _ => trivial) opening

theorem World.Resumes.shape {rulings rulings' : List (FiringState × List Event)}
    (resumes : World.Resumes R rules v w)
    (judged : v.Judged value time ((RuleSnapshot.build rules 0 default).rulesFor metric) rulings v')
    (judged' : w.Judged value time ((RuleSnapshot.build rules 0 default).rulesFor metric) rulings' w') :
    (Event.opens (rulings.flatMap (·.2))).length = (Event.opens (rulings'.flatMap (·.2))).length := by
  have any : World.Resumes (fun _ _ => True) rules v w := resumes.mono fun _ => trivial
  have alike := any.rulings judged judged' fun _ _ => trivial
  exact (Event.opens_renamed (List.rel_flatMap alike fun _ _ same => same.1)).length_eq

theorem World.Resumes.judged {rulings rulings' : List (FiringState × List Event)}
    (resumes : World.Resumes R rules v w) (goes : v'.GoesBy rules ∧ w'.GoesBy rules)
    (judged : v.Judged value time ((RuleSnapshot.build rules 0 default).rulesFor metric) rulings v')
    (judged' : w.Judged value time ((RuleSnapshot.build rules 0 default).rulesFor metric) rulings' w')
    (opening : FiringState.Opening R (rulings.flatMap (·.2)) (rulings'.flatMap (·.2))) :
    List.Forall₂ (Event.Renamed R) (rulings.flatMap (·.2)) (rulings'.flatMap (·.2)) ∧
      World.Resumes R rules v' w' := by
  have alike := resumes.rulings judged judged' opening
  exact ⟨List.rel_flatMap alike fun _ _ same => same.1, goes,
    judged.alike (fun x y => x.phase.Renamed R (fun _ _ => True) y.phase) judged' (alike.imp fun _ _ => And.right)
      resumes.phase⟩

end Resuming

/-! ### Courses of samples -/

/-- The answers are the same, but for ids. -/
inductive Reply.Renamed (R : AlertId → AlertId → Prop) : Reply → Reply → Prop
  | events {made made' : List Event} (each : List.Forall₂ (Event.Renamed R) made made') :
      Renamed R (.events made) (.events made')

def Call.IsSample (call : Call) : Prop :=
  ∃ metric value time, call = .sample metric value time

theorem Call.IsSample.routine {call : Call} (sample : call.IsSample) : call.IsRoutine := by
  obtain ⟨metric, value, time, rfl⟩ := sample
  trivial

section Courses

variable {R : AlertId → AlertId → Prop} {v v' w w' : World} {rules : List Rule} {qs qs' : List Passage}

theorem Passage.Runs.sampled {q : Passage} (ran : q.Runs World.BesideSource) (goes : q.before.GoesBy rules)
    (fetches : q.before.source.fetch = .ok rules) {metric : String} {value : Float} {time : Timestamp}
    (sample : q.call = .sample metric value time) :
    ∃ u rulings, q.reply = .events (rulings.flatMap (·.2)) ∧ World.Abides rules q.before u ∧ q.after.GoesBy rules ∧
      u.Judged value time ((RuleSnapshot.build rules 0 default).rulesFor metric) rulings q.after := by
  have comes := ran.comes goes.line.rest And.left (Call.IsSample.routine ⟨_, _, _, sample⟩)
  rw [sample] at comes
  exact goes.sampled fetches (fun _ _ => And.right) comes

theorem Passage.Runs.serves {q : Passage} (ran : q.Runs World.BesideSource) (rest : q.before.AtRest)
    (stale : q.before.engine.rules.invalidated = true) (fetches : q.before.source.fetch = .ok rules)
    (sample : q.call.IsSample) : q.after.Serves rules := by
  have comes := ran.comes rest And.left sample.routine
  obtain ⟨metric, value, time, same⟩ := sample
  rw [same] at comes
  generalize q.reply = reply at comes
  cases comes with
  | sampled reads takes judged =>
    cases reads with
    | valid fresh => exact absurd (stale.symm.trans fresh) nofun
    | fetched _ answer fetched answers =>
      obtain rfl := (answers fun _ _ => And.right).trans fetches
      intro generation now
      rw [judged.rules, takes.rules]
      exact fetched.serves generation now

/-- What two engines that are the same up to ids come to is the same up to ids. -/
theorem World.Resumes.course (resumes : World.Resumes R rules v w)
    (course : Course (Passage.Runs World.BesideSource) World.Elsewhere v qs v')
    (course' : Course (Passage.Runs World.BesideSource) World.Elsewhere w qs' w')
    (samples : ∀ q ∈ qs, q.call.IsSample) (calls : qs'.map (·.call) = qs.map (·.call))
    (fetches : ∀ q ∈ qs, q.before.source.fetch = .ok rules) (fetches' : ∀ q ∈ qs', q.before.source.fetch = .ok rules)
    (opening : FiringState.Opening R (Passage.events qs) (Passage.events qs')) :
    List.Forall₂ (fun q q' => q.reply.Renamed R q'.reply ∧ World.Resumes R rules q.after q'.after) qs qs' := by
  induction course generalizing w qs' with
  | nil =>
    obtain rfl := List.map_eq_nil_iff.mp calls
    exact .nil
  | @cons v q qs v' gap ran rest ih =>
    obtain ⟨q', qs', rfl, same, calls⟩ := List.map_eq_cons_iff.mp calls
    cases course' with
    | cons gap' ran' rest' =>
      obtain ⟨⟨metric, value, time, sample⟩, samples⟩ := List.forall_mem_cons.mp samples
      obtain ⟨here, fetches⟩ := List.forall_mem_cons.mp fetches
      obtain ⟨here', fetches'⟩ := List.forall_mem_cons.mp fetches'
      have before := resumes.goes.1.elsewhere gap
      have before' := resumes.goes.2.elsewhere gap'
      obtain ⟨u, rulings, reply, still, after, judged⟩ := ran.sampled before.goes here sample
      obtain ⟨u', rulings', reply', still', after', judged'⟩ := ran'.sampled before'.goes here' (same.trans sample)
      have resumes' := (resumes.abides before before').abides still still'
      have shape := resumes'.shape judged judged'
      rw [FiringState.Opening, Passage.events, Passage.events, List.flatMap_cons, List.flatMap_cons,
        Event.opens_append, Event.opens_append, reply, reply'] at opening
      change ∀ pair ∈ (Event.opens (rulings.flatMap (·.2)) ++ _).zip (Event.opens (rulings'.flatMap (·.2)) ++ _), _
        at opening
      rw [List.zip_append shape] at opening
      obtain ⟨first, later⟩ := List.forall_mem_append.mp opening
      obtain ⟨made, resumed⟩ := resumes'.judged ⟨after, after'⟩ judged judged' first
      refine .cons ⟨?_, resumed⟩ (ih resumed rest' samples calls fetches fetches' later)
      rw [reply, reply']
      exact .events made

/-- Alerts that are open in `v` keep their ids, and the ids that both draw from then on stand for each other in
the order in which they are drawn. -/
inductive World.StandsFor (v w : World) : AlertId → AlertId → Prop
  | kept {rule : RuleId} {id : AlertId} (tracked : v.openAlert rule = some id) : StandsFor v w id id
  | drawn (n : Nat) : StandsFor v w (v.ids.value (v.ids.taken + n)) (w.ids.value (w.ids.taken + n))

/-- From outside neither the rules nor the stored alerts are touched. -/
def World.BesideStorage (w w' : World) : Prop :=
  w.BesideSource w' ∧ w'.sink = w.sink

theorem World.Settled.biUnique (settled : v.Settled) (distinct : Injective w.ids.value)
    (fresh : ∀ n, w.ids.taken ≤ n → ∀ rule, v.openAlert rule ≠ some (w.ids.value n)) :
    Relator.BiUnique (v.StandsFor w) := by
  have old {rule : RuleId} {id : AlertId} {n : Nat} (tracked : v.openAlert rule = some id) :
      v.ids.value (v.ids.taken + n) ≠ id := fun same => by
    obtain ⟨m, before, drawn⟩ := settled.used rule id tracked
    have later := settled.distinct (drawn.trans same.symm)
    omega
  refine ⟨fun a b c stands stands' => ?_, fun a b c stands stands' => ?_⟩
  · generalize same : c = c' at stands'
    cases stands with
    | kept tracked =>
      cases stands' with
      | kept tracked' => exact same
      | drawn n => exact absurd (same ▸ tracked) (fresh _ (Nat.le_add_right ..) _)
    | drawn n =>
      cases stands' with
      | kept tracked' => exact absurd (same ▸ tracked') (fresh _ (Nat.le_add_right ..) _)
      | drawn m =>
        have steps : n = m := Nat.add_left_cancel (distinct same)
        rw [steps]
  · generalize same : a = a' at stands'
    cases stands with
    | kept tracked =>
      cases stands' with
      | kept tracked' => exact same
      | drawn n => exact absurd same.symm (old tracked)
    | drawn n =>
      cases stands' with
      | kept tracked' => exact absurd same (old tracked')
      | drawn m =>
        have steps : n = m := Nat.add_left_cancel (settled.distinct same)
        rw [steps]

/-- The recovery from what is stored, made on a new engine. -/
theorem Passage.Runs.takesOver {c : Config} {p : Passage} (ran : p.Runs World.BesideStorage)
    (recovers : p.call = .recover) (settled : w.Settled) (goes : w.GoesBy rules)
    (idle : ∀ rule, (w.firing rule).status ≠ .pending) (new : p.before.engine = .ofConfig c)
    (stored : p.before.sink = w.sink) (fetches : p.before.source.fetch = .ok rules) :
    (∃ report, p.reply = .recovered report) ∧ p.after.ids = p.before.ids ∧
      World.Resumes (w.StandsFor p.before) rules w p.after := by
  have untracked (rule : RuleId) : p.before.engine.tracker.held rule = none := by
    rw [new]
    rfl
  have takes : p.call.program.Ensures (Pact.alone World.BesideStorage) (Team.polled World.BesideStorage) p.before
      fun reply w' => (∃ report, reply = .recovered report) ∧ w'.InLine ∧ w'.ids = p.before.ids ∧
        w'.Serves rules ∧ ∀ rule, w'.firing rule = w.sink.store.revived rule := by
    rw [recovers]
    refine (ensures_takeover (World.inLine_new new) (fun change => change.1.1) (fun _ _ change => change.1.2)
      And.right untracked fetches (stored.trans settled.plain) settled.available
      (settled.sorted goes.line goes.serves)).bind ?_
    rintro _ w' ⟨⟨report, rfl⟩, rest⟩
    exact ensures_pure ⟨⟨report, rfl⟩, rest⟩
  obtain ⟨reported, line, ids, serves, firing⟩ := ran.ends takes
  refine ⟨reported, ids, ⟨goes, line, serves⟩, fun rule => ?_⟩
  rw [firing]
  refine (settled.revived (idle rule)).mono ?_
  rintro id _ ⟨rfl, _, tracked⟩
  exact .kept tracked

end Courses

/-- On an engine whose store is available and never full, at a moment when no rule is pending and the source has
the rules that the engine goes by: a new engine that recovers from the same storage has the same rules open with
the same alerts, and every further sample comes to the same for both, up to the ids of the alerts that are opened
from then on. -/
theorem Course.transparent {c : Config} {w₀ w v v' : World} {ps qs qs' : List Passage} {p : Passage}
    {rules : List Rule} (begins : w₀.Begins) (empty : w₀.sink.store.alerts = ∅)
    (available : w₀.sink.store.unavailable = false) (plain : w₀.sink = { store := w₀.sink.store })
    (distinct : Injective w₀.ids.value)
    (course : Course (Passage.Runs World.BesideSink) World.BesideSink w₀ ps w)
    (routine : ∀ p ∈ ps, p.call.IsRoutine) (never : w.NeverFull)
    (idle : ∀ rule, (w.firing rule).status ≠ .pending) (serves : w.Serves rules)
    (new : p.before.engine = .ofConfig c) (stored : p.before.sink = w.sink)
    (distinct' : Injective p.before.ids.value)
    (fresh : ∀ n, p.before.ids.taken ≤ n → ∀ rule, ¬ p.before.sink.store.OpenOf rule (p.before.ids.value n))
    (recovers : p.call = .recover) (ran : p.Runs World.BesideStorage)
    (fetches : ∀ q ∈ p :: (qs ++ qs'), q.before.source.fetch = .ok rules)
    (goesOn : Course (Passage.Runs World.BesideSource) World.Elsewhere w qs v)
    (resumes : Course (Passage.Runs World.BesideSource) World.Elsewhere p.after qs' v')
    (samples : ∀ q ∈ qs, q.call.IsSample) (calls : qs'.map (·.call) = qs.map (·.call)) :
    (∃ report, p.reply = .recovered report) ∧ Relator.BiUnique (w.StandsFor p.before) ∧
      (∀ rule, (p.after.firing rule).status = (w.firing rule).status) ∧
      List.Forall₂ (fun q q' => q.reply.Renamed (w.StandsFor p.before) q'.reply ∧
        ∀ rule, (q'.after.firing rule).status = (q.after.firing rule).status) qs qs' := by
  have settled := course.settled begins empty available plain distinct routine never
  have line : w.InLine := by
    obtain ⟨c₀, engine⟩ := begins.engine
    have gap {w w' : World} (line : w.InLine) (change : w.BesideSink w') : w'.InLine := line.elsewhere change.1
    exact (course.keeps (World.inLine_new engine) gap fun p mem before ran =>
      (ran.comes before.rest And.left (routine p mem)).inLine before).2
  obtain ⟨here, others⟩ := List.forall_mem_cons.mp fetches
  obtain ⟨fetches, fetches'⟩ := List.forall_mem_append.mp others
  obtain ⟨reported, ids, taken⟩ := ran.takesOver recovers settled ⟨line, serves⟩ idle new stored here
  have samples' : ∀ q ∈ qs', q.call.IsSample := Passage.forall_call calls samples
  have yields := goesOn.yields line And.left fun q mem => (samples q mem).routine
  have yields' := resumes.yields taken.goes.2.line And.left fun q mem => (samples' q mem).routine
  rw [ids] at yields'
  have opening : FiringState.Opening (w.StandsFor p.before) (Passage.events qs) (Passage.events qs') :=
    fun pair mem => by
      obtain ⟨n, first, second⟩ := yields.zip yields' pair mem
      rw [← first, ← second]
      exact .drawn n
  refine ⟨reported, settled.biUnique distinct' fun n later rule tracked => ?_, taken.status, ?_⟩
  · refine fresh n later rule ?_
    rw [stored]
    exact (settled.stored rule _).mpr tracked
  · refine (taken.course goesOn resumes samples calls fetches fetches' opening).imp ?_
    exact fun q q' ⟨reply, after⟩ => ⟨reply, after.status⟩

def World.replaced (sink : Sink) : World :=
  { World.watched { workers := 1 } sink with ids := { (World.watched { workers := 1 } sink).ids with taken := 2 } }

theorem World.sink_replaced (sink : Sink) : (World.replaced sink).sink = sink := rfl

/-- The load rises and falls, rises again and falls, and the engine crashes after the first rise. -/
theorem Course.transparent_while_open :
    let w₀ : World := .watched { workers := 1 } {}
    let ps := Passage.madeEach w₀ [(id, .sample "load" 95 default)]
    let w := Passage.last w₀ ps
    let p := Passage.made .recover (.replaced w.sink)
    let calls : List ((World → World) × Call) := [(id, .sample "load" 50 default), (id, .sample "load" 95 default),
      (id, .sample "load" 50 default)]
    let qs := Passage.madeEach w calls
    let qs' := Passage.madeEach p.after calls
    (Passage.events qs).map Event.closing? = [some "", none, some "a"] ∧
      (Passage.events qs').map Event.closing? = [some "", none, some "aa"] ∧
      (∃ report, p.reply = .recovered report) ∧ Relator.BiUnique (w.StandsFor p.before) ∧
      (∀ rule, (p.after.firing rule).status = (w.firing rule).status) ∧
      List.Forall₂ (fun q q' => q.reply.Renamed (w.StandsFor p.before) q'.reply ∧
        ∀ rule, (q'.after.firing rule).status = (q.after.firing rule).status) qs qs' := by
  intro w₀ ps w p calls qs qs'
  have still (w : World) : w.Elsewhere w := ⟨_, _, _, _, _, _, _, Nat.le_refl _, rfl⟩
  have course : Course (Passage.Runs World.BesideSink) World.BesideSink w₀ ps w :=
    Course.madeEach (by simpa using fun w => ⟨still w, rfl⟩) (by decide +kernel)
  have goesOn : Course (Passage.Runs World.BesideSource) World.Elsewhere w qs (Passage.last w qs) :=
    Course.madeEach (by simpa [calls] using still) (by decide +kernel)
  have resumes : Course (Passage.Runs World.BesideSource) World.Elsewhere p.after qs' (Passage.last p.after qs') :=
    Course.madeEach (by simpa [calls] using still) (by decide +kernel)
  have ran : p.Runs World.BesideStorage := Passage.runs_made (by decide +kernel)
  have serves : w.Serves [.highLoad] := by
    let q := Passage.made (.sample "load" 95 default) w₀
    have ran : q.Runs World.BesideSource := Passage.runs_made (by decide +kernel)
    exact ran.serves (World.inLine_new rfl).rest rfl rfl ⟨_, _, _, rfl⟩
  have idle (rule : RuleId) : (w.firing rule).status ≠ .pending := by
    have tracked : w.engine.tracker.ruleIds = ["high-load"] := by decide +kernel
    by_cases mem : rule ∈ w.engine.tracker.ruleIds
    · rw [tracked, List.mem_singleton] at mem
      subst mem
      decide +kernel
    · rw [World.firing_eq, Tracker.held_of_unlisted mem]
      exact nofun
  have routine : ∀ p ∈ ps, p.call.IsRoutine := by simp [ps, Passage.madeEach, Passage.made, Call.IsRoutine]
  have samples : ∀ q ∈ qs, q.call.IsSample := by simp [qs, calls, Passage.madeEach, Passage.made, Call.IsSample]
  have same : qs'.map (·.call) = qs.map (·.call) :=
    (Passage.calls_madeEach _ calls).trans (Passage.calls_madeEach _ calls).symm
  have fetches : ∀ q ∈ p :: (qs ++ qs'), q.before.source.fetch = .ok [.highLoad] := by
    have each : ∀ source ∈ (p :: (qs ++ qs')).map (·.before.source), source.fetch = .ok [.highLoad] := by decide +kernel
    exact fun q mem => each _ (List.mem_map_of_mem mem)
  have new : p.before.engine = .ofConfig { workers := 1 } := rfl
  have stored : p.before.sink = w.sink := World.sink_replaced w.sink
  have distinct : Injective p.before.ids.value := World.injective_watched { workers := 1 } w.sink
  have fresh (n : Nat) (later : p.before.ids.taken ≤ n) (rule : RuleId) :
      ¬ p.before.sink.store.OpenOf rule (p.before.ids.value n) := by
    rw [stored]
    rintro ⟨alert, there, -⟩
    have keys : w.sink.store.alerts.keys = [p.before.ids.value 0] := by decide +kernel
    have mem : p.before.ids.value n ∈ w.sink.store.alerts.keys :=
      Std.TreeMap.mem_keys.mpr (Std.TreeMap.mem_iff_isSome_getElem?.mpr (Option.isSome_of_eq_some there))
    rw [keys, List.mem_singleton] at mem
    rw [distinct mem] at later
    exact absurd later (by decide)
  have never : w.NeverFull := by decide +kernel
  exact ⟨by decide +kernel, by decide +kernel,
    Course.transparent (World.begins_watched _ _) rfl rfl rfl (World.injective_watched _ _) course routine never idle
      serves new stored distinct fresh rfl ran fetches goesOn resumes samples same⟩

end ThresholdAlerts
