import ThresholdAlerts.Proofs.Monitors
import ThresholdAlerts.Proofs.Restart
/-! What a session reports at its end. Main statement: whatever the order in which its workers and its chores went on,
the alerts that are listed as open are those of the rules whose metric breached them often enough at its end; and so it
is with the lines of the monitor that is executed. -/
namespace ThresholdAlerts

open Prog Relation

/-! ### A monitor that starts -/

/-- Nothing was done for any rule yet, and the store is new. -/
structure World.Untouched (rules : List Rule) (w : World) : Prop where
  source : w.source.fetch = .ok rules
  tracker : w.engine.tracker = {}
  sink : w.sink = {}
  buried : w.engine.deadLetters = {}
  samples : w.engine.stats.samples = 0
  distinct : Function.Injective w.ids.value

section Starting

variable {rules : List Rule} {w : World}

theorem AlertStore.openAlerts_new : ({} : AlertStore).openAlerts = [] :=
  List.eq_nil_iff_forall_not_mem.mpr fun alert mem => by
    obtain ⟨⟨id, there⟩, -⟩ := mem_openAlerts.mp mem
    exact absurd there (by simp [get?])

theorem World.Untouched.of_same {w' : World} (new : w.Untouched rules) (engine : w'.engine = w.engine)
    (source : w'.source = w.source) (sink : w'.sink = w.sink) (ids : w'.ids = w.ids) : w'.Untouched rules :=
  ⟨source ▸ new.source, engine ▸ new.tracker, sink.trans new.sink, engine ▸ new.buried, engine ▸ new.samples,
    ids ▸ new.distinct⟩

theorem Request.complete_findOpen_new (new : w.Untouched rules) (ids : List RuleId) :
    ∃ w', (Request.findOpen ids).complete w = (w', ids.map fun _ => .ok none) ∧ w'.Untouched rules ∧
      w'.engine = w.engine := by
  let w₁ := w.takeTicket.1
  let flights : List (RuleId × Flight (Except SinkError (Option Alert))) :=
    ids.map fun rule => (rule, { act := {}, start := w₁.clock })
  let w₂ := waitUntil w₁ (latest w₁.clock (flights.map (·.2.actsAt)))
  let answered : List (RuleId × Flight (Except SinkError (Option Alert))) := ids.map fun rule =>
    (rule, { act := {}, start := w₁.clock, answer := some (w₂.sink.store.findOpen rule) })
  let w₃ := waitUntil w₂ (latest w₂.clock (answered.map (·.2.answersAt)))
  have plain : w₁.sink = { store := w₁.sink.store } := by rw [show w₁.sink = {} from new.sink]
  have started : startLookups w.takeTicket.1 ids = (w₁, flights) := startLookups_at_once plain ids
  have later : w₁.clock ≤ w₂.clock := le_max_left ..
  have polled : pollLookups w₂ flights = (w₂, answered) := pollLookups_at_once w₂ ids later
  have answers : answered.filterMap (·.2.answer) = ids.map fun _ => .ok none := by
    have none (rule : RuleId) : w₂.sink.store.findOpen rule = .ok none := by
      rw [show w₂.sink = {} from new.sink]
      simp only [AlertStore.findOpen, AlertStore.newestOpen?, AlertStore.openAlerts_new]
      rfl
    rw [List.filterMap_map, ← List.filterMap_eq_map]
    exact congrArg (List.filterMap · ids) (funext fun rule => congrArg some (none rule))
  have settled : (Request.findOpen ids).settle w.moves w.takeTicket.1 = (w₃, ids.map fun _ => .ok none) := by
    simp only [settle, start, started]
    rw [polled]
    exact congrArg (Prod.mk _) answers
  have whole : (Request.findOpen ids).complete w = (w₃.moved, ids.map fun _ => .ok none) :=
    congrArg (fun p : World × List (Except SinkError (Option Alert)) => (p.1.moved, p.2)) settled
  exact ⟨_, whole, new.of_same rfl rfl rfl rfl, rfl⟩

theorem Request.complete_findAll_new (new : w.Untouched rules) :
    ∃ w', Request.findAll.complete w = (w', .ok []) ∧ w'.Untouched rules ∧ w'.engine = w.engine := by
  have listed : ({} : Sink).listOpen .pass = ({}, .ok []) := by
    simp only [Sink.listOpen, Sink.perform, AlertStore.findAllOpen, AlertStore.openAlerts_new]
    rfl
  let w₁ := waitUntil { w.takeTicket.1 with sink := {} } (w.clock + 0)
  have settled : Request.findAll.settle w.moves w.takeTicket.1 = (waitUntil w₁ (w₁.clock + 0), .ok []) := by
    rw [settle, show w.takeTicket.1.sink = {} from new.sink]
    change fly _ {} _ = _
    rw [fly]
    change ((waitUntil { w₁ with sink := (({} : Sink).listOpen .pass).1 } _), (({} : Sink).listOpen .pass).2) = _
    rw [listed]
    rfl
  have whole : Request.findAll.complete w = ((waitUntil w₁ (w₁.clock + 0)).moved, .ok []) :=
    congrArg (fun p : World × Except SinkError (List Alert) => (p.1.moved, p.2)) settled
  exact ⟨_, whole, new.of_same rfl rfl new.sink.symm rfl, rfl⟩

theorem after_seedRules_none {found : List (RuleId × Except SinkError (Option Alert))} {report : RecoveryReport}
    (none : ∀ p ∈ found, p.2 = .ok none) :
    (seedRules found report : Prog Visit _).After Visit.run w fun answer w' => answer = .ok report ∧ w' = w := by
  induction found with
  | nil => exact after_pure ⟨rfl, rfl⟩
  | cons p rest ih =>
    obtain ⟨first, others⟩ := List.forall_mem_cons.mp none
    obtain ⟨rule, answer⟩ := p
    obtain rfl : answer = .ok .none := first
    exact ih others

/-- A recovery on an empty store loads the rules and leaves everything else as it is. -/
theorem after_recover_new (new : w.Untouched rules) :
    (recover : Prog Visit _).After Visit.run w fun answer w' => answer = .ok {} ∧ w'.Untouched rules ∧
      (∃ generation time, w'.engine.rules.snapshot = .build rules generation time) ∧
      w'.engine.rules.invalidated = false := by
  -- Up to the loading of the rules the program is evaluated.
  let w₁ := (Request.refreshTurn.complete w).1.onRules (·.beginFetch)
  let w₂ := (Request.fetch.complete w₁).1
  let w₃ := (w₂.loadRules rules).1
  let w₄ := w₃.endTurn
  refine after_bind (after_request (after_bind (after_modify (after_request ?_))))
  have served : (Request.fetch.complete w₁).2 = .ok rules := new.source
  rw [show Request.fetch.complete w₁ = (w₂, .ok rules) from Prod.ext rfl served]
  refine after_step (after_pure (after_modify (after_pure ?_)))
  dsimp only
  generalize (w₂.loadRules rules).2 = snapshot
  refine after_step ?_
  change Prog.After _ _ (w₄.claimGeneration snapshot.generation).1 _
  generalize same : (w₄.claimGeneration snapshot.generation).1 = w₅
  have new₅ : w₅.Untouched rules ∧ w₅.engine.rules = w₄.engine.rules := by
    rw [← same, World.claimGeneration]
    split
    · exact ⟨⟨new.source, new.tracker, new.sink, new.buried, new.samples, new.distinct⟩, rfl⟩
    · exact ⟨⟨new.source, new.tracker, new.sink, new.buried, new.samples, new.distinct⟩, rfl⟩
  refine after_read ?_
  generalize w₅.listed snapshot = order
  obtain ⟨w₆, asked, new₆, engine₆⟩ := Request.complete_findOpen_new new₅.1 order
  refine after_request ?_
  rw [asked]
  have none : ∀ p ∈ order.zip (order.map fun _ =>
      (.ok none : Except SinkError (Option Alert))), p.2 = .ok none := fun p mem => by
    obtain ⟨-, second⟩ := List.of_mem_zip (a := p.1) (b := p.2) mem
    obtain ⟨-, -, same⟩ := List.mem_map.mp second
    exact same.symm
  refine after_bind ((after_seedRules_none none).imp ?_)
  rintro _ _ ⟨rfl, rfl⟩
  obtain ⟨w₇, listed, new₇, engine₇⟩ := Request.complete_findAll_new new₆
  refine after_request ?_
  rw [listed]
  refine after_pure ⟨rfl, new₇, ?_⟩
  rw [engine₇, engine₆, new₅.2]
  exact ⟨⟨_, _, rfl⟩, rfl⟩

/-- The first recovery leaves a calm world in which each rule has an empty tally. -/
theorem World.Untouched.atPeace (new : w.Untouched rules)
    (loaded : ∃ generation time, w.engine.rules.snapshot = .build rules generation time)
    (valid : w.engine.rules.invalidated = false) :
    w.AtPeace rules ∧ ∀ metric, w.TalliedFor rules metric [] := by
  have absent (id : AlertId) : w.sink.store.get? id = none := by
    rw [new.sink]
    simp [AlertStore.get?]
  have slot (rule : RuleId) : w.engine.tracker.slotFor rule = .initial rule := by
    rw [new.tracker]
    exact Tracker.slotFor_of_absent (by simp [Tracker.find?])
  have clear (rule : RuleId) : w.firing rule = .initial rule := congrArg Slot.state (slot rule)
  have shut (rule : RuleId) : (w.firing rule).openAlertId = none := by
    rw [clear]
    rfl
  refine ⟨⟨loaded, valid, new.source, ⟨?_, fun rule => ?_, fun rule => ?_, fun found => ?_, fun {rule r} _ => ?_⟩, ?_,
    ⟨?_, new.distinct, fun there => ?_, fun there => ?_, fun holds => ?_, fun opens => ?_, fun opens => ?_⟩, ?_⟩,
    fun metric r known watches => ⟨?_, fun there => ?_, fun opens => ?_⟩⟩
  · rw [new.tracker]
    exact Tracker.coherent_empty
  · rw [slot]
    rfl
  · rw [slot]
    rfl
  · rw [new.tracker] at found
    exact absurd found (by simp [Tracker.find?])
  · rw [slot]
    exact fun print mem => absurd mem (by simp [Slot.initial, FiringState.initial])
  · rw [new.sink]
  · rw [new.sink]
  · exact absurd ((absent _).symm.trans there) (by simp)
  · exact absurd ((absent _).symm.trans there) (by simp)
  · obtain ⟨a, there⟩ := holds
    exact absurd ((absent _).symm.trans there) (by simp)
  · exact absurd ((shut _).symm.trans opens) (by simp)
  · exact absurd ((shut _).symm.trans opens) (by simp)
  · rw [new.buried]
    rfl
  · rw [clear]
    exact .clear
  · exact absurd ((absent _).symm.trans there) (by simp)
  · exact absurd ((shut _).symm.trans opens) (by simp)

/-- A monitor with valid settings starts in a calm world, and nobody asks anything of it yet. -/
theorem Session.sound_of {c : Config} {path : String} {contents : FileContents} {ids : Nat → AlertId}
    (decodes : RuleContents.readFile path contents = .ok rules) (distinct : Function.Injective ids)
    (input : List UInt8) (calendar : Timestamp) (jitter : Nat → Nat) :
    ∃ m, Monitor.start c path contents calendar ids jitter = .ok m ∧
      (Session.of m input).Sound rules (SampleReader.readings (inputLines input)) ∧ m.line = [] ∧
      Session.Mirrors (Intake.added [] input) m (.of m input) := by
  obtain ⟨w, fresh⟩ : ∃ w, w = World.fresh c { contents := .file path contents } calendar ids jitter := ⟨_, rfl⟩
  have new : w.Untouched rules := fresh ▸ ⟨decodes, rfl, rfl, rfl, rfl, distinct⟩
  obtain ⟨recovered, new', loaded, current⟩ := after_recover_new new
  obtain ⟨calm, tallied⟩ := new'.atPeace loaded current
  have engine : w.engine = .ofConfig c := fresh ▸ rfl
  have alone : (w.run recover).1.Solitary .free := by
    have called := (World.call_lone .recover (World.solitary_new engine)).1
    rwa [World.call_recover] at called
  have run : w.run recover = ((w.run recover).1, .ok {}) := Prod.ext rfl recovered
  have started : Monitor.start c path contents calendar ids jitter = .ok
      { world := (w.run recover).1, dispatcher := .make c.workers Dispatcher.usualCapacity
        refreshAt := c.refreshInterval, retryAt := c.retryTick, refreshEvery := c.refreshInterval
        retryEvery := c.retryTick } := by
    rw [Monitor.start, ← fresh, run]
  let shop : Workshop :=
    { world := (w.run recover).1, dispatcher := .make c.workers Dispatcher.usualCapacity, producer := .handing [] false }
  have staffed : shop.Staffed := (Workshop.staffed_opened _ c.workers Dispatcher.usualCapacity []).told_more rfl
  have opened := Workshop.orderly_opened (w.run recover).1 c.workers Dispatcher.usualCapacity []
  have orderly : shop.Orderly [] [] := ⟨opened.queued, opened.taken, opened.order⟩
  have tallying : shop.Tallying rules [] [] [] := ⟨calm, orderly, new'.samples, fun metric => .idle (tallied metric)⟩
  refine ⟨_, started, ⟨staffed, ⟨[], [], [], tallying, .reading rfl⟩, fun _ => nofun⟩, rfl, rfl, rfl,
    ⟨staffed, alone, fun _ => rfl⟩, rfl, fun _ => ⟨rfl, rfl, fun now => ?_⟩, (nomatch ·)⟩
  rw [Intake.added_new]
  rfl

end Starting

/-! ### Rules that fire -/

/-- The rule can be evaluated, and as many of the last values as it asks for breach it. -/
structure Rule.Fires (r : Rule) (values : List Float) : Prop where
  valid : r.validate = .ok ()
  threshold : r.threshold.isSome = true
  enough : r.required.toNat ≤ values.length
  breach : ∀ value ∈ values.drop (values.length - r.required.toNat), r.breaches value = .ok true

/-- The values of the samples of a metric, in order. -/
def Sample.values (metric : String) (samples : List Sample) : List Float :=
  (Sample.of metric samples).map Sample.value

/-- The rule that counts for an id fires once some samples were read. -/
def Rule.Firing (rules : List Rule) (samples : List Sample) (id : RuleId) : Prop :=
  ∃ r, Rule.inForce rules id = some r ∧ r.Fires (Sample.values r.metricKey samples)

section Firing

variable {r : Rule} {values : List Float} {value : Float} {rules : List Rule} {w : World}

theorem le_length_takeWhile {α : Type} {p : α → Bool} {l : List α} {n : Nat} :
    n ≤ (l.takeWhile p).length ↔ n ≤ l.length ∧ ∀ a ∈ l.take n, p a = true := by
  induction l generalizing n with
  | nil => simp
  | cons a l ih =>
    cases n with
    | zero => simp
    | succ n =>
      cases holds : p a with
      | false => simp [holds]
      | true => simp [holds, ih]

namespace Rule

theorem isBreach_iff : r.isBreach value = true ↔ r.breaches value = .ok true := by
  rw [isBreach]
  cases r.breaches value <;> simp

/-- The last values breach just if the run of breaches at the end is as long. -/
theorem le_length_run {n : Nat} : n ≤ (r.run values).length ↔
    n ≤ values.length ∧ ∀ value ∈ values.drop (values.length - n), r.isBreach value = true := by
  rw [run, List.rtakeWhile, List.length_reverse, le_length_takeWhile, List.length_reverse, List.take_reverse]
  simp only [List.mem_reverse]

theorem needed_of_valid (valid : r.validate = .ok ()) : r.needed = r.required.toNat := by
  have some : r.required.toNat ≠ 0 := fun zero => (of_valid valid).2 (UInt32.toNat_inj.mp zero)
  exact Nat.max_eq_left (Nat.one_le_iff_ne_zero.mpr some)

theorem valid_of_breach (breach : r.isBreach value = true) : r.validate = .ok () ∧ r.threshold.isSome = true := by
  have judged := isBreach_iff.mp breach
  cases valid : r.validate with
  | error e =>
    rw [breaches_of_invalid valid] at judged
    exact absurd judged (by simp)
  | ok _ =>
    rw [breaches_of_valid valid] at judged
    cases bound : r.threshold with
    | some limit => exact ⟨rfl, rfl⟩
    | none =>
      rw [bound] at judged
      exact absurd (Except.ok.inj judged) (by simp)

theorem fires_iff : r.Fires values ↔ r.needed ≤ (r.run values).length := by
  constructor
  · rintro ⟨valid, -, enough, breach⟩
    rw [needed_of_valid valid, le_length_run]
    exact ⟨enough, fun value mem => isBreach_iff.mpr (breach value mem)⟩
  · intro long
    have some := Nat.lt_of_lt_of_le (FiringState.one_le_needed r) long
    have last : r.isBreach ((r.run values)[0]) = true := List.mem_rtakeWhile_imp (List.getElem_mem some)
    obtain ⟨valid, threshold⟩ := valid_of_breach last
    rw [needed_of_valid valid, le_length_run] at long
    exact ⟨valid, threshold, long.1, fun value mem => isBreach_iff.mp (long.2 value mem)⟩

end Rule

/-! ### The alerts that are open -/

theorem Sample.values_congr {samples samples' : List Sample}
    (same : samples.map Sample.reading = samples'.map Sample.reading) (metric : String) :
    Sample.values metric samples = Sample.values metric samples' := by
  have told (samples : List Sample) : Sample.values metric samples =
      ((samples.map Sample.reading).filter (·.1 = metric)).map (·.2) := by
    rw [List.filter_map, List.map_map]
    rfl
  rw [told, same, told]

namespace World

/-- A rule has an open alert just if the run of breaches at the end of its values is long enough. -/
theorem Tallied.isOpen_iff (tallied : w.Tallied r values) :
    (w.firing r.id).openAlertId.isSome = true ↔ r.Fires values := by
  rw [Rule.fires_iff, FiringState.openAlertId]
  have shows := tallied.shows
  have some := FiringState.one_le_needed r
  generalize (w.firing r.id).phase = phase at shows ⊢
  generalize (r.run values).length = k at shows ⊢
  cases shows with
  | clear => exact ⟨fun isOpen => absurd isOpen (by simp), fun enough => absurd enough (by omega)⟩
  | pending _ few => exact ⟨fun isOpen => absurd isOpen (by simp), fun enough => absurd enough (by omega)⟩
  | opened _ enough => exact ⟨fun _ => enough, fun _ => rfl⟩

/-- One alert is open for each rule that fires, and none for any other. -/
theorem AtPeace.countP_openAlerts {samples : List Sample} (calm : w.AtPeace rules)
    (tallied : ∀ metric, w.TalliedFor rules metric (Sample.values metric samples)) (rule : RuleId) :
    (Rule.Firing rules samples rule → w.sink.store.openAlerts.countP (·.ruleId = rule) = 1) ∧
      (¬ Rule.Firing rules samples rule → w.sink.store.openAlerts.countP (·.ruleId = rule) = 0) := by
  have single : w.sink.store.openAlerts.countP (·.ruleId = rule) ≤ 1 := by
    rw [AlertStore.countP_openAlerts]
    refine AlertStore.countP_le_one fun there there' counts counts' => ?_
    simp only [Bool.and_eq_true, decide_eq_true_eq] at counts counts'
    exact calm.store.single there there' counts.2 counts'.2 (counts.1.trans counts'.1.symm)
  constructor
  · rintro ⟨r, known, fires⟩
    obtain rfl := Rule.inForce_id known
    have own := tallied r.metricKey r known rfl
    obtain ⟨id, opened⟩ := Option.isSome_iff_exists.mp (own.isOpen_iff.mpr fires)
    obtain ⟨a, there, named, isOpen⟩ := own.found opened
    refine Nat.le_antisymm single (List.countP_pos_iff.mpr ⟨a, ?_, decide_eq_true named⟩)
    exact AlertStore.mem_openAlerts.mpr ⟨⟨id, there⟩, isOpen⟩
  · intro silent
    refine List.countP_eq_zero.mpr fun a mem named => silent ?_
    obtain ⟨⟨id, there⟩, isOpen⟩ := AlertStore.mem_openAlerts.mp mem
    have named : a.ruleId = rule := of_decide_eq_true named
    obtain ⟨r, known⟩ := calm.store.known there isOpen
    rw [named] at known
    obtain rfl := Rule.inForce_id known
    have own := tallied r.metricKey r known rfl
    exact ⟨r, known, own.isOpen_iff.mp (Option.isSome_iff_exists.mpr ⟨id, (own.stored there named isOpen).1⟩)⟩

/-- An open alert tells the value that made the run of breaches long enough. -/
theorem AtPeace.triggered {samples : List Sample} {a : Alert} (calm : w.AtPeace rules)
    (tallied : ∀ metric, w.TalliedFor rules metric (Sample.values metric samples))
    (mem : a ∈ w.sink.store.openAlerts) :
    ∃ r, Rule.inForce rules a.ruleId = some r ∧
      (r.run (Sample.values r.metricKey samples))[r.required.toNat - 1]? = some a.triggerValue := by
  obtain ⟨⟨id, there⟩, isOpen⟩ := AlertStore.mem_openAlerts.mp mem
  obtain ⟨r, known⟩ := calm.store.known there isOpen
  have named := Rule.inForce_id known
  have own := tallied r.metricKey r (named.symm ▸ known) rfl
  obtain ⟨opened, value, time, reached, rfl⟩ := own.stored there named.symm isOpen
  have fires := own.isOpen_iff.mp (Option.isSome_iff_exists.mpr ⟨id, opened⟩)
  rw [Rule.trigger?, Rule.needed_of_valid fires.valid] at reached
  exact ⟨r, known, reached⟩

end World

end Firing

/-! ### The report -/

/-- A monitor with valid settings starts. However its workers, its chores and the clocks go on, it does not fail, and
the alerts that it lists as open are one for each rule that the samples of its metric left firing, and each tells the
value that made it fire; nothing waits to be delivered, nothing was given up, and every sample is counted. In whatever
pieces its input comes, and whatever is seen to in between, the monitor that is executed comes to its end, and its
lines are such a report. -/
theorem Session.reports_firing {c : Config} {path : String} {file : String → FileContents} {input : List UInt8}
    {calendar : Timestamp} {ids : Nat → AlertId} {jitter : Nat → Nat} {rules : List Rule}
    (valid : c.validate = .ok ()) (named : c.rulesFile = some path)
    (decodes : RuleContents.readFile path (file path) = .ok rules) (few : rules.length ≤ 10000)
    (distinct : Function.Injective ids) (now : Timestamp) :
    let samples := SampleReader.samples now (inputLines input)
    ∃ m₀, Monitor.rulesFile c = .ok path ∧ Monitor.start c path (file path) calendar ids jitter = .ok m₀ ∧
      (∀ s, Session.Run (.of m₀ input) s → (∀ cause, s.phase ≠ .failed cause) ∧
        ∀ lines, s.phase = .told lines → ∃ (health : EngineHealth) (listed : List Alert),
          lines = health.toJson.pretty 0 :: listed.map Monitor.openLine ∧
          (∀ rule, (Rule.Firing rules samples rule → listed.countP (·.ruleId = rule) = 1) ∧
            (¬ Rule.Firing rules samples rule → listed.countP (·.ruleId = rule) = 0)) ∧
          (∀ a ∈ listed, ∃ r, Rule.inForce rules a.ruleId = some r ∧
            (r.run (Sample.values r.metricKey samples))[r.required.toNat - 1]? = some a.triggerValue) ∧
          health.summary.pendingDeliveries = 0 ∧ health.deadLetters = 0 ∧ health.stats.samples = samples.length) ∧
      (∀ signals : List Monitor.Signal, signals.flatMap Monitor.Signal.input = input →
        (∀ contents, .rules contents ∈ signals → RuleContents.readFile path contents = .ok rules) →
        ∃ m s, (signals.foldl Monitor.handle m₀).finish = .ok m ∧ Session.Run (.of m₀ input) s ∧
          s.phase = .told m.lines) ∧
      ∃ m s, Monitor.session c file input calendar ids jitter = .ok m ∧ Session.Run (.of m₀ input) s ∧
        s.phase = .told m.lines := by
  intro samples
  obtain ⟨m₀, started, sound, fresh, mirrors⟩ := Session.sound_of (c := c) decodes distinct input calendar jitter
  have settings : Monitor.rulesFile c = .ok path := by rw [Monitor.rulesFile, valid, named]
  have executed (signals : List Monitor.Signal) (whole : signals.flatMap Monitor.Signal.input = input)
      (same : ∀ contents, .rules contents ∈ signals → RuleContents.readFile path contents = .ok rules) :
      ∃ m s, (signals.foldl Monitor.handle m₀).finish = .ok m ∧ Session.Run (.of m₀ input) s ∧
        s.phase = .told m.lines := by
    have mirrors : Session.Mirrors (Intake.added m₀.line (signals.flatMap Monitor.Signal.input)) m₀ (.of m₀ input) := by
      rwa [fresh, whole]
    obtain ⟨s₁, run, mirrors₁⟩ := mirrors.handleAll few signals sound same
    obtain ⟨m, s, finished, ends, told⟩ := mirrors₁.finish
    exact ⟨m, s, finished, run.trans ends, told⟩
  refine ⟨m₀, settings, started, fun s run => ?_, executed, ?_⟩
  · obtain ⟨-, ⟨read, finished, begun, tallying, stands⟩, -⟩ := run.sound few sound
    refine ⟨fun cause failed => ?_, fun lines told => ?_⟩
    · rw [failed] at stands
      cases stands
    · have all : samples.map Sample.reading = SampleReader.readings (inputLines input) :=
        SampleReader.readings_readAll now (inputLines input) 0
      rw [told] at stands
      cases stands with
      | @told w health whole calm tallied clean =>
        have tallied : ∀ metric, w.TalliedFor rules metric (Sample.values metric samples) := fun metric => by
          rw [Sample.values_congr (all.trans whole)]
          exact tallied metric
        have clean : health.Clean samples.length := by
          rw [← List.length_map (f := Sample.reading), all]
          exact clean
        exact ⟨health, _, rfl, calm.countP_openAlerts tallied, fun a mem => calm.triggered tallied mem, clean⟩
  · obtain ⟨m, s, finished, run, told⟩ := executed [.bytes input] (by simp [Monitor.Signal.input]) (by simp)
    refine ⟨m, s, ?_, run, told⟩
    rw [Monitor.session, settings]
    change (Monitor.start c path (file path) calendar ids jitter >>= _) = _
    rw [started]
    exact finished

/-- The load is read once, while it is high. -/
theorem Session.reports_high_load :
    let c : Config := { rulesFile := some "rules.json", workers := 2 }
    let file (_ : String) : FileContents := .bytes
      "[\x7b\"id\": \"high-load\", \"name\": \"High load\", \"metric_key\": \"load\", \"operator\": \">\",
        \"threshold\": 90\x7d]".toUTF8.toList
    let input := "\x7b\"metric_key\": \"load\", \"value\": 95\x7d\n".toUTF8.toList
    let ids (n : Nat) : AlertId := String.ofList (List.replicate n 'a')
    ∃ (m : Monitor) (health : EngineHealth) (listed : List Alert),
      Monitor.session c file input default ids (fun _ => 0) = .ok m ∧
      m.lines = health.toJson.pretty 0 :: listed.map Monitor.openLine ∧
      listed.countP (·.ruleId = "high-load") = 1 ∧ (∀ a ∈ listed, a.triggerValue = 95) ∧ health.stats.samples = 1 := by
  intro c file input ids
  have decodes : RuleContents.readFile "rules.json" (file "rules.json") = .ok [.highLoad] := by decide +kernel
  have samples : SampleReader.samples default (inputLines input) = [⟨"load", 95, default⟩] := by decide +kernel
  obtain ⟨m₀, -, -, every, -, m, s, finished, run, told⟩ :=
    @Session.reports_firing c "rules.json" file input default ids (fun _ => 0) [.highLoad] (by decide +kernel) rfl
      decodes (by decide) (World.injective_watched c {}) default
  obtain ⟨health, listed, lines, alerts, values, -, -, counted⟩ := (every s run).2 m.lines told
  rw [samples] at alerts values counted
  have known : Rule.inForce [.highLoad] "high-load" = some .highLoad := by decide +kernel
  have fires : Rule.Firing [.highLoad] [⟨"load", 95, default⟩] "high-load" :=
    ⟨.highLoad, known, by decide +kernel, rfl, by decide +kernel, by decide +kernel⟩
  refine ⟨m, health, listed, finished, lines, (alerts "high-load").1 fires, fun a mem => ?_, counted⟩
  obtain ⟨r, known, value⟩ := values a mem
  obtain rfl := List.mem_singleton.mp (List.mem_of_find?_eq_some known)
  have high : (Rule.highLoad.run (Sample.values "load" [⟨"load", 95, default⟩]))[0]? = some 95 := by decide +kernel
  exact Option.some.inj (value.symm.trans high)

end ThresholdAlerts
