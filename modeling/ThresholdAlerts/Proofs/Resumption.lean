import ThresholdAlerts.Proofs.LateRecovery
/-! A recovery that is tried again after it failed. A recovery that fails has told nobody anything and left storage
alone; some of the rules are seeded, each with the alert that it is to be seeded with. Main statement: however many
recoveries failed before, the first that comes to its end leaves what a single one on a new engine leaves, and a
further one finds nothing to do. -/
namespace ThresholdAlerts

open Function

/-! ### Rules that are seeded already -/

/-- The alert that a rule is to be seeded with while some rules are served. -/
def AlertStore.chosen (s : AlertStore) (rules : List Rule) (rule : RuleId) : Option Alert :=
  if Rule.EnabledIn rules rule then s.newestOpen? rule else none

namespace AlertStore

variable {s : AlertStore} {rules : List Rule} {rule : RuleId} {alert : Alert}

theorem pick_build (s : AlertStore) (rules : List Rule) (generation : Nat) (time : Timestamp) :
    s.pick (RuleSnapshot.build rules generation time) = s.chosen rules := by
  funext rule
  simp only [pick, chosen, RuleSnapshot.contains_build]

theorem chosen_of_enabled (enabled : Rule.EnabledIn rules rule) : s.chosen rules rule = s.newestOpen? rule :=
  if_pos enabled

theorem enabled_of_chosen (chosen : s.chosen rules rule = some alert) : Rule.EnabledIn rules rule := by
  by_contra other
  rw [AlertStore.chosen, if_neg other] at chosen
  exact absurd chosen (by simp)

end AlertStore

namespace View

variable {v : View} {pick look : RuleId → Option Alert} {ids : List RuleId} {rule : RuleId}

/-- Each rule is not tracked yet, or it holds the alert that it is to be seeded with and nothing else. -/
structure Begun (v : View) (pick : RuleId → Option Alert) : Prop where
  held : ∀ rule, v.held rule = none ∨
    v.held rule = (pick rule).map fun alert => { state := .recovered rule alert.id }

theorem Fresh.begun (fresh : v.Fresh pick) : v.Begun pick :=
  ⟨fun rule => .inr (fresh.held rule)⟩

/-- Whether it was seeded before or not, a rule comes out the same. -/
theorem Begun.held_seeded (begun : v.Begun pick) (same : ∀ rule ∈ ids, look rule = pick rule) (rule : RuleId) :
    (v.seeded ids look).held rule =
      if rule ∈ ids then (pick rule).map fun alert => { state := .recovered rule alert.id } else v.held rule := by
  simp only [View.seeded]
  split
  · next mem =>
    rw [same rule mem]
    rcases begun.held rule with absent | there
    · cases picked : pick rule with
      | none => exact absent
      | some alert =>
        rw [Option.elim_some, seed, holding, absent]
        rfl
    · cases picked : pick rule with
      | none => exact there.trans (by rw [picked])
      | some alert =>
        rw [Option.elim_some, seed, holding, there, picked]
        rfl
  · rfl

theorem Begun.seeded (begun : v.Begun pick) (same : ∀ rule ∈ ids, look rule = pick rule) :
    (v.seeded ids look).Begun pick := by
  refine ⟨fun rule => ?_⟩
  rw [begun.held_seeded same]
  split
  · exact .inr rfl
  · exact begun.held rule

/-- Once all rules were seeded that are to be, what was seeded before makes no difference. -/
theorem Begun.fresh_seeded (begun : v.Begun pick) (same : ∀ rule ∈ ids, look rule = pick rule)
    (all : ∀ rule, rule ∉ ids → pick rule = none) : (v.seeded ids look).Fresh pick := by
  refine ⟨fun rule => ?_⟩
  rw [begun.held_seeded same]
  split
  · rfl
  · next other =>
    rw [all rule other]
    exact (begun.held rule).elim (·) fun there => there.trans (by rw [all rule other])

theorem Fresh.held_seeded (fresh : v.Fresh pick) (same : ∀ rule ∈ ids, look rule = pick rule) :
    (v.seeded ids look).held = v.held := by
  funext rule
  rw [fresh.begun.held_seeded same]
  split
  · exact (fresh.held rule).symm
  · rfl

end View

/-! ### What a sweep does to storage -/

def Alert.undated (a : Alert) : Alert :=
  { a with resolvedAt := a.resolvedAt.map fun _ => default }

/-- What is left of an alert record, but for the time at which it was closed, once the strays were closed. -/
def Alert.swept (pick : RuleId → Option Alert) (a : Alert) : Alert :=
  if a.isOpen && a.isStray pick then { a with resolvedAt := some default } else a.undated

theorem Alert.undated_resolve (a : Alert) (time : Timestamp) :
    (a.resolve time).undated = { a with resolvedAt := some default } := by
  cases closed : a.resolvedAt <;> simp [undated, resolve, closed]

theorem Alert.isOpen_undated (a : Alert) : a.undated.isOpen = a.isOpen := by
  cases closed : a.resolvedAt <;> simp [undated, isOpen, closed]

/-- Records that differ in the time of their closing at most tell the same alerts open. -/
theorem AlertStore.openOf_congr {s s' : AlertStore}
    (same : ∀ id, (s.get? id).map Alert.undated = (s'.get? id).map Alert.undated) {rule : RuleId} {id : AlertId} :
    s.OpenOf rule id ↔ s'.OpenOf rule id := by
  have told (s : AlertStore) : s.OpenOf rule id ↔
      ∃ record, (s.get? id).map Alert.undated = some record ∧ record.ruleId = rule ∧ record.isOpen = true := by
    constructor
    · rintro ⟨alert, there, named, isOpen⟩
      exact ⟨alert.undated, by rw [there, Option.map_some], named, alert.isOpen_undated.trans isOpen⟩
    · rintro ⟨record, there, named, isOpen⟩
      obtain ⟨alert, stored, rfl⟩ := Option.map_eq_some_iff.mp there
      exact ⟨alert, stored, named, alert.isOpen_undated.symm.trans isOpen⟩
  rw [told, told, same]

section Sweep

variable {snapshot : RuleSnapshot} {alerts : List Alert} {v v' : View} {r r' : RecoveryReport}

theorem View.Sweep.records {alert : Alert} (sweep : View.Sweep snapshot alert v r v' r') (id : AlertId) :
    v'.store.get? id = v.store.get? id ∨
      ∃ record time, v.store.get? id = some record ∧ v'.store.get? id = some (record.resolve time) := by
  cases sweep with
  | tracked same => exact .inl rfl
  | closed time stray idle =>
    change (v.store.resolve alert.id time).1.get? id = _ ∨
      ∃ record time', _ ∧ (v.store.resolve alert.id time).1.get? id = _
    rcases v.store.resolve_cases alert.id time with ⟨record, there, closed⟩ | ⟨e, refused⟩
    · rw [closed, AlertStore.get?_close]
      split
      · next same => exact .inr ⟨record, time, same ▸ there, rfl⟩
      · exact .inl rfl
    · rw [refused]
      exact .inl rfl
  | queued outbox stray busy grows => exact .inl rfl

theorem View.Sweeps.records (sweeps : View.Sweeps snapshot alerts v r v' r') (id : AlertId) :
    v'.store.get? id = v.store.get? id ∨
      ∃ record time, v.store.get? id = some record ∧ v'.store.get? id = some (record.resolve time) := by
  induction sweeps with
  | nil => exact .inl rfl
  | cons first later ih =>
    rcases first.records id with same | ⟨record, time, there, closed⟩
    · rwa [same] at ih
    · rcases ih with same | ⟨record', time', there', closed'⟩
      · exact .inr ⟨record, time, there, same.trans closed⟩
      · -- It was closed before, so that the first time counts.
        obtain rfl := Option.some.inj (closed.symm.trans there')
        exact .inr ⟨record, time, there,
          closed'.trans (congrArg some (Alert.resolve_of_closed (record.isOpen_resolve time) time'))⟩

theorem View.Sweeps.of_tracked (sweeps : View.Sweeps snapshot alerts v r v' r')
    (tracked : ∀ alert ∈ alerts, v.openAlert alert.ruleId = some alert.id) : v' = v ∧ r' = r := by
  induction sweeps with
  | nil => exact ⟨rfl, rfl⟩
  | cons first later ih =>
    obtain ⟨here, tracked⟩ := List.forall_mem_cons.mp tracked
    cases first with
    | tracked same => exact ih tracked
    | closed time stray idle => exact absurd here stray
    | queued outbox stray busy grows => exact absurd here stray

namespace View.Cleared

variable {alert : Alert} {id : AlertId}

/-- What becomes of each record. -/
theorem contents (keyed : v.store.Keyed)
    (cleared : View.Cleared snapshot (v.store.pick snapshot) v.store.openAlerts v r v' r')
    (sweeps : View.Sweeps snapshot v.store.openAlerts v r v' r') (id : AlertId) :
    (v'.store.get? id).map Alert.undated = (v.store.get? id).map (Alert.swept (v.store.pick snapshot)) := by
  rcases there : v.store.get? id with _ | alert
  · rcases sweeps.records id with same | ⟨record, time, there', -⟩
    · rw [same, there]
      rfl
    · exact absurd (there.symm.trans there') (by simp)
  have named : alert.id = id := keyed there
  rw [Option.map_some, Alert.swept]
  by_cases gone : (alert.isOpen && alert.isStray (v.store.pick snapshot)) = true
  · obtain ⟨isOpen, stray⟩ := Bool.and_eq_true_iff.mp gone
    obtain ⟨shut, there', closed⟩ := cleared.closed (keyed.mem_openAlerts.mpr ⟨named ▸ there, isOpen⟩) stray
    rw [named] at there'
    rw [if_pos gone]
    rcases sweeps.records id with same | ⟨record, time, before, after⟩
    · rw [same, there] at there'
      rw [Option.some.inj there', closed] at isOpen
      exact absurd isOpen Bool.false_ne_true
    · rw [after, Option.map_some, Option.some.inj (there.symm.trans before), Alert.undated_resolve]
  · rw [if_neg gone, cleared.kept fun other mem stray same => gone ?_, there, Option.map_some]
    obtain ⟨there', isOpen⟩ := keyed.mem_openAlerts.mp mem
    rw [same, there] at there'
    rw [Option.some.inj there', isOpen, stray]
    rfl

/-- The alerts that are open afterwards are those that rules were seeded with. -/
theorem mem_openAlerts (keyed : v.store.Keyed)
    (cleared : View.Cleared snapshot (v.store.pick snapshot) v.store.openAlerts v r v' r') :
    alert ∈ v'.store.openAlerts ↔ v.store.pick snapshot alert.ruleId = some alert := by
  have picked_kept {alert : Alert} {rule : RuleId} (picked : v.store.pick snapshot rule = some alert) :
      v'.store.get? alert.id = some alert ∧ alert.ruleId = rule ∧ alert.isOpen = true := by
    obtain ⟨-, newest⟩ := AlertStore.pick_eq_some picked
    obtain ⟨mem, named, -⟩ := AlertStore.newestOpen?_eq_some newest
    obtain ⟨there, isOpen⟩ := keyed.mem_openAlerts.mp mem
    refine ⟨?_, named, isOpen⟩
    rw [cleared.kept fun other mem' stray same => ?_, there]
    obtain ⟨there', -⟩ := keyed.mem_openAlerts.mp mem'
    rw [same, there] at there'
    rw [← Option.some.inj there', AlertStore.isStray_of_pick picked] at stray
    exact absurd stray Bool.false_ne_true
  rw [AlertStore.mem_openAlerts]
  constructor
  · rintro ⟨⟨id, there⟩, isOpen⟩
    obtain ⟨other, picked, rfl⟩ := (cleared.openOf_iff keyed).mp ⟨alert, there, rfl, isOpen⟩
    obtain ⟨there', -⟩ := picked_kept picked
    obtain rfl := Option.some.inj (there.symm.trans there')
    exact picked
  · intro picked
    obtain ⟨there, -, isOpen⟩ := picked_kept picked
    exact ⟨⟨_, there⟩, isOpen⟩

end View.Cleared

end Sweep

/-- If each rule has no open alert but the one that it is seeded with, that one is its newest. -/
theorem AlertStore.newestOpen?_of_only {s : AlertStore} {pick : RuleId → Option Alert}
    (only : ∀ alert, alert ∈ s.openAlerts ↔ pick alert.ruleId = some alert)
    (named : ∀ {rule alert}, pick rule = some alert → alert.ruleId = rule) : s.newestOpen? = pick := by
  funext rule
  rcases found : s.newestOpen? rule with _ | alert
  · rcases picked : pick rule with _ | alert
    · rfl
    · have mem : alert ∈ s.openAlerts := (only alert).mpr ((named picked).symm ▸ picked)
      have some := newestOpen?_isSome.mpr ⟨alert, mem, named picked⟩
      exact absurd (found ▸ some) (by simp)
  · obtain ⟨mem, rfl, -⟩ := newestOpen?_eq_some found
    exact ((only alert).mp mem).symm

/-! ### One attempt -/

namespace World

variable {w w' w₁ w₂ w₃ w₄ : World} {rules : List Rule} {stored : AlertStore} {report : RecoveryReport}

/-- The same rules are served and the same alerts stored, and what is asked to be closed is closed in time. Whether
the rules can be fetched and the queries are answered is left open. -/
structure Offers (w : World) (rules : List Rule) (stored : AlertStore) : Prop where
  rules : ∀ {listed}, w.source.fetch = .ok listed → listed = rules
  stored : ∃ unavailable, w.sink.store = { stored with unavailable }
  closes : w.sink.Closes w.engine.sinkTimeout

structure Partway (w : World) (rules : List Rule) (stored : AlertStore) : Prop where
  coherent : w.engine.tracker.Coherent
  begun : w.view.Begun (stored.chosen rules)

/-- What a recovery leaves, however many failed before it. -/
structure Regained (w : World) (rules : List Rule) (stored : AlertStore) : Prop where
  coherent : w.engine.tracker.Coherent
  fresh : w.view.Fresh (stored.chosen rules)
  contents : ∀ id, (w.sink.store.get? id).map Alert.undated =
    (stored.get? id).map (Alert.swept (stored.chosen rules))
  only : ∀ alert, alert ∈ w.sink.store.openAlerts ↔ stored.chosen rules alert.ruleId = some alert

theorem Offers.chosen (offers : w.Offers rules stored) : w.sink.store.chosen rules = stored.chosen rules := by
  obtain ⟨unavailable, same⟩ := offers.stored
  rw [same]
  rfl

theorem Offers.keyed (offers : w.Offers rules stored) (keyed : stored.Keyed) : w.sink.store.Keyed := by
  obtain ⟨unavailable, same⟩ := offers.stored
  rw [same]
  exact keyed

theorem partway_new (new : ∃ c, w.engine = .ofConfig c) : w.Partway rules stored := by
  obtain ⟨c, engine⟩ := new
  refine ⟨by rw [engine]; exact Tracker.coherent_empty, ⟨fun rule => .inl ?_⟩⟩
  rw [view, engine]
  rfl

theorem Partway.calm (partway : w.Partway rules stored) (offers : w.Offers rules stored) : w.Calm :=
  ⟨partway.coherent, offers.closes⟩

theorem Partway.elsewhere (partway : w.Partway rules stored) (outside : w.Elsewhere w') :
    w'.Partway rules stored := by
  obtain ⟨source, sink, clock, calendar, jitter, lulls, woken, -, rfl⟩ := outside
  exact ⟨partway.coherent, ⟨partway.begun.held⟩⟩

theorem Offers.looked (offers : w.Offers rules stored) {generation : Nat} {time : Timestamp} {rule : RuleId}
    (mem : rule ∈ (RuleSnapshot.build rules (generation + 1) time).ids) :
    w.sink.store.newestOpen? rule = stored.chosen rules rule := by
  rw [(RuleSnapshot.sound_build ..).mem_ids, RuleSnapshot.contains_build] at mem
  rw [← offers.chosen, AlertStore.chosen_of_enabled mem]

theorem Abandons.looked (abandons : w.Abandons w') (offers : w.Offers rules stored) :
    ∃ snapshot ids, w'.view = { w.view with snapshot }.seeded ids w.sink.store.newestOpen? ∧
      ∀ rule ∈ ids, w.sink.store.newestOpen? rule = stored.chosen rules rule := by
  obtain ⟨snapshot, ids, view, none | ⟨listed, time, fetched, rfl, started⟩⟩ := abandons.seeded
  · exact ⟨snapshot, ids, view, fun rule mem => absurd (none ▸ mem) List.not_mem_nil⟩
  · obtain rfl := offers.rules fetched
    exact ⟨_, ids, view, fun rule mem => offers.looked (started mem)⟩

theorem Abandons.store (abandons : w.Abandons w') : w'.sink.store = w.sink.store := by
  obtain ⟨snapshot, ids, view, -⟩ := abandons.seeded
  exact congrArg View.store view

theorem Partway.abandoned (partway : w.Partway rules stored) (offers : w.Offers rules stored)
    (abandons : w.Abandons w') : w'.Partway rules stored := by
  obtain ⟨snapshot, ids, view, looked⟩ := abandons.looked offers
  refine ⟨abandons.silent.coherent, view ▸ View.Begun.seeded ⟨partway.begun.held⟩ looked⟩

theorem Partway.completed (partway : w.Partway rules stored) (offers : w.Offers rules stored) (keyed : stored.Keyed)
    {listed : List Rule} {time : Timestamp} (completes : w.Completes listed time w' report) :
    w'.Regained rules stored := by
  obtain ⟨fetched, available, calm, sweeps⟩ := completes
  obtain rfl := offers.rules fetched
  let snapshot := RuleSnapshot.build listed (w.view.snapshot.generation + 1) time
  -- Once all rules are seeded the view is that of a single recovery, whatever was seeded before.
  let seeded := { w.view with snapshot }.seeded snapshot.ids w.sink.store.newestOpen?
  have picks : seeded.store.pick snapshot = stored.chosen listed :=
    (AlertStore.pick_build ..).trans offers.chosen
  have begun : View.Begun { w.view with snapshot } (stored.chosen listed) := ⟨partway.begun.held⟩
  have fresh : seeded.Fresh (seeded.store.pick snapshot) := by
    rw [picks]
    refine begun.fresh_seeded (fun rule => offers.looked) fun rule other => if_neg ?_
    rwa [(RuleSnapshot.sound_build ..).mem_ids, RuleSnapshot.contains_build] at other
  have keyed' : seeded.store.Keyed := offers.keyed keyed
  have cleared := sweeps.cleared fresh (keyed'.keeps available) fun alert mem => AlertStore.isSome_pick mem
  refine ⟨calm.coherent, picks ▸ cleared.fresh, fun id => ?_, fun alert => ?_⟩
  · have contents := cleared.contents keyed' sweeps id
    rw [picks] at contents
    obtain ⟨unavailable, same⟩ := offers.stored
    exact contents.trans (by rw [show seeded.store = w.sink.store from rfl, same]; rfl)
  · rw [← picks]
    exact cleared.mem_openAlerts keyed'

/-! ### A further attempt -/

theorem Regained.keyed (regained : w.Regained rules stored) (keyed : stored.Keyed) : w.sink.store.Keyed := by
  intro id alert there
  have same := regained.contents id
  rw [there, Option.map_some] at same
  obtain ⟨before, there', swept⟩ := Option.map_eq_some_iff.mp same.symm
  have kept : (before.swept (stored.chosen rules)).id = before.id := by
    rw [Alert.swept]
    split <;> rfl
  rw [← keyed there', ← kept, swept]
  rfl

theorem Regained.newestOpen? (regained : w.Regained rules stored) :
    w.sink.store.newestOpen? = stored.chosen rules := by
  refine AlertStore.newestOpen?_of_only regained.only fun {rule alert} chosen => ?_
  rw [AlertStore.chosen_of_enabled (AlertStore.enabled_of_chosen chosen)] at chosen
  exact (AlertStore.newestOpen?_eq_some chosen).2.1

theorem Regained.chosen (regained : w.Regained rules stored) :
    w.sink.store.chosen rules = stored.chosen rules := by
  funext rule
  by_cases enabled : Rule.EnabledIn rules rule
  · rw [AlertStore.chosen_of_enabled enabled, regained.newestOpen?]
  · rw [AlertStore.chosen, AlertStore.chosen, if_neg enabled, if_neg enabled]

/-- A further recovery changes no slot and no stored alert, and if it comes to its end it has found nothing to do. -/
theorem Regained.again (regained : w.Regained rules stored) (keyed : stored.Keyed) (outside : w.Elsewhere w₁)
    (offers : w₁.Offers rules w.sink.store) :
    ∃ w' reply, w₁.call .recover = (w', reply) ∧ w'.engine.tracker.held = w.engine.tracker.held ∧
      w'.sink.store = w₁.sink.store ∧ (reply = .recovered {} ∨ ∃ e, reply = .failed e ∧ w₁.Abandons w') := by
  have partway : w₁.Partway rules w.sink.store :=
    Partway.elsewhere ⟨regained.coherent, ⟨regained.chosen ▸ regained.fresh.begun.held⟩⟩ outside
  have held : w₁.engine.tracker.held = w.engine.tracker.held := by
    obtain ⟨source, sink, clock, calendar, jitter, lulls, woken, -, rfl⟩ := outside
    rfl
  have fresh (snapshot : RuleSnapshot) : View.Fresh { w₁.view with snapshot } (w.sink.store.chosen rules) :=
    ⟨fun rule => (congrFun held rule).trans (regained.chosen ▸ regained.fresh.held rule)⟩
  have found : w₁.sink.store.newestOpen? = w.sink.store.chosen rules := by
    obtain ⟨unavailable, same⟩ := offers.stored
    rw [same, regained.chosen]
    exact regained.newestOpen?
  rcases recover_cases (partway.calm offers) (offers.keyed (regained.keyed keyed)) with
    ⟨w', e, ran, abandons⟩ | ⟨w', report, listed, time, ran, fetched, -, -, sweeps⟩
  · obtain ⟨snapshot, ids, view, looked⟩ := abandons.looked offers
    refine ⟨w', _, ran, ?_, abandons.store, .inr ⟨e, rfl, abandons⟩⟩
    exact (congrArg View.held view).trans (((fresh snapshot).held_seeded looked).trans held)
  · let snapshot := RuleSnapshot.build listed (w₁.view.snapshot.generation + 1) time
    let seeded := { w₁.view with snapshot }.seeded snapshot.ids w₁.sink.store.newestOpen?
    have same : seeded.held = w.engine.tracker.held :=
      ((fresh snapshot).held_seeded fun rule _ => congrFun found rule).trans held
    -- Only the alerts that rules were seeded with are open still, so that the sweep passes over each of them.
    have tracked : ∀ alert ∈ w₁.sink.store.openAlerts, seeded.openAlert alert.ruleId = some alert.id := by
      intro alert mem
      have here : w.sink.store.chosen rules alert.ruleId = some alert := by
        rw [regained.chosen]
        obtain ⟨unavailable, same⟩ := offers.stored
        rw [same] at mem
        exact (regained.only alert).mp mem
      have opened := View.Fresh.openAlert (v := seeded) ⟨fun rule =>
        (congrFun same rule).trans (regained.chosen ▸ regained.fresh.held rule)⟩ alert.ruleId
      rw [opened, here, Option.map_some]
    -- No rule is counted as seeded that was open before.
    have none : (snapshot.ids.countP fun rule =>
        (w₁.sink.store.newestOpen? rule).isSome && !(w₁.view.openAlert rule).isSome) = 0 := by
      refine List.countP_eq_zero.mpr fun rule _ => ?_
      have opened := (fresh w₁.view.snapshot).openAlert rule
      rw [found, show w₁.view.openAlert rule = _ from opened, Option.isSome_map]
      cases w.sink.store.chosen rules rule <;> simp
    obtain ⟨view, rfl⟩ := sweeps.of_tracked tracked
    refine ⟨w', _, ran, (congrArg View.held view).trans same, congrArg View.store view, .inl ?_⟩
    exact congrArg (fun seeded => Reply.recovered { seeded }) none

/-! ### One attempt after the other -/

/-- Recoveries that fail, one after the other, with no call between them. -/
inductive Tries (rules : List Rule) (stored : AlertStore) : World → World → Prop where
  | start {w : World} : Tries rules stored w w
  | again {w w₁ w₂ w₃ : World} {e : EngineError} (before : Tries rules stored w w₁)
      (offers : w₁.Offers rules stored) (failed : w₁.call .recover = (w₂, .failed e))
      (outside : w₂.Elsewhere w₃) : Tries rules stored w w₃

theorem Tries.partway (tries : w.Tries rules stored w₁) (keyed : stored.Keyed)
    (partway : w.Partway rules stored) : w₁.Partway rules stored := by
  induction tries with
  | start => exact partway
  | again before offers failed outside ih =>
    refine Partway.elsewhere ?_ outside
    rcases recover_cases (ih.calm offers) (offers.keyed keyed) with
      ⟨w', e, ran, abandons⟩ | ⟨w', report, listed, time, ran, -⟩
    · obtain ⟨rfl, -⟩ := Prod.mk.inj (failed.symm.trans ran)
      exact ih.abandoned offers abandons
    · exact absurd (congrArg Prod.snd (failed.symm.trans ran)) (by simp)

theorem Elsewhere.refl (w : World) : w.Elsewhere w :=
  ⟨_, _, _, _, _, _, _, Nat.le_refl _, rfl⟩

/-- After a recovery that answers with no report another can be tried. -/
theorem Tries.next (tries : w.Tries rules stored w₁) (new : ∃ c, w.engine = .ofConfig c) (keyed : stored.Keyed)
    (offers : w₁.Offers rules stored) (silent : (w₁.call .recover).2.report? = none)
    (fetched : (w₁.call .recover).1.source.fetch = w₁.source.fetch) :
    w.Tries rules stored (w₁.call .recover).1 ∧ (w₁.call .recover).1.Offers rules stored := by
  have partway : w₁.Partway rules stored := tries.partway keyed (partway_new new)
  rcases recover_cases (partway.calm offers) (offers.keyed keyed) with
    ⟨w', e, ran, abandons⟩ | ⟨w', report, listed, time, ran, -⟩
  · rw [ran] at fetched ⊢
    refine ⟨.again tries offers ran (.refl w'), ?_, ?_, ?_⟩
    · exact fun {listed} ok => offers.rules (fetched ▸ ok)
    · exact abandons.store ▸ offers.stored
    · exact abandons.silent.limit ▸ abandons.silent.closes offers.closes
  · rw [ran] at silent
    exact absurd silent (by simp [Reply.report?])

/-- The same rules are tracked, their slots hold the same, and storage holds the same alerts, of which the same are
open; an alert may have been closed at another time. -/
structure Agrees (w v : World) : Prop where
  tracked : ∀ rule, rule ∈ w.engine.tracker.ruleIds ↔ rule ∈ v.engine.tracker.ruleIds
  held : w.engine.tracker.held = v.engine.tracker.held
  left : ∀ rule id, w.sink.store.OpenOf rule id ↔ v.sink.store.OpenOf rule id
  contents : ∀ id, (w.sink.store.get? id).map Alert.undated = (v.sink.store.get? id).map Alert.undated

theorem Regained.agrees {v : World} (regained : w.Regained rules stored) (regained' : v.Regained rules stored) :
    w.Agrees v := by
  have held : w.engine.tracker.held = v.engine.tracker.held :=
    funext fun rule => (regained.fresh.held rule).trans (regained'.fresh.held rule).symm
  have contents (id : AlertId) :
      (w.sink.store.get? id).map Alert.undated = (v.sink.store.get? id).map Alert.undated :=
    (regained.contents id).trans (regained'.contents id).symm
  refine ⟨fun rule => ?_, held, fun rule id => AlertStore.openOf_congr contents, contents⟩
  rw [Tracker.mem_ruleIds, Tracker.mem_ruleIds, Ne, Ne, Tracker.find?_eq_none, Tracker.find?_eq_none, held]

/-- However many recoveries failed before on an engine that was new, at whatever point of theirs: one that fails as
well changes no stored alert and tells nobody anything. One that comes to its end agrees with a single recovery on a
new engine, and a further one changes no slot and no stored alert and, unless it fails, reports that there was nothing
to do. -/
theorem recovery_resumes {reply : Reply} (new : ∃ c, w.engine = .ofConfig c) (keyed : stored.Keyed)
    (tries : w.Tries rules stored w₁) (offers : w₁.Offers rules stored) (ran : w₁.call .recover = (w₂, reply)) :
    (∃ e, reply = .failed e ∧ w₂.sink.store = w₁.sink.store ∧ w₂.journal = w₁.journal ∧
      ((∃ listed, w₁.source.fetch = .ok listed) → ¬ w₁.sink.Answers)) ∨
    (∃ report, reply = .recovered report) ∧
      (∀ {v v' : World} {report'}, (∃ c, v.engine = .ofConfig c) → v.Offers rules stored →
        v.call .recover = (v', .recovered report') → w₂.Agrees v') ∧
      ∀ {w₃ w₄ : World} {reply'}, w₂.Elsewhere w₃ → w₃.Offers rules w₂.sink.store →
        w₃.call .recover = (w₄, reply') →
        w₄.engine.tracker.held = w₂.engine.tracker.held ∧ w₄.sink.store = w₃.sink.store ∧
          (reply' = .recovered {} ∨
            ∃ e, reply' = .failed e ∧ ((∃ listed, w₃.source.fetch = .ok listed) → ¬ w₃.sink.Answers)) := by
  have partway : w₁.Partway rules stored := tries.partway keyed (partway_new new)
  rcases recover_cases (partway.calm offers) (offers.keyed keyed) with
    ⟨w', e, ran', abandons⟩ | ⟨w', report, listed, time, ran', completes⟩
  · obtain ⟨rfl, rfl⟩ := Prod.mk.inj (ran.symm.trans ran')
    exact .inl ⟨e, rfl, abandons.store, abandons.silent.journal, abandons.trouble⟩
  · obtain ⟨rfl, rfl⟩ := Prod.mk.inj (ran.symm.trans ran')
    have regained := partway.completed offers keyed completes
    refine .inr ⟨⟨report, rfl⟩, fun {v v' report'} new' offers' ran' => ?_,
      fun {w₃ w₄ reply'} outside offers' ran' => ?_⟩
    · have partway' : v.Partway rules stored := partway_new new'
      rcases recover_cases (partway'.calm offers') (offers'.keyed keyed) with
        ⟨v'', e, ran'', -⟩ | ⟨v'', report'', listed', time', ran'', completes'⟩
      · exact absurd (congrArg Prod.snd (ran'.symm.trans ran'')) (by simp)
      · obtain ⟨rfl, -⟩ := Prod.mk.inj (ran'.symm.trans ran'')
        exact regained.agrees (partway'.completed offers' keyed completes')
    · obtain ⟨w', reply'', ran'', held, store, either⟩ := regained.again keyed outside offers'
      obtain ⟨rfl, rfl⟩ := Prod.mk.inj (ran'.symm.trans ran'')
      exact ⟨held, store, either.imp_right fun ⟨e, failed, abandons⟩ => ⟨e, failed, abandons.trouble⟩⟩

/-- Storage holds an open alert of one of two rules. The look-up for the other is going to fail, and the first listing
of all open alerts as well. -/
def faltering : World :=
  let hot : Rule := { Rule.highLoad with id := "hot", metricKey := "heat" }
  let away : Act := { deed := .fail (.unavailable "away") }
  let sink : Sink :=
    { store := .insert {} (.ofRule "x" .highLoad 95 default)
      findOpen := { queue := [{}, away] }
      findAll := { queue := [away] } }
  { watched { workers := 1 } sink with source := { contents := .listed [.highLoad, hot] } }

/-- The first recovery seeds the rule and fails, the second fails as well, and the third leaves what a single one
leaves that finds nothing in its way. -/
theorem recovery_resumes_faltering :
    let w := ((faltering.call .recover).1.call .recover).1
    let unhindered : World := { faltering with sink := { store := faltering.sink.store } }
    (faltering.call .recover).1.openAlert "high-load" = some "x" ∧
      ∃ w₂ w₄ v, w.call .recover = (w₂, .recovered {}) ∧
        unhindered.call .recover = (v, .recovered { seeded := 1 }) ∧ w₂.Agrees v ∧
        w₂.call .recover = (w₄, .recovered {}) ∧ w₄.engine.tracker.held = w₂.engine.tracker.held := by
  intro w unhindered
  have new : ∃ c, faltering.engine = .ofConfig c := ⟨_, rfl⟩
  have keyed : faltering.sink.store.Keyed := AlertStore.keyed_empty.insert _
  obtain ⟨rules, fetched⟩ : ∃ rules, faltering.source.fetch = .ok rules := ⟨_, rfl⟩
  have served {w : World} (same : w.source.fetch = faltering.source.fetch) {listed : List Rule}
      (ok : w.source.fetch = .ok listed) : listed = rules :=
    Except.ok.inj (ok.symm.trans (same.trans fetched))
  have closes {s : Sink} (plain : s.resolve = {}) (limit : Duration) : s.Closes limit := by
    rw [Sink.Closes, plain]
    exact ⟨by simp, trivial, Nat.zero_le _⟩
  have offers : faltering.Offers rules faltering.sink.store := ⟨served rfl, ⟨_, rfl⟩, closes rfl _⟩
  have tries : faltering.Tries rules faltering.sink.store faltering := .start
  obtain ⟨tries, offers⟩ := tries.next new keyed offers (by decide +kernel) (by decide +kernel)
  obtain ⟨tries, offers⟩ := tries.next new keyed offers (by decide +kernel) (by decide +kernel)
  have third : w.call .recover = (_, .recovered {}) := Reply.recovered_of_report (by decide +kernel)
  have fourth : (w.call .recover).1.call .recover = (_, .recovered {}) :=
    Reply.recovered_of_report (by decide +kernel)
  have single : unhindered.call .recover = (_, .recovered { seeded := 1 }) :=
    Reply.recovered_of_report (by decide +kernel)
  rcases recovery_resumes new keyed tries offers third with ⟨e, failed, -⟩ | ⟨-, agrees, again⟩
  · exact absurd failed (by simp)
  · have offers' : (w.call .recover).1.Offers rules (w.call .recover).1.sink.store :=
      ⟨served (by decide +kernel), ⟨_, rfl⟩, closes (by decide +kernel) _⟩
    obtain ⟨held, -⟩ := again (.refl _) offers' fourth
    exact ⟨by decide +kernel, _, _, _, third, single,
      agrees (v := unhindered) ⟨_, rfl⟩ ⟨served rfl, ⟨_, rfl⟩, closes rfl _⟩ single, fourth, held⟩

end World

end ThresholdAlerts
