import ThresholdAlerts.Proofs.Restart
/-! A recovery on an engine that has been at work, whatever was put into storage from outside. Main
statement: the rules that are open afterwards and the ends that wait are those of before and those that were
seeded, and a rule stops being open only if it is gone and storage holds another open alert of it. -/
namespace ThresholdAlerts

open Function

/-! ### One rule through the sweep -/

section Sweep

variable {snapshot : RuleSnapshot} {alert : Alert} {alerts : List Alert} {v v' : View} {r r' : RecoveryReport}
  {rule : RuleId} {d : Delivery}

theorem Holding.openAlertId_swept (h : Holding) (rule : RuleId) (enabled : Bool) (outbox : Outbox) :
    (((h.swept enabled outbox).getD (.initial rule)).state.openAlertId = h.state.openAlertId) ∨
      enabled = false ∧ ((h.swept enabled outbox).getD (.initial rule)).state.openAlertId = none := by
  cases enabled with
  | true => exact .inl rfl
  | false =>
    by_cases empty : outbox = []
    · subst empty
      exact .inr ⟨rfl, rfl⟩
    · rw [Holding.swept, if_neg Bool.false_ne_true, if_neg empty]
      exact .inl rfl

theorem Holding.mem_outbox_swept {h : Holding} {enabled : Bool} {outbox : Outbox}
    (mem : d ∈ ((h.swept enabled outbox).getD (.initial rule)).outbox) : d ∈ outbox := by
  rw [Holding.swept] at mem
  split at mem
  · exact mem
  · split at mem
    · exact absurd mem (by simp [Holding.initial])
    · exact mem

/-- The open alert of a rule goes only if the rule is gone and an alert is swept that is not it. -/
theorem View.Sweep.openAlert (sweep : View.Sweep snapshot alert v r v' r') (rule : RuleId) :
    v'.openAlert rule = v.openAlert rule ∨ v'.openAlert rule = none ∧ snapshot.contains rule = false ∧
      alert.ruleId = rule ∧ v.openAlert rule ≠ some alert.id := by
  have swept (outbox : Outbox) (stray : v.openAlert alert.ruleId ≠ some alert.id) :
      let put := v.put alert.ruleId ((v.holding alert.ruleId).swept (snapshot.contains alert.ruleId) outbox)
      put.openAlert rule = v.openAlert rule ∨ put.openAlert rule = none ∧ snapshot.contains rule = false ∧
        alert.ruleId = rule ∧ v.openAlert rule ≠ some alert.id := by
    intro put
    by_cases same : rule = alert.ruleId
    · subst same
      have here : put.openAlert alert.ruleId = (((v.holding alert.ruleId).swept
          (snapshot.contains alert.ruleId) outbox).getD (.initial alert.ruleId)).state.openAlertId := by
        rw [View.openAlert, View.holding, View.held_put_self]
      rw [here]
      rcases Holding.openAlertId_swept .. with same | ⟨gone, shut⟩
      · exact .inl same
      · exact .inr ⟨shut, gone, rfl, stray⟩
    · exact .inl (v.openAlert_put_other _ same)
  cases sweep with
  | tracked same => exact .inl rfl
  | closed time stray idle => exact swept [] stray
  | queued outbox stray busy grows => exact swept outbox stray

/-- What comes to wait for a rule is the end of the alert that is swept. -/
theorem View.Sweep.mem_outbox (sweep : View.Sweep snapshot alert v r v' r') (mem : d ∈ v'.outbox rule) :
    d ∈ v.outbox rule ∨ d.event.closing? = some alert.id ∧ v.openAlert rule ≠ some alert.id := by
  have swept {outbox : Outbox} (mem : d ∈ (v.put alert.ruleId
      ((v.holding alert.ruleId).swept (snapshot.contains alert.ruleId) outbox)).outbox rule) :
      d ∈ v.outbox rule ∨ rule = alert.ruleId ∧ d ∈ outbox := by
    by_cases same : rule = alert.ruleId
    · subst same
      rw [View.outbox, View.holding, View.held_put_self] at mem
      exact .inr ⟨rfl, Holding.mem_outbox_swept mem⟩
    · rw [View.outbox, View.holding_put_other _ _ same] at mem
      exact .inl mem
  cases sweep with
  | tracked same => exact .inl mem
  | closed time stray idle =>
    rcases swept mem with before | ⟨-, there⟩
    · exact .inl before
    · exact absurd there List.not_mem_nil
  | queued outbox stray busy grows =>
    rcases swept mem with before | ⟨rfl, grown⟩
    · exact .inl before
    · exact (grows d grown).imp_right fun closes => ⟨closes, stray⟩

theorem View.Sweep.snapshot_eq (sweep : View.Sweep snapshot alert v r v' r') : v'.snapshot = v.snapshot := by
  cases sweep <;> rfl

theorem View.Sweeps.snapshot_eq (sweeps : View.Sweeps snapshot alerts v r v' r') : v'.snapshot = v.snapshot := by
  induction sweeps with
  | nil => rfl
  | cons first later ih => rw [ih, first.snapshot_eq]

theorem View.Sweeps.openAlert (sweeps : View.Sweeps snapshot alerts v r v' r') (rule : RuleId) :
    v'.openAlert rule = v.openAlert rule ∨ v'.openAlert rule = none ∧ snapshot.contains rule = false ∧
      ∃ alert ∈ alerts, alert.ruleId = rule ∧ v.openAlert rule ≠ some alert.id := by
  induction sweeps with
  | nil => exact .inl rfl
  | @cons alert rest v r v₁ r₁ v₂ r₂ first later ih =>
    rcases first.openAlert rule with same | ⟨closed, gone, named, stray⟩
    · rw [same] at ih
      exact ih.imp_right fun ⟨closed, gone, other, mem, stray⟩ =>
        ⟨closed, gone, other, List.mem_cons_of_mem _ mem, stray⟩
    · have stays : v₂.openAlert rule = none := ih.elim (·.trans closed) And.left
      exact .inr ⟨stays, gone, alert, List.mem_cons_self, named, stray⟩

/-- If the end of an alert waits that is tracked as open all along, it waited before. -/
theorem View.Sweeps.mem_outbox {id : AlertId} (sweeps : View.Sweeps snapshot alerts v r v' r')
    (opened : v'.openAlert rule = some id) (mem : d ∈ v'.outbox rule) (closes : d.event.closing? = some id) :
    d ∈ v.outbox rule := by
  induction sweeps with
  | nil => exact mem
  | @cons alert rest v r v₁ r₁ v₂ r₂ first later ih =>
    have before : v.openAlert rule = some id := by
      have kept : v₁.openAlert rule = some id :=
        (later.openAlert rule).elim (·.symm.trans opened) fun shut => by simp [shut.1] at opened
      exact (first.openAlert rule).elim (·.symm.trans kept) fun shut => by simp [shut.1] at kept
    rcases first.mem_outbox (ih opened mem) with before' | ⟨closes', stray⟩
    · exact before'
    · rw [closes] at closes'
      exact absurd (before.trans closes') stray

end Sweep

/-! ### Seeding -/

namespace View

variable {v : View} {rules : List RuleId} {look : RuleId → Option Alert} {rule : RuleId}

theorem holding_seeded (v : View) (rules : List RuleId) (look : RuleId → Option Alert) (rule : RuleId) :
    (v.seeded rules look).holding rule =
      if rule ∈ rules then (look rule).elim (v.holding rule) fun alert => v.seed rule alert.id
      else v.holding rule := by
  simp only [holding, seeded]
  split
  · cases look rule <;> rfl
  · rfl

/-- Seeding opens the rules that are not open yet. -/
theorem openAlert_seeded (v : View) (rules : List RuleId) (look : RuleId → Option Alert) (rule : RuleId) :
    (v.seeded rules look).openAlert rule = v.openAlert rule ∨
      v.openAlert rule = none ∧ rule ∈ rules ∧
        ∃ alert, look rule = some alert ∧ (v.seeded rules look).openAlert rule = some alert.id := by
  rw [openAlert, holding_seeded]
  split
  · next mem =>
    cases found : look rule with
    | none => exact .inl rfl
    | some alert =>
      cases isOpen : (v.holding rule).state.isOpen with
      | true =>
        left
        simp [seed, Holding.seed, isOpen, openAlert]
      | false =>
        right
        refine ⟨isOpen_eq_false.mp isOpen, mem, alert, rfl, ?_⟩
        simp [seed, Holding.seed, isOpen, FiringState.recovered, FiringState.openAlertId]
  · exact .inl rfl

theorem outbox_seeded (v : View) (rules : List RuleId) (look : RuleId → Option Alert) (rule : RuleId) :
    (v.seeded rules look).outbox rule = v.outbox rule := by
  rw [outbox, holding_seeded]
  split
  · cases look rule with
    | none => rfl
    | some alert =>
      rw [Option.elim_some, seed, Holding.seed]
      split <;> rfl
  · rfl

end View

/-! ### The whole recovery -/

namespace World

variable {w w' : World} {report : RecoveryReport} {rule : RuleId} {id : AlertId} {d : Delivery}

/-- What a recovery that comes to a good end has done. -/
theorem sweeps_of_recovered (calm : w.Calm) (keyed : w.sink.store.Keyed)
    (ran : w.call .recover = (w', .recovered report)) :
    ∃ snapshot r, snapshot.Sound ∧ View.Sweeps snapshot w.sink.store.openAlerts
      ({ w.view with snapshot }.seeded snapshot.ids w.sink.store.newestOpen?) r w'.view report := by
  rcases recover_cases calm keyed with ⟨_, e, failed, -⟩ | ⟨_, _, rules, time, ended, completes⟩
  · exact absurd (congrArg Prod.snd (ran.symm.trans failed)) (by simp)
  · obtain ⟨rfl, same⟩ := Prod.mk.inj (ran.symm.trans ended)
    rw [Reply.recovered.inj same]
    exact ⟨_, _, RuleSnapshot.sound_build .., completes.sweeps⟩

/-- What a recovery leaves of a rule. Each clause names the one case in which it falls short. -/
structure Outlives (w w' : World) (rule : RuleId) : Prop where
  /-- A rule that is open is in the snapshot, unless it was open before. -/
  known : ∀ id, w'.openAlert rule = some id →
    w'.engine.rules.snapshot.contains rule = true ∨ w.openAlert rule = some id
  /-- An open rule stays open with its alert, unless it is gone and storage holds another open alert of it. -/
  stays : ∀ id, w.openAlert rule = some id → w'.openAlert rule = some id ∨
    w'.openAlert rule = none ∧ w'.engine.rules.snapshot.contains rule = false ∧
      ∃ other, other ≠ id ∧ w.sink.store.OpenOf rule other
  /-- The end of the alert that is tracked as open does not wait, unless it waited before and storage held
  the alert as open, so that the rule was seeded with it. -/
  settled : ∀ id, w'.openAlert rule = some id → ∀ d ∈ (w'.account rule).outbox, d.event.closing? = some id →
    w.openAlert rule = none ∧ d ∈ (w.account rule).outbox ∧ w.sink.store.OpenOf rule id

theorem outlives_of_recovered (calm : w.Calm) (keyed : w.sink.store.Keyed)
    (awaited : ∀ id, w.openAlert rule = some id → ∀ d ∈ (w.account rule).outbox, d.event.closing? ≠ some id)
    (ran : w.call .recover = (w', .recovered report)) : w.Outlives w' rule := by
  obtain ⟨snapshot, r, sound, sweeps⟩ := sweeps_of_recovered calm keyed ran
  have loaded : w'.engine.rules.snapshot = snapshot := sweeps.snapshot_eq
  have found : ({ w.view with snapshot }.seeded snapshot.ids w.sink.store.newestOpen?).openAlert rule =
      w.openAlert rule ∨ w.openAlert rule = none ∧ rule ∈ snapshot.ids ∧
        ∃ alert, w.sink.store.newestOpen? rule = some alert ∧
          ({ w.view with snapshot }.seeded snapshot.ids w.sink.store.newestOpen?).openAlert rule = some alert.id :=
    openAlert_view w rule ▸ View.openAlert_seeded { w.view with snapshot } ..
  have outbox : ({ w.view with snapshot }.seeded snapshot.ids w.sink.store.newestOpen?).outbox rule =
      (w.account rule).outbox := by
    rw [View.outbox_seeded, account_outbox]
    rfl
  generalize { w.view with snapshot }.seeded snapshot.ids w.sink.store.newestOpen? = seeded at *
  have swept := sweeps.openAlert rule
  rw [← openAlert_view w' rule] at swept
  -- A rule that is open afterwards was open with this alert once it was seeded.
  have before {id : AlertId} (opened : w'.openAlert rule = some id) : seeded.openAlert rule = some id :=
    swept.elim (·.symm.trans opened) fun ⟨closed, _⟩ => absurd (closed.symm.trans opened) (by simp)
  refine ⟨fun id opened => ?_, fun id opened => ?_, fun id opened d mem closes => ?_⟩
  · rcases found with same | ⟨-, mem, -⟩
    · exact .inr (same.symm.trans (before opened))
    · rw [loaded]
      exact .inl (sound.mem_ids.mp mem)
  · have here : seeded.openAlert rule = some id :=
      found.elim (·.trans opened) fun ⟨closed, _⟩ => absurd (closed.symm.trans opened) (by simp)
    rw [here] at swept
    refine swept.imp_right fun ⟨closed, gone, other, mem, named, stray⟩ => ⟨closed, loaded ▸ gone, other.id, ?_, ?_⟩
    · exact fun same => stray (congrArg some same.symm)
    · exact (AlertStore.openOf_iff keyed).mpr ⟨other, mem, named, rfl⟩
  · rw [account_outbox] at mem
    have waited := sweeps.mem_outbox ((openAlert_view w' rule).symm.trans opened) mem closes
    rw [outbox] at waited
    rcases found with same | ⟨closed, -, alert, newest, seeded⟩
    · exact absurd closes (awaited id (same.symm.trans (before opened)) d waited)
    · obtain ⟨mem', named, -⟩ := AlertStore.newestOpen?_eq_some newest
      have same : alert.id = id := Option.some.inj (seeded.symm.trans (before opened))
      exact ⟨closed, waited, (AlertStore.openOf_iff keyed).mpr ⟨alert, mem', named, same⟩⟩

end World

/-! ### On an engine at work -/

/-- As long as nothing was recovered, the end of the alert that is tracked as open does not wait. -/
theorem World.not_waiting {w : World} {rule : RuleId} {id : AlertId} {d : Delivery}
    (once : w.openings.Nodup) (told : (w.account rule).Told none)
    (balanced : (w.account rule).Balanced rule none) (opened : w.openAlert rule = some id)
    (mem : d ∈ (w.account rule).outbox) : d.event.closing? ≠ some id := by
  intro closes
  have produced : d.event ∈ (w.account rule).produced := by
    have handed : d.event ∈ (w.account rule).past.filterMap Happening.handed? :=
      balanced.events.symm.subset (List.mem_append_right _ (List.mem_map_of_mem mem))
    rw [told.order, Account.handed]
    exact List.mem_append_left _ (List.mem_reverse.mpr handed)
  have now : w.openAlert rule = some id ↔ id ∈ Event.opens (w.account rule).produced ∧
      id ∉ Event.closes (w.account rule).produced :=
    told.coheres.alternates.now_eq_some (World.nodup_of_openings once)
  exact (now.mp opened).2 (Event.mem_closes.mpr ⟨_, produced, closes⟩)

/-- However calls, answers and changes from outside were interleaved before on a new engine: the recovery
leaves each rule open with its alert or closed, but for the cases that are named. -/
theorem Scene.open_after_recovery {w w' : World} {s : Scene} {report : RecoveryReport} (begins : w.Begins)
    (distinct : Injective w.ids.value)
    (run : Scene.Run (Call.Admitted .serving) World.Elsewhere { world := w } s) (finished : s.AllFinished)
    (plain : s.world.sink = { store := s.world.sink.store }) (keyed : s.world.sink.store.Keyed)
    (ran : s.world.call .recover = (w', .recovered report)) (rule : RuleId) : s.world.Outlives w' rule := by
  obtain ⟨st, holders, sound⟩ := (Scene.sound_begins begins ⟨⟨begins.lives, begins.told⟩, begins.accounted⟩).run
    (((kept_lives distinct).and kept_told).and (kept_accounted .serving))
    ((bears_lives.and (bears_accounts (P := fun _ a x => a.Told x))).and bears_accounted) run (by simp)
  have property := sound.property
  rw [sound.nobody finished] at property
  obtain ⟨⟨lives, told⟩, accounted⟩ := property
  have calm : s.world.Calm := World.calm_of_plain sound.orderly.coherent plain
  refine World.outlives_of_recovered calm keyed (fun id opened d mem => ?_) ran
  exact World.not_waiting lives.once (told rule) (accounted.balanced rule) opened mem

def Reply.report? : Reply → Option RecoveryReport
  | .recovered report => some report
  | _ => none

theorem Reply.recovered_of_report {done : World × Reply} {report : RecoveryReport}
    (reported : done.2.report? = some report) : done = (done.1, .recovered report) := by
  obtain ⟨w, reply⟩ := done
  cases reply with
  | recovered report' => rw [Option.some.inj reported]
  | _ => exact absurd reported (by simp [report?])

/-- The load falls while the store is away, and the recovery comes before the end of the alert is tried
again: the rule is open once more with an alert whose end waits. -/
theorem Scene.seeded_before_the_end :
    let s : Scene := { cutOff with world := cutOff.world.onStore fun s => { s with unavailable := false } }
    let w := (s.world.call .recover).1
    (w.openAlert "high-load" = some "" ∧ (w.account "high-load").outbox.map (·.event.closing?) = [some ""]) ∧
      s.world.Outlives w "high-load" := by
  intro s w
  have cut : Scene.Run (Call.Admitted .serving) World.Outage { world := .impatient } Scene.cutOff :=
    ((Scene.run_make _ nofun).trans (Scene.run_make _ nofun)).trans
      (.trans (.single (.outside (.store true))) (Scene.run_make _ nofun))
  have back : Scene.Run (Call.Admitted .serving) World.Outage { world := .impatient } s :=
    cut.trans (.single (.outside (.store false)))
  have run : Scene.Run (Call.Admitted .serving) World.Elsewhere { world := .impatient } s :=
    back.mono fun outage => outage.apart.1
  have ran : s.world.call .recover = (w, .recovered { seeded := 1 }) :=
    Reply.recovered_of_report (by decide +kernel)
  exact ⟨⟨by decide +kernel, by decide +kernel⟩,
    Scene.open_after_recovery (World.begins_watched _ _) (World.injective_watched _ _) run
      (Scene.allFinished_of_results (by decide +kernel)) (Sink.plain_of_scripts (by decide +kernel))
      (by decide +kernel) ran "high-load"⟩

def Scene.ruleGone : Scene :=
  let high := (Scene.make { world := .impatient } .refresh).make (.sample "load" 95 default)
  { high with world := high.world.editSource (.setList []) }

/-- A rule that is gone by the time of the recovery is served no more and stays open. -/
theorem Scene.gone_rule_open_after_recovery :
    ¬ ∀ (w w' : World) (s : Scene) (report : RecoveryReport), w.Begins → Injective w.ids.value →
      Scene.Run (Call.Admitted .serving) World.Elsewhere { world := w } s → s.AllFinished →
      s.world.sink = { store := s.world.sink.store } → s.world.sink.store.Keyed →
      s.world.call .recover = (w', .recovered report) → ∀ rule id, w'.openAlert rule = some id →
      w'.engine.rules.snapshot.contains rule = true := by
  intro known
  have run : Scene.Run (Call.Admitted .serving) World.Outage { world := .impatient } Scene.ruleGone :=
    ((Scene.run_make _ nofun).trans (Scene.run_make _ nofun)).trans
      (.single (.outside (.edit (.setList []))))
  have ran : Scene.ruleGone.world.call .recover = ((Scene.ruleGone.world.call .recover).1, .recovered {}) :=
    Reply.recovered_of_report (by decide +kernel)
  have there := known _ _ _ _ (World.begins_watched _ _) (World.injective_watched _ _)
    (run.mono fun outage => outage.apart.1) (Scene.allFinished_of_results (by decide +kernel))
    (Sink.plain_of_scripts (by decide +kernel)) (by decide +kernel) ran "high-load" "" (by decide +kernel)
  exact absurd there (by decide +kernel)

end ThresholdAlerts
