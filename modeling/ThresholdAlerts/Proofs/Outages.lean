import ThresholdAlerts.Proofs.Storage
/-! Storage and memory through outages. Main statements: however calls, answers and outages are interleaved,
a rule has at most one open alert in storage but for those whose end was given up; and if nothing was given
up, the events that wait lead from the stored alerts to the tracked ones. -/
namespace ThresholdAlerts

open Function

variable {w w' : World} {rule : RuleId} {store : AlertStore} {a : Account} {x : Option Work} {event : Event}
  {id : AlertId} {holders : RuleId → Option Work} {value : Nat → AlertId}

/-! ### One open alert in storage -/

def World.lost (w : World) : List AlertId :=
  Event.closes (w.abandonments.map (·.1))

theorem World.mem_abandonments (mem : event ∈ (w.account rule).abandoned) :
    event ∈ w.abandonments.map (·.1) := by
  obtain ⟨entry, there, rfl⟩ := List.mem_map.mp mem
  obtain ⟨h, noted, abandoned⟩ := List.mem_filterMap.mp there
  refine List.mem_map.mpr ⟨entry, List.mem_reverse.mpr ?_, rfl⟩
  exact List.mem_filterMap.mpr ⟨h, (List.mem_filter.mp noted).1, abandoned⟩

theorem World.lost_of_account (gone : id ∈ Event.closes (w.account rule).abandoned) : id ∈ w.lost := by
  obtain ⟨event, mem, closes⟩ := Event.mem_closes.mp gone
  exact Event.mem_closes.mpr ⟨event, World.mem_abandonments mem, closes⟩

/-- What was opened before another alert that is stored is closed, unless its end was given up. -/
theorem Account.Matches.closed_before (h : a.Matches store x) (coheres : a.Coheres none)
    (once : (Event.opens a.produced).Nodup) {before after : List Event} {earlier : AlertId}
    (whole : a.produced = before ++ event :: after) (opens : event.opening? = some id)
    (stored : store.HoldsOpen id) (opened : earlier ∈ Event.opens before)
    (kept : earlier ∉ Event.closes a.abandoned) : ¬ store.HoldsOpen earlier := by
  -- Were it open in storage, its end would be on its way; but what is on its way was produced later.
  intro there
  have alternates := coheres.alternates
  rw [whole] at alternates
  have closed := alternates.closed_before opens opened
  have twice := (coheres.alternates.closes_nodup once (by simp)).1
  rw [whole, Event.closes_append, List.nodup_append] at twice
  have waits : earlier ∈ Event.closes (a.outbox.pending x) := by
    refine (h.ends ?_ (.inl there)).resolve_right kept
    rw [whole, Event.closes_append]
    exact List.mem_append_left _ closed
  have later := (Event.closes_sublist (h.passed whole opens stored.holds)).subset waits
  exact twice.2.2 earlier closed earlier later rfl

theorem Account.Matches.only (h : a.Matches store x) (coheres : a.Coheres none)
    (once : (Event.opens a.produced).Nodup) {id' : AlertId} (opened : id ∈ Event.opens a.produced)
    (opened' : id' ∈ Event.opens a.produced) (there : store.HoldsOpen id) (there' : store.HoldsOpen id')
    (kept : id ∉ Event.closes a.abandoned) (kept' : id' ∉ Event.closes a.abandoned) : id = id' := by
  refine Classical.not_not.mp fun ne => ?_
  rcases Event.split_of_two opened opened' ne with ⟨before, event, after, whole, opens, earlier⟩ |
    ⟨before, event, after, whole, opens, earlier⟩
  · exact h.closed_before coheres once whole opens there earlier kept' there'
  · exact h.closed_before coheres once whole opens there' earlier kept there

/-- On a new engine and an empty store, and however calls, answers and outages are interleaved: a rule has at
most one open alert in storage, but for those whose end was given up. -/
theorem Scene.one_stored_alert_per_rule {w : World} {s : Scene} (begins : w.Begins)
    (empty : w.sink.store.alerts = ∅) (distinct : Injective w.ids.value)
    (run : Scene.Run (Call.Admitted .serving) World.Apart { world := w } s) (rule : RuleId) :
    (s.world.sink.store.alerts.values.countP fun alert =>
        alert.ruleId = rule && alert.isOpen && !decide (alert.id ∈ s.world.lost)) ≤ 1 ∧
      (s.world.lost = [] → s.world.sink.store.openCountFor rule ≤ 1) := by
  obtain ⟨st, holders, sound⟩ := (Scene.sound_begins begins (begins.filed empty)).run
    (kept_filed distinct) bears_filed run (by simp)
  obtain ⟨lives, agree, owned⟩ := sound.property
  have few : (s.world.sink.store.alerts.values.countP fun alert =>
      alert.ruleId = rule && alert.isOpen && !decide (alert.id ∈ s.world.lost)) ≤ 1 := by
    refine AlertStore.countP_le_one fun {id id' record record'} there there' counts counts' => ?_
    simp only [Bool.and_eq_true, decide_eq_true_eq, Bool.not_eq_true', decide_eq_false_iff_not]
      at counts counts'
    obtain ⟨⟨rfl, opened⟩, kept⟩ := counts
    obtain ⟨⟨same, opened'⟩, kept'⟩ := counts'
    obtain ⟨rfl, own⟩ := owned there
    obtain ⟨rfl, own'⟩ := owned there'
    rw [same] at own'
    exact (agree record.ruleId).only (lives.coheres _) (World.nodup_of_openings lives.once) own own'
      ⟨record, there, opened⟩ ⟨record', there', opened'⟩ (fun gone => kept (World.lost_of_account gone))
      fun gone => kept' (World.lost_of_account gone)
  refine ⟨few, fun none => ?_⟩
  rw [none] at few
  simpa [AlertStore.openCountFor] using few

/-- What happens to the world while the store comes and goes, the rules are edited and time passes. -/
inductive World.Outage (w : World) : World → Prop
  | store (unavailable : Bool) : w.Outage (w.onStore fun s => { s with unavailable })
  | edit (edit : RuleSource.Edit) : w.Outage (w.editSource edit)
  | time (clock : Duration) (later : w.clock ≤ clock) : w.Outage { w with clock }

theorem World.Outage.apart (h : w.Outage w') : w.Apart w' := by
  cases h with
  | store unavailable =>
      exact ⟨⟨w.source, _, w.clock, w.calendar, w.jitter, w.lulls, w.woken, Nat.le_refl _, rfl⟩, rfl⟩
  | edit edit =>
      exact ⟨⟨_, w.sink, w.clock, w.calendar, w.jitter, w.lulls, w.woken, Nat.le_refl _, rfl⟩, rfl⟩
  | time clock later =>
      exact ⟨⟨w.source, w.sink, clock, w.calendar, w.jitter, w.lulls, w.woken, later, rfl⟩, rfl⟩

/-- A world in which an event is given up after three attempts. -/
def World.impatient : World :=
  .watched { workers := 1, retryMaxAttempts := 3 } {}

/-- The load rises; the store goes away, and the load falls. -/
def Scene.cutOff : Scene :=
  let high := (Scene.make { world := .impatient } .refresh).make (.sample "load" 95 default)
  { high with world := high.world.onStore fun s => { s with unavailable := true } }.make
    (.sample "load" 50 default)

/-- A minute passes before what waits is tried again. -/
def Scene.retryLater (s : Scene) : Scene :=
  { s with world := { s.world with clock := s.world.clock + Duration.ofSeconds 60 } }.make .retry

/-- The store is back, and the load rises again. -/
def Scene.backAgain (s : Scene) : Scene :=
  { s with world := s.world.onStore fun s => { s with unavailable := false } }.make
    (.sample "load" 96 default)

theorem Scene.run_retryLater (s : Scene) :
    Scene.Run (Call.Admitted .serving) World.Outage s s.retryLater :=
  .trans (.single (.outside (.time _ (Nat.le_add_right _ _)))) (Scene.run_make _ nofun)

theorem Scene.run_tried (retries : Nat) :
    Scene.Run (Call.Admitted .serving) World.Outage { world := .impatient }
      (Nat.repeat Scene.retryLater retries Scene.cutOff) := by
  have left : Scene.Run (Call.Admitted .serving) World.Outage { world := .impatient } Scene.cutOff :=
    ((Scene.run_make _ nofun).trans (Scene.run_make _ nofun)).trans
      (.trans (.single (.outside (.store true))) (Scene.run_make _ nofun))
  induction retries with
  | zero => exact left
  | succ retries ih => exact ih.trans (Scene.run_retryLater _)

theorem Scene.run_cutOff (retries : Nat) :
    Scene.Run (Call.Admitted .serving) World.Outage { world := .impatient }
      (Nat.repeat Scene.retryLater retries Scene.cutOff).backAgain :=
  (Scene.run_tried retries).trans
    (.trans (.single (.outside (.store false))) (Scene.run_make _ nofun))

/-- The end of an alert that is given up while the store is away leaves the alert open in storage, and the
next one is opened beside it. -/
theorem Scene.two_stored_alerts_once_given_up :
    ¬ ∀ (w : World) (s : Scene), w.Begins → w.sink.store.alerts = ∅ → Injective w.ids.value →
      Scene.Run (Call.Admitted .serving) World.Outage { world := w } s → s.AllFinished →
      ∀ rule, s.world.sink.store.openCountFor rule ≤ 1 := by
  intro few
  have one := few _ _ (World.begins_watched _ _) rfl (World.injective_watched _ _) (Scene.run_cutOff 2)
    (Scene.allFinished_of_results (by decide +kernel)) "high-load"
  exact absurd one (by decide +kernel)

/-- With one more attempt to go the end of the alert arrives, with none it is given up. -/
theorem Scene.one_stored_alert_through_outages :
    let s := (Scene.cutOff.retryLater).backAgain
    let s' := ((Scene.cutOff.retryLater).retryLater).backAgain
    (s.world.lost = [] ∧ s.world.sink.store.openCountFor "high-load" ≤ 1) ∧
      s'.world.lost = [""] ∧ (s'.world.sink.store.alerts.values.countP fun alert =>
        alert.ruleId = "high-load" && alert.isOpen && !decide (alert.id ∈ s'.world.lost)) ≤ 1 := by
  intro s s'
  have run (retries : Nat) : Scene.Run (Call.Admitted .serving) World.Apart { world := .impatient }
      (Nat.repeat Scene.retryLater retries Scene.cutOff).backAgain :=
    (Scene.run_cutOff retries).mono World.Outage.apart
  have kept : s.world.lost = [] := by decide +kernel
  have one := Scene.one_stored_alert_per_rule (World.begins_watched _ _) rfl (World.injective_watched _ _)
    (run 1) "high-load"
  have one' := Scene.one_stored_alert_per_rule (World.begins_watched _ _) rfl (World.injective_watched _ _)
    (run 2) "high-load"
  exact ⟨⟨kept, one.2 kept⟩, by decide +kernel, one'.1⟩

/-! ### Storage and memory -/

def AlertStore.OpenOf (s : AlertStore) (rule : RuleId) (id : AlertId) : Prop :=
  ∃ record, s.get? id = some record ∧ record.ruleId = rule ∧ record.isOpen = true

/-- Once the events that wait have arrived, the alert that is open in storage is the one that is tracked. -/
theorem Account.Matches.leads (h : a.Matches store x) (coheres : a.Coheres none)
    (once : (Event.opens a.produced).Nodup) (kept : a.abandoned = []) :
    id ∈ Event.opens a.produced ∧ (store.receiveAll (a.outbox.pending x)).HoldsOpen id ↔
      a.state.openAlertId = some id := by
  rw [AlertStore.holdsOpen_receiveAll coheres.alternates once coheres.live h.inOrder h.live,
    coheres.alternates.now_eq_some once]
  refine and_congr_right fun opened => ⟨fun ⟨here, waits⟩ closed => ?_, fun open_ => ⟨?_, ?_⟩⟩
  · rcases h.ends closed here with later | gone
    · exact waits later
    · rw [kept] at gone
      exact absurd gone (by simp)
  · exact h.arrived kept opened open_
  · exact fun waits => open_ ((Event.closes_sublist h.inOrder).subset waits)

theorem World.Filed.leads (filed : w.Filed value holders) (kept : (w.account rule).abandoned = []) :
    (w.sink.store.receiveAll ((w.account rule).outbox.pending (holders rule))).OpenOf rule id ↔
      w.openAlert rule = some id := by
  obtain ⟨lives, agree, owned⟩ := filed
  have once : (Event.opens (w.account rule).produced).Nodup := World.nodup_of_openings lives.once
  have named {id : AlertId} {record : Alert} (there : (w.sink.store.receiveAll
      ((w.account rule).outbox.pending (holders rule))).get? id = some record) :
      id ∈ Event.opens (w.account record.ruleId).produced := by
    refine AlertStore.named_receiveAll (P := fun id r => id ∈ Event.opens (w.account r).produced)
      (fun there => (owned there).2) (fun alert mem => ?_) there
    have made := (agree rule).inOrder.subset mem
    obtain rfl : alert.ruleId = rule := (World.mem_produced.mp made).2
    exact Event.mem_opens.mpr ⟨_, made, rfl⟩
  rw [World.openAlert, ← (agree rule).leads (lives.coheres rule) once kept]
  constructor
  · rintro ⟨record, there, rfl, opened⟩
    exact ⟨named there, record, there, opened⟩
  · rintro ⟨own, record, there, opened⟩
    exact ⟨record, there, World.opener_unique lives.once (named there) own, opened⟩

theorem World.Booked.nothing_abandoned (h : w.Booked 0) (kept : w.engine.stats.deadLettered = 0)
    (rule : RuleId) : (w.account rule).abandoned = [] := by
  have none : w.abandonments = [] := List.eq_nil_of_length_eq_zero (h.abandoned.symm.trans kept)
  refine List.eq_nil_iff_forall_not_mem.mpr fun event mem => ?_
  have given := World.mem_abandonments mem
  rw [none] at given
  exact absurd given (by simp)

theorem World.backlog_of_drained (drained : w.engine.tracker.summary.pendingDeliveries = 0)
    (rule : RuleId) : w.backlog rule = [] := by
  by_cases tracked : rule ∈ w.engine.tracker.ruleIds
  · rw [w.pendingDeliveries_summary, List.length_eq_zero_iff, World.waiting, List.flatMap_eq_nil_iff]
      at drained
    exact drained rule tracked
  · rw [World.backlog, (World.account_of_untracked tracked).1]
    rfl

/-- On a new engine and an empty store, and however calls, answers and outages are interleaved: once all
calls have come to their end, and as long as nothing was given up, the events that wait for a rule lead
from the alerts that are open in storage to the one that is tracked. -/
theorem Scene.storage_meets_memory {w : World} {s : Scene} (begins : w.Begins)
    (empty : w.sink.store.alerts = ∅) (distinct : Injective w.ids.value)
    (run : Scene.Run (Call.Admitted .serving) World.Apart { world := w } s) (finished : s.AllFinished)
    (kept : s.world.engine.stats.deadLettered = 0) :
    (∀ rule id, (s.world.sink.store.receiveAll (s.world.backlog rule)).OpenOf rule id ↔
        s.world.openAlert rule = some id) ∧
      (s.world.engine.tracker.summary.pendingDeliveries = 0 →
        ∀ rule id, s.world.sink.store.OpenOf rule id ↔ s.world.openAlert rule = some id) := by
  obtain ⟨st, holders, sound⟩ := (Scene.sound_begins begins ⟨begins.filed empty, begins.accounted⟩).run
    ((kept_filed distinct).and (kept_accounted .serving)) (bears_filed.and bears_accounted.apart) run
    (by simp)
  have property := sound.property
  rw [sound.nobody finished] at property
  obtain ⟨filed, accounted⟩ := property
  have booked : s.world.Booked 0 := accounted.booked "" fun _ _ => rfl
  have meets (rule : RuleId) (id : AlertId) :
      (s.world.sink.store.receiveAll (s.world.backlog rule)).OpenOf rule id ↔
        s.world.openAlert rule = some id :=
    filed.leads (booked.nothing_abandoned kept rule)
  refine ⟨meets, fun drained rule id => ?_⟩
  rw [← meets, World.backlog_of_drained drained]
  rfl

/-- After the outage the end of the first alert and the opening of the next one wait; they arrive. -/
theorem Scene.storage_meets_memory_after_outage :
    let s := (Scene.cutOff.retryLater).backAgain
    ((s.world.backlog "high-load").length = 2 ∧
        (s.world.sink.store.receiveAll (s.world.backlog "high-load")).OpenOf "high-load" "a") ∧
      s.retryLater.world.engine.tracker.summary.pendingDeliveries = 0 ∧
        s.retryLater.world.sink.store.OpenOf "high-load" "a" := by
  intro s
  have run : Scene.Run (Call.Admitted .serving) World.Apart { world := .impatient } s :=
    (Scene.run_cutOff 1).mono World.Outage.apart
  have run' : Scene.Run (Call.Admitted .serving) World.Apart { world := .impatient } s.retryLater :=
    run.trans ((Scene.run_retryLater s).mono World.Outage.apart)
  have drained : s.retryLater.world.engine.tracker.summary.pendingDeliveries = 0 := by decide +kernel
  obtain ⟨meets, -⟩ := Scene.storage_meets_memory (World.begins_watched _ _) rfl
    (World.injective_watched _ _) run (Scene.allFinished_of_results (by decide +kernel)) (by decide +kernel)
  obtain ⟨-, agrees⟩ := Scene.storage_meets_memory (World.begins_watched _ _) rfl
    (World.injective_watched _ _) run' (Scene.allFinished_of_results (by decide +kernel)) (by decide +kernel)
  exact ⟨⟨by decide +kernel, (meets _ _).mpr (by decide +kernel)⟩, drained,
    (agrees drained _ _).mpr (by decide +kernel)⟩

end ThresholdAlerts
