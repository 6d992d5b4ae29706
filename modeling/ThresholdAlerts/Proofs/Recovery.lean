import ThresholdAlerts.Proofs.Alone
import ThresholdAlerts.Proofs.Alternation
import ThresholdAlerts.Proofs.Programs
import ThresholdAlerts.Proofs.Records
/-! The recovery, run alone. It loads the rules, seeds the rules that have an open alert in storage and then
sweeps through all open alerts of storage. Main statement: what it does to the view of the world, alert by
alert. -/
namespace ThresholdAlerts

open Function

/-! ### The parts of the view that a recovery touches -/

/-- What is left of a holding once a stray alert of its rule was seen to; the slot of a rule that is not
enabled goes with its last delivery. -/
def Holding.swept (h : Holding) (enabled : Bool) (outbox : Outbox) : Option Holding :=
  if enabled then some { h with outbox, retired := false }
  else if outbox = [] then none
  else some { h with outbox, retired := true }

namespace View

variable {v : View} {rule : RuleId}

def seed (v : View) (rule : RuleId) (alertId : AlertId) : Holding :=
  { v.holding rule with retired := false }.seed rule alertId

/-- The view once some rules were seeded with what was found for them. -/
def seeded (v : View) (rules : List RuleId) (look : RuleId → Option Alert) : View :=
  { v with
    held := fun rule =>
      if rule ∈ rules then (look rule).elim (v.held rule) fun alert => some (v.seed rule alert.id)
      else v.held rule }

theorem seeded_congr {rules rules' : List RuleId} (same : ∀ rule, rule ∈ rules ↔ rule ∈ rules')
    (look : RuleId → Option Alert) : v.seeded rules look = v.seeded rules' look := by
  simp only [seeded, same]

@[simp] theorem seeded_nil (look : RuleId → Option Alert) : v.seeded [] look = v := by
  simp [seeded]

theorem seeded_cons_none {rules : List RuleId} {look : RuleId → Option Alert} (none : look rule = none) :
    v.seeded (rule :: rules) look = v.seeded rules look := by
  have held : (v.seeded (rule :: rules) look).held = (v.seeded rules look).held := by
    funext rule'
    by_cases same : rule' = rule
    · subst same
      simp [seeded, none]
    · simp [seeded, same]
  exact congrArg (fun held => { v with held }) held

theorem seeded_cons_some {rules : List RuleId} {look : RuleId → Option Alert} {alert : Alert}
    (absent : rule ∉ rules) (found : look rule = some alert) :
    v.seeded (rule :: rules) look = (v.put rule (some (v.seed rule alert.id))).seeded rules look := by
  have held : (v.seeded (rule :: rules) look).held =
      ((v.put rule (some (v.seed rule alert.id))).seeded rules look).held := by
    funext rule'
    by_cases same : rule' = rule
    · subst same
      simp [seeded, absent, found, put]
    · simp [seeded, same, held_put_other, seed, holding_put_other]
  exact congrArg (fun held => { v with held }) held

end View

def RecoveryReport.sweep (r : RecoveryReport) (enabled : Bool) : RecoveryReport :=
  if enabled then { r with superseded := r.superseded + 1 } else { r with orphaned := r.orphaned + 1 }

/-- What becomes of the view with one open alert of storage. -/
inductive View.Sweep (snapshot : RuleSnapshot) (alert : Alert) :
    View → RecoveryReport → View → RecoveryReport → Prop where
  /-- It is the tracked one. -/
  | tracked {v r} (same : v.openAlert alert.ruleId = some alert.id) : Sweep snapshot alert v r v r
  /-- It is closed at once. -/
  | closed {v r} (time : Timestamp) (stray : v.openAlert alert.ruleId ≠ some alert.id)
      (idle : v.outbox alert.ruleId = []) :
      Sweep snapshot alert v r
        { v.put alert.ruleId ((v.holding alert.ruleId).swept (snapshot.contains alert.ruleId) []) with
          store := (v.store.resolve alert.id time).1 }
        (r.sweep (snapshot.contains alert.ruleId))
  /-- Its end waits behind the events of its rule that wait already. -/
  | queued {v r} (outbox : Outbox) (stray : v.openAlert alert.ruleId ≠ some alert.id)
      (busy : v.outbox alert.ruleId ≠ [])
      (grows : ∀ d ∈ outbox, d ∈ v.outbox alert.ruleId ∨ d.event.closing? = some alert.id) :
      Sweep snapshot alert v r
        (v.put alert.ruleId ((v.holding alert.ruleId).swept (snapshot.contains alert.ruleId) outbox))
        (r.sweep (snapshot.contains alert.ruleId))

/-- What becomes of the view with one alert after the other. -/
inductive View.Sweeps (snapshot : RuleSnapshot) :
    List Alert → View → RecoveryReport → View → RecoveryReport → Prop where
  | nil {v r} : Sweeps snapshot [] v r v r
  | cons {alert rest v r v₁ r₁ v₂ r₂} (first : View.Sweep snapshot alert v r v₁ r₁)
      (later : Sweeps snapshot rest v₁ r₁ v₂ r₂) : Sweeps snapshot (alert :: rest) v r v₂ r₂

theorem Outbox.mem_enqueue {outbox : Outbox} {event : Event} {now : Duration} {d : Delivery}
    (mem : d ∈ (outbox.enqueue event now).1) : d ∈ outbox ∨ d.event = event := by
  rw [enqueue] at mem
  split at mem
  · exact .inl (List.dropLast_subset _ mem)
  · split at mem
    · exact .inl mem
    · rcases List.mem_append.mp mem with old | new
      · exact .inl old
      · rw [List.mem_singleton.mp new]
        exact .inr rfl

namespace AlertStore

variable {s : AlertStore}

theorem findOpen_of_available (available : s.unavailable = false) :
    s.findOpen = fun rule => .ok (s.newestOpen? rule) := by
  funext rule
  rw [findOpen, checkAvailable_of_available available]
  rfl

theorem findOpen_of_unavailable (down : s.unavailable = true) :
    s.findOpen = fun _ => .error (.unavailable "memory alert store marked unavailable") := by
  funext rule
  rw [findOpen, checkAvailable_of_unavailable down]
  rfl

theorem findAllOpen_of_available (available : s.unavailable = false) : s.findAllOpen = .ok s.openAlerts := by
  rw [findAllOpen, checkAvailable_of_available available]
  rfl

theorem findAllOpen_of_unavailable (down : s.unavailable = true) :
    s.findAllOpen = .error (.unavailable "memory alert store marked unavailable") := by
  rw [findAllOpen, checkAvailable_of_unavailable down]
  rfl

theorem findOpen_cases (s : AlertStore) (rule : RuleId) :
    s.unavailable = false ∧ s.findOpen rule = .ok (s.newestOpen? rule) ∨
      s.unavailable = true ∧ ∃ e, s.findOpen rule = .error e := by
  cases down : s.unavailable with
  | false => exact .inl ⟨rfl, congrFun (findOpen_of_available down) rule⟩
  | true => exact .inr ⟨rfl, _, congrFun (findOpen_of_unavailable down) rule⟩

theorem findAllOpen_cases (s : AlertStore) :
    s.unavailable = false ∧ s.findAllOpen = .ok s.openAlerts ∨
      s.unavailable = true ∧ ∃ e, s.findAllOpen = .error e := by
  cases down : s.unavailable with
  | false => exact .inl ⟨rfl, findAllOpen_of_available down⟩
  | true => exact .inr ⟨rfl, _, findAllOpen_of_unavailable down⟩

/-- A record is kept under its id. -/
def Keyed (s : AlertStore) : Prop :=
  ∀ {id alert}, s.get? id = some alert → alert.id = id

theorem keyed_iff : s.Keyed ↔ ∀ binding ∈ s.alerts.toList, binding.2.id = binding.1 :=
  ⟨fun keyed _ mem => keyed (Std.TreeMap.mem_toList_iff_getElem?_eq_some.mp mem),
    fun named id alert there => named (id, alert) (Std.TreeMap.mem_toList_iff_getElem?_eq_some.mpr there)⟩

instance (s : AlertStore) : Decidable s.Keyed :=
  decidable_of_iff _ keyed_iff.symm

theorem Keyed.insert (keyed : s.Keyed) (alert : Alert) : (s.insert alert).Keyed := by
  intro id record there
  rw [get?_insert] at there
  split at there
  · next same => rw [← Option.some.inj there, same]
  · exact keyed there

/-- However alerts are put in from outside, each is kept under its id. -/
theorem Keyed.foldl_insert (keyed : s.Keyed) (alerts : List Alert) : (alerts.foldl AlertStore.insert s).Keyed := by
  induction alerts generalizing s with
  | nil => exact keyed
  | cons alert rest ih => exact ih (keyed.insert alert)

theorem keyed_empty : ({} : AlertStore).Keyed :=
  fun there => absurd there (by simp [get?])

theorem Keyed.changes {event : Event} {ok : Prop} {s' : AlertStore} (keyed : s.Keyed)
    (changes : s.Changes event ok s') : s'.Keyed := by
  intro id record there
  rcases changes.records there with ⟨before, here, -, same, -⟩ | ⟨-, named⟩
  · rw [same]
    exact keyed here
  · exact named

theorem mem_openAlerts {alert : Alert} :
    alert ∈ s.openAlerts ↔ (∃ id, s.get? id = some alert) ∧ alert.isOpen = true := by
  rw [openAlerts, List.mem_filter, all, List.mem_mergeSort, mem_values]
  rfl

theorem Keyed.mem_openAlerts (keyed : s.Keyed) {alert : Alert} :
    alert ∈ s.openAlerts ↔ s.get? alert.id = some alert ∧ alert.isOpen = true := by
  rw [AlertStore.mem_openAlerts]
  refine and_congr_left fun _ => ⟨fun ⟨id, there⟩ => ?_, fun there => ⟨_, there⟩⟩
  rw [keyed there, there]

/-- A store that can be reached and holds a record for each of some alerts. -/
structure Keeps (s : AlertStore) (alerts : List Alert) : Prop where
  available : s.unavailable = false
  stored : ∀ alert ∈ alerts, ∃ record, s.get? alert.id = some record

theorem Keeps.resolve {alerts : List Alert} (keeps : s.Keeps alerts)
    (id : AlertId) (time : Timestamp) : (s.resolve id time).1.Keeps alerts := by
  obtain ⟨available, stored⟩ := keeps
  cases here : s.get? id with
  | none =>
    rw [resolve_of_absent available here]
    exact ⟨available, stored⟩
  | some record =>
    rw [resolve_of_stored available here]
    refine ⟨available, fun alert mem => ?_⟩
    obtain ⟨old, there⟩ := stored alert mem
    rw [get?_close]
    split
    · exact ⟨_, rfl⟩
    · exact ⟨old, there⟩

theorem Keyed.keeps (keyed : s.Keyed) (available : s.unavailable = false) : s.Keeps s.openAlerts :=
  ⟨available, fun _ mem => ⟨_, (keyed.mem_openAlerts.mp mem).1⟩⟩

end AlertStore

def RuleSnapshot.ids (s : RuleSnapshot) : List RuleId :=
  s.rules.map (·.id)

theorem RuleSnapshot.Sound.ids_eq {s : RuleSnapshot} (sound : s.Sound) : s.ids = s.byId.keys := by
  rw [RuleSnapshot.ids, RuleSnapshot.rules, values_eq_toList, ← Std.TreeMap.map_fst_toList_eq_keys, List.map_map]
  refine List.map_congr_left fun binding mem => ?_
  obtain ⟨id, rule⟩ := binding
  exact sound.named (Std.TreeMap.mem_toList_iff_getElem?_eq_some.mp mem)

theorem RuleSnapshot.Sound.nodup_ids {s : RuleSnapshot} (sound : s.Sound) : s.ids.Nodup := by
  rw [sound.ids_eq]
  exact Std.TreeMap.nodup_keys

theorem RuleSnapshot.Sound.mem_ids {s : RuleSnapshot} (sound : s.Sound) {rule : RuleId} :
    rule ∈ s.ids ↔ s.contains rule = true := by
  rw [sound.ids_eq, Std.TreeMap.mem_keys]
  rfl

theorem World.perm_listed (w : World) (s : RuleSnapshot) : (w.listed s).Perm s.ids :=
  w.mapOrder.perm ..

theorem RuleSnapshot.Sound.mem_listed {s : RuleSnapshot} (sound : s.Sound) {w : World} {rule : RuleId} :
    rule ∈ w.listed s ↔ s.contains rule = true := by
  rw [(w.perm_listed s).mem_iff, sound.mem_ids]

/-! ### Steps of a recovery -/

namespace World

variable {w : World} {rule : RuleId} {id : SlotId}

theorem calm_queueBehind (calm : w.Calm) (found : w.engine.tracker.find? rule = some id) (event : Event) :
    (w.queueBehind id event).Calm ∧ (w.queueBehind id event).engine.tracker.find? rule = some id ∧
    (w.queueBehind id event).view = w.view.put rule
      (some { w.view.holding rule with outbox := ((w.view.outbox rule).enqueue event w.clock).1 }) := by
  let outbox := ((w.slot id).outbox.enqueue event w.clock).1
  obtain ⟨tracker, rest⟩ : (w.queueBehind id event).engine.tracker =
      (w.engine.tracker.setOutbox id outbox).markBacklogged event.ruleId ∧
      (w.queueBehind id event).sink = w.sink ∧ (w.queueBehind id event).engine.rules = w.engine.rules ∧
      (w.queueBehind id event).engine.sinkTimeout = w.engine.sinkTimeout := by
    simp only [queueBehind, outbox]
    generalize (w.slot id).outbox.enqueue event w.clock = result
    obtain ⟨outbox, kind⟩ := result
    cases kind <;> exact ⟨rfl, rfl, rfl, rfl⟩
  have rewrites : w.engine.tracker.Rewrites id
      ((w.engine.tracker.setOutbox id outbox).markBacklogged event.ruleId) :=
    (Tracker.rewrites_setOutbox _ id outbox).trans (rewrites_markBacklogged _ id _)
  have held : (w.engine.tracker.setOutbox id outbox).held =
      update w.view.held rule (some { w.view.holding rule with outbox }) := by
    rw [Tracker.setOutbox, Tracker.held_update calm.coherent found, ← slot_holding found]
    rfl
  refine ⟨⟨?_, ?_⟩, ?_, ?_⟩
  · rw [tracker]
    exact rewrites.coherent calm.coherent (calm.coherent.get found)
  · rw [rest.1, rest.2.2]
    exact calm.closes
  · rw [tracker]
    exact found
  · have whole : (w.queueBehind id event).view = { w.view with
        held := (w.engine.tracker.setOutbox id outbox).held } := by
      rw [view, tracker, rest.1, rest.2.1]
      rfl
    rw [whole, held, ← outbox_eq found]
    rfl

/-- A rule is seeded under its slot, which is let go of. -/
theorem silent_seed (coherent : w.engine.tracker.Coherent) (found : w.engine.tracker.find? rule = some id)
    (alertId : AlertId) :
    let w' := (w.onTracker fun _ => (w.engine.tracker.seed id alertId).1).leave id
    w.Silent w' ∧ w'.view = w.view.put rule (some ((w.view.holding rule).seed rule alertId)) := by
  intro w'
  have holding := slot_holding found
  have here : w.view.held rule = some (w.view.holding rule) := by
    rw [← holding]
    exact Tracker.held_of_find found
  cases isOpen : (w.slot id).state.isOpen with
  | true =>
    have same := Tracker.seed_of_open alertId isOpen
    have kept : (w.view.holding rule).seed rule alertId = w.view.holding rule := by
      rw [← holding]
      exact if_pos isOpen
    have whole : w' = w.leave id := by
      simp only [w', same]
      rfl
    rw [whole, kept, ← here, View.put_same]
    exact silent_leave coherent found
  | false =>
    have same : (w.engine.tracker.seed id alertId).1 =
        w.engine.tracker.update id fun s => { s with state := .recovered rule alertId } :=
      congrArg Prod.fst (coherent.seed_of_shut found alertId isOpen)
    obtain ⟨silent₁, found₁, view₁⟩ := silent_rewrite (f := fun _ => (w.engine.tracker.seed id alertId).1) coherent
      found same (Tracker.rewrites_setState (coherent.stateRuleId found).symm)
    obtain ⟨silent₂, view₂⟩ := silent_leave silent₁.coherent found₁
    refine ⟨silent₁.trans silent₂, view₂.trans (view₁.trans ?_)⟩
    have opened : (w.view.holding rule).seed rule alertId =
        { w.view.holding rule with state := .recovered rule alertId } := by
      rw [← holding]
      exact if_neg (by rw [Slot.holding, isOpen]; exact Bool.false_ne_true)
    rw [opened, ← holding]
    rfl

theorem silent_retire (coherent : w.engine.tracker.Coherent) (found : w.engine.tracker.find? rule = some id) :
    w.Silent ((w.onTracker (·.retire id)).release id) ∧
    ((w.onTracker (·.retire id)).release id).view = w.view.put rule
      (if w.view.outbox rule = [] then none else some { w.view.holding rule with retired := true }) := by
  obtain ⟨silent₁, found₁, view₁⟩ := silent_rewrite (f := (·.retire id)) coherent found rfl
    (Tracker.rewrites_retire w.engine.tracker id)
  obtain ⟨silent₂, view₂⟩ := silent_release silent₁.coherent found₁
  have slot : (w.onTracker (·.retire id)).slot id = { w.slot id with retired := true } :=
    Tracker.slot_update _ id _
  refine ⟨silent₁.trans silent₂, view₂.trans ?_⟩
  rw [slot, view₁, ← slot_holding found, ← outbox_eq found]
  simp only [true_and]
  split
  · rw [View.put_put]
  · rfl

theorem silent_claimGeneration (coherent : w.engine.tracker.Coherent) (generation : Nat) :
    w.Silent (w.claimGeneration generation).1 ∧ (w.claimGeneration generation).1.view = w.view := by
  rw [claimGeneration]
  split <;> exact ⟨.of_engine coherent rfl rfl rfl (Nat.le_refl _) rfl, rfl⟩

end World

theorem Request.looked_findOpen {w : World} (coherent : w.engine.tracker.Coherent) (rules : List RuleId) :
    ∀ p ∈ rules.zip ((Request.findOpen rules).complete w).2,
      p.2 = .ok (w.view.store.newestOpen? p.1) ∨ ¬ w.sink.Answers ∧ ∃ e, p.2 = .error e := by
  intro p mem
  obtain ⟨-, -, -, answers⟩ := Request.complete_findOpen coherent rules
  rcases answers p mem with same | fails
  · rw [same]
    rcases w.sink.store.findOpen_cases p.1 with ⟨-, ok⟩ | ⟨down, fails⟩
    · exact .inl ok
    · exact .inr ⟨fun answers => absurd (answers.available.symm.trans down) Bool.false_ne_true, fails⟩
  · exact .inr fails

theorem Request.listed_findAll {w : World} (coherent : w.engine.tracker.Coherent) :
    w.view.store.unavailable = false ∧ (Request.findAll.complete w).2 = .ok w.view.store.openAlerts ∨
      ¬ w.sink.Answers ∧ ∃ e, (Request.findAll.complete w).2 = .error e := by
  obtain ⟨-, -, same | fails⟩ := Request.complete_findAll coherent
  · rw [same]
    rcases w.sink.store.findAllOpen_cases with ok | ⟨down, fails⟩
    · exact .inl ok
    · exact .inr ⟨fun answers => absurd (answers.available.symm.trans down) Bool.false_ne_true, fails⟩
  · exact .inr fails

/-! ### The programs -/

section Programs

variable {T : Type} {task : T → World → World × List Event} {w : World} {rule : RuleId}

theorem after_refreshRules {post : Except SourceError RuleSnapshot → World → Prop}
    (coherent : w.engine.tracker.Coherent)
    (failed : ∀ e w', w.source.fetch = .error e → w.Silent w' → w'.view = w.view → post (.error e) w')
    (loaded : ∀ rules time w', w.source.fetch = .ok rules → w.Silent w' →
      w'.view = { w.view with
        snapshot := RuleSnapshot.build rules (w.view.snapshot.generation + 1) time } →
      post (.ok w'.view.snapshot) w') :
    (refreshRules : Prog T _).After task w post := by
  obtain ⟨silent₁, view₁, source₁⟩ := Request.complete_refreshTurn coherent
  refine Prog.after_request (Prog.after_bind (Prog.after_modify (Prog.after_request ?_)))
  generalize (Request.refreshTurn.complete w).1 = w₁ at *
  have silent₂ : w₁.Silent (w₁.onRules (·.beginFetch)) :=
    .of_engine silent₁.coherent rfl rfl rfl (Nat.le_refl _) rfl
  obtain ⟨silent₃, view₃, answer⟩ := Request.complete_fetch silent₂.coherent
  have source₂ : (w₁.onRules (·.beginFetch)).source.fetch = w.source.fetch := congrArg _ source₁
  generalize Request.fetch.complete (w₁.onRules (·.beginFetch)) = result at *
  obtain ⟨w₃, answer'⟩ := result
  obtain rfl : answer' = w.source.fetch := answer.trans source₂
  dsimp only at silent₃ view₃
  have so_far : w.Silent w₃ := (silent₁.trans silent₂).trans silent₃
  have same : w₃.view = w.view := view₃.trans view₁
  cases fetched : w.source.fetch with
  | error e =>
    refine Prog.after_modify (Prog.after_pure (Prog.after_modify (Prog.after_pure ?_)))
    refine failed e _ fetched (so_far.trans ?_) same
    exact .of_engine so_far.coherent rfl rfl rfl (Nat.le_refl _) rfl
  | ok rules =>
    refine Prog.after_step (Prog.after_pure (Prog.after_modify (Prog.after_pure ?_)))
    have view : (w₃.loadRules rules).1.endTurn.view = { w.view with
        snapshot := RuleSnapshot.build rules (w.view.snapshot.generation + 1) w₃.readCalendar.2 } := by
      rw [← same]
      rfl
    refine loaded rules _ (w₃.loadRules rules).1.endTurn fetched (so_far.trans ?_) view
    exact .of_engine so_far.coherent rfl rfl rfl (Nat.le_refl _) rfl

/-- The rules are seeded one after the other with what was found for them, up to the first look-up that failed. -/
theorem after_seedRules {post : Except SinkError RecoveryReport → World → Prop} {fails : Prop}
    (coherent : w.engine.tracker.Coherent) {found : List (RuleId × Except SinkError (Option Alert))}
    (distinct : (found.map Prod.fst).Nodup) (look : RuleId → Option Alert)
    (looked : ∀ p ∈ found, p.2 = .ok (look p.1) ∨ fails ∧ ∃ e, p.2 = .error e) (report : RecoveryReport)
    (failed : ∀ e rules w', fails → rules <+: found.map Prod.fst → w.Silent w' →
      w'.view = w.view.seeded rules look → post (.error e) w')
    (goes : ∀ w', w.Silent w' → w'.view = w.view.seeded (found.map Prod.fst) look →
      post (.ok { report with
        seeded := report.seeded +
          (found.map Prod.fst).countP fun rule => (look rule).isSome && !(w.view.openAlert rule).isSome }) w') :
    (seedRules found report : Prog T _).After task w post := by
  induction found generalizing w report with
  | nil => exact goes w (.refl coherent) (View.seeded_nil look).symm
  | cons p rest ih =>
    obtain ⟨rule, answer⟩ := p
    rw [List.map_cons] at distinct failed goes
    obtain ⟨absent, apart⟩ := List.nodup_cons.mp distinct
    obtain ⟨here, later⟩ := List.forall_mem_cons.mp looked
    dsimp only at absent failed goes here
    rcases here with rfl | ⟨fail, e, rfl⟩
    · cases found : look rule with
      | none =>
        refine ih coherent apart later report (fun e rules w' fail started silent' view' => ?_)
          fun w' silent' view' => ?_
        · exact failed e (rule :: rules) w' fail (List.prefix_cons_inj rule |>.mpr started) silent'
            (view'.trans (View.seeded_cons_none found).symm)
        · have here := goes w' silent' (view'.trans (View.seeded_cons_none found).symm)
          simpa [List.countP_cons, found] using here
      | some alert =>
        obtain ⟨silent₁, found₁, view₁⟩ := Request.complete_slot coherent rule
        refine Prog.after_request (Prog.after_step ?_)
        generalize (Request.slot rule).complete w = made at *
        obtain ⟨w₁, id⟩ := made
        dsimp only at silent₁ found₁ view₁ ⊢
        obtain ⟨silent₂, view₂⟩ := World.silent_seed silent₁.coherent found₁ alert.id
        rw [view₁, View.holding_put, View.put_put] at view₂
        have isNew : (w₁.engine.tracker.seed id alert.id).2 = !(w.view.openAlert rule).isSome := by
          have holding := World.slot_holding found₁
          rw [view₁, View.holding_put] at holding
          rw [Tracker.seed_snd, View.openAlert]
          exact congrArg (fun h : Holding => !h.state.isOpen) holding
        have others : (rest.map Prod.fst).countP (fun r => (look r).isSome && !((w.view.put rule
              (some (w.view.seed rule alert.id))).openAlert r).isSome) =
            (rest.map Prod.fst).countP fun r => (look r).isSome && !(w.view.openAlert r).isSome :=
          List.countP_congr fun r mem => by
            have other : r ≠ rule := by
              rintro rfl
              exact absent mem
            rw [View.openAlert_put_other _ _ other]
        rw [isNew]
        refine ih silent₂.coherent apart later _ (fun e rules w' fail started silent' view' => ?_)
          fun w' silent' view' => ?_
        · rw [view₂] at view'
          have fresh : rule ∉ rules := fun mem => absent (started.subset mem)
          exact failed e (rule :: rules) w' fail (List.prefix_cons_inj rule |>.mpr started)
            ((silent₁.trans silent₂).trans silent') (view'.trans (View.seeded_cons_some fresh found).symm)
        · rw [view₂] at view' ⊢
          have here := goes w' ((silent₁.trans silent₂).trans silent')
            (view'.trans (View.seeded_cons_some absent found).symm)
          rw [List.countP_cons, found] at here
          rw [show ({ w.view.holding rule with retired := false } : Holding).seed rule alert.id =
            w.view.seed rule alert.id from rfl, others]
          cases isOpen : (w.view.openAlert rule).isSome with
          | true => simpa [isOpen] using here
          | false => simpa [isOpen, Nat.add_assoc, Nat.add_comm 1] using here
    · exact failed e [] w fail (List.nil_prefix) (.refl coherent) (View.seeded_nil look).symm

theorem after_trackedAlert {post : Option AlertId → World → Prop} (coherent : w.engine.tracker.Coherent)
    (rule : RuleId)
    (goes : ∀ w', w.Silent w' → w'.view = w.view → post (w.view.openAlert rule) w') :
    (trackedAlert rule : Prog T _).After task w post := by
  obtain ⟨silent₁, view₁, answer, stays, -⟩ := Request.complete_existingSlot coherent rule
  refine Prog.after_request ?_
  generalize (Request.existingSlot rule).complete w = asked at *
  obtain ⟨w₁, slot?⟩ := asked
  obtain rfl : slot? = w.engine.tracker.find? rule := answer
  cases found : w.engine.tracker.find? rule with
  | none =>
    have untracked : w.view.openAlert rule = none := by
      rw [View.openAlert, View.holding, show w.view.held rule = none from Tracker.held_of_absent found]
      rfl
    have here := goes w₁ silent₁ view₁
    rw [untracked] at here
    exact here
  | some id =>
    obtain ⟨silent₂, view₂⟩ := World.silent_leave silent₁.coherent (stays.trans found)
    have tracked : (w₁.slot id).state.openAlertId = w.view.openAlert rule := by
      rw [View.openAlert, ← view₁, ← World.slot_holding (stays.trans found)]
      rfl
    have here := goes (w₁.leave id) (silent₁.trans silent₂) (view₂.trans view₁)
    rw [← tracked] at here
    exact here

/-- The slot of a stray alert is let go of, for good if the rule is not enabled and nothing waits. -/
theorem after_letGo {post : Unit → World → Prop} {slot : SlotId} (coherent : w.engine.tracker.Coherent)
    (found : w.engine.tracker.find? rule = some slot) (kept : (w.view.holding rule).retired = false)
    (enabled : Bool)
    (goes : ∀ w', w.Silent w' →
      w'.view = w.view.put rule ((w.view.holding rule).swept enabled (w.view.outbox rule)) → post () w') :
    (if !enabled then Prog.modify fun w => (w.onTracker (·.retire slot)).release slot
      else Prog.modify (·.leave slot) : Prog T Unit).After task w post := by
  cases enabled with
  | true =>
    obtain ⟨silent', view'⟩ := World.silent_leave coherent found
    refine goes _ silent' (view'.trans ?_)
    have here : w.view.held rule = some (w.view.holding rule) := by
      rw [← World.slot_holding found]
      exact Tracker.held_of_find found
    have same : (w.view.holding rule).swept true (w.view.outbox rule) = w.view.held rule := by
      rw [here, Holding.swept, if_pos rfl, ← kept]
      rfl
    rw [same, View.put_same]
  | false =>
    obtain ⟨silent', view'⟩ := World.silent_retire coherent found
    refine goes _ silent' (view'.trans ?_)
    rw [Holding.swept, if_neg Bool.false_ne_true]
    rfl

/-- The end of an alert under its slot: the alert is closed, or its end waits behind the events that wait already. -/
theorem after_dispatch_resolved {post : Unit → World → Prop} {slot : SlotId} (calm : w.Calm)
    (found : w.engine.tracker.find? rule = some slot) (available : w.view.store.unavailable = false) {id : AlertId}
    {record : Alert} (stored : w.view.store.get? id = some record) (time : Timestamp) (reason : ResolveReason)
    (closed : ∀ w', w.view.outbox rule = [] → w'.Calm → w'.engine.tracker.find? rule = some slot →
      w'.view = { w.view with store := (w.view.store.resolve id time).1 } → post () w')
    (queued : ∀ outbox w', w.view.outbox rule ≠ [] →
      (∀ d ∈ outbox, d ∈ w.view.outbox rule ∨ d.event.closing? = some id) → w'.Calm →
      w'.engine.tracker.find? rule = some slot →
      w'.view = w.view.put rule (some { w.view.holding rule with outbox }) → post () w') :
    (dispatch slot (.resolved id rule time reason) : Prog T _).After task w post := by
  let event : Event := .resolved id rule time reason
  have calm₁ : (w.hand event).Calm := ⟨calm.coherent, calm.closes⟩
  have outbox₁ : ((w.hand event).slot slot).outbox = w.view.outbox rule := World.outbox_eq (w := w.hand event) found
  refine Prog.after_modify (Prog.after_read ?_)
  cases idle : ((w.hand event).slot slot).outbox.isEmpty with
  | true =>
    obtain ⟨calm₂, view₂, tracker₂, answer⟩ := Request.complete_deliver_resolved calm₁ id rule time reason
    have accepted := congrArg Prod.snd (AlertStore.resolve_of_stored available stored time)
    refine Prog.after_request ?_
    generalize (Request.deliver (.resolved id rule time reason)).complete _ = sent at *
    obtain ⟨w₂, answer'⟩ := sent
    obtain rfl : answer' = .ok () := answer.trans accepted
    rw [outbox₁, List.isEmpty_iff] at idle
    exact closed w₂ idle calm₂ ((congrArg (·.find? rule) tracker₂).trans found) view₂
  | false =>
    obtain ⟨calm₂, found₂, view₂⟩ := World.calm_queueBehind calm₁ found event
    rw [outbox₁, List.isEmpty_eq_false_iff] at idle
    refine queued _ _ idle (fun d mem => ?_) calm₂ found₂ view₂
    exact (Outbox.mem_enqueue mem).imp_right fun same => congrArg Event.closing? same

/-- A stray alert is closed, or its end waits behind the events that wait already. -/
theorem after_resolveStray {post : Unit → World → Prop} (calm : w.Calm) (alert : Alert)
    (available : w.view.store.unavailable = false) {record : Alert}
    (stored : w.view.store.get? alert.id = some record) (enabled : Bool)
    (closed : ∀ time w', w.view.outbox alert.ruleId = [] → w'.Calm →
      w'.view = { w.view.put alert.ruleId ((w.view.holding alert.ruleId).swept enabled []) with
        store := (w.view.store.resolve alert.id time).1 } → post () w')
    (queued : ∀ outbox w', w.view.outbox alert.ruleId ≠ [] →
      (∀ d ∈ outbox, d ∈ w.view.outbox alert.ruleId ∨ d.event.closing? = some alert.id) → w'.Calm →
      w'.view = w.view.put alert.ruleId ((w.view.holding alert.ruleId).swept enabled outbox) → post () w') :
    (resolveStray alert !enabled : Prog T _).After task w post := by
  refine Prog.after_step (Prog.after_request ?_)
  have calm₁ : w.readCalendar.1.Calm := ⟨calm.coherent, calm.closes⟩
  obtain ⟨silent₂, found₂, view₂⟩ := Request.complete_slot calm₁.coherent alert.ruleId
  generalize (Request.slot alert.ruleId).complete w.readCalendar.1 = made at *
  obtain ⟨w₂, slot⟩ := made
  dsimp only at silent₂ found₂ view₂ ⊢
  replace view₂ : w₂.view =
    w.view.put alert.ruleId (some { w.view.holding alert.ruleId with retired := false }) := view₂
  have store₂ : w₂.view.store = w.view.store := by
    rw [view₂]
    rfl
  have holding₂ : w₂.view.holding alert.ruleId = { w.view.holding alert.ruleId with retired := false } := by
    rw [view₂, View.holding_put]
  have outbox₂ : w₂.view.outbox alert.ruleId = w.view.outbox alert.ruleId := by
    rw [View.outbox, holding₂]
    rfl
  refine Prog.after_bind (after_dispatch_resolved (silent₂.calm calm₁) found₂ (store₂ ▸ available)
    (store₂ ▸ stored) w.readCalendar.2 _ (fun w₃ idle calm₃ found₃ view₃ => ?_)
    fun outbox w₃ busy grows calm₃ found₃ view₃ => ?_)
  · have holding₃ : w₃.view.holding alert.ruleId = w₂.view.holding alert.ruleId := by
      rw [view₃]
      rfl
    refine after_letGo calm₃.coherent found₃ (by rw [holding₃, holding₂]) enabled fun w₄ silent₄ view₄ => ?_
    refine closed w.readCalendar.2 w₄ (outbox₂ ▸ idle) (silent₄.calm calm₃) (view₄.trans ?_)
    have empty : (w.view.holding alert.ruleId).outbox = [] := outbox₂.symm.trans idle
    have left : (w₃.view.holding alert.ruleId).swept enabled (w₃.view.outbox alert.ruleId) =
        (w.view.holding alert.ruleId).swept enabled [] := by
      rw [View.outbox, holding₃, holding₂, empty]
      rfl
    rw [left, view₃, store₂, view₂]
    exact congrArg (fun v : View => { v with store := (w.view.store.resolve alert.id w.readCalendar.2).1 })
      (View.put_put w.view alert.ruleId _ _)
  · rw [holding₂, view₂, View.put_put] at view₃
    have holding₃ := congrArg (·.holding alert.ruleId) view₃
    rw [View.holding_put] at holding₃
    refine after_letGo calm₃.coherent found₃ (by rw [holding₃]) enabled fun w₄ silent₄ view₄ => ?_
    refine queued outbox w₄ (outbox₂ ▸ busy) (outbox₂ ▸ grows) (silent₄.calm calm₃) (view₄.trans ?_)
    rw [View.outbox, holding₃, view₃, View.put_put]
    rfl

/-- All open alerts of storage are seen to, one after the other. -/
theorem after_resolveStrays {post : RecoveryReport → World → Prop} (calm : w.Calm) (snapshot : RuleSnapshot)
    {alerts : List Alert} (keeps : w.view.store.Keeps alerts) (report : RecoveryReport)
    (goes : ∀ report' w', w'.Calm → View.Sweeps snapshot alerts w.view report w'.view report' →
      post report' w') :
    (resolveStrays snapshot alerts report : Prog T _).After task w post := by
  induction alerts generalizing w report with
  | nil => exact goes report w calm .nil
  | cons alert rest ih =>
    have keeps' : w.view.store.Keeps rest :=
      ⟨keeps.available, fun alert mem => keeps.stored alert (List.mem_cons_of_mem _ mem)⟩
    obtain ⟨record, stored⟩ := keeps.stored alert List.mem_cons_self
    refine Prog.after_bind (after_trackedAlert calm.coherent alert.ruleId fun w₁ silent₁ view₁ => ?_)
    have calm₁ := silent₁.calm calm
    by_cases same : w.view.openAlert alert.ruleId = some alert.id
    · rw [if_pos same]
      refine ih calm₁ (view₁ ▸ keeps') report fun report' w' calm' sweeps => ?_
      rw [view₁] at sweeps
      exact goes report' w' calm' (.cons (.tracked same) sweeps)
    · rw [if_neg same]
      have stray : ∀ enabled, snapshot.contains alert.ruleId = enabled →
          (do resolveStray alert !enabled; resolveStrays snapshot rest (report.sweep enabled) :
            Prog T _).After task w₁ post := by
        rintro enabled rfl
        refine Prog.after_bind (after_resolveStray calm₁ alert (view₁ ▸ keeps.available) (view₁ ▸ stored) _
          (fun time w₂ idle calm₂ view₂ => ?_) fun outbox w₂ busy grows calm₂ view₂ => ?_)
        · rw [view₁] at idle view₂
          have keeps₂ : w₂.view.store.Keeps rest := by
            rw [view₂]
            exact keeps'.resolve alert.id time
          refine ih calm₂ keeps₂ _ fun report' w' calm' sweeps => ?_
          rw [view₂] at sweeps
          exact goes report' w' calm' (.cons (.closed time same idle) sweeps)
        · rw [view₁] at busy grows view₂
          have keeps₂ : w₂.view.store.Keeps rest := by
            rw [view₂]
            exact keeps'
          refine ih calm₂ keeps₂ _ fun report' w' calm' sweeps => ?_
          rw [view₂] at sweeps
          exact goes report' w' calm' (.cons (.queued outbox same busy grows) sweeps)
      cases enabled : snapshot.contains alert.ruleId with
      | true => exact stray true enabled
      | false => exact stray false enabled

/-- What a recovery leaves that fails: some of the rules may be seeded already. -/
structure World.Abandons (w w' : World) : Prop where
  silent : w.Silent w'
  trouble : (∃ rules, w.source.fetch = .ok rules) → ¬ w.sink.Answers
  seeded : ∃ snapshot ids, w'.view = { w.view with snapshot }.seeded ids w.view.store.newestOpen? ∧
    (ids = [] ∨ ∃ rules time, w.source.fetch = .ok rules ∧
      snapshot = RuleSnapshot.build rules (w.view.snapshot.generation + 1) time ∧ ids ⊆ snapshot.ids)

/-- A recovery that answers has loaded the rules, seeded what was found open for them, and swept through all
open alerts of storage. One that fails has not come to the sweep. -/
theorem after_recover {post : Except EngineError RecoveryReport → World → Prop} (calm : w.Calm)
    (keyed : w.view.store.Keyed)
    (failed : ∀ e w', w.Abandons w' → post (.error e) w')
    (goes : ∀ rules time report w', w.source.fetch = .ok rules → w.view.store.unavailable = false → w'.Calm →
      let snapshot := RuleSnapshot.build rules (w.view.snapshot.generation + 1) time
      let found := w.view.store.newestOpen?
      View.Sweeps snapshot w.view.store.openAlerts ({ w.view with snapshot }.seeded snapshot.ids found)
        { seeded := snapshot.ids.countP fun rule => (found rule).isSome && !(w.view.openAlert rule).isSome }
        w'.view report →
      post (.ok report) w') :
    (recover : Prog T _).After task w post := by
  refine Prog.after_bind (after_refreshRules calm.coherent (fun e w' fetched silent view => ?_) ?_)
  · refine Prog.after_pure (failed _ _ ⟨silent, fun loads => ?_, w.view.snapshot, [], ?_, .inl rfl⟩)
    · obtain ⟨rules, ok⟩ := loads
      exact absurd (ok.symm.trans fetched) (by simp)
    · rw [View.seeded_nil, view]
  intro rules time w₁ fetched silent₁ view₁
  obtain ⟨silent₂, view₂⟩ := World.silent_claimGeneration silent₁.coherent w₁.view.snapshot.generation
  refine Prog.after_step (Prog.after_read (Prog.after_request ?_))
  generalize (w₁.claimGeneration w₁.view.snapshot.generation).1 = w₂ at *
  let snapshot := RuleSnapshot.build rules (w.view.snapshot.generation + 1) time
  have loaded : w₁.view.snapshot = snapshot := congrArg View.snapshot view₁
  rw [loaded]
  have perm := w₂.perm_listed snapshot
  generalize w₂.listed snapshot = order at perm
  have distinct : order.Nodup := perm.nodup_iff.mpr (RuleSnapshot.sound_build ..).nodup_ids
  obtain ⟨silent₃, view₃, named, -⟩ := Request.complete_findOpen silent₂.coherent order
  have looked := Request.looked_findOpen silent₂.coherent order
  generalize (Request.findOpen order).complete w₂ = found at *
  obtain ⟨w₃, found⟩ := found
  dsimp only at silent₃ view₃ named looked ⊢
  have silent : w.Silent w₃ := (silent₁.trans silent₂).trans silent₃
  have view : w₃.view = { w.view with snapshot } := by
    rw [view₃, view₂, view₁]
  rw [view₂, view₁] at looked
  refine Prog.after_bind (after_seedRules silent₃.coherent (named.symm ▸ distinct) _ looked {}
    (fun e ids w' trouble started silent' view' => ?_) fun w₄ silent₄ view₄ => ?_)
  · rw [named] at started
    rw [view] at view'
    exact Prog.after_pure (failed _ _ ⟨silent.trans silent',
      fun _ answers => trouble ((silent₁.trans silent₂).answers answers), snapshot, ids, view',
      .inr ⟨rules, time, fetched, rfl, List.Subset.trans started.subset perm.subset⟩⟩)
  · rw [named, view, View.seeded_congr fun _ => perm.mem_iff] at view₄
    rw [named, view, perm.countP_eq]
    obtain ⟨silent₅, view₅, -⟩ := Request.complete_findAll silent₄.coherent
    have listed := Request.listed_findAll silent₄.coherent
    rw [view₄] at listed
    refine Prog.after_request ?_
    generalize Request.findAll.complete w₄ = found₅ at *
    obtain ⟨w₅, answer⟩ := found₅
    dsimp only at silent₅ view₅ listed ⊢
    have so_far : w.Silent w₅ := (silent.trans silent₄).trans silent₅
    rcases listed with ⟨available, rfl⟩ | ⟨trouble, e, rfl⟩
    · have keeps : w₅.view.store.Keeps w.view.store.openAlerts := by
        rw [view₅, view₄]
        exact keyed.keeps available
      refine Prog.after_bind (after_resolveStrays (so_far.calm calm) _ keeps _ fun report w₆ calm₆ sweeps => ?_)
      refine Prog.after_pure (goes rules time report w₆ fetched available calm₆ ?_)
      rw [view₅, view₄, Nat.zero_add] at sweeps
      exact sweeps
    · exact Prog.after_pure (failed _ _ ⟨so_far, fun _ answers => trouble ((silent.trans silent₄).answers answers),
        snapshot, snapshot.ids, view₅.trans view₄, .inr ⟨rules, time, fetched, rfl, List.Subset.refl _⟩⟩)

end Programs

/-- What a recovery leaves that comes to its end: it has swept through storage, once the rules were seeded. -/
structure World.Completes (rules : List Rule) (time : Timestamp) (w w' : World) (report : RecoveryReport) :
    Prop where
  fetched : w.source.fetch = .ok rules
  available : w.sink.store.unavailable = false
  calm : w'.Calm
  sweeps :
    let snapshot := RuleSnapshot.build rules (w.view.snapshot.generation + 1) time
    let found := w.sink.store.newestOpen?
    View.Sweeps snapshot w.sink.store.openAlerts ({ w.view with snapshot }.seeded snapshot.ids found)
      { seeded := snapshot.ids.countP fun rule => (found rule).isSome && !(w.view.openAlert rule).isSome }
      w'.view report

/-- A recovery fails, or it comes to its end and answers with its report. -/
theorem World.recover_cases {w : World} (calm : w.Calm) (keyed : w.sink.store.Keyed) :
    (∃ w' e, w.call .recover = (w', .failed e) ∧ w.Abandons w') ∨
      ∃ w' report rules time, w.call .recover = (w', .recovered report) ∧ w.Completes rules time w' report := by
  have ended : (Call.program .recover).After Visit.run w fun reply w' =>
      (∃ e, reply = .failed e ∧ w.Abandons w') ∨
        ∃ report rules time, reply = .recovered report ∧ w.Completes rules time w' report := by
    refine Prog.after_bind (after_recover calm keyed (fun e w' abandons => ?_) ?_)
    · exact Prog.after_pure (.inl ⟨_, rfl, abandons⟩)
    · intro rules time report w' fetched available calm' snapshot found sweeps
      exact Prog.after_pure (.inr ⟨report, rules, time, rfl, fetched, available, calm', sweeps⟩)
  rcases ended with ⟨e, same, abandons⟩ | ⟨report, rules, time, same, completes⟩
  · exact .inl ⟨_, e, Prod.ext rfl same, abandons⟩
  · exact .inr ⟨_, report, rules, time, Prod.ext rfl same, completes⟩

end ThresholdAlerts
