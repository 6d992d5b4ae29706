import Mathlib.Data.List.Dedup
import ThresholdAlerts.Proofs.Outages
import ThresholdAlerts.Proofs.Recovery
/-! A recovery on a new engine, whatever storage holds. Main statement: each enabled rule with open alerts in
storage becomes open with one of those that were opened last, every other open alert is closed, nothing else
changes, and the report counts what was done. -/
namespace ThresholdAlerts

open Function

/-! ### The newest open alert of a rule -/

instance : Std.TransOrd Timestamp :=
  inferInstanceAs (Std.TransCmp (compareLex (compareOn Timestamp.seconds) (compareOn Timestamp.nanos)))

namespace AlertStore

variable {s : AlertStore} {rule : RuleId} {alert other : Alert}

def order : Alert → Alert → Ordering :=
  compareLex (compareOn Alert.openedAt) (compareLex (compareOn Alert.ruleId) (compareOn Alert.id))

instance : Std.TransCmp order :=
  inferInstanceAs (Std.TransCmp (compareLex (compareOn Alert.openedAt)
    (compareLex (compareOn Alert.ruleId) (compareOn Alert.id))))

theorem listed_eq (a b : Alert) : listed a b = (order a b).isLE := rfl

theorem openedAt_le_of_listed (before : listed alert other = true) : alert.openedAt ≤ other.openedAt := by
  change (compare alert.openedAt other.openedAt).isLE = true
  rw [listed] at before
  cases same : compare alert.openedAt other.openedAt with
  | lt => rfl
  | eq => rfl
  | gt => simp [same] at before

theorem pairwise_openAlerts (s : AlertStore) : s.openAlerts.Pairwise fun a b => listed a b = true := by
  refine List.Pairwise.filter _ (List.pairwise_mergeSort (fun a b c => ?_) (fun a b => ?_) _)
  · simp only [listed_eq]
    exact Std.TransCmp.isLE_trans
  · simp only [listed_eq, Bool.or_eq_true]
    have swap : order b a = (order a b).swap := Std.OrientedCmp.eq_swap
    rw [swap]
    cases order a b <;> simp

theorem countP_openAlerts (s : AlertStore) (p : Alert → Bool) :
    s.openAlerts.countP p = s.alerts.values.countP fun alert => p alert && alert.isOpen := by
  rw [openAlerts, List.countP_filter, all, (List.mergeSort_perm ..).countP_eq]

theorem nodup_openAlerts (keyed : s.Keyed) : (s.openAlerts.map Alert.id).Nodup := by
  have ids : s.alerts.values.map Alert.id = s.alerts.keys := by
    rw [values_eq_toList, ← Std.TreeMap.map_fst_toList_eq_keys, List.map_map]
    refine List.map_congr_left fun binding mem => ?_
    obtain ⟨id, alert⟩ := binding
    exact keyed (Std.TreeMap.mem_toList_iff_getElem?_eq_some.mp mem)
  have all : (s.all.map Alert.id).Nodup := by
    refine (((List.mergeSort_perm s.alerts.values listed).map Alert.id).nodup_iff).mpr ?_
    rw [ids]
    exact Std.TreeMap.nodup_keys
  exact all.sublist ((List.filter_sublist).map Alert.id)

/-- No open alert of the rule was opened later than the newest. -/
theorem newestOpen?_eq_some (newest : s.newestOpen? rule = some alert) :
    alert ∈ s.openAlerts ∧ alert.ruleId = rule ∧
      ∀ other ∈ s.openAlerts, other.ruleId = rule → other.openedAt ≤ alert.openedAt := by
  obtain ⟨earlier, split⟩ := List.getLast?_eq_some_iff.mp newest
  have own {other : Alert} : other ∈ s.openAlerts ∧ other.ruleId = rule ↔ other ∈ earlier ++ [alert] := by
    rw [← split, List.mem_filter, decide_eq_true_eq]
  obtain ⟨mem, named⟩ := own.mpr (List.mem_append_right _ List.mem_cons_self)
  refine ⟨mem, named, fun other mem' named' => ?_⟩
  have sorted := (pairwise_openAlerts s).filter fun a => a.ruleId = rule
  rw [split, List.pairwise_append] at sorted
  rcases List.mem_append.mp (own.mp ⟨mem', named'⟩) with before | last
  · exact openedAt_le_of_listed (sorted.2.2 other before alert List.mem_cons_self)
  · rw [List.mem_singleton.mp last]
    exact Std.ReflCmp.isLE_rfl

theorem newestOpen?_isSome : (s.newestOpen? rule).isSome ↔ ∃ alert ∈ s.openAlerts, alert.ruleId = rule := by
  rw [newestOpen?, List.getLast?_isSome, ← List.length_pos_iff_ne_nil]
  simp [List.length_pos_iff_exists_mem, List.mem_filter]

end AlertStore

/-! ### The enabled rules -/

def Rule.EnabledIn (rules : List Rule) (id : RuleId) : Prop :=
  ∃ r ∈ rules, r.enabled = true ∧ r.id = id

instance (rules : List Rule) (id : RuleId) : Decidable (Rule.EnabledIn rules id) :=
  inferInstanceAs (Decidable (∃ r ∈ rules, r.enabled = true ∧ r.id = id))

namespace RuleSnapshot

theorem contains_add (s : RuleSnapshot) (r : Rule) (id : RuleId) :
    (s.add r).contains id = true ↔ s.contains id = true ∨ r.enabled = true ∧ r.id = id := by
  rw [add]
  cases enabled : r.enabled with
  | false => simp
  | true =>
    cases there : s.byId.contains r.id with
    | true =>
      simp only [Bool.not_true, Bool.and_false, Bool.false_eq_true, if_false, true_and]
      exact ⟨.inl, fun either => either.elim (fun held => held) fun same => same ▸ there⟩
    | false => simp [contains, Std.TreeMap.contains_insert, or_comm]

theorem contains_foldl (rules : List Rule) (s : RuleSnapshot) (id : RuleId) :
    (rules.foldl add s).contains id = true ↔ s.contains id = true ∨ Rule.EnabledIn rules id := by
  induction rules generalizing s with
  | nil => simp [Rule.EnabledIn]
  | cons r rest ih =>
    rw [List.foldl_cons, ih, contains_add]
    simp [Rule.EnabledIn, or_assoc]

theorem contains_build (rules : List Rule) (generation : Nat) (loadedAt : Timestamp) (id : RuleId) :
    (build rules generation loadedAt).contains id = true ↔ Rule.EnabledIn rules id := by
  refine (contains_foldl rules { generation, loadedAt := some loadedAt } id).trans ?_
  simp [contains]

end RuleSnapshot

/-! ### The sweep on a new engine -/

/-- Each rule that was seeded holds its alert and nothing else, and no other rule is tracked. -/
structure View.Fresh (v : View) (pick : RuleId → Option Alert) : Prop where
  held : ∀ rule, v.held rule = (pick rule).map fun alert => { state := .recovered rule alert.id }

namespace View.Fresh

variable {v : View} {pick : RuleId → Option Alert} {rule : RuleId}

theorem openAlert (fresh : v.Fresh pick) (rule : RuleId) : v.openAlert rule = (pick rule).map Alert.id := by
  rw [View.openAlert, View.holding, fresh.held]
  cases pick rule <;> rfl

theorem outbox (fresh : v.Fresh pick) (rule : RuleId) : v.outbox rule = [] := by
  rw [View.outbox, View.holding, fresh.held]
  cases pick rule <;> rfl

theorem put_swept (fresh : v.Fresh pick) {enabled : Bool} (picked : (pick rule).isSome = enabled) :
    (v.put rule ((v.holding rule).swept enabled [])).Fresh pick := by
  have same : (v.holding rule).swept enabled [] = v.held rule := by
    rw [View.holding, fresh.held]
    subst picked
    cases pick rule <;> rfl
  rw [same, View.put_same]
  exact fresh

end View.Fresh

/-- Whether an open alert of storage is not the one that its rule was seeded with. -/
def Alert.isStray (pick : RuleId → Option Alert) (alert : Alert) : Bool :=
  (pick alert.ruleId).map Alert.id ≠ some alert.id

structure View.Cleared (snapshot : RuleSnapshot) (pick : RuleId → Option Alert) (alerts : List Alert)
    (v : View) (r : RecoveryReport) (v' : View) (r' : RecoveryReport) : Prop where
  fresh : v'.Fresh pick
  available : v'.store.unavailable = false
  kept : ∀ {id}, (∀ alert ∈ alerts, alert.isStray pick = true → alert.id ≠ id) →
    v'.store.get? id = v.store.get? id
  closed : ∀ {alert}, alert ∈ alerts → alert.isStray pick = true →
    ∃ record, v'.store.get? alert.id = some record ∧ record.isOpen = false
  seeded : r'.seeded = r.seeded
  superseded : r'.superseded = r.superseded +
    alerts.countP fun alert => snapshot.contains alert.ruleId && alert.isStray pick
  orphaned : r'.orphaned = r.orphaned +
    alerts.countP fun alert => !snapshot.contains alert.ruleId && alert.isStray pick

theorem RecoveryReport.sweep_seeded (r : RecoveryReport) (enabled : Bool) :
    (r.sweep enabled).seeded = r.seeded := by
  cases enabled <;> rfl

theorem RecoveryReport.sweep_superseded (r : RecoveryReport) (enabled : Bool) :
    (r.sweep enabled).superseded = r.superseded + enabled.toNat := by
  cases enabled <;> rfl

theorem RecoveryReport.sweep_orphaned (r : RecoveryReport) (enabled : Bool) :
    (r.sweep enabled).orphaned = r.orphaned + (!enabled).toNat := by
  cases enabled <;> rfl

section Cleared

variable {snapshot : RuleSnapshot} {pick : RuleId → Option Alert} {alert : Alert} {rest : List Alert}
  {v v' : View} {r r' : RecoveryReport}

theorem View.Cleared.cons_tracked (cleared : View.Cleared snapshot pick rest v r v' r')
    (tracked : alert.isStray pick = false) : View.Cleared snapshot pick (alert :: rest) v r v' r' := by
  obtain ⟨fresh, available, kept, closed, seeded, superseded, orphaned⟩ := cleared
  refine ⟨fresh, available, fun others => kept fun a mem => others a (List.mem_cons_of_mem _ mem),
    fun {a} mem stray => ?_, seeded, ?_, ?_⟩
  · rcases List.mem_cons.mp mem with rfl | mem
    · exact absurd (stray.symm.trans tracked) (by simp)
    · exact closed mem stray
  · rw [superseded, List.countP_cons, tracked]
    simp
  · rw [orphaned, List.countP_cons, tracked]
    simp

/-- A stray alert is closed, and those that are closed stay so. -/
theorem View.Cleared.cons_stray {time : Timestamp} {v₁ : View}
    (cleared : View.Cleared snapshot pick rest v₁ (r.sweep (snapshot.contains alert.ruleId)) v' r')
    (store : v₁.store = (v.store.resolve alert.id time).1) (stray : alert.isStray pick = true)
    (keeps : v.store.Keeps (alert :: rest)) : View.Cleared snapshot pick (alert :: rest) v r v' r' := by
  obtain ⟨fresh, available, kept, closed, seeded, superseded, orphaned⟩ := cleared
  obtain ⟨record, there⟩ := keeps.stored alert List.mem_cons_self
  rw [AlertStore.resolve_of_stored keeps.available there] at store
  refine ⟨fresh, available, fun {id} others => ?_, fun {a} mem stray' => ?_, ?_, ?_, ?_⟩
  · rw [kept fun a mem => others a (List.mem_cons_of_mem _ mem), store, AlertStore.get?_close,
      if_neg (others alert List.mem_cons_self stray)]
  · by_cases again : ∃ later ∈ rest, later.isStray pick = true ∧ later.id = a.id
    · obtain ⟨later, mem', stray'', same⟩ := again
      exact same ▸ closed mem' stray''
    · have first : a = alert := (List.mem_cons.mp mem).resolve_right fun mem' => again ⟨a, mem', stray', rfl⟩
      subst first
      refine ⟨record.resolve time, ?_, ?_⟩
      · rw [kept fun later mem' stray'' same => again ⟨later, mem', stray'', same⟩, store, AlertStore.get?_close,
          if_pos rfl]
      · exact record.isOpen_resolve time
  · rw [seeded, RecoveryReport.sweep_seeded]
  · rw [superseded, RecoveryReport.sweep_superseded, List.countP_cons, stray]
    cases snapshot.contains alert.ruleId <;> simp [Nat.add_assoc, Nat.add_comm 1]
  · rw [orphaned, RecoveryReport.sweep_orphaned, List.countP_cons, stray]
    cases snapshot.contains alert.ruleId <;> simp [Nat.add_assoc, Nat.add_comm 1]

end Cleared

/-- The open alerts of enabled rules belong to rules that were seeded, and no other rule was. -/
theorem View.Sweeps.cleared {snapshot : RuleSnapshot} {pick : RuleId → Option Alert} {alerts : List Alert}
    {v v' : View} {r r' : RecoveryReport} (sweeps : View.Sweeps snapshot alerts v r v' r')
    (fresh : v.Fresh pick) (keeps : v.store.Keeps alerts)
    (picked : ∀ alert ∈ alerts, (pick alert.ruleId).isSome = snapshot.contains alert.ruleId) :
    View.Cleared snapshot pick alerts v r v' r' := by
  induction sweeps with
  | nil => exact ⟨fresh, keeps.available, fun _ => rfl, fun mem => absurd mem (by simp), rfl, rfl, rfl⟩
  | @cons alert rest v r v₁ r₁ v₂ r₂ first later ih =>
    have here := picked alert List.mem_cons_self
    have picked' : ∀ alert ∈ rest, (pick alert.ruleId).isSome = snapshot.contains alert.ruleId :=
      fun alert mem => picked alert (List.mem_cons_of_mem _ mem)
    have keeps' : v.store.Keeps rest :=
      ⟨keeps.available, fun alert mem => keeps.stored alert (List.mem_cons_of_mem _ mem)⟩
    cases first with
    | tracked same =>
      have tracked : alert.isStray pick = false := by
        rw [fresh.openAlert] at same
        simp [Alert.isStray, same]
      exact (ih fresh keeps' picked').cons_tracked tracked
    | closed time stray idle =>
      have stray : alert.isStray pick = true := by
        rw [fresh.openAlert] at stray
        simpa [Alert.isStray] using stray
      have fresh₁ := fresh.put_swept here
      exact (ih ⟨fresh₁.held⟩ (keeps'.resolve alert.id time) picked').cons_stray rfl stray keeps
    | queued outbox stray busy grows => exact absurd (fresh.outbox _) busy

/-! ### What is found in storage -/

def AlertStore.pick (s : AlertStore) (snapshot : RuleSnapshot) (rule : RuleId) : Option Alert :=
  if snapshot.contains rule then s.newestOpen? rule else none

namespace AlertStore

variable {s : AlertStore} {snapshot : RuleSnapshot} {rule : RuleId} {alert : Alert}

theorem pick_eq_some (picked : s.pick snapshot rule = some alert) :
    snapshot.contains rule = true ∧ s.newestOpen? rule = some alert := by
  rw [pick] at picked
  split at picked
  · exact ⟨‹_›, picked⟩
  · exact absurd picked (by simp)

theorem isSome_pick (mem : alert ∈ s.openAlerts) :
    (s.pick snapshot alert.ruleId).isSome = snapshot.contains alert.ruleId := by
  rw [pick]
  split
  · next enabled => rw [enabled, newestOpen?_isSome.mpr ⟨alert, mem, rfl⟩]
  · next other => simpa using other

theorem pick_of_not_isStray (keyed : s.Keyed) (mem : alert ∈ s.openAlerts)
    (tracked : alert.isStray (s.pick snapshot) = false) : s.pick snapshot alert.ruleId = some alert := by
  have same : (s.pick snapshot alert.ruleId).map Alert.id = some alert.id := by
    simpa [Alert.isStray] using tracked
  obtain ⟨picked, found, id⟩ := Option.map_eq_some_iff.mp same
  obtain ⟨mem', -⟩ := newestOpen?_eq_some (pick_eq_some found).2
  have there := (keyed.mem_openAlerts.mp mem').1
  rw [id, (keyed.mem_openAlerts.mp mem).1] at there
  rw [found, ← Option.some.inj there]

theorem isStray_of_pick (picked : s.pick snapshot rule = some alert) :
    alert.isStray (s.pick snapshot) = false := by
  obtain ⟨-, newest⟩ := pick_eq_some picked
  obtain ⟨-, rfl, -⟩ := newestOpen?_eq_some newest
  simp [Alert.isStray, picked]

/-- As many open alerts are tracked as rules were seeded. -/
theorem countP_tracked (keyed : s.Keyed) (sound : snapshot.Sound) :
    (s.openAlerts.countP fun alert => !alert.isStray (s.pick snapshot)) =
      snapshot.ids.countP fun rule => (s.newestOpen? rule).isSome := by
  have tracked : ((s.openAlerts.filter fun alert => !alert.isStray (s.pick snapshot)).map Alert.ruleId).Perm
      (snapshot.ids.filter fun rule => (s.newestOpen? rule).isSome) := by
    refine (List.perm_ext_iff_of_nodup ?_ (sound.nodup_ids.filter _)).mpr fun rule => ?_
    · have distinct : (s.openAlerts.filter fun alert => !alert.isStray (s.pick snapshot)).Nodup :=
        (List.Nodup.of_map Alert.id (nodup_openAlerts keyed)).filter _
      refine distinct.map_on fun a mem b mem' same => ?_
      have first := pick_of_not_isStray keyed (List.mem_of_mem_filter mem) (by simpa using List.of_mem_filter mem)
      have second := pick_of_not_isStray keyed (List.mem_of_mem_filter mem') (by simpa using List.of_mem_filter mem')
      exact Option.some.inj ((first.symm.trans (congrArg _ same)).trans second)
    · rw [List.mem_map, List.mem_filter, sound.mem_ids]
      constructor
      · rintro ⟨alert, mem, rfl⟩
        have picked := pick_of_not_isStray keyed (List.mem_of_mem_filter mem) (by simpa using List.of_mem_filter mem)
        obtain ⟨enabled, newest⟩ := pick_eq_some picked
        exact ⟨enabled, by rw [newest, Option.isSome_some]⟩
      · rintro ⟨enabled, found⟩
        obtain ⟨alert, newest⟩ := Option.isSome_iff_exists.mp found
        obtain ⟨mem, named, -⟩ := newestOpen?_eq_some newest
        have picked : s.pick snapshot rule = some alert := by rw [pick, if_pos enabled, newest]
        exact ⟨alert, List.mem_filter.mpr ⟨mem, by simp [isStray_of_pick picked]⟩, named⟩
  have lengths := tracked.length_eq
  rwa [List.length_map, ← List.countP_eq_length_filter, ← List.countP_eq_length_filter] at lengths

theorem countP_enabled (keyed : s.Keyed) (sound : snapshot.Sound) :
    (s.openAlerts.countP fun alert => snapshot.contains alert.ruleId) =
      (s.openAlerts.countP fun alert => snapshot.contains alert.ruleId && alert.isStray (s.pick snapshot)) +
        snapshot.ids.countP fun rule => (s.newestOpen? rule).isSome := by
  rw [← countP_tracked keyed sound,
    List.countP_eq_countP_filter_add s.openAlerts _ fun alert => alert.isStray (s.pick snapshot),
    List.countP_filter, List.countP_filter]
  congr 1
  refine List.countP_congr fun alert mem => ?_
  cases stray : alert.isStray (s.pick snapshot) with
  | true => simp
  | false => simp [(pick_eq_some (pick_of_not_isStray keyed mem stray)).1]

theorem openOf_iff (keyed : s.Keyed) {id : AlertId} :
    s.OpenOf rule id ↔ ∃ alert ∈ s.openAlerts, alert.ruleId = rule ∧ alert.id = id := by
  constructor
  · rintro ⟨alert, there, named, isOpen⟩
    have same := keyed there
    exact ⟨alert, keyed.mem_openAlerts.mpr ⟨same ▸ there, isOpen⟩, named, same⟩
  · rintro ⟨alert, mem, named, rfl⟩
    obtain ⟨there, isOpen⟩ := keyed.mem_openAlerts.mp mem
    exact ⟨alert, there, named, isOpen⟩

theorem openCountFor_pos : 0 < s.openCountFor rule ↔ (s.newestOpen? rule).isSome = true := by
  rw [openCountFor, List.countP_pos_iff, newestOpen?_isSome]
  simp only [mem_openAlerts, mem_values, Bool.and_eq_true, decide_eq_true_eq]
  constructor
  · rintro ⟨alert, there, named, isOpen⟩
    exact ⟨alert, ⟨there, isOpen⟩, named⟩
  · rintro ⟨alert, ⟨there, isOpen⟩, named⟩
    exact ⟨alert, there, named, isOpen⟩

end AlertStore

/-- The alerts that are left open are those that rules were seeded with. -/
theorem View.Cleared.openOf_iff {snapshot : RuleSnapshot} {v v' : View} {r r' : RecoveryReport} {rule : RuleId}
    {id : AlertId} (keyed : v.store.Keyed)
    (cleared : View.Cleared snapshot (v.store.pick snapshot) v.store.openAlerts v r v' r') :
    v'.store.OpenOf rule id ↔ ∃ alert, v.store.pick snapshot rule = some alert ∧ alert.id = id := by
  constructor
  · rintro ⟨record, there, rfl, isOpen⟩
    by_cases gone : ∃ alert ∈ v.store.openAlerts, alert.isStray (v.store.pick snapshot) = true ∧ alert.id = id
    · obtain ⟨alert, mem, stray, rfl⟩ := gone
      obtain ⟨shut, there', closed⟩ := cleared.closed mem stray
      rw [there] at there'
      rw [Option.some.inj there', closed] at isOpen
      exact absurd isOpen Bool.false_ne_true
    · rw [cleared.kept fun alert mem stray same => gone ⟨alert, mem, stray, same⟩] at there
      have named := keyed there
      have mem := keyed.mem_openAlerts.mpr ⟨named ▸ there, isOpen⟩
      refine ⟨record, AlertStore.pick_of_not_isStray keyed mem ?_, named⟩
      by_contra stray
      exact gone ⟨record, mem, by simpa using stray, named⟩
  · rintro ⟨alert, picked, rfl⟩
    obtain ⟨-, newest⟩ := AlertStore.pick_eq_some picked
    obtain ⟨mem, named, -⟩ := AlertStore.newestOpen?_eq_some newest
    obtain ⟨there, isOpen⟩ := keyed.mem_openAlerts.mp mem
    refine ⟨alert, ?_, named, isOpen⟩
    rw [cleared.kept fun other mem' stray same => ?_, there]
    have there' := (keyed.mem_openAlerts.mp mem').1
    rw [same, there] at there'
    rw [← Option.some.inj there', AlertStore.isStray_of_pick picked] at stray
    exact absurd stray Bool.false_ne_true

/-! ### The whole recovery -/

/-- What a recovery on a new engine makes of the enabled rules and of the alerts that were stored. -/
structure World.Restored (rules : List Rule) (stored : AlertStore) (report : RecoveryReport) (w : World) :
    Prop where
  /-- An enabled rule with open alerts is open with one of those that were opened last, its only one left. -/
  opened : ∀ {rule}, Rule.EnabledIn rules rule → (∃ id, stored.OpenOf rule id) →
    ∃ alert, stored.get? alert.id = some alert ∧ alert.ruleId = rule ∧ alert.isOpen = true ∧
      (∀ {id other}, stored.get? id = some other → other.ruleId = rule → other.isOpen = true →
        other.openedAt ≤ alert.openedAt) ∧
      w.openAlert rule = some alert.id ∧ ∀ id, w.sink.store.OpenOf rule id ↔ id = alert.id
  tracked : ∀ rule ∈ w.engine.tracker.ruleIds, Rule.EnabledIn rules rule ∧ ∃ id, stored.OpenOf rule id
  swept : ∀ {rule id}, w.sink.store.OpenOf rule id → Rule.EnabledIn rules rule
  settled : ∀ {id alert}, stored.get? id = some alert → alert.isOpen = false →
    w.sink.store.get? id = some alert
  drained : ∀ rule, (w.account rule).outbox = []
  seeded : report.seeded = ((rules.filter Rule.enabled).map Rule.id).dedup.countP fun rule =>
    0 < stored.openCountFor rule
  orphaned : report.orphaned = stored.openAlerts.countP fun alert => ¬ Rule.EnabledIn rules alert.ruleId
  superseded : report.seeded + report.superseded =
    stored.openAlerts.countP fun alert => Rule.EnabledIn rules alert.ruleId

namespace World

variable {w w' : World} {rule : RuleId}

theorem account_outbox (w : World) (rule : RuleId) : (w.account rule).outbox = w.view.outbox rule :=
  congrArg Holding.outbox (Tracker.slotFor_holding w.engine.tracker rule)

theorem openAlert_view (w : World) (rule : RuleId) : w.openAlert rule = w.view.openAlert rule :=
  congrArg (·.state.openAlertId) (Tracker.slotFor_holding w.engine.tracker rule)

/-- What the rules that were seeded and the alerts that were closed amount to. -/
theorem restored_of_cleared {rules : List Rule} {g : Nat} {t : Timestamp} {v : View}
    {report : RecoveryReport} (keyed : v.store.Keyed)
    (cleared : let snapshot := RuleSnapshot.build rules (g + 1) t
      View.Cleared snapshot (v.store.pick snapshot) v.store.openAlerts v
        { seeded := snapshot.ids.countP fun rule => (v.store.newestOpen? rule).isSome } w'.view report) :
    w'.Restored rules v.store report := by
  let snapshot := RuleSnapshot.build rules (g + 1) t
  have enabled (rule : RuleId) : snapshot.contains rule = true ↔ Rule.EnabledIn rules rule :=
    RuleSnapshot.contains_build ..
  have sound : snapshot.Sound := RuleSnapshot.sound_build ..
  have left {rule : RuleId} {id : AlertId} : w'.view.store.OpenOf rule id ↔
      ∃ alert, v.store.pick snapshot rule = some alert ∧ alert.id = id := cleared.openOf_iff keyed
  have fresh := cleared.fresh
  have further := AlertStore.countP_enabled keyed sound
  refine ⟨fun {rule} known found => ?_, fun rule tracked => ?_, fun {rule id} there => ?_,
    fun {id alert} there shut => ?_, fun rule => ?_, ?_, ?_, ?_⟩
  · obtain ⟨id, found⟩ := found
    obtain ⟨other, mem, named, -⟩ := (AlertStore.openOf_iff keyed).mp found
    obtain ⟨alert, newest⟩ :=
      Option.isSome_iff_exists.mp (AlertStore.newestOpen?_isSome.mpr ⟨other, mem, named⟩)
    have picked : v.store.pick snapshot rule = some alert := by
      rw [AlertStore.pick, if_pos ((enabled rule).mpr known), newest]
    obtain ⟨mem', named', last⟩ := AlertStore.newestOpen?_eq_some newest
    obtain ⟨there, isOpen⟩ := keyed.mem_openAlerts.mp mem'
    refine ⟨alert, there, named', isOpen, fun {id other} there named isOpen => ?_, ?_, fun id => ?_⟩
    · exact last other (AlertStore.mem_openAlerts.mpr ⟨⟨id, there⟩, isOpen⟩) named
    · rw [openAlert_view, fresh.openAlert, picked, Option.map_some]
    · rw [show w'.sink.store = w'.view.store from rfl, left]
      exact ⟨fun ⟨other, picked', same⟩ => by rw [← same, Option.some.inj (picked.symm.trans picked')],
        fun same => ⟨alert, picked, same.symm⟩⟩
  · have held : w'.view.held rule ≠ none := fun absent =>
      Tracker.mem_ruleIds.mp tracked (Tracker.find?_eq_none.mpr absent)
    rw [fresh.held, Ne, Option.map_eq_none_iff] at held
    obtain ⟨alert, picked⟩ := Option.ne_none_iff_exists'.mp held
    obtain ⟨known, newest⟩ := AlertStore.pick_eq_some picked
    obtain ⟨mem, named, -⟩ := AlertStore.newestOpen?_eq_some newest
    exact ⟨(enabled rule).mp known, alert.id, (AlertStore.openOf_iff keyed).mpr ⟨alert, mem, named, rfl⟩⟩
  · obtain ⟨alert, picked, -⟩ := left.mp there
    exact (enabled rule).mp (AlertStore.pick_eq_some picked).1
  · rw [show w'.sink.store = w'.view.store from rfl, cleared.kept fun other mem _ same => ?_, there]
    obtain ⟨there', isOpen⟩ := keyed.mem_openAlerts.mp mem
    rw [same, there] at there'
    rw [← Option.some.inj there', shut] at isOpen
    exact absurd isOpen Bool.false_ne_true
  · rw [account_outbox, fresh.outbox]
  · have ids : snapshot.ids.Perm ((rules.filter Rule.enabled).map Rule.id).dedup := by
      refine (List.perm_ext_iff_of_nodup sound.nodup_ids (List.nodup_dedup _)).mpr fun rule => ?_
      rw [sound.mem_ids, enabled, List.mem_dedup]
      simp [Rule.EnabledIn, and_assoc]
    rw [cleared.seeded, ids.countP_eq]
    simp only [AlertStore.openCountFor_pos, Bool.decide_eq_true]
  · rw [cleared.orphaned, Nat.zero_add]
    refine List.countP_congr fun alert mem => ?_
    have picked : (v.store.pick snapshot alert.ruleId).isSome = snapshot.contains alert.ruleId :=
      AlertStore.isSome_pick mem
    rw [decide_eq_true_eq, ← enabled alert.ruleId]
    cases known : snapshot.contains alert.ruleId with
    | true => simp
    | false =>
      rw [known, Option.isSome_eq_false_iff, Option.isNone_iff_eq_none] at picked
      simp [snapshot, Alert.isStray, picked]
  · rw [cleared.seeded, cleared.superseded, Nat.zero_add, Nat.add_comm, ← further]
    refine List.countP_congr fun alert mem => ?_
    rw [enabled, decide_eq_true_eq]

/-- Whatever alerts an available store holds and whatever rules are served, the recovery on a new engine comes
to its end and restores the open alerts of the enabled rules. -/
theorem recover_restores {w : World} {rules : List Rule} (begins : w.Begins)
    (plain : w.sink = { store := w.sink.store }) (available : w.sink.store.unavailable = false)
    (keyed : w.sink.store.Keyed) (fetched : w.source.fetch = .ok rules) :
    ∃ w' report, w.call .recover = (w', .recovered report) ∧ w'.Restored rules w.sink.store report := by
  obtain ⟨c, engine⟩ := begins.engine
  have calm : w.Calm := calm_of_plain (by rw [engine]; exact Tracker.coherent_empty) plain
  have untracked (rule : RuleId) : w.view.held rule = none := by
    rw [view, engine]
    rfl
  have ended : (recover : Prog Visit _).After Visit.run w fun result w' =>
      ∃ report, result = .ok report ∧ w'.Restored rules w.sink.store report := by
    refine after_recover calm keyed (fun e w' abandons => ?_) fun rules' time report w' fetched' _ calm' sweeps => ?_
    · exact absurd (Sink.answers_of_plain plain available) (abandons.trouble ⟨rules, fetched⟩)
    · obtain rfl : rules = rules' := Except.ok.inj (fetched.symm.trans fetched')
      refine ⟨report, rfl, restored_of_cleared (v := w.view) (g := w.view.snapshot.generation) (t := time) keyed ?_⟩
      let snapshot := RuleSnapshot.build rules (w.view.snapshot.generation + 1) time
      have sound : snapshot.Sound := RuleSnapshot.sound_build ..
      have count : (snapshot.ids.countP fun rule =>
          (w.view.store.newestOpen? rule).isSome && !(w.view.openAlert rule).isSome) =
          snapshot.ids.countP fun rule => (w.view.store.newestOpen? rule).isSome := by
        refine List.countP_congr fun rule _ => ?_
        rw [View.openAlert, View.holding, untracked]
        simp [Holding.initial, FiringState.initial, FiringState.openAlertId]
      have fresh : ({ w.view with snapshot }.seeded snapshot.ids w.view.store.newestOpen?).Fresh
          (w.view.store.pick snapshot) := ⟨fun rule => by
        simp only [View.seeded, View.seed, View.holding, untracked, sound.mem_ids, AlertStore.pick]
        split
        · cases w.view.store.newestOpen? rule <;> rfl
        · rfl⟩
      rw [count] at sweeps
      obtain ⟨fresh', available', kept, closed, seeded, superseded, orphaned⟩ :=
        sweeps.cleared fresh (keyed.keeps available) fun alert mem => AlertStore.isSome_pick mem
      exact ⟨fresh', available', kept, closed, seeded, superseded, orphaned⟩
  have reply : (Call.program .recover).After Visit.run w fun reply w' =>
      ∃ report, reply = .recovered report ∧ w'.Restored rules w.sink.store report := by
    refine Prog.after_bind (ended.imp fun result w' ends => ?_)
    obtain ⟨report, rfl, restored⟩ := ends
    exact Prog.after_pure ⟨report, rfl, restored⟩
  obtain ⟨report, same, restored⟩ := reply
  exact ⟨_, report, Prod.ext rfl same, restored⟩

/-- A world whose storage holds two open alerts of the rule, a closed one, and one of a rule that is gone. -/
def restarted : World :=
  let alert (id : AlertId) (seconds : Int) : Alert := .ofRule id .highLoad 95 { seconds }
  let alerts := [alert "x" 1, alert "y" 2, (alert "z" 3).resolve default, { alert "v" 4 with ruleId := "gone" }]
  .watched { workers := 1 } { store := alerts.foldl .insert {} }

theorem recover_restores_restarted :
    ∃ w report, restarted.call .recover = (w, .recovered report) ∧
      report = { seeded := 1, orphaned := 1, superseded := 1 } ∧ w.openAlert "high-load" = some "y" ∧
      (∀ id, w.sink.store.OpenOf "high-load" id ↔ id = "y") ∧ ∀ id, ¬ w.sink.store.OpenOf "gone" id := by
  have keyed : restarted.sink.store.Keyed := AlertStore.Keyed.foldl_insert AlertStore.keyed_empty _
  obtain ⟨w, report, ran, restored⟩ := recover_restores (w := restarted) (begins_watched _ _) rfl rfl keyed rfl
  have known : Rule.EnabledIn [.highLoad] "high-load" := by decide
  have stored : restarted.sink.store.OpenOf "high-load" "y" := ⟨_, rfl, rfl, rfl⟩
  obtain ⟨alert, there, named, isOpen, last, tracked, only⟩ := restored.opened known ⟨"y", stored⟩
  have later : ∀ other ∈ restarted.sink.store.alerts.values, other.ruleId = "high-load" → other.isOpen = true →
      ({ seconds := 2 } : Timestamp) ≤ other.openedAt → other.id = "y" := by decide +kernel
  have newest : alert.id = "y" :=
    later alert (mem_values.mpr ⟨_, there⟩) named isOpen (@last "y" _ rfl rfl rfl)
  rw [newest] at tracked only
  have seeded : report.seeded = 1 := restored.seeded.trans (by decide +kernel)
  have orphaned : report.orphaned = 1 := by
    rw [restored.orphaned, AlertStore.countP_openAlerts]
    decide +kernel
  have superseded : report.seeded + report.superseded = 2 := by
    rw [restored.superseded, AlertStore.countP_openAlerts]
    decide +kernel
  refine ⟨w, report, ran, ?_, tracked, only, fun id gone => absurd (restored.swept gone) (by decide)⟩
  obtain ⟨s, o, u⟩ := report
  simp only [RecoveryReport.mk.injEq] at *
  omega

end World

end ThresholdAlerts
