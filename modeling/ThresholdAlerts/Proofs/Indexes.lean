import ThresholdAlerts.Proofs.Conduct
/-! The two indexes of a snapshot. Main statements: what is listed under a metric is what is held under the
ids of its rules and watches that metric, every rule is listed, and snapshots of the same rules differ only in
when they were taken. -/
namespace ThresholdAlerts.RuleSnapshot

/-- The index by metric agrees with the index by id. -/
structure Indexed (s : RuleSnapshot) : Prop where
  named : ∀ {id r}, s.get? id = some r → r.id = id
  listed : ∀ {metric r}, r ∈ s.rulesFor metric → s.get? r.id = some r ∧ r.metricKey = metric
  once : ∀ metric, ((s.rulesFor metric).map Rule.id).Nodup

theorem indexed_empty (generation : Nat) (loadedAt : Option Timestamp) :
    Indexed { generation, loadedAt } :=
  ⟨fun got => absurd got (by simp [get?]), fun mem => absurd mem (by simp [rulesFor]), fun _ => by simp [rulesFor]⟩

theorem get?_insert {s : RuleSnapshot} {r : Rule} {byMetric : Std.TreeMap String (List Rule)} (id : RuleId) :
    get? { s with byId := s.byId.insert r.id r, byMetric } id = if r.id = id then some r else s.get? id := by
  simp [get?, Std.TreeMap.getElem?_insert]

theorem rulesFor_insert {s : RuleSnapshot} {r : Rule} {byId : Std.TreeMap RuleId Rule} (metric : String) :
    rulesFor { s with byId, byMetric := s.byMetric.insert r.metricKey (r :: s.byMetric.getD r.metricKey []) } metric =
      if r.metricKey = metric then r :: s.rulesFor metric else s.rulesFor metric := by
  simp only [rulesFor, Std.TreeMap.getD_insert, Std.compare_eq_iff_eq]
  split
  · next same => rw [same]
  · rfl

theorem get?_eq_none_of_fresh {s : RuleSnapshot} {r : Rule} (fresh : r.enabled && !s.byId.contains r.id) :
    s.get? r.id = none := by
  rw [Bool.and_eq_true, Bool.not_eq_true'] at fresh
  exact Std.TreeMap.getElem?_eq_none_of_contains_eq_false fresh.2

theorem Indexed.add {s : RuleSnapshot} (h : s.Indexed) (r : Rule) : (s.add r).Indexed := by
  rw [RuleSnapshot.add]
  split
  · next fresh =>
    have absent := get?_eq_none_of_fresh fresh
    let added : RuleSnapshot :=
      { s with
        byId := s.byId.insert r.id r
        byMetric := s.byMetric.insert r.metricKey (r :: s.byMetric.getD r.metricKey []) }
    have get (id : RuleId) : added.get? id = if r.id = id then some r else s.get? id := get?_insert id
    have rules (metric : String) : added.rulesFor metric =
        if r.metricKey = metric then r :: s.rulesFor metric else s.rulesFor metric := rulesFor_insert metric
    -- No rule that was listed before has the id of the new one.
    have apart {metric : String} {r' : Rule} (mem : r' ∈ s.rulesFor metric) : r.id ≠ r'.id := fun same => by
      have got := (h.listed mem).1
      rw [← same, absent] at got
      exact absurd got (by simp)
    have named : ∀ {id r'}, (s.add r).get? id = some r' → r'.id = id := named_add r h.named
    rw [RuleSnapshot.add, if_pos fresh] at named
    refine ⟨named, fun {metric r'} mem => ?_, fun metric => ?_⟩
    · rw [rules] at mem
      have old (mem : r' ∈ s.rulesFor metric) : added.get? r'.id = some r' ∧ r'.metricKey = metric := by
        rw [get, if_neg (apart mem)]
        exact h.listed mem
      split at mem
      · next same =>
        rcases List.mem_cons.mp mem with rfl | mem
        · exact ⟨by rw [get, if_pos rfl], same⟩
        · exact old mem
      · exact old mem
    · rw [rules]
      split
      · refine List.nodup_cons.mpr ⟨fun mem => ?_, h.once metric⟩
        obtain ⟨r', mem, same⟩ := List.mem_map.mp mem
        exact apart mem same.symm
      · exact h.once metric
  · exact h

theorem Indexed.foldl {s : RuleSnapshot} (h : s.Indexed) (rules : List Rule) :
    (rules.foldl RuleSnapshot.add s).Indexed := by
  induction rules generalizing s with
  | nil => exact h
  | cons r rest ih => exact ih (h.add r)

theorem generation_build (rules : List Rule) (generation : Nat) (loadedAt : Timestamp) :
    (build rules generation loadedAt).generation = generation :=
  generation_foldl rules _

theorem rulesFor_build (rules : List Rule) (generation : Nat) (loadedAt : Timestamp) (metric : String) :
    (build rules generation loadedAt).rulesFor metric =
      ((rules.foldl add { generation, loadedAt := some loadedAt }).rulesFor metric).mergeSort before := by
  rw [build, rulesFor, Std.TreeMap.getD_map, rulesFor, Std.TreeMap.getD_eq_getD_getElem?]
  cases (rules.foldl add { generation, loadedAt := some loadedAt }).byMetric[metric]? <;> simp

theorem indexed_build (rules : List Rule) (generation : Nat) (loadedAt : Timestamp) :
    (build rules generation loadedAt).Indexed := by
  have indexed : (rules.foldl add { generation, loadedAt := some loadedAt }).Indexed :=
    (indexed_empty generation (some loadedAt)).foldl rules
  refine ⟨indexed.named, fun {metric r} mem => ?_, fun metric => ?_⟩
  · rw [rulesFor_build, List.mem_mergeSort] at mem
    exact indexed.listed mem
  · rw [rulesFor_build]
    exact (((List.mergeSort_perm _ before).map Rule.id).nodup_iff).mpr (indexed.once metric)

/-! ### What is listed -/

def Complete (s : RuleSnapshot) : Prop :=
  ∀ id r, s.get? id = some r → r ∈ s.rulesFor r.metricKey

theorem complete_empty (generation : Nat) (loadedAt : Option Timestamp) : Complete { generation, loadedAt } :=
  fun _ _ got => absurd got (by simp [get?])

theorem Complete.add {s : RuleSnapshot} (h : s.Complete) (r : Rule) : (s.add r).Complete := by
  intro id r' got
  rw [RuleSnapshot.add] at got ⊢
  split at got
  · next fresh =>
    rw [get?_insert] at got
    rw [if_pos fresh, rulesFor_insert]
    split at got
    · obtain rfl := Option.some.inj got
      rw [if_pos rfl]
      exact List.mem_cons_self
    · split
      · exact List.mem_cons_of_mem _ (h id r' got)
      · exact h id r' got
  · next taken =>
    rw [if_neg taken]
    exact h id r' got

theorem Complete.foldl {s : RuleSnapshot} (h : s.Complete) (rules : List Rule) :
    (rules.foldl RuleSnapshot.add s).Complete := by
  induction rules generalizing s with
  | nil => exact h
  | cons r rest ih => exact ih (h.add r)

theorem complete_build (rules : List Rule) (generation : Nat) (loadedAt : Timestamp) :
    (build rules generation loadedAt).Complete := by
  intro id r got
  have complete : (rules.foldl add { generation, loadedAt := some loadedAt }).Complete :=
    Complete.foldl (complete_empty generation (some loadedAt)) rules
  rw [rulesFor_build, List.mem_mergeSort]
  exact complete id r got

theorem get?_add (s : RuleSnapshot) (r : Rule) (id : RuleId) :
    (s.add r).get? id = (s.get? id).or (if r.enabled && r.id = id then some r else none) := by
  rw [add]
  split
  · next fresh =>
    obtain ⟨enabled, -⟩ := Bool.and_eq_true_iff.mp fresh
    rw [get?_insert, enabled, Bool.true_and]
    by_cases same : r.id = id
    · subst same
      rw [get?_eq_none_of_fresh fresh, Option.none_or, if_pos rfl, if_pos (decide_eq_true rfl)]
    · rw [if_neg same, if_neg (by simpa using same), Option.or_none]
  · next taken =>
    split
    · next wanted =>
      obtain ⟨enabled, same⟩ := Bool.and_eq_true_iff.mp wanted
      obtain rfl := of_decide_eq_true same
      have there : s.byId.contains r.id = true := by simpa [enabled] using taken
      obtain ⟨r', got⟩ := Option.isSome_iff_exists.mp ((Std.TreeMap.contains_eq_isSome_getElem?).symm.trans there)
      have got : s.get? r.id = some r' := got
      rw [got, Option.some_or]
    · rw [Option.or_none]

theorem get?_foldl (rules : List Rule) (s : RuleSnapshot) (id : RuleId) :
    (rules.foldl add s).get? id = (s.get? id).or (rules.find? fun r => r.enabled && r.id = id) := by
  induction rules generalizing s with
  | nil => exact (Option.or_none).symm
  | cons r rest ih =>
    rw [List.foldl_cons, ih, get?_add, Option.or_assoc, List.find?_cons]
    congr 1
    split <;> simp [*]

/-- Of several rules with one id the first that is enabled counts. -/
theorem get?_build (rules : List Rule) (generation : Nat) (loadedAt : Timestamp) (id : RuleId) :
    (build rules generation loadedAt).get? id = rules.find? fun r => r.enabled && r.id = id := by
  have empty : get? { generation, loadedAt := some loadedAt } id = none := by simp [get?]
  have got := get?_foldl rules { generation, loadedAt := some loadedAt } id
  rw [empty, Option.none_or] at got
  exact got

/-! ### The same rules at different times -/

def Alike (s s' : RuleSnapshot) : Prop :=
  s'.byId = s.byId ∧ s'.byMetric = s.byMetric

theorem Alike.get? {s s' : RuleSnapshot} (h : s.Alike s') (id : RuleId) : s'.get? id = s.get? id := by
  rw [RuleSnapshot.get?, h.1, RuleSnapshot.get?]

theorem Alike.rulesFor {s s' : RuleSnapshot} (h : s.Alike s') (metric : String) :
    s'.rulesFor metric = s.rulesFor metric := by
  rw [RuleSnapshot.rulesFor, h.2, RuleSnapshot.rulesFor]

theorem Alike.add {s s' : RuleSnapshot} (h : s.Alike s') (r : Rule) : (s.add r).Alike (s'.add r) := by
  obtain ⟨byId, byMetric⟩ := h
  rw [RuleSnapshot.add, RuleSnapshot.add, byId, byMetric]
  split
  · exact ⟨rfl, rfl⟩
  · exact ⟨byId, byMetric⟩

theorem Alike.foldl {s s' : RuleSnapshot} (h : s.Alike s') (rules : List Rule) :
    (rules.foldl RuleSnapshot.add s).Alike (rules.foldl RuleSnapshot.add s') := by
  induction rules generalizing s s' with
  | nil => exact h
  | cons r rest ih => exact ih (h.add r)

theorem alike_build (rules : List Rule) (generation generation' : Nat) (loadedAt loadedAt' : Timestamp) :
    (build rules generation loadedAt).Alike (build rules generation' loadedAt') := by
  have same : Alike { generation, loadedAt := some loadedAt }
      { generation := generation', loadedAt := some loadedAt' } := ⟨rfl, rfl⟩
  obtain ⟨byId, byMetric⟩ := same.foldl rules
  exact ⟨byId, by rw [build, byMetric, build]⟩

end ThresholdAlerts.RuleSnapshot
