import Mathlib.Data.List.Dedup
import Mathlib.Data.String.Basic
import ThresholdAlerts.Proofs.Indexes
/-! What a snapshot lists. Main statement: under an id a snapshot holds the first enabled rule with it, under a metric
just the rules it holds that watch the metric, in a strict order, and nothing else about the list it is built from
matters. -/
namespace ThresholdAlerts

def Severity.rank : Severity → Nat
  | .info => 0
  | .warning => 1
  | .critical => 2

/-- Among the rules of one metric the worse come first, and those that are as bad in the order of their ids. -/
def Rule.Precedes (a b : Rule) : Prop :=
  b.severity.rank < a.severity.rank ∨ a.severity = b.severity ∧ a.id < b.id

/-- The first enabled rule of a list that has an id. -/
def Rule.firstEnabled? (rules : List Rule) (id : RuleId) : Option Rule :=
  rules.find? fun r => r.enabled && r.id = id

theorem Severity.compare_eq (a b : Severity) : compare a b = compare a.rank b.rank := by
  cases a <;> cases b <;> rfl

theorem Severity.rank_injective {a b : Severity} (same : a.rank = b.rank) : a = b := by
  cases a <;> cases b <;> first | rfl | exact absurd same (by decide)

theorem Rule.Precedes.asymm {a b : Rule} (h : a.Precedes b) (h' : b.Precedes a) : False := by
  rcases h with worse | ⟨same, first⟩
  · rcases h' with worse' | ⟨same', -⟩
    · exact absurd worse' (Nat.lt_asymm worse)
    · rw [same'] at worse
      exact absurd worse (Nat.lt_irrefl _)
  · rcases h' with worse' | ⟨-, first'⟩
    · rw [same] at worse'
      exact absurd worse' (Nat.lt_irrefl _)
    · exact absurd first' (lt_asymm first)

namespace RuleSnapshot

/-! ### The order of a listing -/

theorem before_iff {a b : Rule} :
    before a b = true ↔ b.severity.rank < a.severity.rank ∨ a.severity = b.severity ∧ a.id ≤ b.id := by
  have same : b.severity.rank = a.severity.rank ↔ a.severity = b.severity := by
    constructor
    · intro ranks
      exact (Severity.rank_injective ranks).symm
    · intro severity
      rw [severity]
  rw [before, Ordering.isLE_iff_eq_lt_or_eq_eq, Ordering.then_eq_lt, Ordering.then_eq_eq, Severity.compare_eq,
    compare_lt_iff_lt, compare_eq_iff_eq, compare_lt_iff_lt, compare_eq_iff_eq, same, or_assoc, ← and_or_left,
    ← le_iff_lt_or_eq]

theorem before_trans (a b c : Rule) (h : before a b = true) (h' : before b c = true) : before a c = true := by
  rw [before_iff] at *
  rcases h with worse | ⟨same, first⟩
  · rcases h' with worse' | ⟨same', -⟩
    · exact .inl (worse'.trans worse)
    · exact .inl (same' ▸ worse)
  · rcases h' with worse' | ⟨same', first'⟩
    · exact .inl (same ▸ worse')
    · exact .inr ⟨same.trans same', first.trans first'⟩

theorem before_total (a b : Rule) : (before a b || before b a) = true := by
  rw [Bool.or_eq_true, before_iff, before_iff]
  rcases Nat.lt_trichotomy a.severity.rank b.severity.rank with less | same | more
  · exact .inr (.inl less)
  · have severity := Severity.rank_injective same
    rcases le_total a.id b.id with first | first
    · exact .inl (.inr ⟨severity, first⟩)
    · exact .inr (.inr ⟨severity.symm, first⟩)
  · exact .inl (.inl more)

theorem precedes_of_before {a b : Rule} (h : before a b = true) (apart : a.id ≠ b.id) : a.Precedes b := by
  rcases before_iff.mp h with worse | ⟨same, first⟩
  · exact .inl worse
  · exact .inr ⟨same, lt_of_le_of_ne first apart⟩

/-! ### What is listed, and in which order -/

variable {rules rules' : List Rule} {generation generation' : Nat} {loadedAt loadedAt' : Timestamp}

theorem mem_rulesFor_build {metric : String} {r : Rule} :
    r ∈ (build rules generation loadedAt).rulesFor metric ↔
      (build rules generation loadedAt).get? r.id = some r ∧ r.metricKey = metric := by
  constructor
  · exact (indexed_build rules generation loadedAt).listed
  · rintro ⟨held, rfl⟩
    exact complete_build rules generation loadedAt r.id r held

theorem pairwise_rulesFor_build (rules : List Rule) (generation : Nat) (loadedAt : Timestamp) (metric : String) :
    ((build rules generation loadedAt).rulesFor metric).Pairwise Rule.Precedes := by
  have once := (indexed_build rules generation loadedAt).once metric
  have sorted : ((build rules generation loadedAt).rulesFor metric).Pairwise fun a b => before a b = true := by
    rw [rulesFor_build]
    exact List.pairwise_mergeSort before_trans before_total _
  have both := sorted.and (List.pairwise_map.mp once)
  exact both.imp fun ⟨h, apart⟩ => precedes_of_before h apart

theorem nodup_of_precedes {listed : List Rule} (sorted : listed.Pairwise Rule.Precedes) : listed.Nodup := by
  refine sorted.imp fun {a b} first same => ?_
  subst same
  exact first.asymm first

/-- Lists in which the same rule comes first for each id make snapshots that list the same. -/
theorem rulesFor_build_eq (same : ∀ id, Rule.firstEnabled? rules' id = Rule.firstEnabled? rules id) (metric : String) :
    (build rules' generation' loadedAt').rulesFor metric = (build rules generation loadedAt).rulesFor metric := by
  have sorted := pairwise_rulesFor_build rules generation loadedAt metric
  have sorted' := pairwise_rulesFor_build rules' generation' loadedAt' metric
  have members : ∀ r, r ∈ (build rules' generation' loadedAt').rulesFor metric ↔
      r ∈ (build rules generation loadedAt).rulesFor metric := by
    intro r
    rw [mem_rulesFor_build, mem_rulesFor_build, get?_build, get?_build]
    exact and_congr_left fun _ => by rw [← Rule.firstEnabled?, same, Rule.firstEnabled?]
  refine List.Perm.eq_of_pairwise (fun a b _ _ first first' => (first.asymm first').elim) sorted' sorted ?_
  exact (List.perm_ext_iff_of_nodup (nodup_of_precedes sorted') (nodup_of_precedes sorted)).mpr members

theorem size_build (rules : List Rule) (generation : Nat) (loadedAt : Timestamp) :
    (build rules generation loadedAt).size = ((rules.filter (·.enabled)).map (·.id)).dedup.length := by
  have members : ∀ id, id ∈ (build rules generation loadedAt).byId.keys ↔
      id ∈ ((rules.filter (·.enabled)).map (·.id)).dedup := by
    intro id
    rw [Std.TreeMap.mem_keys, Std.TreeMap.mem_iff_isSome_getElem?]
    change ((build rules generation loadedAt).get? id).isSome = true ↔ _
    rw [get?_build, List.find?_isSome]
    simp [and_assoc]
  rw [size, ← Std.TreeMap.length_keys]
  exact ((List.perm_ext_iff_of_nodup Std.TreeMap.nodup_keys (List.nodup_dedup _)).mpr members).length_eq

/-- Whatever list of rules a snapshot is built from: under an id it holds the first enabled rule with it; under a metric
it lists just the rules that it holds and that watch the metric, each once, the worse first and then by id; its size
is the number of ids of enabled rules. Any list in which the same enabled rules come first makes the same of it. -/
theorem lists_first_enabled (rules : List Rule) (generation : Nat) (loadedAt : Timestamp) :
    let s := build rules generation loadedAt
    (∀ id, s.get? id = Rule.firstEnabled? rules id ∧ (s.contains id = true ↔ ∃ r, s.get? id = some r)) ∧
      (∀ metric r, r ∈ s.rulesFor metric ↔ s.get? r.id = some r ∧ r.metricKey = metric) ∧
      (∀ metric, (s.rulesFor metric).Nodup ∧ (s.rulesFor metric).Pairwise Rule.Precedes) ∧
      s.size = ((rules.filter (·.enabled)).map (·.id)).dedup.length ∧
      ∀ rules' generation' loadedAt', (∀ id, Rule.firstEnabled? rules' id = Rule.firstEnabled? rules id) →
        let s' := build rules' generation' loadedAt'
        (∀ id, s'.get? id = s.get? id) ∧ ∀ metric, s'.rulesFor metric = s.rulesFor metric := by
  intro s
  have get (id : RuleId) : s.get? id = Rule.firstEnabled? rules id := get?_build rules generation loadedAt id
  refine ⟨fun id => ⟨get id, ?_⟩, fun metric r => mem_rulesFor_build, fun metric => ?_,
    size_build rules generation loadedAt, fun rules' generation' loadedAt' same => ⟨fun id => ?_, fun metric => ?_⟩⟩
  · rw [contains, Std.TreeMap.contains_eq_isSome_getElem?, Option.isSome_iff_exists]
    rfl
  · have sorted := pairwise_rulesFor_build rules generation loadedAt metric
    exact ⟨nodup_of_precedes sorted, sorted⟩
  · exact (get?_build rules' generation' loadedAt' id).trans ((same id).trans (get id).symm)
  · exact rulesFor_build_eq same metric

/-- The second rule with an id that is taken and a disabled one are passed over, and the list may be shuffled. -/
theorem lists_first_enabled_shuffled :
    let rule (id metricKey : String) (severity : Severity) (enabled : Bool) : Rule :=
      { id, name := id, metricKey, operator := .gt, severity, enabled }
    let first := rule "a" "cpu" .info true
    let worst := rule "c" "cpu" .critical true
    let off := rule "b" "cpu" .warning false
    let late := rule "a" "mem" .critical true
    let s := build [off, first, late, worst] 1 default
    let s' := build [worst, first, off, late] 2 default
    first ∈ s.rulesFor "cpu" ∧ late ∉ s.rulesFor "mem" ∧ s.size = 2 ∧ s'.rulesFor "cpu" = s.rulesFor "cpu" := by
  intro rule first worst off late s s'
  obtain ⟨-, members, -, size, shuffled⟩ := lists_first_enabled [off, first, late, worst] 1 default
  have same : ∀ id, Rule.firstEnabled? [worst, first, off, late] id = Rule.firstEnabled? [off, first, late, worst] id := by
    intro id
    by_cases a : id = "a"
    · subst a
      rfl
    · by_cases c : id = "c"
      · subst c
        rfl
      · simp [Rule.firstEnabled?, rule, first, worst, off, late, Ne.symm a, Ne.symm c]
  refine ⟨(members "cpu" first).mpr ⟨?_, rfl⟩, fun mem => ?_, size.trans ?_, ?_⟩
  · exact get?_build ..
  · have held := ((members "mem" late).mp mem).1
    rw [get?_build] at held
    exact absurd held (by simp [rule, first, worst, off, late])
  · rfl
  · exact (shuffled _ 2 default same).2 "cpu"

end RuleSnapshot

end ThresholdAlerts
