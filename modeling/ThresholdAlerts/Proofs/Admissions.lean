import Mathlib.Data.List.Perm.Subperm
import ThresholdAlerts.Proofs.Calm
/-! What a calm store does with the events that it is sent. Main statement: as long as there are no more rules than
it has room for alerts it turns none away, and what it holds of the alerts of other rules stays. -/
namespace ThresholdAlerts.AlertStore

section Admissions

variable {rules : List Rule} {ids : Supply AlertId} {opened opened' : RuleId → Option AlertId} {s s' : AlertStore}
  {rule : RuleId} {id : AlertId} {alert : Alert} {event : Event}

/-- Whether the store is to take in an alert: it is the one that its rule opened, and none of that rule is open. -/
structure Admits (rules : List Rule) (opened : RuleId → Option AlertId) (s : AlertStore) (alert : Alert) : Prop where
  announced : opened alert.ruleId = some alert.id
  inForce : ∃ r, Rule.inForce rules alert.ruleId = some r
  absent : ¬ s.Holds alert.id
  none : ∀ {id a}, s.get? id = some a → a.ruleId = alert.ruleId → a.isOpen = false

/-- What an event asks of the store makes sense: an alert is to be admitted, or one of the rule is to be closed. -/
def Expects (rules : List Rule) (opened : RuleId → Option AlertId) (s : AlertStore) : Event → Prop
  | .opened alert => s.Admits rules opened alert
  | .resolved id rule _ _ => ∃ a, s.get? id = some a ∧ a.ruleId = rule

/-! ### Room -/

theorem makeRoom_cases (s : AlertStore) :
    s.makeRoom.size < highWater ∨ ∀ {id a}, s.makeRoom.get? id = some a → s.get? id = some a ∧ a.isOpen = true := by
  rw [makeRoom]
  split
  · refine .inr fun {id a} there => ?_
    rw [get?, Std.TreeMap.get?_eq_getElem?, Std.TreeMap.getElem?_filter'] at there
    exact Option.filter_eq_some_iff.mp there
  · next few => exact .inl (Nat.lt_of_not_le few)

theorem inForce_mem {r : Rule} (known : Rule.inForce rules rule = some r) : rule ∈ rules.map Rule.id :=
  List.mem_map.mpr ⟨r, List.mem_of_find?_eq_some known, Rule.inForce_id known⟩

/-- There is one open record for a rule at most, and none for the rule of an alert that is to be admitted. -/
theorem Calm.room (calm : s.Calm rules ids opened) (few : rules.length ≤ capacity)
    (admits : s.Admits rules opened alert) : s.makeRoom.size < capacity := by
  rcases s.makeRoom_cases with below | shown
  · exact Nat.lt_of_lt_of_le below (by decide)
  · let entries := s.makeRoom.alerts.toList
    have listed {e : AlertId × Alert} (mem : e ∈ entries) : s.get? e.1 = some e.2 ∧ e.2.isOpen = true :=
      shown (Std.TreeMap.mem_toList_iff_getElem?_eq_some.mp mem)
    have keys : (entries.map (·.1)).Nodup := by
      rw [Std.TreeMap.map_fst_toList_eq_keys]
      exact Std.TreeMap.nodup_keys
    have once : (entries.map (·.2.ruleId)).Nodup := by
      refine keys.of_map.map_on fun e mem e' mem' same => ?_
      obtain ⟨there, isOpen⟩ := listed mem
      obtain ⟨there', isOpen'⟩ := listed mem'
      have key := calm.single there there' isOpen isOpen' same
      rw [key] at there
      exact Prod.ext key (Option.some.inj (there.symm.trans there'))
    have fresh : alert.ruleId ∉ entries.map (·.2.ruleId) := fun mem => by
      obtain ⟨e, mem, same⟩ := List.mem_map.mp mem
      obtain ⟨there, isOpen⟩ := listed mem
      exact Bool.false_ne_true ((admits.none there same).symm.trans isOpen)
    have known : alert.ruleId :: entries.map (·.2.ruleId) ⊆ rules.map Rule.id := by
      refine List.cons_subset.mpr ⟨?_, fun rule mem => ?_⟩
      · obtain ⟨r, inForce⟩ := admits.inForce
        exact inForce_mem inForce
      · obtain ⟨e, entry, rfl⟩ := List.mem_map.mp mem
        obtain ⟨there, isOpen⟩ := listed entry
        obtain ⟨r, inForce⟩ := calm.known there isOpen
        exact inForce_mem inForce
    have bound := (List.subperm_of_subset (List.nodup_cons.mpr ⟨fresh, once⟩) known).length_le
    rw [List.length_cons, List.length_map, List.length_map] at bound
    have size : s.makeRoom.size = entries.length := Std.TreeMap.length_toList.symm
    omega

theorem Calm.accepts (calm : s.Calm rules ids opened) (few : rules.length ≤ capacity)
    (expects : s.Expects rules opened event) : (s.take event).2 = .ok () := by
  cases event with
  | opened alert =>
    refine (take_opened calm.available alert).resolve_right fun full => ?_
    exact Nat.not_le_of_lt (calm.room few expects) full.1
  | resolved id rule time reason =>
    obtain ⟨a, there, -⟩ := expects
    exact (take_resolved calm.available rule time reason).1 ⟨a, there⟩

/-! ### What stays -/

theorem Calm.take (calm : s.Calm rules ids opened) (expects : s.Expects rules opened event) :
    (s.take event).1.Calm rules ids opened := by
  have changes := s.changes_take event
  have admits {alert : Alert} (made : event = .opened alert) : s.Admits rules opened alert := by
    subst made
    exact expects
  refine ⟨(available_take s event).trans calm.available, calm.distinct, fun {id a} there isOpen => ?_,
    fun {id id' a a'} there there' isOpen isOpen' same => ?_, fun {id} holds => ?_,
    fun {rule id} opens => ⟨(calm.reserved opens).1, fun {a} there => ?_⟩, calm.apart⟩
  · rcases changes.records there with ⟨before, here, named, -, was⟩ | ⟨made, -⟩
    · exact named ▸ calm.known here (was isOpen)
    · exact (admits made).inForce
  · rcases changes.records there with ⟨before, here, named, -, was⟩ | ⟨made, key⟩ <;>
      rcases changes.records there' with ⟨before', here', named', -, was'⟩ | ⟨made', key'⟩
    · exact calm.single here here' (was isOpen) (was' isOpen') (named.symm.trans (same.trans named'))
    · have shut := (admits made').none here (named.symm.trans same)
      exact absurd (shut.symm.trans (was isOpen)) Bool.false_ne_true
    · have shut := (admits made).none here' (named'.symm.trans same.symm)
      exact absurd (shut.symm.trans (was' isOpen')) Bool.false_ne_true
    · obtain rfl := Event.opened.inj (made.symm.trans made')
      exact key.symm.trans key'
  · rcases changes.holds holds with was | opens
    · exact calm.given was
    · obtain ⟨alert, made, rfl⟩ := Event.eq_opened opens
      exact (calm.reserved (admits made).announced).1
  · rcases changes.records there with ⟨before, here, named, -⟩ | ⟨made, rfl⟩
    · exact named.trans ((calm.reserved opens).2 here)
    · exact calm.apart (admits made).announced opens

/-- What the store holds of other rules. -/
theorem Expects.others {a : Alert} (expects : s.Expects rules opened event) (other : a.ruleId ≠ event.ruleId) :
    ((s.take event).1.get? id = some a → ∃ b, s.get? id = some b ∧ b.ruleId = a.ruleId) ∧
      (a.isOpen = true → ((s.take event).1.get? id = some a ↔ s.get? id = some a)) := by
  have changes := s.changes_take event
  have unmade : event ≠ .opened a := fun made => other (by rw [made]; rfl)
  have unclosed {b : Alert} (here : s.get? id = some b) (named : a.ruleId = b.ruleId) : event.closing? ≠ some id :=
    fun closes => by
      obtain ⟨rule, time, reason, rfl⟩ := Event.eq_resolved closes
      obtain ⟨c, there, known⟩ := expects
      obtain rfl := Option.some.inj (here.symm.trans there)
      exact other (named.trans known)
  refine ⟨fun there => ?_, fun isOpen => ⟨fun there => ?_, fun here => changes.keeps here isOpen (unclosed here rfl)⟩⟩
  · rcases changes.records there with ⟨before, here, named, -⟩ | ⟨made, -⟩
    · exact ⟨before, here, named.symm⟩
    · exact absurd made unmade
  · rcases changes.records there with ⟨before, here, named, -, was⟩ | ⟨made, -⟩
    · have kept := changes.keeps here (was isOpen) (unclosed here named)
      exact (there.symm.trans kept) ▸ here
    · exact absurd made unmade

/-! ### Ids -/

theorem Calm.mono (calm : s.Calm rules ids opened)
    (fewer : ∀ {rule id}, opened' rule = some id → opened rule = some id) : s.Calm rules ids opened' :=
  ⟨calm.available, calm.distinct, calm.known, calm.single, calm.given, fun opens => calm.reserved (fewer opens),
    fun opens opens' => calm.apart (fewer opens) (fewer opens')⟩

theorem Calm.unused (calm : s.Calm rules ids opened) : ¬ ids.Gave ids.next := fun ⟨_, before, same⟩ =>
  Nat.ne_of_lt before (calm.distinct same)

/-- A rule opens an alert under the next id. -/
theorem Calm.draws (calm : s.Calm rules ids opened) (own : opened' rule = some ids.next)
    (others : ∀ {rule'}, rule' ≠ rule → opened' rule' = opened rule') : s.Calm rules ids.advance opened' := by
  have gives {id : AlertId} (gave : ids.Gave id) : ids.advance.Gave id := by
    obtain ⟨n, before, same⟩ := gave
    exact ⟨n, Nat.lt_succ_of_lt before, same⟩
  have gave {rule' : RuleId} {id : AlertId} (other : rule' ≠ rule) (opens : opened' rule' = some id) : ids.Gave id :=
    (calm.reserved ((others other).symm.trans opens)).1
  refine ⟨calm.available, calm.distinct, calm.known, calm.single, fun holds => gives (calm.given holds),
    fun {rule' id} opens => ?_, fun {rule₁ rule₂ id} opens opens' => ?_⟩
  · by_cases same : rule' = rule
    · subst same
      obtain rfl := Option.some.inj (own.symm.trans opens)
      exact ⟨⟨ids.taken, Nat.lt_succ_self _, rfl⟩, fun {a} there => absurd (calm.given ⟨a, there⟩) calm.unused⟩
    · obtain ⟨gave, named⟩ := calm.reserved ((others same).symm.trans opens)
      exact ⟨gives gave, named⟩
  · by_cases first : rule₁ = rule <;> by_cases second : rule₂ = rule
    · exact first.trans second.symm
    · rw [first, own] at opens
      exact absurd (Option.some.inj opens ▸ gave second opens') calm.unused
    · rw [second, own] at opens'
      exact absurd (Option.some.inj opens' ▸ gave first opens) calm.unused
    · exact calm.apart ((others first).symm.trans opens) ((others second).symm.trans opens')

end Admissions

end ThresholdAlerts.AlertStore
