import Std.Data.TreeMap
/-! The values of a map, in terms of its bindings. -/
namespace ThresholdAlerts

variable {α β : Type} {cmp : α → α → Ordering} {t : Std.TreeMap α β cmp}

theorem values_eq_toList (t : Std.TreeMap α β cmp) : t.values = t.toList.map (·.2) := by
  have values : t.values = t.inner.inner.toListModel.map (·.2) :=
    Std.DTreeMap.Internal.Impl.values_eq_map_snd
  have bindings : t.toList = t.inner.inner.toListModel.map fun e => (e.1, e.2) :=
    Std.DTreeMap.Internal.Impl.Const.toList_eq_toListModel_map
  rw [values, bindings, List.map_map]
  rfl

theorem mem_values [Std.TransCmp cmp] [Std.LawfulEqCmp cmp] {b : β} :
    b ∈ t.values ↔ ∃ a : α, t[a]? = some b := by
  simp [values_eq_toList, Std.TreeMap.mem_toList_iff_getElem?_eq_some]

end ThresholdAlerts
