import Mathlib.Data.List.Nodup
import Mathlib.Algebra.BigOperators.Group.List.Basic
import Mathlib.Algebra.Order.BigOperators.Group.List
import Mathlib.Algebra.Order.Ring.Int

/-!
# Totals over the entries of a map

The sum of a weight over the entries of a finite map, and what inserting and erasing one
entry does to it.  A counter that is corrected entry by entry is such a total; these are
the steps of its invariant.
-/

namespace Totals

variable {κ β : Type*} [Ord κ] [Std.TransOrd κ] [Std.LawfulEqOrd κ]

/-- The sum of `weight` over the entries of a map. -/
def total (weight : κ → β → Int) (map : Std.ExtTreeMap κ β) : Int :=
  (map.toList.map fun entry => weight entry.1 entry.2).sum

variable {weight weight' : κ → β → Int} {map : Std.ExtTreeMap κ β} {k : κ} {v : β}

/-- No entry is listed twice. -/
theorem toList_nodup (map : Std.ExtTreeMap κ β) : map.toList.Nodup := by
  apply map.distinct_keys_toList.imp
  intro a b hne heq
  subst heq
  exact hne Std.ReflCmp.compare_self

/-- The entries of a map, one of them in front. -/
theorem toList_perm (h : map[k]? = some v) :
    map.toList.Perm ((k, v) :: (map.erase k).toList) := by
  have hgone : (k, v) ∉ (map.erase k).toList := by
    rw [Std.ExtTreeMap.mem_toList_iff_getElem?_eq_some]
    simp
  refine (List.perm_ext_iff_of_nodup (toList_nodup map)
    (List.nodup_cons.mpr ⟨hgone, toList_nodup _⟩)).mpr ?_
  intro entry
  obtain ⟨k', v'⟩ := entry
  rw [List.mem_cons, Std.ExtTreeMap.mem_toList_iff_getElem?_eq_some,
    Std.ExtTreeMap.mem_toList_iff_getElem?_eq_some, Std.ExtTreeMap.getElem?_erase]
  by_cases heq : k = k'
  · subst heq
    simp [h, eq_comm]
  · have hcompare : compare k k' ≠ .eq := by simpa using heq
    simp [hcompare, Ne.symm heq]

/-- **One entry apart from the others.** -/
theorem total_of_get (weight : κ → β → Int) (h : map[k]? = some v) :
    total weight map = weight k v + total weight (map.erase k) := by
  unfold total
  rw [((toList_perm h).map _).sum_eq]
  simp

/-- Where there is no entry, erasing changes nothing. -/
theorem erase_of_none (h : map[k]? = none) : map.erase k = map := by
  refine Std.ExtTreeMap.ext_getElem? ?_
  intro k'
  rw [Std.ExtTreeMap.getElem?_erase]
  split
  · rename_i hcompare
    obtain rfl := Std.LawfulEqOrd.eq_of_compare hcompare
    exact h.symm
  · rfl

/-- Erasing what was inserted erases what was there before. -/
theorem erase_insert (map : Std.ExtTreeMap κ β) (k : κ) (v : β) :
    (map.insert k v).erase k = map.erase k := by
  refine Std.ExtTreeMap.ext_getElem? ?_
  intro k'
  rw [Std.ExtTreeMap.getElem?_erase, Std.ExtTreeMap.getElem?_erase,
    Std.ExtTreeMap.getElem?_insert]
  split <;> rfl

/-- **An entry put into a map** counts instead of the one it replaces. -/
theorem total_insert (weight : κ → β → Int) (map : Std.ExtTreeMap κ β) (k : κ) (v : β) :
    total weight (map.insert k v) = weight k v + total weight (map.erase k) := by
  rw [total_of_get (k := k) (v := v) weight (by simp), erase_insert]

omit [Std.LawfulEqOrd κ] in
@[simp] theorem total_empty (weight : κ → β → Int) :
    total weight (∅ : Std.ExtTreeMap κ β) = 0 := by
  simp [total, Std.ExtTreeMap.toList_eq_nil_iff.mpr rfl]

/-- The total depends on the weights of the entries. -/
theorem total_congr
    (h : ∀ k v, map[k]? = some v → weight k v = weight' k v) :
    total weight map = total weight' map := by
  unfold total
  congr 1
  apply List.map_congr_left
  intro entry hin
  exact h entry.1 entry.2 (Std.ExtTreeMap.mem_toList_iff_getElem?_eq_some.mp hin)

/-- A total of weights that are not negative is not negative. -/
theorem total_nonneg (h : ∀ k v, map[k]? = some v → 0 ≤ weight k v) : 0 ≤ total weight map := by
  apply List.sum_nonneg
  intro n hin
  obtain ⟨entry, hentry, rfl⟩ := List.mem_map.mp hin
  exact h entry.1 entry.2 (Std.ExtTreeMap.mem_toList_iff_getElem?_eq_some.mp hentry)

/-- A total of weights that are not negative is zero when all of them are. -/
theorem total_eq_zero_iff (h : ∀ k v, map[k]? = some v → 0 ≤ weight k v) :
    total weight map = 0 ↔ ∀ k v, map[k]? = some v → weight k v = 0 := by
  constructor
  · intro hzero k v hget
    have hsplit := total_of_get weight hget
    have hrest : 0 ≤ total weight (map.erase k) := by
      apply total_nonneg
      intro k' v' hget'
      rw [Std.ExtTreeMap.getElem?_erase] at hget'
      split at hget'
      · cases hget'
      · exact h k' v' hget'
    have hself := h k v hget
    omega
  · intro hall
    have hnothing : total weight map = total (fun _ _ => 0) map := total_congr hall
    rw [hnothing]
    simp [total]

end Totals
