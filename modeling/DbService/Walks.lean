import Mathlib.Data.List.Sort
import Mathlib.Algebra.Order.Ring.Int

/-!
# Walking a list that grows

A walk along a list sorted by a key visits the entries up to a bound and ends at the first one
beyond it, while new entries are inserted into the list under it.  An entry with a key that is
not below the bound goes in front of the walk, or behind entries the walk visits anyway:
`insert_split` says where, and `ends_of_decreasing` is the rule by which such a walk ends.
-/

namespace Walks

/-- **A walk ends** when each round takes the first of two numbers down, or keeps it and takes
the second one down. -/
theorem ends_of_decreasing {σ : Type*} (round : σ → σ) (done : σ → Prop) (at' : σ → ℕ → ℕ → Prop)
    (hround : ∀ s first second, at' s first second → done (round s) ∨
      ∃ first' second', at' (round s) first' second' ∧
        (first' < first ∨ first' = first ∧ second' < second))
    {s : σ} {first second : ℕ} (h : at' s first second) : ∃ n, done (round^[n] s) := by
  induction first using Nat.strong_induction_on generalizing s second with
  | _ first ihFirst =>
    induction second using Nat.strong_induction_on generalizing s with
    | _ second ihSecond =>
      rcases hround s first second h with hdone | ⟨first', second', hnext, hless⟩
      · exact ⟨1, hdone⟩
      · have hrest : ∃ n, done (round^[n] (round s)) := by
          rcases hless with hless | ⟨rfl, hless⟩
          · exact ihFirst first' hless hnext
          · exact ihSecond second' hless hnext
        obtain ⟨n, hn⟩ := hrest
        exact ⟨n + 1, hn⟩

section

variable {α κ : Type*} [LinearOrder κ] (key : α → κ) (bound : κ)

/-- The entries a walk up to `bound` visits before any entry at the bound. -/
def before (list : List α) : ℕ := list.countP fun a => key a < bound

/-- The entries a walk up to `bound` visits. -/
def upTo (list : List α) : ℕ := list.countP fun a => key a ≤ bound

variable {key bound} {r : α → α → Prop} [DecidableRel r] (hr : ∀ a b, r a b ↔ key a ≤ key b)

omit [LinearOrder κ] in
/-- An element that is before one of the first part goes into the first part, -/
theorem orderedInsert_append_left {left right : List α} {a : α} (h : ∃ b ∈ left, r a b) :
    (left ++ right).orderedInsert r a = left.orderedInsert r a ++ right := by
  induction left with
  | nil => simp at h
  | cons b left ih =>
      by_cases hab : r a b
      · simp [hab]
      · obtain ⟨c, hc, hac⟩ := h
        have hin : c ∈ left := (List.mem_cons.mp hc).resolve_left fun heq => hab (heq ▸ hac)
        simp [hab, ih ⟨c, hin, hac⟩]

omit [LinearOrder κ] in
/-- and one that is before none of them goes into the second. -/
theorem orderedInsert_append_right {left right : List α} {a : α} (h : ∀ b ∈ left, ¬ r a b) :
    (left ++ right).orderedInsert r a = left ++ right.orderedInsert r a := by
  induction left with
  | nil => rfl
  | cons b left ih =>
      have hrest := ih fun c hc => h c (List.mem_cons_of_mem _ hc)
      simp [h b List.mem_cons_self, hrest]

include hr

/-- **Where a new entry goes.**  The walk has `rest` before it.  Its position stays, it meets no
more entries below the bound, and no more entries at all if none was below. -/
theorem insert_split {a : α} (hbound : bound ≤ key a) (left rest : List α) :
    ∃ left' rest', (left ++ rest).orderedInsert r a = left' ++ rest' ∧
      rest'.head? = rest.head? ∧ (∀ b ∈ left', b = a ∨ b ∈ left) ∧
      before key bound rest' = before key bound rest ∧
      (before key bound rest = 0 → upTo key bound rest' = upTo key bound rest) := by
  by_cases hleft : ∃ b ∈ left, r a b
  · refine ⟨left.orderedInsert r a, rest, orderedInsert_append_left hleft, rfl, ?_, rfl,
      fun _ => rfl⟩
    simp [List.mem_orderedInsert]
  · push Not at hleft
    rw [orderedInsert_append_right hleft]
    cases rest with
    | nil => exact ⟨left ++ [a], [], by simp, rfl, by simp [or_comm], rfl, fun _ => rfl⟩
    | cons b rest =>
        by_cases hab : r a b
        · exact ⟨left ++ [a], b :: rest, by simp [hab], rfl, by simp [or_comm], rfl, fun _ => rfl⟩
        · -- The walk stands at an entry before the new one.
          have hlt : key b < key a := not_le.mp fun hle => hab ((hr a b).mpr hle)
          have hperm := (List.perm_orderedInsert r a rest).cons b
          refine ⟨left, b :: rest.orderedInsert r a, by simp [hab], rfl, fun c hc => .inr hc,
            ?_, ?_⟩
          · rw [before, hperm.countP_eq]
            simp [before, not_lt.mpr hbound, List.countP_cons]
          · intro hnone
            have hb : ¬ key b < bound := by
              have hall := List.countP_eq_zero.mp hnone b List.mem_cons_self
              simpa using hall
            have hbeyond : ¬ key a ≤ bound := not_le.mpr (lt_of_le_of_lt (not_lt.mp hb) hlt)
            rw [upTo, hperm.countP_eq]
            simp [upTo, hbeyond, List.countP_cons]

end

end Walks
