import Mathlib.Algebra.Order.Ring.Int

/-!
# Ledgers of changes and writes

A history, the oldest event first, in which items are changed and written.  An item is
`Unwritten` when it was changed and not written since.  `OncePerChange` says that each write
is of an item that is unwritten; writes of different unwritten items keep it
(`OncePerChange.writes`).
-/

namespace Ledger

variable {κ : Type*}

/-- What happens to an item. -/
inductive Event (κ : Type*)
  | changed (item : κ)
  | written (item : κ)
  deriving DecidableEq

/-- The item was changed, and not written since. -/
def Unwritten (events : List (Event κ)) (item : κ) : Prop :=
  ∃ before after, events = before ++ .changed item :: after ∧ .written item ∉ after

/-- Each write of an item has a change of it before it, with no other write in between. -/
def OncePerChange (events : List (Event κ)) : Prop :=
  ∀ before item after, events = before ++ .written item :: after → Unwritten before item

variable {events : List (Event κ)} {item item' : κ}

/-- What the last event does to an item. -/
theorem unwritten_concat (event : Event κ) :
    Unwritten (events ++ [event]) item ↔
      event = .changed item ∨ event ≠ .written item ∧ Unwritten events item := by
  constructor
  · intro h
    obtain ⟨before, after, heq, hafter⟩ := h
    rcases List.eq_nil_or_concat after with rfl | ⟨after', last, rfl⟩
    · exact .inl (List.head_eq_of_cons_eq (List.append_inj' heq rfl).2)
    · rw [List.concat_eq_append, ← List.cons_append, ← List.append_assoc] at heq
      obtain ⟨rfl, hlast⟩ := List.append_inj' heq rfl
      obtain rfl := List.head_eq_of_cons_eq hlast
      simp only [List.concat_eq_append, List.mem_append, List.mem_singleton, not_or] at hafter
      exact .inr ⟨Ne.symm hafter.2, before, after', rfl, hafter.1⟩
  · rintro (rfl | ⟨hne, before, after, rfl, hafter⟩)
    · exact ⟨events, [], rfl, List.not_mem_nil⟩
    · refine ⟨before, after ++ [event], by simp, ?_⟩
      simp only [List.mem_append, List.mem_singleton, not_or]
      exact ⟨hafter, Ne.symm hne⟩

theorem unwritten_changed :
    Unwritten (events ++ [.changed item']) item ↔ item' = item ∨ Unwritten events item := by
  simp [unwritten_concat]

theorem unwritten_written :
    Unwritten (events ++ [.written item']) item ↔ item' ≠ item ∧ Unwritten events item := by
  simp [unwritten_concat]

/-- Several writes. -/
theorem unwritten_writes (items : List κ) :
    Unwritten (events ++ items.map .written) item ↔ item ∉ items ∧ Unwritten events item := by
  induction items generalizing events with
  | nil => simp
  | cons first rest ih =>
      rw [List.map_cons, ← List.singleton_append, ← List.append_assoc, ih, unwritten_written,
        List.mem_cons, not_or, ← and_assoc, and_comm (a := item ∉ rest), eq_comm (a := item)]

theorem oncePerChange_nil : OncePerChange ([] : List (Event κ)) := by
  intro before item after heq
  cases before <;> cases heq

/-- A history with one more event: the write of an item is of one that was unwritten. -/
theorem oncePerChange_concat (event : Event κ) :
    OncePerChange (events ++ [event]) ↔
      OncePerChange events ∧ ∀ item, event = .written item → Unwritten events item := by
  constructor
  · intro h
    refine ⟨fun before item after heq => ?_, fun item heq => ?_⟩
    · exact h before item (after ++ [event]) (by simp [heq])
    · exact h events item [] (by rw [heq])
  · intro hcase before item after heq
    obtain ⟨h, hlast⟩ := hcase
    rcases List.eq_nil_or_concat after with rfl | ⟨after', last, rfl⟩
    · obtain ⟨rfl, hevent⟩ := List.append_inj' heq rfl
      exact hlast item (List.head_eq_of_cons_eq hevent)
    · rw [List.concat_eq_append, ← List.cons_append, ← List.append_assoc] at heq
      obtain ⟨rfl, _⟩ := List.append_inj' heq rfl
      exact h before item after' rfl

/-- **Different unwritten items** may be written, one after the other. -/
theorem OncePerChange.writes (h : OncePerChange events) {items : List κ} (hnodup : items.Nodup)
    (hunwritten : ∀ item ∈ items, Unwritten events item) :
    OncePerChange (events ++ items.map .written) := by
  induction items generalizing events with
  | nil => simpa using h
  | cons first rest ih =>
      obtain ⟨hnotin, hrest⟩ := List.nodup_cons.mp hnodup
      have hfirst := hunwritten first List.mem_cons_self
      rw [List.map_cons, ← List.singleton_append, ← List.append_assoc]
      apply ih ((oncePerChange_concat _).mpr ⟨h, ?_⟩) hrest
      · intro item hin
        refine unwritten_written.mpr ⟨?_, hunwritten item (List.mem_cons_of_mem _ hin)⟩
        rintro rfl
        exact hnotin hin
      · rintro item ⟨⟩
        exact hfirst

end Ledger
