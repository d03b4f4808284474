import DbService.Runs

/-!
# Pacing

A machine whose actions may read a clock does something at some of these readings: it fires.
`record` keeps the last reading and the times of the firings next to the machine's state.  A
firing is `Due` when none went before, or when a whole interval has passed since the last.
A machine that fires only when it is due leaves its firings `Spaced` (`run_spaced`).
-/

namespace Pacing

variable {σ α β : Type*} {interval now : Nat} {fired : List Nat}

/-- No firing yet, or a whole interval since the last. -/
def Due (interval : Nat) (last : Option Nat) (now : Nat) : Prop := ∀ t ∈ last, t + interval ≤ now

instance (interval : Nat) (last : Option Nat) (now : Nat) : Decidable (Due interval last now) :=
  inferInstanceAs (Decidable (∀ t ∈ last, t + interval ≤ now))

/-- Any two firings, the latest first, are an interval apart. -/
def Spaced (interval : Nat) (fired : List Nat) : Prop :=
  fired.Pairwise fun later earlier => earlier + interval ≤ later

instance (interval : Nat) (fired : List Nat) : Decidable (Spaced interval fired) :=
  inferInstanceAs (Decidable (fired.Pairwise fun later earlier => earlier + interval ≤ later))

/-- A firing that is due is an interval after all the others. -/
theorem Spaced.cons (h : Spaced interval fired) (hdue : Due interval fired.head? now) :
    Spaced interval (now :: fired) := by
  refine List.pairwise_cons.mpr ⟨fun t hin => ?_, h⟩
  cases fired with
  | nil => cases hin
  | cons last older =>
      have hlast : last + interval ≤ now := hdue last rfl
      rcases List.mem_cons.mp hin with rfl | holder
      · exact hlast
      · have hgap : t + interval ≤ last := List.rel_of_pairwise_cons h holder
        omega

/-- A state, the last reading of the clock, and the times of the firings, the latest first. -/
structure Recorded (σ : Type*) where
  state : σ
  clock : Nat
  fired : List Nat

/-- Before the first reading. -/
def start (s : σ) : Recorded σ := ⟨s, 0, []⟩

theorem start_spaced (interval : Nat) (s : σ) : Spaced interval (start s).fired :=
  List.Pairwise.nil

/-- The machine with its record: `time` is the reading of an action, and `fires` tells whether
the action fires. -/
def record (step : σ → α → σ × β) (time : α → Option Nat) (fires : σ → α → Bool)
    (r : Recorded σ) (a : α) : Recorded σ × β :=
  match time a with
  | none => (⟨(step r.state a).1, r.clock, r.fired⟩, (step r.state a).2)
  | some now =>
      (⟨(step r.state a).1, now, if fires r.state a then now :: r.fired else r.fired⟩,
        (step r.state a).2)

/-- The clock does not go back. -/
def InOrder (time : α → Option Nat) (r : Recorded σ) (a : α) : Prop := ∀ now ∈ time a, r.clock ≤ now

variable {step : σ → α → σ × β} {time : α → Option Nat} {fires : σ → α → Bool}

/-- An action that reads no clock moves the machine only. -/
theorem record_none {r : Recorded σ} {a : α} (h : time a = none) :
    (record step time fires r a).1 = ⟨(step r.state a).1, r.clock, r.fired⟩ := by
  simp [record, h]

/-- An action that reads the clock leaves the reading, and its time where it fires. -/
theorem record_some {r : Recorded σ} {a : α} (h : time a = some now) :
    (record step time fires r a).1 =
      ⟨(step r.state a).1, now, if fires r.state a then now :: r.fired else r.fired⟩ := by
  simp [record, h]

/-- **A machine that fires only when it is due** leaves its firings an interval apart. -/
theorem run_spaced {r : Recorded σ} (hs : Spaced interval r.fired) {actions : List α}
    (hdue : Runs.Guarded (record step time fires) (fun r a => ∀ now ∈ time a,
      fires r.state a = true → Due interval r.fired.head? now) r actions) :
    Spaced interval (Runs.run (record step time fires) r actions).fired := by
  apply Runs.run_invariant (fun r : Recorded σ => Spaced interval r.fired) _ hs hdue
  intro r a hs hfires
  cases htime : time a with
  | none =>
      rw [record_none htime]
      exact hs
  | some now =>
      rw [record_some htime]
      simp only
      split
      · rename_i hfired
        exact hs.cons (hfires now htime hfired)
      · exact hs

end Pacing
