import Mathlib.Algebra.Order.Ring.Int
import Mathlib.Data.List.Sort

/-!
# Runs of a step function with outputs

A deterministic machine is a step function `step : σ → α → σ × β` from a state and an
action to the next state and an output.  This file collects what every later
argument about whole runs uses:

* `run`, `outputs` -- the state after a list of actions, and the outputs in order;
* `Guarded` -- every action of the run meets a condition in the state where it is taken;
* `Always` -- a property holds in every state the run visits;
* `run_invariant` / `always_of_guarded` -- a step lemma lifts to runs;
* `run_invariant_of_last` -- the step lemma may ask for what only the last state is known to meet;
* `always_iff_guarded` / `guarded_iff_within` -- an exact step condition is exact for runs;
* `total_gain_le` -- a falling potential bounds the steps of a run before its goal;
* `Legal` -- in a history of operations with answers, each was answered as the object answers in
  the state that the earlier ones left;
* `runPartial` -- the run of a machine some of whose steps are undefined, which is that of a
  total machine as long as the steps agree.
-/

namespace Runs

variable {σ α β : Type*}

/-- The state reached from `s` by a list of actions. -/
def run (step : σ → α → σ × β) (s : σ) : List α → σ
  | [] => s
  | a :: rest => run step (step s a).1 rest

/-- The outputs of a list of actions, in order. -/
def outputs (step : σ → α → σ × β) (s : σ) : List α → List β
  | [] => []
  | a :: rest => (step s a).2 :: outputs step (step s a).1 rest

/-- Every action of the run meets `ok` in the state where it is taken. -/
def Guarded (step : σ → α → σ × β) (ok : σ → α → Prop) (s : σ) : List α → Prop
  | [] => True
  | a :: rest => ok s a ∧ Guarded step ok (step s a).1 rest

instance decidableGuarded {step : σ → α → σ × β} {ok : σ → α → Prop}
    [∀ s a, Decidable (ok s a)] (s : σ) : (actions : List α) → Decidable (Guarded step ok s actions)
  | [] => isTrue trivial
  | a :: rest =>
      have : Decidable (Guarded step ok (step s a).1 rest) := decidableGuarded (step s a).1 rest
      inferInstanceAs (Decidable (ok s a ∧ Guarded step ok (step s a).1 rest))

/-- Every state the run visits, the first and the last included, satisfies `p`. -/
def Always (step : σ → α → σ × β) (p : σ → Prop) (s : σ) : List α → Prop
  | [] => p s
  | a :: rest => p s ∧ Always step p (step s a).1 rest

variable {step : σ → α → σ × β} {s : σ}

/-- A run in two parts: the second starts where the first ends. -/
theorem run_append (left right : List α) :
    run step s (left ++ right) = run step (run step s left) right := by
  induction left generalizing s with
  | nil => rfl
  | cons a left ih => exact ih

/-- So do the outputs, -/
theorem outputs_append (left right : List α) :
    outputs step s (left ++ right) =
      outputs step s left ++ outputs step (run step s left) right := by
  induction left generalizing s with
  | nil => rfl
  | cons a left ih => simp only [List.cons_append, outputs, run, ih]

/-- and a guard holds of a run if it holds of both parts. -/
theorem guarded_append {ok : σ → α → Prop} {left right : List α} :
    Guarded step ok s (left ++ right) ↔
      Guarded step ok s left ∧ Guarded step ok (run step s left) right := by
  induction left generalizing s with
  | nil => simp [Guarded, run]
  | cons a left ih => simp only [List.cons_append, Guarded, run, ih, and_assoc]

/-- A weaker guard holds where a stronger one does. -/
theorem Guarded.imp {ok ok' : σ → α → Prop} (himp : ∀ s a, ok s a → ok' s a)
    {actions : List α} (h : Guarded step ok s actions) : Guarded step ok' s actions := by
  induction actions generalizing s with
  | nil => trivial
  | cons a rest ih => exact ⟨himp s a h.1, ih h.2⟩

/-- What holds of every action, whatever the state, may join the guard. -/
theorem Guarded.and_forall {ok : σ → α → Prop} {p : α → Prop} {actions : List α}
    (hp : ∀ a ∈ actions, p a) (h : Guarded step ok s actions) :
    Guarded step (fun s a => p a ∧ ok s a) s actions := by
  induction actions generalizing s with
  | nil => trivial
  | cons a rest ih =>
      refine ⟨⟨hp a List.mem_cons_self, h.1⟩, ih ?_ h.2⟩
      exact fun a' hin => hp a' (List.mem_cons_of_mem _ hin)

/-- **The invariant rule.**  What every guarded step preserves, every guarded run
preserves. -/
theorem run_invariant (inv : σ → Prop) {ok : σ → α → Prop}
    (hstep : ∀ s a, inv s → ok s a → inv (step s a).1)
    (hs : inv s) {actions : List α} (hok : Guarded step ok s actions) :
    inv (run step s actions) := by
  induction actions generalizing s with
  | nil => exact hs
  | cons a rest ih => exact ih (hstep s a hs hok.1) hok.2

/-- The unguarded form: a property of every step is a property of every run. -/
theorem run_preserves (inv : σ → Prop) (hstep : ∀ s a, inv s → inv (step s a).1)
    (hs : inv s) (actions : List α) : inv (run step s actions) := by
  induction actions generalizing s with
  | nil => exact hs
  | cons a rest ih => exact ih (hstep s a hs)

/-- What a step cannot bring back, the last state shows of the first. -/
theorem of_run {p : σ → Prop} (hback : ∀ s a, p (step s a).1 → p s) {actions : List α}
    (h : p (run step s actions)) : p s := by
  induction actions generalizing s with
  | nil => exact h
  | cons a rest ih => exact hback s a (ih h)

/-- **The invariant rule** for steps that keep the invariant if they leave such a state. -/
theorem run_invariant_of_last (inv : σ → Prop) {p : σ → Prop} {ok : σ → α → Prop}
    (hback : ∀ s a, p (step s a).1 → p s)
    (hstep : ∀ s a, inv s → ok s a → p (step s a).1 → inv (step s a).1)
    (hs : inv s) {actions : List α} (hok : Guarded step ok s actions)
    (hlast : p (run step s actions)) : inv (run step s actions) := by
  induction actions generalizing s with
  | nil => exact hs
  | cons a rest ih => exact ih (hstep s a hs hok.1 (of_run hback hlast)) hok.2 hlast

/-- What always holds, holds at the start, -/
theorem Always.head {p : σ → Prop} {actions : List α} (h : Always step p s actions) : p s := by
  cases actions with
  | nil => exact h
  | cons a rest => exact h.1

/-- implies what always follows, -/
theorem Always.imp {p q : σ → Prop} (himp : ∀ s, p s → q s) {actions : List α}
    (h : Always step p s actions) : Always step q s actions := by
  induction actions generalizing s with
  | nil => exact himp s h
  | cons a rest ih => exact ⟨himp s h.1, ih h.2⟩

/-- and holds at the end. -/
theorem Always.last {p : σ → Prop} {actions : List α} (h : Always step p s actions) :
    p (run step s actions) := by
  induction actions generalizing s with
  | nil => exact h
  | cons a rest ih => exact ih h.2

/-- The rest of such a run is such a run. -/
theorem Always.append_right {p : σ → Prop} {left right : List α}
    (h : Always step p s (left ++ right)) : Always step p (run step s left) right := by
  induction left generalizing s with
  | nil => exact h
  | cons a left ih => exact ih h.2

/-- The same invariant holds in every state on the way. -/
theorem always_of_guarded (inv : σ → Prop) {ok : σ → α → Prop}
    (hstep : ∀ s a, inv s → ok s a → inv (step s a).1)
    (hs : inv s) {actions : List α} (hok : Guarded step ok s actions) :
    Always step inv s actions := by
  induction actions generalizing s with
  | nil => exact hs
  | cons a rest ih => exact ⟨hs, ih (hstep s a hs hok.1) hok.2⟩

/-- **Exact conditions lift.**  If, from states satisfying the invariant, an allowed step keeps
the invariant exactly when it meets `ok`, then an allowed run keeps it in every state exactly
when all its steps meet `ok`.  A property `side` that every step keeps may be used. -/
theorem always_iff_guarded_within (inv : σ → Prop) (side : σ → Prop) {allowed ok : σ → α → Prop}
    (hside : ∀ s a, side s → side (step s a).1)
    (hstep : ∀ s a, side s → inv s → allowed s a → (inv (step s a).1 ↔ ok s a))
    (hs : side s) (hinv : inv s) {actions : List α} (hallowed : Guarded step allowed s actions) :
    Always step inv s actions ↔ Guarded step ok s actions := by
  induction actions generalizing s with
  | nil => exact ⟨fun _ => trivial, fun _ => hinv⟩
  | cons a rest ih =>
      have hnext := hside s a hs
      have hexact := hstep s a hs hinv hallowed.1
      constructor
      · intro hcase
        obtain ⟨_, htail⟩ := hcase
        have hinv' : inv (step s a).1 := htail.head
        exact ⟨hexact.mp hinv', (ih hnext hinv' hallowed.2).mp htail⟩
      · intro hcase
        obtain ⟨hok, htail⟩ := hcase
        have hinv' : inv (step s a).1 := hexact.mpr hok
        exact ⟨hinv, (ih hnext hinv' hallowed.2).mpr htail⟩

/-- **Conditions that agree** in the states satisfying an invariant guard the same allowed
runs. -/
theorem guarded_iff_within (inv : σ → Prop) {allowed ok ok' : σ → α → Prop}
    (hinv : ∀ s a, inv s → allowed s a → inv (step s a).1)
    (hagree : ∀ s a, inv s → allowed s a → (ok s a ↔ ok' s a)) (hs : inv s)
    {actions : List α} (hallowed : Guarded step allowed s actions) :
    Guarded step ok s actions ↔ Guarded step ok' s actions := by
  induction actions generalizing s with
  | nil => exact Iff.rfl
  | cons a rest ih =>
      have hhead := hagree s a hs hallowed.1
      have htail := ih (hinv s a hs hallowed.1) hallowed.2
      exact and_congr hhead htail

/-- Every run meets the guard that asks for nothing. -/
theorem guarded_true (actions : List α) : Guarded step (fun _ _ => True) s actions := by
  induction actions generalizing s with
  | nil => trivial
  | cons a rest ih => exact ⟨trivial, ih⟩

/-- The form for runs of any steps. -/
theorem always_iff_guarded (inv : σ → Prop) (side : σ → Prop) {ok : σ → α → Prop}
    (hside : ∀ s a, side s → side (step s a).1)
    (hstep : ∀ s a, side s → inv s → (inv (step s a).1 ↔ ok s a))
    (hs : side s) (hinv : inv s) (actions : List α) :
    Always step inv s actions ↔ Guarded step ok s actions :=
  always_iff_guarded_within inv side hside (fun s a hs hinv _ => hstep s a hs hinv) hs hinv
    (guarded_true actions)

/-- An unguarded run has a first step that goes wrong. -/
theorem exists_first {ok : σ → α → Prop} {actions : List α}
    (h : ¬ Guarded step ok s actions) :
    ∃ left a right, actions = left ++ a :: right ∧ Guarded step ok s left ∧
      ¬ ok (run step s left) a := by
  induction actions generalizing s with
  | nil => exact absurd trivial h
  | cons a rest ih =>
      by_cases hok : ok s a
      · have hrest : ¬ Guarded step ok (step s a).1 rest := fun htail => h ⟨hok, htail⟩
        obtain ⟨left, b, right, heq, hleft, hbad⟩ := ih hrest
        exact ⟨a :: left, b, right, by rw [heq]; rfl, ⟨hok, hleft⟩, hbad⟩
      · exact ⟨[], a, rest, rfl, trivial, hok⟩

/-- Conditions on the states before and after a step guard it. -/
theorem guarded_of_always (inv : σ → Prop) {p : σ → Prop} {ok : σ → α → Prop}
    (hinv : ∀ s a, inv s → inv (step s a).1)
    (hstep : ∀ s a, inv s → p s → p (step s a).1 → ok s a)
    (hs : inv s) {actions : List α} (h : Always step p s actions) :
    Guarded step ok s actions := by
  induction actions generalizing s with
  | nil => trivial
  | cons a rest ih =>
      obtain ⟨hhead, htail⟩ := h
      exact ⟨hstep s a hs hhead htail.head, ih (hinv s a hs) htail⟩

/-! ## Progress -/

/-- The sum of a weight over the steps of a run. -/
def total (step : σ → α → σ × β) (weight : σ → α → Nat) (s : σ) : List α → Nat
  | [] => 0
  | a :: rest => weight s a + total step weight (step s a).1 rest

/-- Weights add up over the parts of a run. -/
theorem total_append {weight : σ → α → Nat} (left right : List α) :
    total step weight s (left ++ right) =
      total step weight s left + total step weight (run step s left) right := by
  induction left generalizing s with
  | nil => exact (Nat.zero_add _).symm
  | cons a left ih => rw [List.cons_append, total, total, ih, run, Nat.add_assoc]

/-- Counting actions is adding a weight of one for each. -/
theorem total_countP (p : α → Bool) (actions : List α) :
    total step (fun _ a => (p a).toNat) s actions = actions.countP p := by
  induction actions generalizing s with
  | nil => rfl
  | cons a rest ih =>
      rw [total, ih, List.countP_cons, Nat.add_comm]
      cases p a <;> rfl

/-- A common factor of the weights comes out of the total. -/
theorem total_mul (k : Nat) {weight : σ → α → Nat} {actions : List α} :
    total step (fun s a => k * weight s a) s actions = k * total step weight s actions := by
  induction actions generalizing s with
  | nil => rfl
  | cons a rest ih => rw [total, total, ih, Nat.mul_add]

/-- The total of a sum of weights is the sum of the totals. -/
theorem total_add {left right : σ → α → Nat} {actions : List α} :
    total step (fun s a => left s a + right s a) s actions =
      total step left s actions + total step right s actions := by
  induction actions generalizing s with
  | nil => rfl
  | cons a rest ih =>
      rw [total, total, total, ih]
      omega

/-- The steps of a run make up what a quantity grows by. -/
theorem total_growth {f : σ → Nat} (hgrows : ∀ s a, f s ≤ f (step s a).1) (actions : List α) :
    f s + total step (fun s a => f (step s a).1 - f s) s actions = f (run step s actions) := by
  induction actions generalizing s with
  | nil => rfl
  | cons a rest ih =>
      have hrest := ih (s := (step s a).1)
      have hstep := hgrows s a
      rw [total, run]
      omega

/-- **The progress rule.**  A potential that falls with every step before the goal by what the
step gains, except for what it loses, bounds what a run gains before it is at the goal. -/
theorem total_gain_le (inv done : σ → Prop) (potential : σ → Nat) {gain loss : σ → α → Nat}
    (hinv : ∀ s a, inv s → inv (step s a).1)
    (hdone : ∀ s a, inv s → done s → done (step s a).1)
    (hstep : ∀ s a, inv s → ¬ done s →
      potential (step s a).1 + gain s a ≤ potential s + loss s a)
    (hs : inv s) {actions : List α} (hlast : ¬ done (run step s actions)) :
    total step gain s actions ≤ potential s + total step loss s actions := by
  induction actions generalizing s with
  | nil => exact Nat.zero_le _
  | cons a rest ih =>
      have hnot : ¬ done s := by
        intro hd
        refine hlast (run_preserves (fun s => inv s ∧ done s) ?_ ⟨hs, hd⟩ (a :: rest)).2
        exact fun s a h => ⟨hinv s a h.1, hdone s a h.1 h.2⟩
      have htail := ih (hinv s a hs) hlast
      have hhead := hstep s a hs hnot
      rw [total, total]
      omega

/-! ## Histories of one object -/

section Histories

variable {ω ο ρ : Type*} (after : ω → ο → ρ → ω) (answers : ω → ο → ρ → Prop)

/-- The state of an object after some operations, each with its answer. -/
def stateAfter (s : ω) (history : List (ο × ρ)) : ω :=
  history.foldl (fun s op => after s op.1 op.2) s

/-- **A history is legal** when each operation was answered as the object answers in the state
that the earlier ones left. -/
def Legal (s : ω) : List (ο × ρ) → Prop
  | [] => True
  | op :: rest => answers s op.1 op.2 ∧ Legal (after s op.1 op.2) rest

variable {after answers} {s : ω}

theorem stateAfter_append (left right : List (ο × ρ)) :
    stateAfter after s (left ++ right) = stateAfter after (stateAfter after s left) right :=
  List.foldl_append

/-- A history in two parts is legal if the second is from where the first ends. -/
theorem legal_append {left right : List (ο × ρ)} :
    Legal after answers s (left ++ right) ↔
      Legal after answers s left ∧ Legal after answers (stateAfter after s left) right := by
  induction left generalizing s with
  | nil => simp [Legal, stateAfter]
  | cons op left ih =>
      simp only [List.cons_append, Legal, ih, and_assoc]
      rfl

/-- Each of its operations was answered in some state. -/
theorem Legal.answered {history : List (ο × ρ)} (h : Legal after answers s history) {op : ο × ρ}
    (hin : op ∈ history) : ∃ s', answers s' op.1 op.2 := by
  induction history generalizing s with
  | nil => cases hin
  | cons first rest ih =>
      rcases List.mem_cons.mp hin with rfl | hrest
      · exact ⟨s, h.1⟩
      · exact ih h.2 hrest

end Histories

/-! ## Undefined steps -/

/-- The state after a list of actions; `none` once a step is undefined. -/
def runPartial (stepPartial : σ → α → Option (σ × β)) (s : σ) : List α → Option σ
  | [] => some s
  | a :: rest => (stepPartial s a).bind fun next => runPartial stepPartial next.1 rest

/-- **Steps that agree** with those of a total machine make the same run, so that what is known of
the runs of the total machine holds of the partial one. -/
theorem runPartial_eq_run {stepPartial : σ → α → Option (σ × β)} {actions : List α}
    (h : Guarded step (fun s a => stepPartial s a = some (step s a)) s actions) :
    runPartial stepPartial s actions = some (run step s actions) := by
  induction actions generalizing s with
  | nil => rfl
  | cons a rest ih =>
      obtain ⟨hstep, htail⟩ := h
      rw [runPartial, hstep, Option.bind_some, ih htail]
      rfl

end Runs
