import Mathlib.Logic.Function.Basic

/-!
# Write-back stores

A store holds a value at every address.  In front of it, a cache holds writes that are still
to be made, at most one for an address, each a function of the value it finds.  What the
store is meant to hold is what it holds once they are made (`meant`).  An address is settled
when its write, if it has one, would change nothing there.

* `meant_make`, `settled_make` -- making a pending write keeps the meaning and settles;
* `meant_forget` -- so does forgetting writes at settled addresses;
* `meant_absorb` -- taking up a write changes the meaning at its address alone;
* `meant_pass` -- so does a value put past the cache where no write is pending afterwards;
* `Settles` -- what a pass of write-back owes the store, composed write by write.
-/

namespace WriteBack

variable {κ ρ : Type*}

/-- The value an address holds once its pending write is made. -/
def meant (pending : κ → Option (ρ → ρ)) (stored : κ → ρ) (k : κ) : ρ :=
  match pending k with
  | none => stored k
  | some w => w (stored k)

/-- The store already holds what it is meant to hold at this address. -/
def Settled (pending : κ → Option (ρ → ρ)) (stored : κ → ρ) (k : κ) : Prop :=
  meant pending stored k = stored k

variable {pending pending' : κ → Option (ρ → ρ)} {stored : κ → ρ} {k : κ} {w : ρ → ρ}

theorem meant_of_none (h : pending k = none) : meant pending stored k = stored k := by
  simp [meant, h]

theorem meant_of_some (h : pending k = some w) : meant pending stored k = w (stored k) := by
  simp [meant, h]

/-- Without a pending write an address is settled. -/
theorem settled_of_none (h : pending k = none) : Settled pending stored k :=
  meant_of_none h

/-- A write that would change nothing settles its address. -/
theorem settled_of_fixed (h : pending k = some w) (hfixed : w (stored k) = stored k) :
    Settled pending stored k :=
  (meant_of_some h).trans hfixed

/-- Where everything is settled the store holds what it is meant to hold. -/
theorem meant_of_settled (h : ∀ k, Settled pending stored k) : meant pending stored = stored :=
  funext h

/-- The meaning at an address depends on nothing else. -/
theorem meant_congr {stored' : κ → ρ} (hpending : pending' k = pending k)
    (hstored : stored' k = stored k) : meant pending' stored' k = meant pending stored k := by
  simp only [meant, hpending, hstored]

/-- **Forgetting is safe where it is settled.** -/
theorem meant_forget (h : ∀ k, pending' k = pending k ∨
      pending' k = none ∧ Settled pending stored k) :
    meant pending' stored = meant pending stored := by
  funext k
  rcases h k with hsame | ⟨hnone, hsettled⟩
  · exact meant_congr hsame rfl
  · rw [meant_of_none hnone]
    exact hsettled.symm

variable [DecidableEq κ]

/-- **Making a pending write** that may be made twice keeps the meaning of the store. -/
theorem meant_make (h : pending k = some w) (hidem : ∀ r, w (w r) = w r) :
    meant pending (Function.update stored k (w (stored k))) = meant pending stored := by
  funext k'
  by_cases heq : k' = k
  · subst heq
    rw [meant_of_some h, meant_of_some h, Function.update_self, hidem]
  · exact meant_congr rfl (Function.update_of_ne heq ..)

/-- It settles its own address and unsettles none. -/
theorem settled_make (h : pending k = some w) (hidem : ∀ r, w (w r) = w r) {k' : κ}
    (hk : k' = k ∨ Settled pending stored k') :
    Settled pending (Function.update stored k (w (stored k))) k' := by
  by_cases heq : k' = k
  · subst heq
    apply settled_of_fixed h
    rw [Function.update_self, hidem]
  · have hsettled : Settled pending stored k' := hk.resolve_left heq
    unfold Settled at *
    rw [meant_make h hidem, hsettled, Function.update_of_ne heq]

/-- **Taking up a write** changes the meaning at its address alone. -/
theorem meant_absorb (hother : ∀ k', k' ≠ k → pending' k' = pending k')
    (h : pending' k = some w) :
    meant pending' stored = Function.update (meant pending stored) k (w (stored k)) := by
  funext k'
  by_cases heq : k' = k
  · subst heq
    rw [meant_of_some h, Function.update_self]
  · rw [Function.update_of_ne heq]
    exact meant_congr (hother k' heq) rfl

/-- **A value put past the cache** takes effect where no write is pending afterwards. -/
theorem meant_pass (hother : ∀ k', k' ≠ k → pending' k' = pending k') (h : pending' k = none)
    (r : ρ) :
    meant pending' (Function.update stored k r) =
      Function.update (meant pending stored) k r := by
  funext k'
  by_cases heq : k' = k
  · subst heq
    rw [meant_of_none h, Function.update_self, Function.update_self]
  · rw [Function.update_of_ne heq]
    exact meant_congr (hother k' heq) (Function.update_of_ne heq ..)

/-- **A pass:** the meaning is kept, what was settled stays so, and so are the addresses in
`done`. -/
structure Settles (pending : κ → Option (ρ → ρ)) (stored stored' : κ → ρ) (done : κ → Prop) :
    Prop where
  meant : meant pending stored' = meant pending stored
  kept : ∀ k, Settled pending stored k → Settled pending stored' k
  done : ∀ k, done k → Settled pending stored' k

omit [DecidableEq κ] in
/-- A pass that writes nothing. -/
theorem Settles.refl (pending : κ → Option (ρ → ρ)) (stored : κ → ρ) :
    Settles pending stored stored fun _ => False where
  meant := rfl
  kept := fun _ h => h
  done := fun _ h => h.elim

omit [DecidableEq κ] in
/-- One pass after the other. -/
theorem Settles.trans {stored₁ stored₂ stored₃ : κ → ρ} {done done' : κ → Prop}
    (h : Settles pending stored₁ stored₂ done) (h' : Settles pending stored₂ stored₃ done') :
    Settles pending stored₁ stored₃ fun k => done k ∨ done' k where
  meant := h'.meant.trans h.meant
  kept := fun k hk => h'.kept k (h.kept k hk)
  done := fun k hk => hk.elim (fun hdone => h'.kept k (h.done k hdone)) (h'.done k)

omit [DecidableEq κ] in
/-- A pass owes less when less is asked of it. -/
theorem Settles.mono {stored' : κ → ρ} {done done' : κ → Prop}
    (h : Settles pending stored stored' done)
    (himp : ∀ k, done' k → done k ∨ Settled pending stored k) :
    Settles pending stored stored' done' where
  meant := h.meant
  kept := h.kept
  done := fun k hk => (himp k hk).elim (h.done k) (h.kept k)

/-- The pass that makes one pending write. -/
theorem Settles.make (stored : κ → ρ) (h : pending k = some w) (hidem : ∀ r, w (w r) = w r) :
    Settles pending stored (Function.update stored k (w (stored k))) (fun k' => k' = k) where
  meant := meant_make h hidem
  kept := fun _ hk => settled_make h hidem (.inr hk)
  done := fun _ hk => settled_make h hidem (.inl hk)

end WriteBack
