import DbService.ArgumentInjection

/-!
# Simultaneous substitution

What the argument loop of QUERY and CALL is compared with: one pass over the template that
puts the escaped argument in for every placeholder and never looks at what it put in.  The two
agree for all arguments if each placeholder stands in the template exactly once, each left of
the one before it, and in no other case but those in which the loop has nothing to do.

* `occurrences_around` -- counting placeholders around one of them.
-/

namespace ByteText

/-! ## How often a pattern occurs -/

/-- The number of positions at which a non-empty pattern occurs. -/
def occurrences (pattern : Bytes) : Bytes → Nat
  | [] => 0
  | b :: rest =>
      (if pattern.isPrefixOf (b :: rest) then 1 else 0) + occurrences pattern rest

/-- A pattern does not occur where it is not found. -/
theorem occurrences_eq_zero_iff {pattern : Bytes} (hne : pattern ≠ []) (text : Bytes) :
    occurrences pattern text = 0 ↔ find pattern text = none := by
  induction text with
  | nil =>
      cases pattern with
      | nil => exact absurd rfl hne
      | cons b tail => simp [occurrences, find]
  | cons b rest ih =>
      rw [occurrences, find]
      split
      · simp
      · rw [Nat.zero_add, ih, Option.map_eq_none_iff]

section Boundary

variable {b : UInt8} {tail : Bytes}

/-- A pattern that starts with `b` and has no other `b` does not reach over a `b`. -/
theorem prefix_append_iff (hb : b ∉ tail) {text : Bytes} (hne : text ≠ []) (rest : Bytes) :
    (b :: tail) <+: text ++ b :: rest ↔ (b :: tail) <+: text := by
  constructor
  · intro h
    cases text with
    | nil => exact absurd rfl hne
    | cons c text =>
        obtain ⟨rfl, right, hright⟩ := List.cons_prefix_cons.mp h
        refine List.cons_prefix_cons.mpr ⟨rfl, ?_⟩
        rcases List.append_eq_append_iff.mp hright with ⟨middle, htext, -⟩ | ⟨middle, htail, heq⟩
        · exact ⟨middle, htext.symm⟩
        · cases middle with
          | nil => simp [htail]
          | cons d middle =>
              obtain ⟨rfl, -⟩ := List.cons.inj heq
              exact absurd (htail ▸ by simp) hb
  · intro h
    exact h.trans (List.prefix_append _ _)

/-- A pattern cannot reach past a byte that only its first one can be. -/
theorem isPrefixOf_append (hb : b ∉ tail) {text : Bytes} (hne : text ≠ []) (rest : Bytes) :
    (b :: tail).isPrefixOf (text ++ b :: rest) = (b :: tail).isPrefixOf text := by
  rw [Bool.eq_iff_iff, List.isPrefixOf_iff_prefix, List.isPrefixOf_iff_prefix]
  exact prefix_append_iff hb hne rest

/-- So its occurrences are counted on both sides of that byte. -/
theorem occurrences_append (hb : b ∉ tail) (text rest : Bytes) :
    occurrences (b :: tail) (text ++ b :: rest) =
      occurrences (b :: tail) text + occurrences (b :: tail) (b :: rest) := by
  induction text with
  | nil => simp [occurrences]
  | cons c text ih =>
      have hfirst := isPrefixOf_append hb (List.cons_ne_nil c text) rest
      rw [List.cons_append] at hfirst ⊢
      rw [occurrences, hfirst, ih]
      simp only [occurrences]
      omega

/-- A text without the first byte of the pattern adds nothing. -/
theorem occurrences_skip {front : Bytes} (hfront : b ∉ front) (rest : Bytes) :
    occurrences (b :: tail) (front ++ rest) = occurrences (b :: tail) rest := by
  induction front with
  | nil => rfl
  | cons c front ih =>
      have hc : ¬ (b :: tail).isPrefixOf (c :: (front ++ rest)) = true := by
        rw [List.isPrefixOf_iff_prefix]
        intro h
        exact hfront ((List.cons_prefix_cons.mp h).1 ▸ List.mem_cons_self)
      rw [List.cons_append, occurrences, if_neg hc, Nat.zero_add]
      exact ih fun h => hfront (List.mem_cons_of_mem c h)

/-- A pattern found left of a `b` stands there whole. -/
theorem find_left (hb : b ∉ tail) {left rest : Bytes} {pos : Nat}
    (h : find (b :: tail) (left ++ b :: rest) = some pos) (hpos : pos < left.length) :
    find (b :: tail) left = some pos := by
  induction left generalizing pos with
  | nil => exact absurd hpos (Nat.not_lt_zero pos)
  | cons c left ih =>
      have hfirst := isPrefixOf_append hb (List.cons_ne_nil c left) rest
      rw [List.cons_append] at hfirst h
      rw [find, hfirst] at h
      rw [find]
      split
      · rename_i hprefix
        rwa [if_pos hprefix] at h
      · rename_i hprefix
        rw [if_neg hprefix] at h
        obtain ⟨pos', hfind, rfl⟩ := Option.map_eq_some_iff.mp h
        rw [ih hfind (by simpa using hpos)]
        rfl

end Boundary

end ByteText

namespace Db

open ByteText

/-! ## Placeholders in a text -/

/-- Two placeholders at one place are the same. -/
theorem placeholder_prefix_iff (i j : Nat) (right : Bytes) :
    placeholder j <+: placeholder i ++ right ↔ j = i := by
  constructor
  · intro h
    obtain ⟨rest, hrest⟩ := h
    simp only [placeholder, List.cons_append, List.append_assoc, List.cons.injEq, true_and,
      List.nil_append] at hrest
    have hdigits : ∀ (k : Nat) (text : Bytes),
        (decimalNat k ++ 125 :: text).takeWhile (· ≠ 125) = decimalNat k := by
      intro k text
      rw [List.takeWhile_append_of_pos, List.takeWhile_cons_of_neg (by simp), List.append_nil]
      intro d hd
      have hdigit := isDigit_of_mem_decimalNat hd
      have hne : d ≠ 125 := by
        rintro rfl
        exact absurd hdigit (by decide)
      simpa using hne
    have hsame := congrArg (List.takeWhile (· ≠ 125)) hrest
    rw [hdigits, hdigits] at hsame
    exact decimalNat_inj hsame
  · rintro rfl
    exact List.prefix_append _ _

/-- **Counting placeholders** around one of them. -/
theorem occurrences_around (i j : Nat) (left right : Bytes) :
    occurrences (placeholder j) (left ++ (placeholder i ++ right)) =
      occurrences (placeholder j) left + (if j = i then 1 else 0) +
        occurrences (placeholder j) right := by
  obtain ⟨tail, heq, htail⟩ := placeholder_eq j
  obtain ⟨tail', heq', htail'⟩ := placeholder_eq i
  have hfirst : (placeholder j).isPrefixOf (placeholder i ++ right) = decide (j = i) := by
    rw [Bool.eq_iff_iff, List.isPrefixOf_iff_prefix, placeholder_prefix_iff, decide_eq_true_iff]
  rw [heq, heq', List.cons_append] at hfirst
  rw [heq, heq', List.cons_append, occurrences_append htail, occurrences, hfirst,
    occurrences_skip htail', Nat.add_assoc]
  simp

/-- A placeholder occurs where it is found. -/
theorem occurrences_pos_iff (i : Nat) (text : Bytes) :
    0 < occurrences (placeholder i) text ↔ (find (placeholder i) text).isSome := by
  rw [Nat.pos_iff_ne_zero, Ne, occurrences_eq_zero_iff (placeholder_ne_nil i),
    ← Option.ne_none_iff_isSome]

/-! ## All placeholders at once -/

/-- The placeholder, from `{i}` on and of `n`, a text starts with. -/
def placeholderAt (i n : Nat) (text : Bytes) : Option Nat :=
  (List.range' i n).find? fun j => (placeholder j).isPrefixOf text

/-- One pass over a text: each placeholder, from `{i}` on, becomes its escaped argument and
every other byte stays; `nSkip` bytes are still to be passed over. -/
def substituteAll (escape : Bytes → Bytes) (i : Nat) (args : List Bytes) :
    Nat → Bytes → Bytes
  | _, [] => []
  | nSkip + 1, _ :: rest => substituteAll escape i args nSkip rest
  | 0, b :: rest =>
      match placeholderAt i args.length (b :: rest) with
      | some j =>
          escape (argAt i args j) ++
            substituteAll escape i args ((placeholder j).length - 1) rest
      | none => b :: substituteAll escape i args 0 rest

/-- What is recognised at the start of a text is one of the placeholders, -/
theorem placeholderAt_spec {i n j : Nat} {text : Bytes} (h : placeholderAt i n text = some j) :
    i ≤ j ∧ j < i + n ∧ placeholder j <+: text := by
  have hrange := List.mem_range'_1.mp (List.mem_of_find?_eq_some h)
  have hprefix : (placeholder j).isPrefixOf text = true :=
    List.find?_some (p := fun j => (placeholder j).isPrefixOf text) h
  exact ⟨hrange.1, hrange.2, List.isPrefixOf_iff_prefix.mp hprefix⟩

/-- and each of them is. -/
theorem placeholderAt_placeholder {i n j : Nat} (hij : i ≤ j) (hjn : j < i + n) (right : Bytes) :
    placeholderAt i n (placeholder j ++ right) = some j := by
  cases hat : placeholderAt i n (placeholder j ++ right) with
  | none =>
      have hnone := List.find?_eq_none.mp hat j (List.mem_range'_1.mpr ⟨hij, hjn⟩)
      rw [List.isPrefixOf_iff_prefix] at hnone
      exact absurd (List.prefix_append _ _) hnone
  | some k => rw [(placeholder_prefix_iff j k right).mp (placeholderAt_spec hat).2.2]

/-- A placeholder does not reach over the first byte of another. -/
theorem placeholderAt_append {i n : Nat} {text : Bytes} (hne : text ≠ []) (rest : Bytes) :
    placeholderAt i n (text ++ 123 :: rest) = placeholderAt i n text := by
  have hsame : ∀ j, (placeholder j).isPrefixOf (text ++ 123 :: rest) =
      (placeholder j).isPrefixOf text := by
    intro j
    obtain ⟨tail, heq, htail⟩ := placeholder_eq j
    rw [heq]
    exact isPrefixOf_append htail hne rest
  simp only [placeholderAt, hsame]

section SubstituteAll

variable {esc : Bytes → Bytes} {i : Nat} {args : List Bytes}

/-- The bytes of a placeholder that was replaced are passed over. -/
theorem substituteAll_skip (front rest : Bytes) :
    substituteAll esc i args front.length (front ++ rest) = substituteAll esc i args 0 rest := by
  induction front with
  | nil => rfl
  | cons b front ih => simpa [substituteAll] using ih

/-- A placeholder becomes its argument. -/
theorem substituteAll_placeholder {j : Nat} (hij : i ≤ j) (hj : j < i + args.length)
    (right : Bytes) :
    substituteAll esc i args 0 (placeholder j ++ right) =
      esc (argAt i args j) ++ substituteAll esc i args 0 right := by
  have hat := placeholderAt_placeholder hij hj right
  obtain ⟨tail, heq, -⟩ := placeholder_eq j
  rw [heq, List.cons_append] at hat ⊢
  rw [substituteAll, hat]
  simp only [heq, List.length_cons, Nat.add_sub_cancel, substituteAll_skip]

/-- What stands left of a `{` is done on its own. -/
theorem substituteAll_append {nSkip : Nat} {text : Bytes} (hskip : nSkip ≤ text.length)
    (rest : Bytes) :
    substituteAll esc i args nSkip (text ++ 123 :: rest) =
      substituteAll esc i args nSkip text ++ substituteAll esc i args 0 (123 :: rest) := by
  induction text generalizing nSkip with
  | nil =>
      obtain rfl := Nat.le_zero.mp hskip
      rfl
  | cons b text ih =>
      cases nSkip with
      | succ nSkip =>
          rw [List.cons_append, substituteAll, substituteAll]
          exact ih (Nat.le_of_succ_le_succ hskip)
      | zero =>
          have hat := placeholderAt_append (i := i) (n := args.length)
            (List.cons_ne_nil b text) rest
          rw [List.cons_append] at hat ⊢
          rw [substituteAll, substituteAll, hat]
          cases hfound : placeholderAt i args.length (b :: text) with
          | none =>
              simp only [List.cons_append]
              rw [ih (Nat.zero_le _)]
          | some j =>
              obtain ⟨tail, heq, -⟩ := placeholder_eq j
              have hlen := (placeholderAt_spec hfound).2.2.length_le
              simp only [heq, List.length_cons, Nat.add_sub_cancel] at hlen ⊢
              rw [ih (by omega), List.append_assoc]

/-- The parts of a text around a placeholder. -/
theorem substituteAll_around {j : Nat} (hij : i ≤ j) (hj : j < i + args.length)
    (left right : Bytes) :
    substituteAll esc i args 0 (left ++ (placeholder j ++ right)) =
      substituteAll esc i args 0 left ++
        (esc (argAt i args j) ++ substituteAll esc i args 0 right) := by
  have hmiddle : substituteAll esc i args 0 (placeholder j ++ right) =
      esc (argAt i args j) ++ substituteAll esc i args 0 right :=
    substituteAll_placeholder hij hj right
  obtain ⟨tail, heq, -⟩ := placeholder_eq j
  rw [heq, List.cons_append] at hmiddle ⊢
  rw [substituteAll_append (Nat.zero_le _), hmiddle]

/-- A text stays as it is if every placeholder in it is its own argument. -/
theorem substituteAll_self {text : Bytes}
    (h : ∀ j, i ≤ j → j < i + args.length → occurrences (placeholder j) text = 0 ∨
      esc (argAt i args j) = placeholder j) :
    substituteAll esc i args 0 text = text := by
  induction hlen : text.length using Nat.strong_induction_on generalizing text with
  | _ n ih =>
      cases text with
      | nil => rfl
      | cons b rest =>
          rw [substituteAll]
          cases hat : placeholderAt i args.length (b :: rest) with
          | none =>
              have hrest : substituteAll esc i args 0 rest = rest := by
                refine ih rest.length (by simp [← hlen]) (fun j hij hj => ?_) rfl
                refine (h j hij hj).imp_left fun hzero => ?_
                rw [occurrences] at hzero
                omega
              simp only [hrest]
          | some j =>
              obtain ⟨hij, hj, right, hright⟩ := placeholderAt_spec hat
              obtain ⟨tail, heq, -⟩ := placeholder_eq j
              have hcount : ∀ k, occurrences (placeholder k) (b :: rest) =
                  (if k = j then 1 else 0) + occurrences (placeholder k) right := by
                intro k
                rw [← hright]
                simpa [occurrences] using occurrences_around j k [] right
              have hself : esc (argAt i args j) = placeholder j := by
                refine (h j hij hj).resolve_left fun hzero => ?_
                have := hcount j
                simp only [if_true] at this
                omega
              have hbelow : substituteAll esc i args 0 right = right := by
                refine ih right.length ?_ (fun k hik hk => ?_) rfl
                · rw [← hlen, ← hright, heq]
                  simp only [List.cons_append, List.length_cons, List.length_append]
                  omega
                · refine (h k hik hk).imp_left fun hzero => ?_
                  have := hcount k
                  omega
              rw [heq, List.cons_append, List.cons.injEq] at hright
              obtain ⟨rfl, rfl⟩ := hright
              simp only [hself, heq, List.length_cons, Nat.add_sub_cancel, substituteAll_skip,
                hbelow, List.cons_append]

/-- Without `{i}` in the text its argument does not matter. -/
theorem substituteAll_drop {szArg : Bytes} {rest : List Bytes} {nSkip : Nat} {text : Bytes}
    (h : occurrences (placeholder i) text = 0) :
    substituteAll esc i (szArg :: rest) nSkip text = substituteAll esc (i + 1) rest nSkip text := by
  induction text generalizing nSkip with
  | nil => rfl
  | cons b text ih =>
      rw [occurrences] at h
      have hrest : ∀ nSkip, substituteAll esc i (szArg :: rest) nSkip text =
          substituteAll esc (i + 1) rest nSkip text := fun _ => ih (by omega)
      cases nSkip with
      | succ nSkip => exact hrest nSkip
      | zero =>
          have hfirst : (placeholder i).isPrefixOf (b :: text) = false := by
            by_contra hstarts
            rw [Bool.not_eq_false] at hstarts
            rw [hstarts] at h
            simp at h
          have hat : placeholderAt i (szArg :: rest).length (b :: text) =
              placeholderAt (i + 1) rest.length (b :: text) := by
            rw [placeholderAt, List.length_cons, List.range'_succ,
              List.find?_cons_of_neg (by simp [hfirst]), placeholderAt]
          rw [substituteAll, substituteAll, hat]
          cases hfound : placeholderAt (i + 1) rest.length (b :: text) with
          | none => simp only [hrest]
          | some j =>
              have hij := (placeholderAt_spec hfound).1
              obtain ⟨d, rfl⟩ := Nat.exists_eq_add_of_le hij
              have harg : argAt i (szArg :: rest) (i + 1 + d) = argAt (i + 1) rest (i + 1 + d) := by
                have hnext : i + 1 + d - i = d + 1 := by omega
                simp [argAt, hnext]
              simp only [hrest, harg]

end SubstituteAll

end Db
