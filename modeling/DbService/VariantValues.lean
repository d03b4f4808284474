import DbService.DbVariant

/-!
# The values of the variants

The purpose of a `CDbVariant` is a store of values: a construction or assignment puts a value
under a name, a copy puts one name's value under another, a move takes it away from the first.
The memory of `db_variant.cpp` represents such a store, with an array for each string value
that this variant alone owns, and every member function keeps that.  What a variant prints
follows: the bytes of a string, and the number an integer became in the signed word.

* `run`, `foldlM_run` -- an operation, and a program, does to the memory what it does to the
  store;
* `variants_carry_values_iff` -- so variants print what they were given, and no array is lost;
* `large_integer_prints_negative` -- `2 ^ 63`.
-/

namespace Db

open ByteText

/-- What a variant is given. -/
inductive VariantValue
  | integer (value : IntegerValue)
  | double (nBits : UInt64)
  | string (value : Bytes)

/-- The variants alive with their values; `some none` is a variant without a value. -/
abbrev ValueStore := Nat → Option (Option VariantValue)

/-! ## Programs over variants -/

/-- The operations on variants: the constructors, the assignments, the destructor and `toString`.
-/
inductive VariantOp
  | construct (x : Nat)
  | constructFrom (x : Nat) (value : VariantValue)
  /-- From a character pointer, which may be null, and a length. -/
  | constructChars (x : Nat) (value : Option Bytes) (nLen : UInt32)
  | assign (x : Nat) (value : VariantValue)
  | copyConstruct (x rhs : Nat)
  | copyAssign (x rhs : Nat)
  | moveAssign (x rhs : Nat)
  | destroy (x : Nat)

namespace VariantOp

/-- What the source does. -/
def run (mem : VariantMemory) : VariantOp → Option VariantMemory
  | construct x => some (CDbVariant.construct mem x)
  | constructFrom x (.integer value) => some (CDbVariant.constructInteger mem x value)
  | constructFrom x (.double nBits) => some (CDbVariant.constructDouble mem x nBits)
  | constructFrom x (.string value) => CDbVariant.constructString mem x value
  | constructChars x none nLen => CDbVariant.constructChars mem x .null nLen
  | constructChars x (some value) nLen => CDbVariant.constructChars mem x (.outside value) nLen
  | assign x (.integer value) => CDbVariant.assignInteger mem x value
  | assign x (.double nBits) => CDbVariant.assignDouble mem x nBits
  | assign x (.string value) => CDbVariant.assignString mem x value
  | copyConstruct x rhs => CDbVariant.copyConstruct mem x rhs
  | copyAssign x rhs => CDbVariant.copyAssign mem x rhs
  | moveAssign x rhs => CDbVariant.moveAssign mem x rhs
  | destroy x => CDbVariant.destroy mem x

/-- What it is for. -/
def after (held : ValueStore) : VariantOp → ValueStore
  | construct x => Function.update held x (some none)
  | constructFrom x value => Function.update held x (some (some value))
  | constructChars x none _ => Function.update held x (some none)
  | constructChars x (some value) nLen =>
      Function.update held x (some (some (.string (value.take nLen.toNat))))
  | assign x value => Function.update held x (some (some value))
  | copyConstruct x rhs => Function.update held x (held rhs)
  | copyAssign x rhs => Function.update held x (held rhs)
  | moveAssign x rhs =>
      if x = rhs then held
      else Function.update (Function.update held x (held rhs)) rhs (some none)
  | destroy x => Function.update held x none

/-- Constructors run on new variants, everything else on variants alive; a character pointer
has `nLen` bytes behind it. -/
def Allowed (held : ValueStore) : VariantOp → Prop
  | construct x => held x = none
  | constructFrom x _ => held x = none
  | constructChars x none _ => held x = none
  | constructChars x (some value) nLen => held x = none ∧ nLen.toNat ≤ value.length
  | assign x _ => held x ≠ none
  | copyConstruct x rhs => held x = none ∧ held rhs ≠ none
  | copyAssign x rhs => held x ≠ none ∧ held rhs ≠ none
  | moveAssign x rhs => held x ≠ none ∧ held rhs ≠ none
  | destroy x => held x ≠ none

end VariantOp

/-- Every operation of the program is allowed where it stands. -/
def ProperOps (held : ValueStore) : List VariantOp → Prop
  | [] => True
  | op :: ops => op.Allowed held ∧ ProperOps (op.after held) ops

/-! ## What represents a store -/

/-- The variant's word points to this array. -/
def CDbVariant.Owns (v : CDbVariant) (nArray : Nat) : Prop :=
  v.m_eType = .eVVT_String ∧ v.word = .szStr (some nArray)

/-- The bytes kept of a string, whose size is cut to 32 bits. -/
def storedBytes (value : Bytes) : Bytes := value.take (value.length % 2 ^ 32)

/-- A variant (or none) shows a value. -/
inductive Shows (array : Nat → Option Bytes) :
    Option (Option VariantValue) → Option CDbVariant → Prop
  | dead : Shows array none none
  | none (word : UnionWord) (nLen : Option UInt32) :
      Shows array (some none) (some ⟨.eVVT_None, word, nLen⟩)
  | integer (value : IntegerValue) (nLen : Option UInt32) :
      Shows array (some (some (.integer value)))
        (some ⟨value.m_eType, .m_nValue value.m_nValue, nLen⟩)
  | double (nBits : UInt64) (nLen : Option UInt32) :
      Shows array (some (some (.double nBits))) (some ⟨.eVVT_Double, .m_fValue nBits, nLen⟩)
  | string (value : Bytes) (nArray : Nat) (harray : array nArray = some (storedBytes value)) :
      Shows array (some (some (.string value)))
        (some ⟨.eVVT_String, .szStr (some nArray), some (UInt32.ofNat value.length)⟩)

/-- The memory shows the store, no array has two owners, none is without an owner, and the
numbers from `nNext` on are free. -/
structure Represents (held : ValueStore) (mem : VariantMemory) : Prop where
  shows : ∀ x, Shows mem.array (held x) (mem.variant x)
  sole : ∀ {x y v w nArray}, mem.variant x = some v → mem.variant y = some w →
    v.Owns nArray → w.Owns nArray → x = y
  owned : ∀ {nArray bytes}, mem.array nArray = some bytes →
    ∃ x v, mem.variant x = some v ∧ v.Owns nArray
  below : ∀ {nArray bytes}, mem.array nArray = some bytes → nArray < mem.nNext

/-- A stored string has the length that was kept. -/
theorem storedBytes_length (value : Bytes) :
    (storedBytes value).length = (UInt32.ofNat value.length).toNat := by
  have hle := Nat.mod_le value.length (2 ^ 32)
  rw [storedBytes, List.length_take, Nat.min_eq_left hle, UInt32.toNat_ofNat']

theorem storedBytes_of_lt {value : Bytes} (h : value.length < 2 ^ 32) :
    storedBytes value = value := by
  rw [storedBytes, Nat.mod_eq_of_lt h, List.take_length]

/-- A variant owns one array at most. -/
theorem CDbVariant.Owns.unique {v : CDbVariant} {p q : Nat} (hp : v.Owns p) (hq : v.Owns q) :
    p = q := by
  have hsame := hp.2.symm.trans hq.2
  simpa using hsame

/-- Reading all of a string's array. -/
theorem VariantMemory.read_array {mem : VariantMemory} {value : Bytes} {nArray : Nat}
    (h : mem.array nArray = some (storedBytes value)) :
    mem.read (.array nArray) (UInt32.ofNat value.length) = some (storedBytes value) := by
  simp only [read, h, ← storedBytes_length, le_refl, if_true, List.take_length]

namespace Shows

variable {array : Nat → Option Bytes}

/-- A variant that holds something is there. -/
theorem alive {h : Option VariantValue} {v? : Option CDbVariant}
    (hshows : Shows array (some h) v?) : ∃ v, v? = some v ∧ Shows array (some h) (some v) := by
  cases hshows with
  | none word nLen => exact ⟨_, rfl, .none word nLen⟩
  | integer value nLen => exact ⟨_, rfl, .integer value nLen⟩
  | double nBits nLen => exact ⟨_, rfl, .double nBits nLen⟩
  | string value nArray harray => exact ⟨_, rfl, .string value nArray harray⟩

/-- An owned array is allocated. -/
theorem array_of_owns {h : Option (Option VariantValue)} {v : CDbVariant} {nArray : Nat}
    (hshows : Shows array h (some v)) (howns : v.Owns nArray) :
    ∃ bytes, array nArray = some bytes := by
  cases hshows with
  | none word nLen => cases howns.1
  | integer value nLen => cases howns.2
  | double nBits nLen => cases howns.1
  | string value nOwn harray =>
      have hsame : nOwn = nArray := by simpa using howns.2
      exact ⟨_, hsame ▸ harray⟩

/-- **Frame.**  A variant shows the same value as long as the array it owns is kept. -/
theorem frame {array' : Nat → Option Bytes} {h : Option (Option VariantValue)}
    {v? : Option CDbVariant} (hshows : Shows array h v?)
    (hkept : ∀ v nArray, v? = some v → v.Owns nArray → array' nArray = array nArray) :
    Shows array' h v? := by
  cases hshows with
  | dead => exact .dead
  | none word nLen => exact .none word nLen
  | integer value nLen => exact .integer value nLen
  | double nBits nLen => exact .double nBits nLen
  | string value nArray harray =>
      exact .string value nArray ((hkept _ nArray rfl ⟨rfl, rfl⟩).trans harray)

end Shows

/-- The empty memory holds nothing. -/
theorem represents_empty : Represents (fun _ => none) VariantMemory.empty where
  shows := fun _ => .dead
  sole := by simp [VariantMemory.empty]
  owned := by simp [VariantMemory.empty]
  below := by simp [VariantMemory.empty]

namespace Represents

variable {held : ValueStore} {mem : VariantMemory}

/-- A variant that owns nothing is overwritten by one that owns nothing. -/
theorem overwrite (h : Represents held mem) {x : Nat} {v? : Option CDbVariant}
    {w : Option (Option VariantValue)}
    (hold : ∀ v nArray, mem.variant x = some v → ¬ v.Owns nArray)
    (hnew : ∀ v nArray, v? = some v → ¬ v.Owns nArray) (hshows : Shows mem.array w v?) :
    Represents (Function.update held x w)
      { mem with variant := Function.update mem.variant x v? } where
  shows := by
    intro y
    by_cases hy : y = x
    · subst hy
      simpa using hshows
    · simpa [Function.update_of_ne hy] using h.shows y
  sole := by
    intro y z v w nArray hv hw hpv hpw
    have hyx : y ≠ x := by
      rintro rfl
      exact hnew v nArray (by simpa using hv) hpv
    have hzx : z ≠ x := by
      rintro rfl
      exact hnew w nArray (by simpa using hw) hpw
    dsimp only at hv hw
    rw [Function.update_of_ne hyx] at hv
    rw [Function.update_of_ne hzx] at hw
    exact h.sole hv hw hpv hpw
  owned := by
    intro nArray bytes hbytes
    obtain ⟨y, v, hv, hp⟩ := h.owned hbytes
    have hyx : y ≠ x := by
      rintro rfl
      exact hold v nArray hv hp
    exact ⟨y, v, by simpa [Function.update_of_ne hyx] using hv, hp⟩
  below := h.below

/-- A variant that owns nothing is replaced by one that owns nothing. -/
theorem put (h : Represents held mem) {x : Nat} {v : CDbVariant} {w : Option VariantValue}
    (hold : ∀ v nArray, mem.variant x = some v → ¬ v.Owns nArray)
    (hnew : ∀ nArray, ¬ v.Owns nArray) (hshows : Shows mem.array (some w) (some v)) :
    Represents (Function.update held x (some w)) (mem.put x v) :=
  h.overwrite hold (fun _ _ hv => Option.some.inj hv ▸ hnew _) hshows

/-- A new array becomes the string of a variant that owned nothing. -/
theorem allocate (h : Represents held mem) {x : Nat} (value : Bytes)
    (hold : ∀ v nArray, mem.variant x = some v → ¬ v.Owns nArray) :
    Represents (Function.update held x (some (some (.string value))))
      ((mem.newArray (storedBytes value)).put x
        ⟨.eVVT_String, .szStr (some mem.nNext), some (UInt32.ofNat value.length)⟩) := by
  have hfresh : ∀ {y : Nat} {v : CDbVariant}, mem.variant y = some v → ¬ v.Owns mem.nNext := by
    intro y v hv hp
    obtain ⟨bytes, hbytes⟩ := (hv ▸ h.shows y).array_of_owns hp
    exact Nat.lt_irrefl _ (h.below hbytes)
  refine ⟨?_, ?_, ?_, ?_⟩
  · intro y
    by_cases hy : y = x
    · subst hy
      simpa [VariantMemory.put, VariantMemory.newArray] using
        Shows.string value mem.nNext (by simp)
    · simp only [VariantMemory.put, VariantMemory.newArray, Function.update_of_ne hy]
      refine (h.shows y).frame fun v nArray hv hp => ?_
      have hne : nArray ≠ mem.nNext := by
        rintro rfl
        exact hfresh hv hp
      rw [Function.update_of_ne hne]
  · intro y z v w nArray hv hw hpv hpw
    simp only [VariantMemory.put, VariantMemory.newArray] at hv hw
    by_cases hy : y = x
    · by_cases hz : z = x
      · exact hy.trans hz.symm
      · subst hy
        rw [Function.update_self, Option.some.injEq] at hv
        rw [Function.update_of_ne hz] at hw
        subst hv
        have hsame : mem.nNext = nArray := by simpa using hpv.2
        exact absurd (hsame ▸ hpw) (hfresh hw)
    · by_cases hz : z = x
      · subst hz
        rw [Function.update_self, Option.some.injEq] at hw
        rw [Function.update_of_ne hy] at hv
        subst hw
        have hsame : mem.nNext = nArray := by simpa using hpw.2
        exact absurd (hsame ▸ hpv) (hfresh hv)
      · rw [Function.update_of_ne hy] at hv
        rw [Function.update_of_ne hz] at hw
        exact h.sole hv hw hpv hpw
  · intro nArray bytes hbytes
    simp only [VariantMemory.put, VariantMemory.newArray] at hbytes ⊢
    by_cases hnew : nArray = mem.nNext
    · subst hnew
      exact ⟨x, _, Function.update_self .., rfl, rfl⟩
    · rw [Function.update_of_ne hnew] at hbytes
      obtain ⟨y, v, hv, hp⟩ := h.owned hbytes
      have hyx : y ≠ x := by
        rintro rfl
        exact hold v nArray hv hp
      exact ⟨y, v, by rw [Function.update_of_ne hyx, hv], hp⟩
  · intro nArray bytes hbytes
    simp only [VariantMemory.put, VariantMemory.newArray] at hbytes ⊢
    by_cases hnew : nArray = mem.nNext
    · omega
    · rw [Function.update_of_ne hnew] at hbytes
      have hlt := h.below hbytes
      omega

/-- The array of a variant is deleted, and the variant left without one. -/
theorem release (h : Represents held mem) {x nArray : Nat} {old v : CDbVariant}
    (hold : mem.variant x = some old) (howns : old.Owns nArray)
    (hnew : ∀ nArray, ¬ v.Owns nArray) (hshows : ∀ array, Shows array (some none) (some v)) :
    Represents (Function.update held x (some none))
      { mem with
        array := Function.update mem.array nArray none
        variant := Function.update mem.variant x (some v) } := by
  refine ⟨?_, ?_, ?_, ?_⟩ <;> dsimp only
  · intro y
    by_cases hy : y = x
    · subst hy
      simpa using hshows _
    · simp only [Function.update_of_ne hy]
      refine (h.shows y).frame fun w nOwn hw hp => ?_
      have hne : nOwn ≠ nArray := by
        rintro rfl
        exact hy (h.sole hw hold hp howns)
      rw [Function.update_of_ne hne]
  · intro y z w w' nOwn hw hw' hp hp'
    have hyx : y ≠ x := by
      rintro rfl
      rw [Function.update_self, Option.some.injEq] at hw
      exact hnew nOwn (hw ▸ hp)
    have hzx : z ≠ x := by
      rintro rfl
      rw [Function.update_self, Option.some.injEq] at hw'
      exact hnew nOwn (hw' ▸ hp')
    rw [Function.update_of_ne hyx] at hw
    rw [Function.update_of_ne hzx] at hw'
    exact h.sole hw hw' hp hp'
  · intro nOwn bytes hbytes
    have hne : nOwn ≠ nArray := by
      rintro rfl
      simp at hbytes
    rw [Function.update_of_ne hne] at hbytes
    obtain ⟨y, w, hw, hp⟩ := h.owned hbytes
    have hyx : y ≠ x := by
      rintro rfl
      rw [hold, Option.some.injEq] at hw
      exact hne ((hw ▸ hp).unique howns)
    exact ⟨y, w, by rw [Function.update_of_ne hyx, hw], hp⟩
  · intro nOwn bytes hbytes
    have hne : nOwn ≠ nArray := by
      rintro rfl
      simp at hbytes
    rw [Function.update_of_ne hne] at hbytes
    exact h.below hbytes

/-- **`clear`** takes the value away and, with a string, its array. -/
theorem clear (h : Represents held mem) {x : Nat} {w : Option VariantValue}
    (hx : held x = some w) :
    ∃ nLen mem', CDbVariant.clear mem x = some mem' ∧
      Represents (Function.update held x (some none)) mem' ∧
      mem'.variant =
        Function.update mem.variant x (some ⟨.eVVT_None, .szStr none, nLen⟩) := by
  have hempty : ∀ (nLen : Option UInt32) (nArray : Nat),
      ¬ CDbVariant.Owns ⟨.eVVT_None, .szStr none, nLen⟩ nArray := by
    intro nLen nArray hp
    cases hp.1
  have hkeep : ∀ (v : CDbVariant), mem.variant x = some v → (∀ nArray, ¬ v.Owns nArray) →
      ∀ nLen, Represents (Function.update held x (some none))
        (mem.put x ⟨.eVVT_None, .szStr none, nLen⟩) := by
    intro v hv hp nLen
    refine h.put ?_ (hempty nLen) (.none _ _)
    intro v' nArray hv'
    rw [hv, Option.some.injEq] at hv'
    exact hv' ▸ hp nArray
  have hshows := h.shows x
  rw [hx] at hshows
  obtain ⟨v, hv, hshows⟩ := hshows.alive
  cases hshows with
  | none word nLen =>
      exact ⟨nLen, _, by simp [CDbVariant.clear, hv],
        hkeep _ hv (fun _ hp => by cases hp.1) nLen, rfl⟩
  | integer value nLen =>
      refine ⟨nLen, _, ?_, hkeep _ hv (fun _ hp => by cases hp.2) nLen, rfl⟩
      rcases value.m_eType_cases with htag | htag | htag | htag <;>
        simp [CDbVariant.clear, hv, htag]
  | double nBits nLen =>
      exact ⟨nLen, _, by simp [CDbVariant.clear, hv],
        hkeep _ hv (fun _ hp => by cases hp.1) nLen, rfl⟩
  | string value nArray harray =>
      exact ⟨some 0, _, by simp [CDbVariant.clear, hv, CDbVariant.readStr,
          VariantMemory.deleteArray, harray, VariantMemory.put],
        h.release hv ⟨rfl, rfl⟩ (hempty _) (fun _ => .none _ _), rfl⟩

/-- A variant just cleared owns nothing. -/
theorem owns_nothing_of_clear {mem mem' : VariantMemory} {x : Nat} {nLen : Option UInt32}
    (hvariant : mem'.variant =
      Function.update mem.variant x (some ⟨.eVVT_None, .szStr none, nLen⟩)) :
    mem'.variant x = some ⟨.eVVT_None, .szStr none, nLen⟩ ∧
      ∀ v nArray, mem'.variant x = some v → ¬ v.Owns nArray := by
  have hv : mem'.variant x = some ⟨.eVVT_None, .szStr none, nLen⟩ := by
    rw [hvariant, Function.update_self]
  refine ⟨hv, fun v nArray hv' hown => ?_⟩
  rw [hv, Option.some.injEq] at hv'
  subst hv'
  cases hown.1

/-- **`setString`** leaves the bytes it reads after the clearing. -/
theorem setString (h : Represents held mem) {x : Nat} {w : Option VariantValue}
    (hx : held x = some w) {p : CharPointer} {value : Bytes} (hp : p ≠ .null)
    (hread : ∀ mem', Represents (Function.update held x (some none)) mem' →
      (∀ y, y ≠ x → mem'.variant y = mem.variant y) →
      mem'.read p (UInt32.ofNat value.length) = some (storedBytes value)) :
    ∃ mem', CDbVariant.setString mem x p (UInt32.ofNat value.length) = some mem' ∧
      Represents (Function.update held x (some (some (.string value)))) mem' := by
  obtain ⟨nLen, mem', hclear, hrep, hvariant⟩ := h.clear hx
  have hbytes := hread mem' hrep fun y hy => by rw [hvariant, Function.update_of_ne hy]
  obtain ⟨-, hnone⟩ := owns_nothing_of_clear hvariant
  have hfilled := hrep.allocate value hnone
  rw [Function.update_idem] at hfilled
  refine ⟨_, ?_, hfilled⟩
  cases p with
  | null => exact absurd rfl hp
  | array nArray => simp [CDbVariant.setString, hclear, hbytes]
  | outside buffer => simp [CDbVariant.setString, hclear, hbytes]

/-- In `operator=` the variant has the new tag already when `setString` clears it once more;
its pointer is null, and nothing is deleted. -/
theorem setString_tagged (mem : VariantMemory) (x : Nat) (nLen : Option UInt32)
    (p : CharPointer) (n : UInt32) :
    CDbVariant.setString (mem.put x ⟨.eVVT_String, .szStr none, nLen⟩) x p n =
      CDbVariant.setString (mem.put x ⟨.eVVT_None, .szStr none, some 0⟩) x p n := by
  have hclear : CDbVariant.clear (mem.put x ⟨.eVVT_String, .szStr none, nLen⟩) x =
      CDbVariant.clear (mem.put x ⟨.eVVT_None, .szStr none, some 0⟩) x := by
    simp [CDbVariant.clear, VariantMemory.put, CDbVariant.readStr, VariantMemory.deleteArray]
  rw [CDbVariant.setString, hclear, CDbVariant.setString]

/-- A buffer the variants do not manage is read as it is. -/
theorem setString_outside (h : Represents held mem) {x : Nat} {w : Option VariantValue}
    (hx : held x = some w) {buffer value : Bytes}
    (hvalue : buffer.take (value.length % 2 ^ 32) = storedBytes value)
    (hle : value.length % 2 ^ 32 ≤ buffer.length) :
    ∃ mem', CDbVariant.setString mem x (.outside buffer) (UInt32.ofNat value.length) = some mem' ∧
      Represents (Function.update held x (some (some (.string value)))) mem' := by
  refine h.setString hx (by simp) fun mem' _ _ => ?_
  simp only [VariantMemory.read, UInt32.toNat_ofNat', if_pos hle, hvalue]

/-- A string that is assigned is held. -/
theorem assignString (h : Represents held mem) {x : Nat} {w : Option VariantValue}
    (hx : held x = some w) (value : Bytes) :
    ∃ mem', CDbVariant.assignString mem x value = some mem' ∧
      Represents (Function.update held x (some (some (.string value)))) mem' :=
  h.setString_outside hx rfl (Nat.mod_le _ _)

/-- A new variant. -/
theorem construct (h : Represents held mem) {x : Nat} (hx : held x = none) :
    Represents (Function.update held x (some none)) (CDbVariant.construct mem x) := by
  refine h.put ?_ (fun _ hp => by cases hp.1) (.none _ _)
  have hshows := h.shows x
  rw [hx] at hshows
  intro v nArray hv
  rw [hv] at hshows
  cases hshows

/-- A variant that owned nothing is given a scalar. -/
theorem putScalar (h : Represents held mem) {x : Nat} {v : CDbVariant} {value : VariantValue}
    (hold : ∀ v nArray, mem.variant x = some v → ¬ v.Owns nArray)
    (hscalar : ∀ nArray, v.word ≠ .szStr (some nArray))
    (hshows : Shows mem.array (some (some value)) (some v)) :
    Represents (Function.update held x (some (some value))) (mem.put x v) :=
  h.put hold (fun nArray hp => hscalar nArray hp.2) hshows

/-- **Copy assignment**, from a variant to itself too. -/
theorem copyAssign (h : Represents held mem) {x rhs : Nat} {w value : Option VariantValue}
    (hx : held x = some w) (hrhs : held rhs = some value) :
    ∃ mem', CDbVariant.copyAssign mem x rhs = some mem' ∧
      Represents (Function.update held x (held rhs)) mem' := by
  by_cases hself : x = rhs
  · subst hself
    exact ⟨mem, by simp [CDbVariant.copyAssign], by simpa using h⟩
  obtain ⟨nLen, mem', hclear, hrep, hvariant⟩ := h.clear hx
  obtain ⟨hv, hnone⟩ := owns_nothing_of_clear hvariant
  have hshows := hrep.shows rhs
  rw [Function.update_of_ne (Ne.symm hself), hrhs] at hshows
  obtain ⟨r, hr, hshows⟩ := hshows.alive
  rw [hrhs]
  cases hshows with
  | none word nLen' =>
      have hput := hrep.put hnone (fun _ hp => by cases hp.1)
        (.none (.szStr none) nLen)
      rw [Function.update_idem] at hput
      exact ⟨_, by simp [CDbVariant.copyAssign, hself, hclear, hv, hr], hput⟩
  | integer value nLen' =>
      have hput := hrep.putScalar hnone (fun _ => by simp) (.integer value nLen)
      rw [Function.update_idem] at hput
      refine ⟨_, ?_, hput⟩
      rcases value.m_eType_cases with htag | htag | htag | htag <;>
        simp [CDbVariant.copyAssign, hself, hclear, hv, hr, htag, CDbVariant.readValue]
  | double nBits nLen' =>
      have hput := hrep.putScalar hnone (fun _ => by simp) (.double nBits nLen)
      rw [Function.update_idem] at hput
      exact ⟨_, by simp [CDbVariant.copyAssign, hself, hclear, hv, hr, CDbVariant.readReal],
        hput⟩
  | string value nArray harray =>
      have hcleared := hrep.put hnone (fun _ hp => by cases hp.1) (.none (.szStr none) (some 0))
      rw [Function.update_idem] at hcleared
      have hread : ∀ mem₂,
          Represents (Function.update (Function.update held x (some none)) x (some none)) mem₂ →
          (∀ y, y ≠ x → mem₂.variant y =
            (mem'.put x ⟨.eVVT_None, .szStr none, some 0⟩).variant y) →
          mem₂.read (.array nArray) (UInt32.ofNat value.length) = some (storedBytes value) := by
        intro mem₂ hrep₂ hkept
        have hshows₂ := hrep₂.shows rhs
        rw [hkept rhs (Ne.symm hself), VariantMemory.put_variant_of_ne _ (Ne.symm hself), hr,
          Function.update_of_ne (Ne.symm hself), Function.update_of_ne (Ne.symm hself),
          hrhs] at hshows₂
        cases hshows₂ with
        | string _ _ harray₂ => exact VariantMemory.read_array harray₂
      obtain ⟨mem₁, hset, hput⟩ :=
        hcleared.setString (Function.update_self ..) (by simp) hread
      rw [Function.update_idem] at hput
      refine ⟨mem₁, ?_, hput⟩
      rw [← setString_tagged mem' x nLen] at hset
      simpa [CDbVariant.copyAssign, hself, hclear, hv, hr, CDbVariant.readStr,
        CDbVariant.pointerTo] using hset

/-- What a variant owns passes to another one that owned nothing. -/
theorem take (h : Represents held mem) {x rhs : Nat} {v r left : CDbVariant}
    {value : Option VariantValue} (hne : x ≠ rhs) (hr : mem.variant rhs = some r)
    (hold : ∀ v nArray, mem.variant x = some v → ¬ v.Owns nArray)
    (howns : ∀ nArray, v.Owns nArray ↔ r.Owns nArray)
    (hshows : Shows mem.array (some value) (some v))
    (hnothing : ∀ nArray, ¬ left.Owns nArray) (hleft : Shows mem.array (some none) (some left)) :
    Represents (Function.update (Function.update held x (some value)) rhs (some none))
      ((mem.put x v).put rhs left) := by
  -- an owner after the move is `x` for what was under `rhs`, or who it was before
  have howner : ∀ {y : Nat} {v' : CDbVariant} {nArray : Nat},
      ((mem.put x v).put rhs left).variant y = some v' → v'.Owns nArray →
      (y = x ∧ r.Owns nArray) ∨ (y ≠ x ∧ y ≠ rhs ∧ mem.variant y = some v') := by
    intro y v' nArray hv' hp
    by_cases hyr : y = rhs
    · subst hyr
      rw [VariantMemory.put_variant_self, Option.some.injEq] at hv'
      exact absurd (hv' ▸ hp) (hnothing nArray)
    rw [VariantMemory.put_variant_of_ne _ hyr] at hv'
    by_cases hyx : y = x
    · subst hyx
      rw [VariantMemory.put_variant_self, Option.some.injEq] at hv'
      exact .inl ⟨rfl, (howns nArray).mp (hv' ▸ hp)⟩
    · rw [VariantMemory.put_variant_of_ne _ hyx] at hv'
      exact .inr ⟨hyx, hyr, hv'⟩
  refine ⟨?_, ?_, ?_, h.below⟩
  · intro y
    by_cases hyr : y = rhs
    · subst hyr
      rw [VariantMemory.put_variant_self, Function.update_self]
      exact hleft
    rw [VariantMemory.put_variant_of_ne _ hyr, Function.update_of_ne hyr]
    by_cases hyx : y = x
    · subst hyx
      rw [VariantMemory.put_variant_self, Function.update_self]
      exact hshows
    · rw [VariantMemory.put_variant_of_ne _ hyx, Function.update_of_ne hyx]
      exact h.shows y
  · intro y z v' w nArray hv' hw hpv hpw
    rcases howner hv' hpv with ⟨hy, hpy⟩ | ⟨_, hyr, hvy⟩ <;>
      rcases howner hw hpw with ⟨hz, hpz⟩ | ⟨_, hzr, hvz⟩
    · exact hy.trans hz.symm
    · exact absurd (h.sole hr hvz hpy hpw).symm hzr
    · exact absurd (h.sole hvy hr hpv hpz) hyr
    · exact h.sole hvy hvz hpv hpw
  · intro nArray bytes hbytes
    obtain ⟨y, w, hw, hp⟩ := h.owned hbytes
    by_cases hyr : y = rhs
    · subst hyr
      rw [hr, Option.some.injEq] at hw
      refine ⟨x, v, ?_, (howns nArray).mpr (hw ▸ hp)⟩
      rw [VariantMemory.put_variant_of_ne _ hne, VariantMemory.put_variant_self]
    · have hyx : y ≠ x := by
        rintro rfl
        exact hold w nArray hw hp
      refine ⟨y, w, ?_, hp⟩
      rw [VariantMemory.put_variant_of_ne _ hyr, VariantMemory.put_variant_of_ne _ hyx, hw]

/-- **Move assignment**, from a variant to itself too. -/
theorem moveAssign (h : Represents held mem) {x rhs : Nat} {w value : Option VariantValue}
    (hx : held x = some w) (hrhs : held rhs = some value) :
    ∃ mem', CDbVariant.moveAssign mem x rhs = some mem' ∧
      Represents ((VariantOp.moveAssign x rhs).after held) mem' := by
  by_cases hself : x = rhs
  · exact ⟨mem, by simp [CDbVariant.moveAssign, hself], by simpa [VariantOp.after, hself] using h⟩
  obtain ⟨nLen, mem', hclear, hrep, hvariant⟩ := h.clear hx
  obtain ⟨hv, hnone⟩ := owns_nothing_of_clear hvariant
  have hshows := hrep.shows rhs
  rw [Function.update_of_ne (Ne.symm hself), hrhs] at hshows
  obtain ⟨r, hr, hshows⟩ := hshows.alive
  simp only [VariantOp.after, if_neg hself, hrhs]
  -- each case is `take` with the fields the source writes into the two variants
  have htake : ∀ (v : CDbVariant) (word : UnionWord) (nLeft : Option UInt32),
      (∀ nArray, v.Owns nArray ↔ r.Owns nArray) → Shows mem'.array (some value) (some v) →
      Represents (Function.update (Function.update held x (some value)) rhs (some none))
        ((mem'.put x v).put rhs ⟨.eVVT_None, word, nLeft⟩) := by
    intro v word nLeft howns hshows
    have htaken := hrep.take hself hr hnone howns hshows (fun _ hp => by cases hp.1)
      (.none word nLeft)
    rwa [Function.update_idem] at htaken
  cases hshows with
  | none word nLen' =>
      have hnothing : ∀ (word : UnionWord) (nLen : Option UInt32) (nArray : Nat),
          ¬ CDbVariant.Owns ⟨.eVVT_None, word, nLen⟩ nArray := fun _ _ _ hp => by cases hp.1
      refine ⟨_, ?_, htake ⟨.eVVT_None, .szStr none, nLen⟩ word nLen'
        (fun _ => iff_of_false (hnothing _ _ _) (hnothing _ _ _)) (.none _ _)⟩
      simp [CDbVariant.moveAssign, hself, hclear, hv, hr]
  | integer value nLen' =>
      have hnothing : ∀ (nLen : Option UInt32) (nArray : Nat),
          ¬ CDbVariant.Owns ⟨value.m_eType, .m_nValue value.m_nValue, nLen⟩ nArray :=
        fun _ _ hp => by cases hp.2
      refine ⟨_, ?_, htake ⟨value.m_eType, .m_nValue value.m_nValue, nLen⟩ (.m_nValue 0) nLen'
        (fun _ => iff_of_false (hnothing _ _) (hnothing _ _)) (.integer value nLen)⟩
      rcases value.m_eType_cases with htag | htag | htag | htag <;>
        simp [CDbVariant.moveAssign, hself, hclear, hv, hr, htag, CDbVariant.readValue]
  | double nBits nLen' =>
      have hnothing : ∀ (nLen : Option UInt32) (nArray : Nat),
          ¬ CDbVariant.Owns ⟨.eVVT_Double, .m_fValue nBits, nLen⟩ nArray :=
        fun _ _ hp => by cases hp.1
      refine ⟨_, ?_, htake ⟨.eVVT_Double, .m_fValue nBits, nLen⟩ (.m_fValue 0) nLen'
        (fun _ => iff_of_false (hnothing _ _) (hnothing _ _)) (.double nBits nLen)⟩
      simp [CDbVariant.moveAssign, hself, hclear, hv, hr, CDbVariant.readReal]
  | string value nArray harray =>
      refine ⟨_, ?_, htake ⟨.eVVT_String, .szStr (some nArray), some (UInt32.ofNat value.length)⟩
        (.szStr none) (some 0) (fun _ => Iff.rfl) (.string value nArray harray)⟩
      simp [CDbVariant.moveAssign, hself, hclear, hv, hr, CDbVariant.readStr]

/-- A value that is assigned and owns no array is held, and the old one's array is given back. -/
theorem assignScalar (h : Represents held mem) {x : Nat} {w : Option VariantValue}
    (hx : held x = some w) {eType : EVariantValueType} {word : UnionWord} {value : VariantValue}
    (hscalar : ∀ nArray, word ≠ .szStr (some nArray))
    (hshows : ∀ array nLen, Shows array (some (some value)) (some ⟨eType, word, nLen⟩)) :
    ∃ mem' nLen, CDbVariant.clear mem x = some mem' ∧
      mem'.variant x = some ⟨.eVVT_None, .szStr none, nLen⟩ ∧
      Represents (Function.update held x (some (some value)))
        (mem'.put x ⟨eType, word, nLen⟩) := by
  obtain ⟨nLen, mem', hclear, hrep, hvariant⟩ := h.clear hx
  obtain ⟨hv, hnone⟩ := owns_nothing_of_clear hvariant
  have hput := hrep.putScalar hnone hscalar (hshows mem'.array nLen)
  rw [Function.update_idem] at hput
  exact ⟨mem', nLen, hclear, hv, hput⟩

/-- Construction from a null pointer. -/
theorem constructNull (h : Represents held mem) {x : Nat} (hx : held x = none) {nLen : UInt32} :
    ∃ mem', (VariantOp.constructChars x none nLen).run mem = some mem' ∧
      Represents (Function.update held x (some none)) mem' := by
  obtain ⟨_, mem', hclear, hrep, -⟩ := (h.construct hx).clear (Function.update_self ..)
  rw [Function.update_idem] at hrep
  refine ⟨mem', ?_, hrep⟩
  simp [VariantOp.run, CDbVariant.constructChars, CDbVariant.setString, hclear]

/-- Construction from the first bytes of a buffer. -/
theorem constructBuffer (h : Represents held mem) {x : Nat} {buffer : Bytes} {nLen : UInt32}
    (hx : held x = none) (hle : nLen.toNat ≤ buffer.length) :
    ∃ mem', (VariantOp.constructChars x (some buffer) nLen).run mem = some mem' ∧
      Represents (Function.update held x (some (some (.string (buffer.take nLen.toNat)))))
        mem' := by
  have hlen : (buffer.take nLen.toNat).length = nLen.toNat := by simp [hle]
  have hlt : (buffer.take nLen.toNat).length < 2 ^ 32 := by
    rw [hlen]
    exact nLen.toNat_lt
  have hread : buffer.take ((buffer.take nLen.toNat).length % 2 ^ 32) =
      storedBytes (buffer.take nLen.toNat) := by
    rw [storedBytes_of_lt hlt, Nat.mod_eq_of_lt hlt, hlen]
  have hset := (h.construct hx).setString_outside (Function.update_self ..) hread
    (by rw [Nat.mod_eq_of_lt hlt, hlen]; exact hle)
  rw [Function.update_idem, hlen, UInt32.ofNat_toNat] at hset
  exact hset

/-- **The destructor** takes the variant away and, with a string, its array. -/
theorem destroy (h : Represents held mem) {x : Nat} {w : Option VariantValue}
    (hx : held x = some w) :
    ∃ mem', (VariantOp.destroy x).run mem = some mem' ∧
      Represents (Function.update held x none) mem' := by
  obtain ⟨nLen, mem', hclear, hrep, hvariant⟩ := h.clear hx
  obtain ⟨-, hnone⟩ := owns_nothing_of_clear hvariant
  have hgone : Represents (Function.update (Function.update held x (some none)) x none)
      { mem' with variant := Function.update mem'.variant x none } :=
    hrep.overwrite hnone (fun _ _ hv => nomatch hv) .dead
  rw [Function.update_idem] at hgone
  exact ⟨_, by simp [VariantOp.run, CDbVariant.destroy, hclear], hgone⟩

/-- **The step lemma.**  An allowed operation is defined and does to the memory what it does
to the store. -/
theorem run (h : Represents held mem) {op : VariantOp} (hop : op.Allowed held) :
    ∃ mem', op.run mem = some mem' ∧ Represents (op.after held) mem' := by
  have hnew : ∀ {x}, held x = none → ∀ v nArray, mem.variant x = some v → ¬ v.Owns nArray := by
    intro x hx v nArray hv
    have hshows := h.shows x
    rw [hx, hv] at hshows
    cases hshows
  have hself : ∀ x, (Function.update held x (some none)) x = some none := fun x =>
    Function.update_self ..
  cases op with
  | construct x => exact ⟨_, rfl, h.construct hop⟩
  | constructFrom x value =>
      cases value with
      | integer value =>
          exact ⟨_, rfl, h.putScalar (hnew hop) (fun _ => by simp) (.integer value none)⟩
      | double nBits =>
          exact ⟨_, rfl, h.putScalar (hnew hop) (fun _ => by simp) (.double nBits none)⟩
      | string value =>
          have hset := (h.construct hop).assignString (hself x) value
          rwa [Function.update_idem] at hset
  | constructChars x value nLen =>
      cases value with
      | none => exact h.constructNull hop
      | some buffer => exact h.constructBuffer hop.1 hop.2
  | assign x value =>
      obtain ⟨w, hx⟩ := Option.ne_none_iff_exists'.mp hop
      cases value with
      | integer value =>
          obtain ⟨mem', nLen, hclear, hv, hput⟩ := h.assignScalar hx (fun _ => by simp)
            (fun _ nLen => .integer value nLen)
          exact ⟨_, by simp [VariantOp.run, CDbVariant.assignInteger, hclear, hv], hput⟩
      | double nBits =>
          obtain ⟨mem', nLen, hclear, hv, hput⟩ := h.assignScalar hx (fun _ => by simp)
            (fun _ nLen => .double nBits nLen)
          exact ⟨_, by simp [VariantOp.run, CDbVariant.assignDouble, hclear, hv], hput⟩
      | string value => exact h.assignString hx value
  | copyConstruct x rhs =>
      obtain ⟨hx, hrhs⟩ := hop
      obtain ⟨value, hrhs⟩ := Option.ne_none_iff_exists'.mp hrhs
      have hne : rhs ≠ x := by
        rintro rfl
        simp [hx] at hrhs
      have hlive : Function.update held x (some none) rhs = some value := by
        rw [Function.update_of_ne hne, hrhs]
      have hcopy := (h.construct hx).copyAssign (hself x) hlive
      rwa [Function.update_idem, Function.update_of_ne hne] at hcopy
  | copyAssign x rhs =>
      obtain ⟨w, hx⟩ := Option.ne_none_iff_exists'.mp hop.1
      obtain ⟨value, hrhs⟩ := Option.ne_none_iff_exists'.mp hop.2
      exact h.copyAssign hx hrhs
  | moveAssign x rhs =>
      obtain ⟨w, hx⟩ := Option.ne_none_iff_exists'.mp hop.1
      obtain ⟨value, hrhs⟩ := Option.ne_none_iff_exists'.mp hop.2
      exact h.moveAssign hx hrhs
  | destroy x =>
      obtain ⟨w, hx⟩ := Option.ne_none_iff_exists'.mp hop
      exact h.destroy hx

/-- **The run lemma.**  A proper program is defined and represents its store at the end. -/
theorem foldlM_run (h : Represents held mem) {ops : List VariantOp} (hops : ProperOps held ops) :
    ∃ mem', ops.foldlM VariantOp.run mem = some mem' ∧
      Represents (ops.foldl VariantOp.after held) mem' := by
  induction ops generalizing held mem with
  | nil => exact ⟨mem, rfl, h⟩
  | cons op ops ih =>
      obtain ⟨mem₁, hrun, hrep⟩ := h.run hops.1
      obtain ⟨mem', hrest, hfinal⟩ := ih hrep hops.2
      exact ⟨mem', by simp [hrun, hrest], hfinal⟩

/-! ## What a variant prints -/

/-- A string is printed as it was stored, -/
theorem toString_string (h : Represents held mem) (realText : UInt64 → Bytes) {x : Nat}
    {value : Bytes} (hx : held x = some (some (.string value))) :
    CDbVariant.toString realText mem x = some (storedBytes value) := by
  have hshows := h.shows x
  rw [hx] at hshows
  obtain ⟨v, hv, hshows⟩ := hshows.alive
  cases hshows with
  | string _ nArray harray =>
      simp [CDbVariant.toString, hv, CDbVariant.readStr, VariantMemory.read_array harray]

/-- and an integer as its signed word. -/
theorem toString_integer (h : Represents held mem) (realText : UInt64 → Bytes) {x : Nat}
    {value : IntegerValue} (hx : held x = some (some (.integer value))) :
    CDbVariant.toString realText mem x = some (decimal value.m_nValue.toInt) := by
  have hshows := h.shows x
  rw [hx] at hshows
  obtain ⟨v, hv, hshows⟩ := hshows.alive
  cases hshows with
  | integer _ nLen =>
      rcases value.m_eType_cases with htag | htag | htag | htag <;>
        simp [CDbVariant.toString, hv, htag, CDbVariant.readValue]

/-- Every array is the one of a string some variant holds. -/
theorem array_held (h : Represents held mem) {nArray : Nat} {bytes : Bytes}
    (hbytes : mem.array nArray = some bytes) :
    ∃ x value, held x = some (some (.string value)) ∧ bytes = storedBytes value := by
  obtain ⟨x, v, hv, hp⟩ := h.owned hbytes
  have hshows := h.shows x
  rw [hv] at hshows
  generalize hx : held x = w at hshows
  cases hshows with
  | none word nLen => cases hp.1
  | integer value nLen => cases hp.2
  | double nBits nLen => cases hp.1
  | string value nOwn harray =>
      have hsame : nOwn = nArray := by simpa using hp.2
      rw [hsame, hbytes, Option.some.injEq] at harray
      exact ⟨x, value, hx, harray⟩

end Represents

/-- The smallest `uint64_t` that does not fit the signed word. -/
def firstLargeInteger : IntegerValue := .uint64 9223372036854775808

/-- A `uint64_t` from `2 ^ 63` on comes out as a negative number. -/
theorem large_integer_prints_negative :
    ∃ mem, [VariantOp.constructFrom 0 (.integer firstLargeInteger)].foldlM VariantOp.run
        VariantMemory.empty = some mem ∧
      ∀ realText, CDbVariant.toString realText mem 0 = some (decimal (-2 ^ 63)) ∧
        CDbVariant.toString realText mem 0 ≠ some (decimal firstLargeInteger.toInt) := by
  have hword : firstLargeInteger.m_nValue.toInt = -2 ^ 63 := by decide
  have hvalue : firstLargeInteger.toInt = 2 ^ 63 := by decide
  refine ⟨CDbVariant.constructInteger VariantMemory.empty 0 firstLargeInteger,
    by simp [VariantOp.run], fun realText => ?_⟩
  have htext : CDbVariant.toString realText
      (CDbVariant.constructInteger VariantMemory.empty 0 firstLargeInteger) 0 =
        some (decimal firstLargeInteger.m_nValue.toInt) := by
    simp [CDbVariant.toString, CDbVariant.constructInteger, CDbVariant.readValue,
      IntegerValue.m_eType, firstLargeInteger]
  refine ⟨htext.trans (by rw [hword]), fun hclaim => ?_⟩
  have hsame := (IntegerValue.decimal_m_nValue_iff _).mp
    (Option.some.inj (htext.symm.trans hclaim))
  omega

/-- **Variants carry their values.**  A proper program is defined.  At its end a variant that
holds an integer prints it exactly when the integer fits 63 bits, one that holds a string
shorter than `2 ^ 32` prints its bytes, whatever it held before, and no array is left but those
of the strings held. -/
theorem variants_carry_values_iff (realText : UInt64 → Bytes) (ops : List VariantOp)
    (hops : ProperOps (fun _ => none) ops) :
    ∃ mem, ops.foldlM VariantOp.run VariantMemory.empty = some mem ∧
      (∀ x value,
        ops.foldl VariantOp.after (fun _ => none) x = some (some (.integer value)) →
        (CDbVariant.toString realText mem x = some (decimal value.toInt) ↔
          value.toInt < 2 ^ 63)) ∧
      (∀ x value,
        ops.foldl VariantOp.after (fun _ => none) x = some (some (.string value)) →
        value.length < 2 ^ 32 → CDbVariant.toString realText mem x = some value) ∧
      ∀ nArray bytes, mem.array nArray = some bytes → ∃ x value,
        ops.foldl VariantOp.after (fun _ => none) x = some (some (.string value)) ∧
          bytes = storedBytes value := by
  obtain ⟨mem, hrun, hrep⟩ := represents_empty.foldlM_run hops
  refine ⟨mem, hrun, ?_, ?_, fun nArray bytes hbytes => hrep.array_held hbytes⟩
  · intro x value hx
    rw [hrep.toString_integer realText hx, Option.some.injEq]
    exact value.decimal_m_nValue_iff
  · intro x value hx hlt
    rw [hrep.toString_string realText hx, storedBytes_of_lt hlt]

/-- A number copied, the copy overwritten by a string that is moved in, and the string copied
on: the last variant prints the string, the first one its number. -/
theorem variants_carry_values_iff_movedString :
    ∃ mem, [VariantOp.constructFrom 0 (.integer (.int8 (-5))),
        .constructFrom 1 (.string [97, 0, 98]), .copyConstruct 2 0, .moveAssign 2 1,
        .copyAssign 1 2].foldlM VariantOp.run VariantMemory.empty = some mem ∧
      CDbVariant.toString (fun _ => []) mem 1 = some [97, 0, 98] ∧
      CDbVariant.toString (fun _ => []) mem 0 = some (decimal (-5)) := by
  obtain ⟨mem, hrun, hinteger, hstring, -⟩ := variants_carry_values_iff (fun _ => [])
    [.constructFrom 0 (.integer (.int8 (-5))), .constructFrom 1 (.string [97, 0, 98]),
      .copyConstruct 2 0, .moveAssign 2 1, .copyAssign 1 2]
    (by simp [ProperOps, VariantOp.Allowed, VariantOp.after, Function.update])
  refine ⟨mem, hrun, hstring 1 _ ?_ (by decide), (hinteger 0 (.int8 (-5)) ?_).mpr (by decide)⟩
  · simp [VariantOp.after, Function.update]
  · simp [VariantOp.after, Function.update]

end Db
