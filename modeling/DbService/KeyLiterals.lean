import DbService.RowStatements

/-!
# The literals of primary keys

A key goes into a statement in two ways: SELECT and DELETE print the id, which is the key
converted to `uint64_t`, and INSERT and UPDATE print the field.  A negative key is converted to
its value modulo 2^64, so the two ways agree exactly on the keys that are not negative.

* `key_literals_agree_iff` -- the literals of a key denote one integer exactly if it is not
  negative;
* `negative_key_not_found` -- the key -5.
-/

namespace Db

open Reflection ByteText SqlText

/-- The integer a literal denotes. -/
def integerOf (literal : Bytes) : Option Int :=
  match readLiteral (lex (plain literal)) with
  | some (.int z, []) => some z
  | _ => none

/-- The literal INSERT and UPDATE print for the primary key. -/
def writtenKey (escape : Bytes → Bytes) (m : RowMessage) (vecFieldInfo : List SFieldInfo) :
    Option Bytes :=
  (vecFieldInfo.find? fun sFieldInfo => sFieldInfo.szName == m.descriptor.primary_key).map
    (SFieldInfo.literal escape)

/-- The literal SELECT and DELETE print for the message's id denotes the integer that the literal
of INSERT and UPDATE denotes. -/
def KeysAgree (pb : Runtime) (escape : Bytes → Bytes) (m : RowMessage) : Prop :=
  ∃ nID vecFieldInfo szKey z, getPrimaryValue (.row m) = some nID ∧
    getMessageFieldInfos pb (.row m) = some vecFieldInfo ∧
    writtenKey escape m vecFieldInfo = some szKey ∧
    integerOf (idLiteral nID) = some z ∧ integerOf szKey = some z

/-- The integer of its decimal text is the integer. -/
theorem integerOf_decimal (z : Int) : integerOf (decimal z) = some z := by
  have hlex : lex (plain (decimal z)) = (Literal.int z).tokens := Literal.lex_print (.int z)
  have hread := readLiteral_tokens (.int z) []
  rw [List.append_nil] at hread
  simp only [integerOf, hlex, hread]

theorem integerOf_idLiteral (nID : Nat) : integerOf (idLiteral nID) = some (nID : Int) := by
  rw [idLiteral, ← decimal_natCast]
  exact integerOf_decimal nID

section Keys

variable {pb : Runtime} {m : RowMessage} {f : FieldDescriptor}

/-- The value of a key that is set. -/
theorem exists_key (hfind : m.descriptor.FindFieldByName m.descriptor.primary_key = some f)
    (hint : isInteger f.type = true) (hset : m.HasField f = true) :
    ∃ z : Int, m.value f.name = some (.int z) ∧ (m.Get f).toInt = z ∧ z < 2 ^ 64 := by
  obtain ⟨v, hv⟩ := Option.isSome_iff_exists.mp hset
  have hfits : v.fits f.type = true := by
    have haccepted := m.accepted f.name v hv
    simpa [Descriptor.accepts, FindFieldByName_of_mem (FindFieldByName_name hfind).1]
      using haccepted
  obtain ⟨z, rfl, hhigh⟩ := fits_integer hint hfits
  exact ⟨z, hv, by simp [RowMessage.Get, hv, Value.toInt], by omega⟩

/-- INSERT and UPDATE print the key as it is. -/
theorem writtenKey_eq (hfind : m.descriptor.FindFieldByName m.descriptor.primary_key = some f)
    (hint : isInteger f.type = true) {z : Int} (hv : m.value f.name = some (.int z))
    {vecFieldInfo : List SFieldInfo}
    (hinfos : getMessageFieldInfos pb (.row m) = some vecFieldInfo) (escape : Bytes → Bytes) :
    writtenKey escape m vecFieldInfo = some (decimal z) := by
  have hcolumn := find_infos hinfos m.descriptor.primary_key
  simp only [columnInfo, hfind, Option.bind_some, hv, getFieldInfo_integer pb hint] at hcolumn
  simp [writtenKey, hcolumn, SFieldInfo.literal]

/-- The two literals denote the key and its value modulo 2^64. -/
theorem keysAgree_iff (hprimary : m.descriptor.primary_key ≠ "")
    (hfind : m.descriptor.FindFieldByName m.descriptor.primary_key = some f)
    (hint : isInteger f.type = true) (hset : m.HasField f = true) {vecFieldInfo : List SFieldInfo}
    (hinfos : getMessageFieldInfos pb (.row m) = some vecFieldInfo) (escape : Bytes → Bytes) :
    KeysAgree pb escape m ↔ (((m.Get f).toInt % 2 ^ 64).toNat : Int) = (m.Get f).toInt := by
  obtain ⟨z, hv, hz, -⟩ := exists_key hfind hint hset
  have hnID : getPrimaryValue (.row m) = some (z % 2 ^ 64).toNat :=
    getPrimaryValue_eq_some.mpr ⟨hprimary, f, hfind, hint, by rw [hz]⟩
  have hwritten := writtenKey_eq hfind hint hv hinfos escape
  rw [hz]
  constructor
  · rintro ⟨nID, vecFieldInfo', szKey, z', hnID', hinfos', hkey, hid, hliteral⟩
    rw [hnID, Option.some.injEq] at hnID'
    rw [hinfos, Option.some.injEq] at hinfos'
    subst hnID' hinfos'
    rw [hwritten, Option.some.injEq] at hkey
    subst hkey
    rw [integerOf_idLiteral, Option.some.injEq] at hid
    rw [integerOf_decimal, Option.some.injEq] at hliteral
    exact hid.trans hliteral.symm
  · intro hsame
    exact ⟨_, vecFieldInfo, decimal z, z, hnID, hinfos, hwritten,
      (integerOf_idLiteral _).trans (congrArg some hsame), integerOf_decimal z⟩

/-- **All commands name the same row exactly for keys that are not negative.**  Whatever the
integer kind of the primary key, the literal that SELECT and DELETE print for the id of a message
and the one that INSERT and UPDATE print for the message denote one integer if and only if the
key is not negative. -/
theorem key_literals_agree_iff (hprimary : m.descriptor.primary_key ≠ "")
    (hfind : m.descriptor.FindFieldByName m.descriptor.primary_key = some f)
    (hint : isInteger f.type = true) (hset : m.HasField f = true) {vecFieldInfo : List SFieldInfo}
    (hinfos : getMessageFieldInfos pb (.row m) = some vecFieldInfo) (escape : Bytes → Bytes) :
    KeysAgree pb escape m ↔ 0 ≤ (m.Get f).toInt := by
  obtain ⟨z, hv, hz, hhigh⟩ := exists_key hfind hint hset
  rw [keysAgree_iff hprimary hfind hint hset hinfos, hz]
  constructor
  · intro hsame
    omega
  · intro hnonneg
    have hmod : z % 2 ^ 64 = z := Int.emod_eq_of_lt hnonneg (by omega)
    rw [hmod]
    omega

/-- Player 7. -/
theorem key_literals_agree_iff_player :
    KeysAgree setRuntime SqlText.escape (PlayerBase.player 7 []) ↔
      0 ≤ ((PlayerBase.player 7 []).Get PlayerBase.id).toInt :=
  key_literals_agree_iff (by decide) rfl rfl rfl rfl SqlText.escape

/-- The player -5 is written under -5 and looked for under 2^64 - 5. -/
theorem negative_key_not_found :
    getPrimaryValue (.row (PlayerBase.player (-5) [])) = some (2 ^ 64 - 5) ∧
      integerOf (idLiteral (2 ^ 64 - 5)) = some (2 ^ 64 - 5) ∧
      ¬ KeysAgree setRuntime SqlText.escape (PlayerBase.player (-5) []) := by
  refine ⟨rfl, integerOf_idLiteral _, ?_⟩
  rw [keysAgree_iff (by decide) rfl rfl rfl rfl]
  decide

end Keys

end Db
