import DbService.ByteText
import Mathlib.Logic.Function.Basic

/-!
# Statement arguments (`db_variant.cpp`)

A `CDbVariant` is a type tag over one shared word, which a string value uses as a pointer to
an array of its own.  Variants are the numbers of a store, arrays the numbers of a heap, and
every member function passes the memory on; `none` is undefined behaviour: an array deleted
twice or read after its end, a member of the union read that was not the one written last.
-/

namespace Db

open ByteText

/-- The tag of a variant. -/
inductive EVariantValueType
  | eVVT_None
  | eVVT_Int32
  | eVVT_UInt32
  | eVVT_Int64
  | eVVT_UInt64
  | eVVT_Double
  | eVVT_String
  deriving DecidableEq

/-- The word `szStr`, `m_nValue` and `m_fValue` share, with the member written last. -/
inductive UnionWord
  | unset
  | szStr (pArray : Option Nat)
  | m_nValue (n : Int64)
  | m_fValue (nBits : UInt64)
  deriving DecidableEq

/-- The members of the class: the tag, the shared word and the length of a string. -/
structure CDbVariant where
  m_eType : EVariantValueType
  word : UnionWord
  /-- `none` until it is written. -/
  nLen : Option UInt32
  deriving DecidableEq

/-- The variants alive and the arrays allocated. -/
structure VariantMemory where
  variant : Nat → Option CDbVariant
  array : Nat → Option Bytes
  nNext : Nat

/-- A `const char*`: null, an array of the heap, or a buffer the variants do not manage. -/
inductive CharPointer
  | null
  | array (nArray : Nat)
  | outside (buffer : Bytes)

/-- The integers a variant is constructed or assigned from. -/
inductive IntegerValue
  | int8 (value : Int8)
  | uint8 (value : UInt8)
  | int16 (value : Int16)
  | uint16 (value : UInt16)
  | int32 (value : Int32)
  | uint32 (value : UInt32)
  | int64 (value : Int64)
  | uint64 (value : UInt64)

namespace IntegerValue

/-- The integer that is meant. -/
def toInt : IntegerValue → Int
  | int8 value => value.toInt
  | uint8 value => value.toNat
  | int16 value => value.toInt
  | uint16 value => value.toNat
  | int32 value => value.toInt
  | uint32 value => value.toNat
  | int64 value => value.toInt
  | uint64 value => value.toNat

/-- The tag each constructor and assignment sets. -/
def m_eType : IntegerValue → EVariantValueType
  | int8 _ => .eVVT_Int32
  | uint8 _ => .eVVT_UInt32
  | int16 _ => .eVVT_Int32
  | uint16 _ => .eVVT_UInt32
  | int32 _ => .eVVT_Int32
  | uint32 _ => .eVVT_UInt32
  | int64 _ => .eVVT_Int64
  | uint64 _ => .eVVT_UInt64

/-- `this->m_nValue = value`, the conversion to `int64_t`. -/
def m_nValue : IntegerValue → Int64
  | int8 value => value.toInt64
  | uint8 value => value.toUInt64.toInt64
  | int16 value => value.toInt64
  | uint16 value => value.toUInt64.toInt64
  | int32 value => value.toInt64
  | uint32 value => value.toUInt64.toInt64
  | int64 value => value
  | uint64 value => value.toInt64

/-! ## The conversion to `int64_t` -/

/-- An unsigned number below `2 ^ 63` is the same number as an `int64_t`. -/
theorem toInt_toInt64 (n : UInt64) (h : n.toNat < 2 ^ 63) : n.toInt64.toInt = n.toNat := by
  have hbits : n.toInt64.toInt = n.toBitVec.toInt := rfl
  have hnat : n.toBitVec.toNat = n.toNat := rfl
  rw [hbits, BitVec.toInt_eq_toNat_of_lt (by omega), hnat]

/-- Only an unsigned 64-bit integer of at least `2 ^ 63` is changed by the conversion. -/
theorem m_nValue_toInt (value : IntegerValue) (h : value.toInt < 2 ^ 63) :
    value.m_nValue.toInt = value.toInt := by
  cases value with
  | int8 value => exact value.toInt_toInt64
  | int16 value => exact value.toInt_toInt64
  | int32 value => exact value.toInt_toInt64
  | int64 value => rfl
  | uint8 value =>
      have hlt := value.toNat_lt
      exact (toInt_toInt64 _ (by simp; omega)).trans (by simp [toInt])
  | uint16 value =>
      have hlt := value.toNat_lt
      exact (toInt_toInt64 _ (by simp; omega)).trans (by simp [toInt])
  | uint32 value =>
      have hlt := value.toNat_lt
      exact (toInt_toInt64 _ (by simp; omega)).trans (by simp [toInt])
  | uint64 value => exact toInt_toInt64 value (by simp only [toInt] at h; omega)

/-- The signed word prints like the value exactly when the value fits it. -/
theorem decimal_m_nValue_iff (value : IntegerValue) :
    decimal value.m_nValue.toInt = decimal value.toInt ↔ value.toInt < 2 ^ 63 := by
  constructor
  · intro htext
    by_contra hlarge
    obtain ⟨n, hn⟩ : ∃ n : Nat, value.toInt = n := ⟨value.toInt.toNat, by omega⟩
    rw [hn, decimal_natCast] at htext
    have hword := value.m_nValue.toInt_lt
    have hsame := decimal_eq_decimalNat htext
    omega
  · intro h
    rw [m_nValue_toInt value h]

/-- The tag of an integer is one of the four, those of the narrow types being those of 32 bits. -/
theorem m_eType_cases (value : IntegerValue) :
    value.m_eType = .eVVT_Int32 ∨ value.m_eType = .eVVT_UInt32 ∨
      value.m_eType = .eVVT_Int64 ∨ value.m_eType = .eVVT_UInt64 := by
  cases value <;> simp [m_eType]

end IntegerValue

namespace VariantMemory

/-- No variant and no array. -/
def empty : VariantMemory := ⟨fun _ => none, fun _ => none, 0⟩

/-- A variant is written. -/
def put (mem : VariantMemory) (x : Nat) (v : CDbVariant) : VariantMemory :=
  { mem with variant := Function.update mem.variant x (some v) }

@[simp] theorem put_variant_self (mem : VariantMemory) (x : Nat) (v : CDbVariant) :
    (mem.put x v).variant x = some v := Function.update_self ..

theorem put_variant_of_ne (mem : VariantMemory) {x y : Nat} (hy : y ≠ x) (v : CDbVariant) :
    (mem.put x v).variant y = mem.variant y := Function.update_of_ne hy ..

/-- `delete[] p`; a null pointer is left alone. -/
def deleteArray (mem : VariantMemory) : Option Nat → Option VariantMemory
  | none => some mem
  | some p =>
      match mem.array p with
      | none => none
      | some _ => some { mem with array := Function.update mem.array p none }

/-- `new char[nLen]` filled with `bytes`. -/
def newArray (mem : VariantMemory) (bytes : Bytes) : VariantMemory :=
  { mem with array := Function.update mem.array mem.nNext (some bytes), nNext := mem.nNext + 1 }

/-- The `nLen` bytes at a pointer. -/
def read (mem : VariantMemory) (p : CharPointer) (nLen : UInt32) : Option Bytes :=
  let buffer :=
    match p with
    | .null => none
    | .array nArray => mem.array nArray
    | .outside buffer => some buffer
  match buffer with
  | none => none
  | some buffer => if nLen.toNat ≤ buffer.length then some (buffer.take nLen.toNat) else none

end VariantMemory

namespace CDbVariant

/-! ## Reading a member of the union -/

/-- `szStr`, if it was the member written last. -/
def readStr (v : CDbVariant) : Option (Option Nat) :=
  match v.word with
  | .szStr p => some p
  | _ => none

/-- `m_nValue`, if it was. -/
def readValue (v : CDbVariant) : Option Int64 :=
  match v.word with
  | .m_nValue n => some n
  | _ => none

/-- `m_fValue`, if it was. -/
def readReal (v : CDbVariant) : Option UInt64 :=
  match v.word with
  | .m_fValue nBits => some nBits
  | _ => none

/-! ## The member functions -/

/-- The three assignments at the end of `clear` leave the pointer null; only a string's
length is reset. -/
def clear (mem : VariantMemory) (x : Nat) : Option VariantMemory := do
  let v ← mem.variant x
  match v.m_eType with
  | .eVVT_String =>
      let p ← v.readStr
      let mem ← mem.deleteArray p
      some (mem.put x ⟨.eVVT_None, .szStr none, some 0⟩)
  | _ => some (mem.put x ⟨.eVVT_None, .szStr none, v.nLen⟩)

/-- `setString`: the old value is cleared first, so a pointer into the variant's own array is read
after its end. -/
def setString (mem : VariantMemory) (x : Nat) (szStr : CharPointer) (nLen : UInt32) :
    Option VariantMemory := do
  let mem ← clear mem x
  match szStr with
  | .null => some mem
  | szStr =>
      let bytes ← mem.read szStr nLen
      some ((mem.newArray bytes).put x ⟨.eVVT_String, .szStr (some mem.nNext), some nLen⟩)

/-- `CDbVariant()`, which leaves the union as it finds it. -/
def construct (mem : VariantMemory) (x : Nat) : VariantMemory :=
  mem.put x ⟨.eVVT_None, .unset, none⟩

/-- The constructors from an integer. -/
def constructInteger (mem : VariantMemory) (x : Nat) (value : IntegerValue) : VariantMemory :=
  mem.put x ⟨value.m_eType, .m_nValue value.m_nValue, none⟩

/-- The constructor from a `double`. -/
def constructDouble (mem : VariantMemory) (x : Nat) (nBits : UInt64) : VariantMemory :=
  mem.put x ⟨.eVVT_Double, .m_fValue nBits, none⟩

/-- `CDbVariant(const char*, uint32_t)` -/
def constructChars (mem : VariantMemory) (x : Nat) (value : CharPointer) (nLen : UInt32) :
    Option VariantMemory :=
  setString (construct mem x) x value nLen

/-- `CDbVariant(const string&)`: the size is cut to 32 bits. -/
def constructString (mem : VariantMemory) (x : Nat) (value : Bytes) : Option VariantMemory :=
  setString (construct mem x) x (.outside value) (UInt32.ofNat value.length)

/-- The assignments of an integer. -/
def assignInteger (mem : VariantMemory) (x : Nat) (value : IntegerValue) :
    Option VariantMemory := do
  let mem ← clear mem x
  let v ← mem.variant x
  some (mem.put x { v with m_eType := value.m_eType, word := .m_nValue value.m_nValue })

/-- The assignment of a `double`. -/
def assignDouble (mem : VariantMemory) (x : Nat) (nBits : UInt64) : Option VariantMemory := do
  let mem ← clear mem x
  let v ← mem.variant x
  some (mem.put x { v with m_eType := .eVVT_Double, word := .m_fValue nBits })

/-- The assignment of a `string`, whose buffer is not one of the variants'. -/
def assignString (mem : VariantMemory) (x : Nat) (value : Bytes) : Option VariantMemory :=
  setString mem x (.outside value) (UInt32.ofNat value.length)

/-- A pointer read from a variant. -/
def pointerTo : Option Nat → CharPointer
  | none => .null
  | some p => .array p

/-- `operator=(const CDbVariant&)`: for a string, `setString` clears the variant once more,
which has the new tag by then. -/
def copyAssign (mem : VariantMemory) (x rhs : Nat) : Option VariantMemory :=
  if x = rhs then some mem
  else do
    let mem ← clear mem x
    let v ← mem.variant x
    let r ← mem.variant rhs
    let v := { v with m_eType := r.m_eType }
    match r.m_eType with
    | .eVVT_Int32 | .eVVT_UInt32 | .eVVT_Int64 | .eVVT_UInt64 =>
        let n ← r.readValue
        some (mem.put x { v with word := .m_nValue n })
    | .eVVT_Double =>
        let nBits ← r.readReal
        some (mem.put x { v with word := .m_fValue nBits })
    | .eVVT_String =>
        let p ← r.readStr
        let nLen ← r.nLen
        setString (mem.put x v) x (pointerTo p) nLen
    | .eVVT_None => some (mem.put x v)

/-- `CDbVariant(const CDbVariant&)` -/
def copyConstruct (mem : VariantMemory) (x rhs : Nat) : Option VariantMemory :=
  copyAssign (construct mem x) x rhs

/-- `operator=(CDbVariant&&)` -/
def moveAssign (mem : VariantMemory) (x rhs : Nat) : Option VariantMemory :=
  if x = rhs then some mem
  else do
    let mem ← clear mem x
    let v ← mem.variant x
    let r ← mem.variant rhs
    let v := { v with m_eType := r.m_eType }
    match r.m_eType with
    | .eVVT_Int32 | .eVVT_UInt32 | .eVVT_Int64 | .eVVT_UInt64 =>
        let n ← r.readValue
        some ((mem.put x { v with word := .m_nValue n }).put rhs
          { r with m_eType := .eVVT_None, word := .m_nValue 0 })
    | .eVVT_Double =>
        let nBits ← r.readReal
        some ((mem.put x { v with word := .m_fValue nBits }).put rhs
          { r with m_eType := .eVVT_None, word := .m_fValue 0 })
    | .eVVT_String =>
        let p ← r.readStr
        let nLen ← r.nLen
        some ((mem.put x { v with word := .szStr p, nLen := some nLen }).put rhs
          ⟨.eVVT_None, .szStr none, some 0⟩)
    | .eVVT_None => some ((mem.put x v).put rhs { r with m_eType := .eVVT_None })

/-- `~CDbVariant` -/
def destroy (mem : VariantMemory) (x : Nat) : Option VariantMemory := do
  let mem ← clear mem x
  some { mem with variant := Function.update mem.variant x none }

/-- `realText` is `ostringstream << double`. -/
def toString (realText : UInt64 → Bytes) (mem : VariantMemory) (x : Nat) : Option Bytes := do
  let v ← mem.variant x
  match v.m_eType with
  | .eVVT_String =>
      match ← v.readStr with
      | none => some []
      | some p =>
          let nLen ← v.nLen
          mem.read (.array p) nLen
  | .eVVT_Int32 | .eVVT_Int64 | .eVVT_UInt32 | .eVVT_UInt64 =>
      let n ← v.readValue
      some (decimal n.toInt)
  | .eVVT_Double =>
      let nBits ← v.readReal
      some (realText nBits)
  | .eVVT_None => some []

end CDbVariant

end Db
