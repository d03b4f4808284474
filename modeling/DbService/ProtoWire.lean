import Mathlib.Algebra.Order.Ring.Nat

/-!
# The protobuf wire format

A message is its fields one after the other, a field a tag and a value, a number a varint.  The
writer has the two wire types that integers, strings, bytes and submessages need: varints (0) and
counted bytes (2).  The reader is that of any message class.  It takes the values of the two types
into the field they belong to, and what it has no field for it passes over, whichever of the
wire types it has: 0, 1 and 5, counted bytes, or a group of fields between two tags.

The reader has the limits that `coded_stream.h` documents.  A varint has ten bytes at most and
gives 64 bits, of which a tag keeps 32; a size is an `int`; groups and submessages nest to a
budget; and a text of more than 64 MB is refused whole.  Field number 0, the wire types 6 and 7,
a tag that ends a group which is not open, and a size that is larger than what is left make the
text malformed.

* `readVarint_varint`, `readField_write` -- a number, and a field, is read back;
* `parseFields_writeFields`, `parseMessage_writeFields` -- so are the fields of a text, whatever
  their wire types;
* `lt_of_readFields` -- what a text gives as a number has 64 bits;
* `length_writeFields_of_readFields` -- the writer takes no more bytes than the text had.
-/

namespace ProtoWire

/-! ## Varints -/

/-- The seven bits at a time of a number, lowest first, with `fuel` rounds at most.  All bytes but
the last have their top bit set. -/
def varintFrom : Nat → Nat → List UInt8
  | 0, n => [UInt8.ofNat n]
  | fuel + 1, n =>
      if n < 128 then [UInt8.ofNat n]
      else UInt8.ofNat (n % 128 + 128) :: varintFrom fuel (n / 128)

/-- A number as it is written, without leading groups of zeros.  No number has more groups than it
counts. -/
def varint (n : Nat) : List UInt8 := varintFrom n n

/-- The number at the start of a text, which has `nBytes` bytes at most, and the rest.  A byte
below 128 ends it; where there is none within the bytes allowed, the text has no number to give.
-/
def readGroups : Nat → List UInt8 → Option (Nat × List UInt8)
  | 0, _ => none
  | _ + 1, [] => none
  | nBytes + 1, b :: rest =>
      if b.toNat < 128 then some (b.toNat, rest)
      else (readGroups nBytes rest).map fun (n, rest) => (b.toNat - 128 + 128 * n, rest)

/-- `ReadVarint64`: ten bytes at most, of which the last has six bits too many.  A number has 64
bits, so they are dropped, and the text is not refused for them. -/
def readVarint (text : List UInt8) : Option (Nat × List UInt8) :=
  (readGroups 10 text).map fun (n, rest) => (n % 2 ^ 64, rest)

theorem toNat_byte {n : Nat} (h : n < 256) : (UInt8.ofNat n).toNat = n := by
  rw [UInt8.toNat_ofNat', Nat.mod_eq_of_lt h]

/-- The bytes of a number are read back where there are enough of them for it.  The induction is
on the rounds of the writer, each of which is one byte for the reader. -/
theorem readGroups_varintFrom {fuel nBytes n : Nat} (hfuel : n < 128 ^ (fuel + 1))
    (hbytes : n < 128 ^ (nBytes + 1)) (rest : List UInt8) :
    readGroups (nBytes + 1) (varintFrom fuel n ++ rest) = some (n, rest) := by
  induction fuel generalizing n nBytes with
  | zero =>
      have hbyte : (UInt8.ofNat n).toNat = n := toNat_byte (by omega)
      simp only [varintFrom, List.cons_append, List.nil_append, readGroups, hbyte]
      rw [if_pos (by omega)]
  | succ fuel ih =>
      rw [varintFrom]
      split
      · have hbyte : (UInt8.ofNat n).toNat = n := toNat_byte (by omega)
        simp only [List.cons_append, List.nil_append, readGroups, hbyte]
        rw [if_pos (by omega)]
      · rename_i hlong
        have hbyte : (UInt8.ofNat (n % 128 + 128)).toNat = n % 128 + 128 :=
          toNat_byte (by omega)
        have hdiv : ∀ {k : Nat}, n < 128 ^ (k + 1 + 1) → n / 128 < 128 ^ (k + 1) := by
          intro k hk
          rw [Nat.div_lt_iff_lt_mul (by omega), ← Nat.pow_succ]
          exact hk
        cases nBytes with
        | zero => omega
        | succ nBytes =>
            simp only [List.cons_append, readGroups, hbyte, ih (hdiv hfuel) (hdiv hbytes),
              Option.map_some]
            rw [if_neg (by omega)]
            have hvalue : n % 128 + 128 - 128 + 128 * (n / 128) = n := by omega
            rw [hvalue]

/-- **Numbers of 64 bits are read back.**  Ten groups of seven bits are enough for them, so
neither the bound on the bytes nor the cut is felt. -/
theorem readVarint_varint {n : Nat} (h : n < 2 ^ 64) (rest : List UInt8) :
    readVarint (varint n ++ rest) = some (n, rest) := by
  have hpow : n < 128 ^ n := Nat.lt_pow_self (by omega)
  have hstep : 128 ^ n ≤ 128 ^ (n + 1) := Nat.pow_le_pow_right (by omega) (by omega)
  have hten : 2 ^ 64 ≤ 128 ^ (9 + 1) := by decide
  have hread := @readGroups_varintFrom n 9 n (by omega) (by omega) rest
  rw [readVarint, varint, hread, Option.map_some]
  simp only [Nat.mod_eq_of_lt h]

/-- Even zero takes a byte. -/
theorem length_varintFrom_pos (fuel n : Nat) : 0 < (varintFrom fuel n).length := by
  cases fuel with
  | zero => simp [varintFrom]
  | succ fuel =>
      rw [varintFrom]
      split <;> simp

/-- A round writes one byte, and so does the end. -/
theorem length_varintFrom_le (fuel n : Nat) : (varintFrom fuel n).length ≤ fuel + 1 := by
  induction fuel generalizing n with
  | zero => simp [varintFrom]
  | succ fuel ih =>
      rw [varintFrom]
      split
      · simp
      · rw [List.length_cons]
        exact Nat.succ_le_succ (ih (n / 128))

theorem varint_ne_nil (n : Nat) : varint n ≠ [] :=
  List.ne_nil_of_length_pos (length_varintFrom_pos n n)

/-- What stands behind a number does not matter to it. -/
theorem readGroups_append {nBytes n : Nat} {text rest : List UInt8}
    (h : readGroups nBytes text = some (n, rest)) (more : List UInt8) :
    readGroups nBytes (text ++ more) = some (n, rest ++ more) := by
  induction nBytes generalizing text n with
  | zero => cases h
  | succ nBytes ih =>
      cases text with
      | nil => cases h
      | cons b text =>
          rw [List.cons_append]
          simp only [readGroups] at h ⊢
          split at h
          · obtain ⟨rfl, rfl⟩ := Prod.mk.inj (Option.some.inj h)
            rw [if_pos (by assumption)]
          · obtain ⟨⟨n', rest'⟩, hread, heq⟩ := Option.map_eq_some_iff.mp h
            obtain ⟨rfl, rfl⟩ := Prod.mk.inj heq
            rw [if_neg (by assumption), ih hread, Option.map_some]

/-- What stands behind a varint does not matter to it either. -/
theorem readVarint_append {n : Nat} {text rest : List UInt8}
    (h : readVarint text = some (n, rest)) (more : List UInt8) :
    readVarint (text ++ more) = some (n, rest ++ more) := by
  obtain ⟨⟨n', rest'⟩, hread, heq⟩ := Option.map_eq_some_iff.mp h
  obtain ⟨rfl, rfl⟩ := Prod.mk.inj heq
  rw [readVarint, readGroups_append hread, Option.map_some]

/-! ## Fields -/

/-- The value of a field. -/
inductive Value
  | varint (n : Nat)
  | bytes (b : List UInt8)
  /-- A value that no class of these two kinds of fields has: its wire type, and its text. -/
  | other (nType : Nat) (raw : List UInt8)
  deriving DecidableEq

/-- The wire type of a value. -/
def Value.nType : Value → Nat
  | .varint _ => 0
  | .bytes _ => 2
  | .other nType _ => nType

/-- A field of a text: its number and its value. -/
structure Field where
  nNumber : Nat
  value : Value
  deriving DecidableEq

/-- The tag in front of a field, by which a class knows it: a field of its own number with another
wire type is as unknown to it as one with another number. -/
def Field.tag (f : Field) : Nat := 8 * f.nNumber + f.value.nType

/-- A value as it stands behind its tag. -/
def Value.write : Value → List UInt8
  | .varint n => ProtoWire.varint n
  | .bytes b => ProtoWire.varint b.length ++ b
  | .other _ raw => raw

/-- A field with its tag. -/
def Field.write (f : Field) : List UInt8 := varint f.tag ++ f.value.write

/-- `ReadTag`: the field number and the wire type, of the 32 bits that a tag keeps.  The number 0
is no field's, and a parser that meets it does not get to the end of the text. -/
def readTag (text : List UInt8) : Option (Nat × Nat × List UInt8) :=
  match readVarint text with
  | none => none
  | some (n, rest) =>
      let tag := n % 2 ^ 32
      if tag / 8 = 0 then none else some (tag / 8, tag % 8, rest)

/-- The next `nLen` bytes. -/
def takeBytes (nLen : Nat) (text : List UInt8) : Option (List UInt8 × List UInt8) :=
  if nLen ≤ text.length then some (text.take nLen, text.drop nLen) else none

/-- Bytes behind their number.  The size is an `int` in the source (`ReadVarintSizeAsInt`), so one
from 2^31 on is refused, and there have to be as many bytes. -/
def readCounted (text : List UInt8) : Option (List UInt8 × List UInt8) :=
  match readVarint text with
  | none => none
  | some (nLen, rest) => if nLen < 2 ^ 31 then takeBytes nLen rest else none

/-- The value of a wire type that does not nest, and the rest.  Types 3 and 4 are the ends of a
group and stand apart; the source knows no types 6 and 7. -/
def readScalar (nType : Nat) (text : List UInt8) : Option (Value × List UInt8) :=
  match nType with
  | 0 => (readVarint text).map fun (n, rest) => (.varint n, rest)
  | 1 => (takeBytes 8 text).map fun (raw, rest) => (.other 1 raw, rest)
  | 2 => (readCounted text).map fun (b, rest) => (.bytes b, rest)
  | 5 => (takeBytes 4 text).map fun (raw, rest) => (.other 5 raw, rest)
  | _ => none

/-- What stands behind the fields of the group `nNumber` and the tag that ends it.  A group inside
it takes one of the levels in `nDepth`.  Nothing of what is passed over is looked at, except that
the end has to be that of the innermost group that is open. -/
def skipGroup : Nat → Nat → Nat → List UInt8 → Option (List UInt8)
  | 0, _, _, _ => none
  | fuel + 1, nDepth, nNumber, text =>
      match readTag text with
      | none => none
      | some (nNumber', nType, rest) =>
          if nType = 4 then if nNumber' = nNumber then some rest else none
          else if nType = 3 then
            match nDepth with
            | 0 => none
            | nDepth' + 1 =>
                (skipGroup fuel nDepth' nNumber' rest).bind
                  (skipGroup fuel (nDepth' + 1) nNumber)
          else (readScalar nType rest).bind fun (_, rest) => skipGroup fuel nDepth nNumber rest

/-- The value of a field, and the rest.  A group is kept as the text it takes, up to the tag that
ends it, since no class reads what is in it. -/
def readValue (nDepth nNumber nType : Nat) (text : List UInt8) : Option (Value × List UInt8) :=
  if nType = 3 then
    match nDepth with
    | 0 => none
    | nDepth' + 1 =>
        (skipGroup text.length nDepth' nNumber text).map fun rest =>
          (.other 3 (text.take (text.length - rest.length)), rest)
  else readScalar nType text

/-- The field at the start of a text, and the rest. -/
def readField (nDepth : Nat) (text : List UInt8) : Option (Field × List UInt8) :=
  match readTag text with
  | none => none
  | some (nNumber, nType, rest) =>
      (readValue nDepth nNumber nType rest).map fun (value, rest) => (⟨nNumber, value⟩, rest)

/-- The fields of a message, at most `fuel` of them.  A field takes at least one byte, so the
length of the text is fuel enough. -/
def readFields (nDepth : Nat) : Nat → List UInt8 → Option (List Field)
  | _, [] => some []
  | 0, _ :: _ => none
  | fuel + 1, b :: text =>
      match readField nDepth (b :: text) with
      | none => none
      | some (f, rest) => (readFields nDepth fuel rest).map (f :: ·)

/-- The text of a message. -/
def writeFields (fs : List Field) : List UInt8 := fs.flatMap Field.write

/-- The fields of a message that has `nDepth` levels of nesting left.  There is no partial result:
the source too gives up the whole message at the first field it cannot read. -/
def parseFields (nDepth : Nat) (text : List UInt8) : Option (List Field) :=
  readFields nDepth text.length text

/-- `kDefaultTotalBytesLimit`, which no caller changes: a text of 64 MB is read to its end, a
longer one is refused. -/
def totalBytesLimit : Nat := 64 * 2 ^ 20

/-- `default_recursion_limit_`: how deep groups and submessages may nest, counted together. -/
def recursionLimit : Nat := 100

/-- The fields of a message that stands for itself, if the text is well formed and within the
limit. -/
def parseMessage (text : List UInt8) : Option (List Field) :=
  if text.length ≤ totalBytesLimit then parseFields recursionLimit text else none

/-! ## Reading what was written -/

/-- The values of a field `nNumber` that can be read back: a number has 64 bits, and a value of
another wire type is one that is passed over whole. -/
def Value.Fits (nDepth nNumber : Nat) : Value → Prop
  | .varint n => n < 2 ^ 64
  | .bytes _ => True
  | .other nType raw =>
      (nType = 1 ∧ raw.length = 8) ∨ (nType = 5 ∧ raw.length = 4) ∨
        (nType = 3 ∧ 0 < nDepth ∧ skipGroup raw.length (nDepth - 1) nNumber raw = some [])

instance (nDepth nNumber : Nat) : ∀ value : Value, Decidable (value.Fits nDepth nNumber)
  | .varint n => inferInstanceAs (Decidable (n < 2 ^ 64))
  | .bytes _ => inferInstanceAs (Decidable True)
  | .other _ _ => inferInstanceAs (Decidable (_ ∨ _ ∨ _))

/-- **A field that can be read back:** its number has 29 bits, and its value fits.  (How long a
text may be is said of the message.) -/
def Field.Fits (nDepth : Nat) (f : Field) : Prop :=
  0 < f.nNumber ∧ f.nNumber < 2 ^ 29 ∧ f.value.Fits nDepth f.nNumber

instance (nDepth : Nat) (f : Field) : Decidable (f.Fits nDepth) :=
  inferInstanceAs (Decidable (_ ∧ _ ∧ _))

/-- The wire type of a value that fits has three bits. -/
theorem Value.Fits.nType_lt {nDepth nNumber : Nat} {value : Value}
    (h : value.Fits nDepth nNumber) : value.nType < 8 := by
  cases value with
  | varint n => exact Nat.zero_lt_succ _
  | bytes b => exact (by omega : 2 < 8)
  | other nType raw =>
      rw [Value.nType]
      rcases h with h | h | h <;> omega

theorem Field.write_ne_nil (f : Field) : f.write ≠ [] := by
  simp [Field.write, varint_ne_nil]

/-- A tag is read back, if the number of its field has 29 bits and its wire type three, so that
the 32 bits of a tag hold both. -/
theorem readTag_varint {nNumber nType : Nat} (hpos : 0 < nNumber) (hnumber : nNumber < 2 ^ 29)
    (htype : nType < 8) (rest : List UInt8) :
    readTag (varint (8 * nNumber + nType) ++ rest) = some (nNumber, nType, rest) := by
  have htag : (8 * nNumber + nType) % 2 ^ 32 = 8 * nNumber + nType := Nat.mod_eq_of_lt (by omega)
  have hdiv : (8 * nNumber + nType) / 8 = nNumber := by omega
  have hmod : (8 * nNumber + nType) % 8 = nType := by omega
  simp only [readTag, readVarint_varint (show 8 * nNumber + nType < 2 ^ 64 by omega), htag, hdiv,
    hmod]
  rw [if_neg (by omega)]

theorem takeBytes_append (b rest : List UInt8) :
    takeBytes b.length (b ++ rest) = some (b, rest) := by
  simp [takeBytes]

/-- What stands behind a tag does not matter to it. -/
theorem readTag_append {nNumber nType : Nat} {text rest : List UInt8}
    (h : readTag text = some (nNumber, nType, rest)) (more : List UInt8) :
    readTag (text ++ more) = some (nNumber, nType, rest ++ more) := by
  unfold readTag at h ⊢
  split at h
  · cases h
  · rename_i n rest' hread
    rw [readVarint_append hread]
    simp only at h ⊢
    split at h
    · cases h
    · rename_i hnumber
      simp only [Option.some.injEq, Prod.mk.injEq] at h
      obtain ⟨rfl, rfl, rfl⟩ := h
      rw [if_neg hnumber]

/-- What stands behind the bytes taken does not matter to them, since there were enough without
it. -/
theorem takeBytes_append_right {nLen : Nat} {text b rest : List UInt8}
    (h : takeBytes nLen text = some (b, rest)) (more : List UInt8) :
    takeBytes nLen (text ++ more) = some (b, rest ++ more) := by
  unfold takeBytes at h ⊢
  split at h
  · rename_i hle
    obtain ⟨rfl, rfl⟩ := Prod.mk.inj (Option.some.inj h)
    rw [if_pos (by rw [List.length_append]; omega), List.take_append_of_le_length hle,
      List.drop_append_of_le_length hle]
  · cases h

/-- Nor does it to counted bytes, -/
theorem readCounted_append {text b rest : List UInt8} (h : readCounted text = some (b, rest))
    (more : List UInt8) : readCounted (text ++ more) = some (b, rest ++ more) := by
  unfold readCounted at h ⊢
  split at h
  · cases h
  · rename_i nLen rest' hread
    rw [readVarint_append hread]
    simp only at h ⊢
    split at h
    · rw [if_pos (by assumption), takeBytes_append_right h]
    · cases h

/-- nor to any value that does not nest. -/
theorem readScalar_append {nType : Nat} {value : Value} {text rest : List UInt8}
    (h : readScalar nType text = some (value, rest)) (more : List UInt8) :
    readScalar nType (text ++ more) = some (value, rest ++ more) := by
  unfold readScalar at h ⊢
  split at h
  all_goals first
    | (obtain ⟨⟨read, rest'⟩, hread, heq⟩ := Option.map_eq_some_iff.mp h
       obtain ⟨rfl, rfl⟩ := Prod.mk.inj heq)
    | cases h
  · rw [readVarint_append hread, Option.map_some]
  · rw [takeBytes_append_right hread, Option.map_some]
  · rw [readCounted_append hread, Option.map_some]
  · rw [takeBytes_append_right hread, Option.map_some]

/-- **What stands behind a group does not matter to it,** nor does fuel to spare.  The fuel is the
length of the text, which is longer when the group stands in a message, so that both have to be
said. -/
theorem skipGroup_append {fuel fuel' nDepth nNumber : Nat} {text rest : List UInt8}
    (h : skipGroup fuel nDepth nNumber text = some rest) (hfuel : fuel ≤ fuel')
    (more : List UInt8) :
    skipGroup fuel' nDepth nNumber (text ++ more) = some (rest ++ more) := by
  induction fuel generalizing fuel' nDepth nNumber text rest with
  | zero => cases h
  | succ fuel ih =>
      obtain ⟨fuel', rfl⟩ : ∃ k, fuel' = k + 1 := ⟨fuel' - 1, by omega⟩
      have hle : fuel ≤ fuel' := by omega
      unfold skipGroup at h ⊢
      split at h
      · cases h
      · rename_i nNumber' nType rest' htag
        rw [readTag_append htag]
        simp only at h ⊢
        split_ifs at h ⊢ with hend hnumber hgroup
        · obtain rfl := Option.some.inj h
          rfl
        · cases nDepth with
          | zero => cases h
          | succ nDepth =>
              obtain ⟨rest'', hinner, houter⟩ := Option.bind_eq_some_iff.mp h
              simp only [ih hinner hle, Option.bind_some, ih houter hle]
        · obtain ⟨⟨value, rest''⟩, hscalar, hskip⟩ := Option.bind_eq_some_iff.mp h
          simp only [readScalar_append hscalar, Option.bind_some, ih hskip hle]

/-- A value that is no group's is read as it stands. -/
theorem readValue_scalar {nDepth nNumber nType : Nat} (h : nType ≠ 3) (text : List UInt8) :
    readValue nDepth nNumber nType text = readScalar nType text := by
  unfold readValue
  rw [if_neg h]

/-- A group is read back, whatever stands behind it. -/
theorem readValue_group {nDepth nNumber : Nat} {raw : List UInt8}
    (h : skipGroup raw.length nDepth nNumber raw = some []) (rest : List UInt8) :
    readValue (nDepth + 1) nNumber 3 (raw ++ rest) = some (.other 3 raw, rest) := by
  have hlength : (raw ++ rest).length - rest.length = raw.length := by
    rw [List.length_append, Nat.add_sub_cancel]
  have hle : raw.length ≤ (raw ++ rest).length := by
    rw [List.length_append]
    omega
  unfold readValue
  rw [if_pos rfl]
  simp only [skipGroup_append h hle rest, Option.map_some, List.nil_append]
  rw [hlength, List.take_left]

/-- A value is read back behind its tag. -/
theorem readValue_write {nDepth nNumber : Nat} {value : Value} (h : value.Fits nDepth nNumber)
    (hlength : value.write.length < 2 ^ 31) (rest : List UInt8) :
    readValue nDepth nNumber value.nType (value.write ++ rest) = some (value, rest) := by
  cases value with
  | varint n =>
      simp only [Value.write, Value.nType]
      rw [readValue_scalar (by omega), readScalar, readVarint_varint h, Option.map_some]
  | bytes b =>
      simp only [Value.write, List.length_append] at hlength
      have hlen : b.length < 2 ^ 31 := by omega
      simp only [Value.write, Value.nType]
      rw [readValue_scalar (by omega), readScalar, readCounted, List.append_assoc,
        readVarint_varint (by omega)]
      simp only [if_pos hlen, takeBytes_append, Option.map_some]
  | other nType raw =>
      simp only [Value.write, Value.nType]
      rcases h with ⟨rfl, hlen⟩ | ⟨rfl, hlen⟩ | ⟨rfl, hdepth, hskip⟩
      · rw [readValue_scalar (by omega), readScalar, ← hlen, takeBytes_append, Option.map_some]
      · rw [readValue_scalar (by omega), readScalar, ← hlen, takeBytes_append, Option.map_some]
      · obtain ⟨nDepth, rfl⟩ : ∃ k, nDepth = k + 1 := ⟨nDepth - 1, by omega⟩
        exact readValue_group hskip rest

/-- **A field is read back,** tag and value, whatever its wire type and whatever stands behind it.
-/
theorem readField_write {nDepth : Nat} {f : Field} (h : f.Fits nDepth)
    (hlength : f.write.length < 2 ^ 31) (rest : List UInt8) :
    readField nDepth (f.write ++ rest) = some (f, rest) := by
  have hvalue : f.value.write.length < 2 ^ 31 := by
    simp only [Field.write, List.length_append] at hlength
    omega
  rw [Field.write, List.append_assoc, readField, Field.tag,
    readTag_varint h.1 h.2.1 h.2.2.nType_lt]
  simp only [readValue_write h.2.2 hvalue, Option.map_some]

/-- The fields are read back one by one, by induction on them: the first is the one at the start
of the text, and it leaves the text of the others. -/
theorem readFields_writeFields {nDepth fuel : Nat} {fs : List Field}
    (hfits : ∀ f ∈ fs, f.Fits nDepth) (hlength : (writeFields fs).length < 2 ^ 31)
    (h : (writeFields fs).length ≤ fuel) :
    readFields nDepth fuel (writeFields fs) = some fs := by
  induction fs generalizing fuel with
  | nil => cases fuel <;> rfl
  | cons f fs ih =>
      have hsplit : writeFields (f :: fs) = f.write ++ writeFields fs := rfl
      rw [hsplit, List.length_append] at hlength
      have hread := readField_write (hfits f List.mem_cons_self) (by omega) (writeFields fs)
      rw [hsplit] at h ⊢
      cases htext : f.write with
      | nil => exact absurd htext f.write_ne_nil
      | cons b text =>
          rw [htext, List.cons_append] at hread h
          rw [List.cons_append]
          cases fuel with
          | zero => simp at h
          | succ fuel =>
              have hle : (writeFields fs).length ≤ fuel := by
                simp only [List.length_cons, List.length_append] at h
                omega
              have hrest := ih (fun f' hin => hfits f' (List.mem_cons_of_mem _ hin)) (by omega) hle
              simp only [readFields, hread, hrest, Option.map_some]

/-- **Messages are read back** by their fields, in their order.  A text has at least one byte for
each of its fields, so its length is fuel enough. -/
theorem parseFields_writeFields {nDepth : Nat} {fs : List Field}
    (hfits : ∀ f ∈ fs, f.Fits nDepth) (hlength : (writeFields fs).length < 2 ^ 31) :
    parseFields nDepth (writeFields fs) = some fs :=
  readFields_writeFields hfits hlength le_rfl

/-- **A message within the limit is read back,** whatever the wire types of its fields. -/
theorem parseMessage_writeFields {fs : List Field} (hfits : ∀ f ∈ fs, f.Fits recursionLimit)
    (hlength : (writeFields fs).length ≤ totalBytesLimit) :
    parseMessage (writeFields fs) = some fs := by
  have hint : totalBytesLimit < 2 ^ 31 := by decide
  rw [parseMessage, if_pos hlength, parseFields_writeFields hfits (by omega)]

/-- A text that is read is no longer than the limit. -/
theorem length_le_of_parseMessage {text : List UInt8} {fs : List Field}
    (h : parseMessage text = some fs) :
    text.length ≤ totalBytesLimit ∧ parseFields recursionLimit text = some fs := by
  unfold parseMessage at h
  split at h
  · exact ⟨by assumption, h⟩
  · cases h

/-- A number of `k + 1` groups takes `k + 1` rounds at most, whatever the fuel. -/
theorem length_varintFrom_le_of_lt {fuel k n : Nat} (h : n < 128 ^ (k + 1)) :
    (varintFrom fuel n).length ≤ k + 1 := by
  induction fuel generalizing k n with
  | zero => simp [varintFrom]
  | succ fuel ih =>
      rw [varintFrom]
      split
      · simp
      · cases k with
        | zero => omega
        | succ k =>
            have hdiv : n / 128 < 128 ^ (k + 1) := by
              rw [Nat.div_lt_iff_lt_mul (by omega), ← Nat.pow_succ]
              exact h
            rw [List.length_cons]
            exact Nat.succ_le_succ (ih hdiv)

/-- A number of `k` groups takes `k` bytes to write at most. -/
theorem length_varint_le {k n : Nat} (hpos : 0 < k) (h : n < 128 ^ k) :
    (varint n).length ≤ k := by
  obtain ⟨k, rfl⟩ : ∃ j, k = j + 1 := ⟨k - 1, by omega⟩
  exact length_varintFrom_le_of_lt h

/-- As many groups as bytes were read make the number. -/
theorem lt_pow_of_readGroups {nBytes n : Nat} {text rest : List UInt8}
    (h : readGroups nBytes text = some (n, rest)) :
    rest.length < text.length ∧ n < 128 ^ (text.length - rest.length) := by
  induction nBytes generalizing text n with
  | zero => cases h
  | succ nBytes ih =>
      cases text with
      | nil => cases h
      | cons b text =>
          simp only [readGroups] at h
          rw [List.length_cons]
          split at h
          · rename_i hlast
            obtain ⟨rfl, rfl⟩ := Prod.mk.inj (Option.some.inj h)
            rw [Nat.add_sub_cancel_left]
            exact ⟨by omega, hlast⟩
          · obtain ⟨⟨n', rest'⟩, hread, heq⟩ := Option.map_eq_some_iff.mp h
            simp only [Prod.mk.injEq] at heq
            obtain ⟨rfl, rfl⟩ := heq
            obtain ⟨hlength, hlt⟩ := ih hread
            have hbyte := b.toNat_lt
            have hsucc : text.length + 1 - rest'.length = text.length - rest'.length + 1 := by
              omega
            rw [hsucc, Nat.pow_succ]
            omega

/-- **A number is written in no more bytes than it was read from,** nor is a smaller one.  The
reader also takes numbers with leading groups of zeros, which the writer does without. -/
theorem length_varint_of_readVarint {n m : Nat} {text rest : List UInt8}
    (h : readVarint text = some (n, rest)) (hle : m ≤ n) :
    (varint m).length + rest.length ≤ text.length := by
  obtain ⟨⟨n', rest'⟩, hread, heq⟩ := Option.map_eq_some_iff.mp h
  obtain ⟨rfl, rfl⟩ := Prod.mk.inj heq
  obtain ⟨hlength, hlt⟩ := lt_pow_of_readGroups hread
  have hmod := Nat.mod_le n' (2 ^ 64)
  have hvarint := length_varint_le (by omega) (lt_of_le_of_lt (hle.trans hmod) hlt)
  omega

/-- A number has no more groups than it is written in. -/
theorem lt_pow_length_varint (n : Nat) : n < 128 ^ (varint n).length := by
  have hpow : n < 128 ^ n := Nat.lt_pow_self (by omega)
  have hstep : 128 ^ n ≤ 128 ^ (n + 1) := Nat.pow_le_pow_right (by omega) (by omega)
  have hread := @readGroups_varintFrom n n n (by omega) (by omega) []
  rw [List.append_nil] at hread
  exact (lt_pow_of_readGroups hread).2

theorem length_varint_mono {m n : Nat} (h : m ≤ n) : (varint m).length ≤ (varint n).length :=
  length_varint_le (length_varintFrom_pos n n) (lt_of_le_of_lt h (lt_pow_length_varint n))

/-- A tag is written in no more bytes than it was read from: what the reader drops of it, the bits
from the 33rd on, only makes it smaller. -/
theorem length_tag_of_readTag {nNumber nType : Nat} {text rest : List UInt8}
    (h : readTag text = some (nNumber, nType, rest)) :
    (varint (8 * nNumber + nType)).length + rest.length ≤ text.length := by
  unfold readTag at h
  split at h
  · cases h
  · rename_i n rest' hread
    simp only at h
    split at h
    · cases h
    · simp only [Option.some.injEq, Prod.mk.injEq] at h
      obtain ⟨rfl, rfl, rfl⟩ := h
      have hmod := Nat.mod_le n (2 ^ 32)
      exact length_varint_of_readVarint hread (by omega)

/-- The bytes taken are as many as were asked for, and the rest is what is left. -/
theorem length_of_takeBytes {nLen : Nat} {text b rest : List UInt8}
    (h : takeBytes nLen text = some (b, rest)) :
    b.length = nLen ∧ b.length + rest.length = text.length := by
  unfold takeBytes at h
  split at h
  · obtain ⟨rfl, rfl⟩ := Prod.mk.inj (Option.some.inj h)
    rw [List.length_take, List.length_drop]
    omega
  · cases h

/-- A value is written in no more bytes than it was read from.  For counted bytes both parts
count: the size is a varint, and the bytes are kept as they are. -/
theorem length_write_of_readScalar {nType : Nat} {value : Value} {text rest : List UInt8}
    (h : readScalar nType text = some (value, rest)) :
    value.nType = nType ∧ value.write.length + rest.length ≤ text.length := by
  unfold readScalar at h
  split at h
  all_goals first
    | (obtain ⟨⟨read, rest'⟩, hread, heq⟩ := Option.map_eq_some_iff.mp h
       obtain ⟨rfl, rfl⟩ := Prod.mk.inj heq)
    | cases h
  · exact ⟨rfl, length_varint_of_readVarint hread le_rfl⟩
  · exact ⟨rfl, (length_of_takeBytes hread).2.le⟩
  · unfold readCounted at hread
    split at hread
    · cases hread
    · rename_i nLen rest'' hcount
      split at hread
      · obtain ⟨hlen, htotal⟩ := length_of_takeBytes hread
        have hvarint := length_varint_of_readVarint hcount hlen.le
        refine ⟨rfl, ?_⟩
        rw [Value.write, List.length_append]
        omega
      · cases hread
  · exact ⟨rfl, (length_of_takeBytes hread).2.le⟩

/-- Passing over a group only shortens the text; the induction is on the fuel, with the two calls
for a nested group one after the other. -/
theorem length_le_of_skipGroup {fuel nDepth nNumber : Nat} {text rest : List UInt8}
    (h : skipGroup fuel nDepth nNumber text = some rest) : rest.length ≤ text.length := by
  induction fuel generalizing nDepth nNumber text rest with
  | zero => cases h
  | succ fuel ih =>
      unfold skipGroup at h
      split at h
      · cases h
      · rename_i nNumber' nType rest' htag
        have hlength := length_tag_of_readTag htag
        split_ifs at h with hend hnumber hgroup
        · obtain rfl := Option.some.inj h
          omega
        · cases nDepth with
          | zero => cases h
          | succ nDepth =>
              obtain ⟨rest'', hinner, houter⟩ := Option.bind_eq_some_iff.mp h
              exact (ih houter).trans ((ih hinner).trans (by omega))
        · obtain ⟨⟨value, rest''⟩, hscalar, hskip⟩ := Option.bind_eq_some_iff.mp h
          have hvalue := (length_write_of_readScalar hscalar).2
          exact (ih hskip).trans (by omega)

/-- The same for a group, which is kept as it stood. -/
theorem length_write_of_readValue {nDepth nNumber nType : Nat} {value : Value}
    {text rest : List UInt8} (h : readValue nDepth nNumber nType text = some (value, rest)) :
    value.nType = nType ∧ value.write.length + rest.length ≤ text.length := by
  by_cases hgroup : nType = 3
  · subst hgroup
    cases nDepth with
    | zero => cases h
    | succ nDepth =>
        obtain ⟨rest', hskip, heq⟩ := Option.map_eq_some_iff.mp h
        obtain ⟨rfl, rfl⟩ := Prod.mk.inj heq
        have hrest := length_le_of_skipGroup hskip
        refine ⟨rfl, ?_⟩
        rw [Value.write, List.length_take]
        omega
  · rw [readValue_scalar hgroup] at h
    exact length_write_of_readScalar h

/-- A field, tag and value, is written in no more bytes than it was read from. -/
theorem length_write_of_readField {nDepth : Nat} {f : Field} {text rest : List UInt8}
    (h : readField nDepth text = some (f, rest)) :
    f.write.length + rest.length ≤ text.length := by
  unfold readField at h
  split at h
  · cases h
  · rename_i nNumber nType rest' htag
    obtain ⟨⟨value, rest''⟩, hread, heq⟩ := Option.map_eq_some_iff.mp h
    obtain ⟨rfl, rfl⟩ := Prod.mk.inj heq
    obtain ⟨rfl, hvalue⟩ := length_write_of_readValue hread
    have hlength := length_tag_of_readTag htag
    simp only [Field.write, Field.tag, List.length_append]
    omega

/-- **A text is no shorter than what its fields are written in:** the writer pads no number. -/
theorem length_writeFields_of_readFields {nDepth fuel : Nat} {text : List UInt8}
    {fs : List Field} (h : readFields nDepth fuel text = some fs) :
    (writeFields fs).length ≤ text.length := by
  induction fuel generalizing text fs with
  | zero =>
      cases text with
      | nil => cases h; exact Nat.zero_le _
      | cons b text => cases h
  | succ fuel ih =>
      cases text with
      | nil => cases h; exact Nat.zero_le _
      | cons b text =>
          unfold readFields at h
          split at h
          · cases h
          · rename_i f rest hread
            obtain ⟨fs', hrest, rfl⟩ := Option.map_eq_some_iff.mp h
            have hfield := length_write_of_readField hread
            have hfields := ih hrest
            simp only [writeFields, List.flatMap_cons, List.length_append] at hfields ⊢
            omega

example : varint 300 = [172, 2] := by decide
example : writeFields [⟨1, .varint 300⟩, ⟨2, .bytes [97, 98]⟩] = [8, 172, 2, 18, 2, 97, 98] := by
  decide

end ProtoWire
