import DbService.ByteText
import DbService.ProtoWire
import Mathlib.Data.Nat.Bitwise
import Mathlib.Tactic.Ring

/-!
# Varints (`db_service_base.cpp`)

`encodeVarint` writes a number seven bits at a time, lowest first, with the high bit set in
every byte but the last, and `decodeVarint` puts the groups together again in the caller's
variable.  Each group comes back at its own shift, so a number is read as it was written and
the cursor stops behind it; ten bytes with the high bit end the loop without a number.

* `decodeVarintFrom_encodeVarint` -- a number is read back at its shift;
* `decodeEach_encodeVarint` -- and a stream of numbers in order;
* `decodeVarint_null_iff` -- when there is no number;
* `encodeVarint_eq_varintFrom` -- the bytes are those of the wire format;
* `varint_streams_round_trip` -- all of this, with the bounds.
-/

namespace Db

open ByteText

theorem toNat_shiftRight_seven (n : UInt64) : (n >>> 7).toNat = n.toNat / 128 := by
  rw [UInt64.toNat_shiftRight]
  exact Nat.shiftRight_eq_div_pow _ 7

/-- The bytes `encodeVarint` writes at `szBuf`. -/
def encodeVarint (nValue : UInt64) : Bytes :=
  if 128 ≤ nValue then
    ((nValue &&& (128 - 1)) ||| 128).toUInt8 :: encodeVarint (nValue >>> 7)
  else [nValue.toUInt8]
termination_by nValue.toNat
decreasing_by
  rename_i h
  have hle : 128 ≤ nValue.toNat := UInt64.le_iff_toNat_le.mp h
  rw [toNat_shiftRight_seven]
  omega

/-- What `decodeVarint` comes to: the value of the caller's variable and the bytes it has not
read.  It reads behind a buffer that ends within a number. -/
inductive DecodeResult
  | ended (nValue : UInt64) (ptr : Bytes)
  | null (nValue : UInt64) (ptr : Bytes)
  | overrun
  deriving DecidableEq

/-- The loop of `decodeVarint` from a shift on. -/
def decodeVarintFrom (nShift : Nat) (nValue : UInt64) (ptr : Bytes) : DecodeResult :=
  if nShift < 64 then
    match ptr with
    | [] => .overrun
    | b :: ptr =>
        let nByte := b.toUInt64
        if nByte &&& 128 ≠ 0 then
          decodeVarintFrom (nShift + 7)
            (nValue ||| ((nByte &&& (128 - 1)) <<< UInt64.ofNat nShift)) ptr
        else .ended (nValue ||| (nByte <<< UInt64.ofNat nShift)) ptr
  else .null nValue ptr

/-- `decodeVarint`: the groups go into the caller's variable, from shift 0 on. -/
def decodeVarint (szBuf : Bytes) (nValue : UInt64) : DecodeResult :=
  decodeVarintFrom 0 nValue szBuf

/-- `decodeVarint` once for each of `nCount` numbers, into a variable that is zero. -/
def decodeEach : Nat → Bytes → Option (List UInt64 × Bytes)
  | 0, szBuf => some ([], szBuf)
  | nCount + 1, szBuf =>
      match decodeVarint szBuf 0 with
      | .ended nValue ptr =>
          (decodeEach nCount ptr).map fun (values, rest) => (nValue :: values, rest)
      | _ => none

/-! ## Groups of seven bits -/

theorem toNat_low_bits (n : UInt64) : (n &&& (128 - 1)).toNat = n.toNat % 128 := by
  rw [UInt64.toNat_and]
  exact Nat.and_two_pow_sub_one_eq_mod n.toNat 7

/-- The high bit on top of seven bits. -/
theorem or_high_bit {n : Nat} (h : n < 128) : n ||| 128 = n + 128 := by
  have hsum : 2 ^ 7 * 1 + n = 2 ^ 7 * 1 ||| n := Nat.two_pow_add_eq_or_of_lt h 1
  calc n ||| 128 = 2 ^ 7 * 1 ||| n := Nat.or_comm n 128
    _ = 2 ^ 7 * 1 + n := hsum.symm
    _ = n + 128 := by omega

/-- The test of the high bit. -/
theorem and_high_bit (b : UInt8) : b.toUInt64 &&& 128 ≠ 0 ↔ 128 ≤ b.toNat := by
  have hlt : b.toNat < 256 := b.toNat_lt
  have hand : (b.toUInt64 &&& 128).toNat = (b.toNat.testBit 7).toNat * 2 ^ 7 := by
    rw [UInt64.toNat_and, UInt8.toNat_toUInt64]
    exact Nat.and_two_pow b.toNat 7
  have hbit : b.toNat.testBit 7 = true ↔ 128 ≤ b.toNat := by
    rw [Nat.testBit_eq_decide_div_mod_eq, decide_eq_true_eq]
    omega
  rw [ne_eq, ← UInt64.toNat_inj, hand, UInt64.toNat_zero, ← hbit]
  cases b.toNat.testBit 7 <;> simp

/-- **A group put in at its shift** adds to the groups below it. -/
theorem toNat_or_shiftLeft {nValue nGroup : UInt64} {nShift : Nat} (hshift : nShift < 64)
    (hbelow : nValue.toNat < 2 ^ nShift) (hfit : nGroup.toNat * 2 ^ nShift < 2 ^ 64) :
    (nValue ||| (nGroup <<< UInt64.ofNat nShift)).toNat =
      nValue.toNat + nGroup.toNat * 2 ^ nShift := by
  have hamount : (UInt64.ofNat nShift).toNat % 64 = nShift := by
    rw [UInt64.toNat_ofNat']
    omega
  have hgroup : (nGroup <<< UInt64.ofNat nShift).toNat = nGroup.toNat <<< nShift := by
    rw [UInt64.toNat_shiftLeft, hamount]
    apply Nat.mod_eq_of_lt
    rw [Nat.shiftLeft_eq]
    exact hfit
  rw [UInt64.toNat_or, hgroup, Nat.or_comm, ← Nat.shiftLeft_add_eq_or_of_lt hbelow,
    Nat.shiftLeft_eq, Nat.add_comm]

/-! ## One round of each loop -/

/-- A number of seven bits is one byte, -/
theorem encodeVarint_of_lt {nValue : UInt64} (h : nValue.toNat < 128) :
    encodeVarint nValue = [nValue.toUInt8] := by
  have hsmall : ¬ 128 ≤ nValue := by
    rw [UInt64.le_iff_toNat_le]
    exact Nat.not_le.mpr h
  rw [encodeVarint, if_neg hsmall]

/-- and a larger one is a byte with the high bit and the rest. -/
theorem encodeVarint_of_le {nValue : UInt64} (h : 128 ≤ nValue.toNat) :
    encodeVarint nValue =
      UInt8.ofNat (nValue.toNat % 128 + 128) :: encodeVarint (nValue >>> 7) := by
  have hlarge : 128 ≤ nValue := UInt64.le_iff_toNat_le.mpr h
  have hbyte : ((nValue &&& (128 - 1)) ||| 128).toNat = nValue.toNat % 128 + 128 := by
    rw [UInt64.toNat_or, toNat_low_bits]
    exact or_high_bit (by omega)
  rw [encodeVarint, if_pos hlarge, ← hbyte, UInt8.ofNat_uInt64ToNat]

section Rounds

variable {nShift : Nat} {nValue : UInt64} {b : UInt8} {ptr : Bytes}

/-- A byte with the high bit puts its group at the shift, and the loop goes on. -/
theorem decodeVarintFrom_high (hshift : nShift < 64) (hb : 128 ≤ b.toNat) :
    decodeVarintFrom nShift nValue (b :: ptr) =
      decodeVarintFrom (nShift + 7)
        (nValue ||| ((b.toUInt64 &&& (128 - 1)) <<< UInt64.ofNat nShift)) ptr := by
  rw [decodeVarintFrom, if_pos hshift]
  exact if_pos ((and_high_bit b).mpr hb)

/-- A byte without it puts all its bits there, and ends the loop. -/
theorem decodeVarintFrom_low (hshift : nShift < 64) (hb : b.toNat < 128) :
    decodeVarintFrom nShift nValue (b :: ptr) =
      .ended (nValue ||| (b.toUInt64 <<< UInt64.ofNat nShift)) ptr := by
  have hlow : ¬ b.toUInt64 &&& 128 ≠ 0 := by
    rw [and_high_bit]
    exact Nat.not_le.mpr hb
  rw [decodeVarintFrom, if_pos hshift]
  exact if_neg hlow

theorem decodeVarintFrom_null (hshift : 64 ≤ nShift) :
    decodeVarintFrom nShift nValue ptr = .null nValue ptr := by
  rw [decodeVarintFrom.eq_def, if_neg (Nat.not_lt.mpr hshift)]

end Rounds

/-! ## What is written is read -/

/-- What the loop of `decodeVarint` knows at a shift: the groups below it are in the
variable, and the number that is left fits above them. -/
structure ShiftFits (nShift : Nat) (nBelow nValue : UInt64) : Prop where
  shift : nShift < 64
  below : nBelow.toNat < 2 ^ nShift
  above : nValue.toNat * 2 ^ nShift < 2 ^ 64

namespace ShiftFits

variable {nShift : Nat} {nBelow nValue : UInt64}

/-- Groups at different shifts add up. -/
theorem toNat_or (h : ShiftFits nShift nBelow nValue) :
    (nBelow ||| (nValue <<< UInt64.ofNat nShift)).toNat =
      nBelow.toNat + nValue.toNat * 2 ^ nShift :=
  toNat_or_shiftLeft h.shift h.below h.above

/-- The lowest group fits where the number does. -/
theorem low (h : ShiftFits nShift nBelow nValue) :
    ShiftFits nShift nBelow (nValue &&& (128 - 1)) := by
  refine ⟨h.shift, h.below, ?_⟩
  rw [toNat_low_bits]
  calc nValue.toNat % 128 * 2 ^ nShift
      ≤ nValue.toNat * 2 ^ nShift := Nat.mul_le_mul_right _ (Nat.mod_le _ _)
    _ < 2 ^ 64 := h.above

/-- **One group further:** the group goes below, and the number that is left fits above. -/
theorem next (h : ShiftFits nShift nBelow nValue) (hmore : 128 ≤ nValue.toNat) :
    ShiftFits (nShift + 7) (nBelow ||| ((nValue &&& (128 - 1)) <<< UInt64.ofNat nShift))
      (nValue >>> 7) := by
  have hpow : 2 ^ (nShift + 7) = 2 ^ nShift * 128 := Nat.pow_add 2 nShift 7
  have habove : nValue.toNat / 128 * 2 ^ (nShift + 7) < 2 ^ 64 := by
    calc nValue.toNat / 128 * 2 ^ (nShift + 7)
        = nValue.toNat / 128 * 128 * 2 ^ nShift := by rw [hpow]; ring
      _ ≤ nValue.toNat * 2 ^ nShift := Nat.mul_le_mul_right _ (Nat.div_mul_le_self _ _)
      _ < 2 ^ 64 := h.above
  refine ⟨?_, ?_, ?_⟩
  · have hone : 1 ≤ nValue.toNat / 128 := by omega
    apply (Nat.pow_lt_pow_iff_right (a := 2) (by omega)).mp
    calc 2 ^ (nShift + 7)
        ≤ nValue.toNat / 128 * 2 ^ (nShift + 7) := Nat.le_mul_of_pos_left _ hone
      _ < 2 ^ 64 := habove
  · rw [h.low.toNat_or, toNat_low_bits, hpow]
    have hbelow := h.below
    have hgroup : nValue.toNat % 128 * 2 ^ nShift ≤ 127 * 2 ^ nShift :=
      Nat.mul_le_mul_right _ (by omega)
    omega
  · rw [toNat_shiftRight_seven]
    exact habove

/-- The groups put in one after the other make the number. -/
theorem join (h : ShiftFits nShift nBelow nValue) (hmore : 128 ≤ nValue.toNat) :
    nBelow ||| ((nValue &&& (128 - 1)) <<< UInt64.ofNat nShift) |||
        ((nValue >>> 7) <<< UInt64.ofNat (nShift + 7)) =
      nBelow ||| (nValue <<< UInt64.ofNat nShift) := by
  apply UInt64.toNat_inj.mp
  rw [(h.next hmore).toNat_or, h.low.toNat_or, h.toNat_or, toNat_low_bits,
    toNat_shiftRight_seven, Nat.pow_add]
  have hsplit : nValue.toNat % 128 + nValue.toNat / 128 * 128 = nValue.toNat := by omega
  calc nBelow.toNat + nValue.toNat % 128 * 2 ^ nShift +
        nValue.toNat / 128 * (2 ^ nShift * 2 ^ 7)
      = nBelow.toNat + (nValue.toNat % 128 + nValue.toNat / 128 * 128) * 2 ^ nShift := by ring
    _ = nBelow.toNat + nValue.toNat * 2 ^ nShift := by rw [hsplit]

end ShiftFits

/-- **A number is read back** at any shift it fits at, on top of the groups below. -/
theorem decodeVarintFrom_encodeVarint {nShift : Nat} {nBelow nValue : UInt64}
    (h : ShiftFits nShift nBelow nValue) (rest : Bytes) :
    decodeVarintFrom nShift nBelow (encodeVarint nValue ++ rest) =
      .ended (nBelow ||| (nValue <<< UInt64.ofNat nShift)) rest := by
  induction hn : nValue.toNat using Nat.strongRecOn generalizing nShift nBelow nValue with
  | ind n ih =>
      subst hn
      by_cases hmore : 128 ≤ nValue.toNat
      · have hbyte : (UInt8.ofNat (nValue.toNat % 128 + 128)).toNat =
            nValue.toNat % 128 + 128 := by
          rw [UInt8.toNat_ofNat']
          omega
        have hgroup : (UInt8.ofNat (nValue.toNat % 128 + 128)).toUInt64 &&& (128 - 1) =
            nValue &&& (128 - 1) := by
          apply UInt64.toNat_inj.mp
          rw [toNat_low_bits, toNat_low_bits, UInt8.toNat_toUInt64, hbyte]
          omega
        have hless : (nValue >>> 7).toNat < nValue.toNat := by
          rw [toNat_shiftRight_seven]
          omega
        rw [encodeVarint_of_le hmore, List.cons_append,
          decodeVarintFrom_high h.shift (by omega), hgroup, ih _ hless (h.next hmore) rfl,
          h.join hmore]
      · have hlast : nValue.toNat < 128 := Nat.not_le.mp hmore
        have hbyte : nValue.toUInt8.toNat = nValue.toNat := by
          rw [UInt64.toNat_toUInt8]
          omega
        have hgroup : nValue.toUInt8.toUInt64 = nValue := by
          apply UInt64.toNat_inj.mp
          rw [UInt8.toNat_toUInt64, hbyte]
        rw [encodeVarint_of_lt hlast, List.cons_append, List.nil_append,
          decodeVarintFrom_low h.shift (by omega), hgroup]

/-- The number at the start of a buffer, in a variable that was zero. -/
theorem decodeVarint_encodeVarint (nValue : UInt64) (rest : Bytes) :
    decodeVarint (encodeVarint nValue ++ rest) 0 = .ended nValue rest := by
  have hfits : ShiftFits 0 0 nValue :=
    ⟨by omega, by decide, by simpa using nValue.toNat_lt⟩
  have hvalue : 0 ||| (nValue <<< UInt64.ofNat 0) = nValue := by
    apply UInt64.toNat_inj.mp
    rw [hfits.toNat_or]
    simp
  rw [decodeVarint, decodeVarintFrom_encodeVarint hfits, hvalue]

example : decodeVarint [172, 2, 7] 0 = .ended 300 [7] := rfl

/-- **A stream of numbers:** each is read where the one before it ended. -/
theorem decodeEach_encodeVarint (values : List UInt64) (trailing : Bytes) :
    decodeEach values.length (values.flatMap encodeVarint ++ trailing) =
      some (values, trailing) := by
  induction values with
  | nil => rfl
  | cons nValue values ih =>
      rw [List.flatMap_cons, List.append_assoc, List.length_cons, decodeEach,
        decodeVarint_encodeVarint]
      simp only [ih, Option.map_some]

/-! ## The length of a number -/

/-- **The bytes are those of the wire format,** group by group. -/
theorem encodeVarint_eq_varintFrom {fuel : Nat} {nValue : UInt64}
    (h : nValue.toNat < 128 ^ (fuel + 1)) :
    encodeVarint nValue = ProtoWire.varintFrom fuel nValue.toNat := by
  induction fuel generalizing nValue with
  | zero =>
      rw [encodeVarint_of_lt (by omega), ProtoWire.varintFrom, UInt8.ofNat_uInt64ToNat]
  | succ fuel ih =>
      rw [ProtoWire.varintFrom]
      by_cases hmore : 128 ≤ nValue.toNat
      · have hnext : (nValue >>> 7).toNat < 128 ^ (fuel + 1) := by
          rw [toNat_shiftRight_seven, Nat.div_lt_iff_lt_mul (by omega), ← Nat.pow_succ]
          exact h
        rw [encodeVarint_of_le hmore, if_neg (by omega), ih hnext, toNat_shiftRight_seven]
      · have hlast : nValue.toNat < 128 := Nat.not_le.mp hmore
        rw [encodeVarint_of_lt hlast, if_pos hlast, UInt8.ofNat_uInt64ToNat]

/-- Ten groups hold 64 bits. -/
theorem encodeVarint_length (nValue : UInt64) :
    1 ≤ (encodeVarint nValue).length ∧ (encodeVarint nValue).length ≤ 10 := by
  have hlt : nValue.toNat < 2 ^ 64 := nValue.toNat_lt
  have hgroups : (2 : Nat) ^ 64 ≤ 128 ^ (9 + 1) := by decide
  rw [encodeVarint_eq_varintFrom (lt_of_lt_of_le hlt hgroups)]
  exact ⟨ProtoWire.length_varintFrom_pos 9 _, ProtoWire.length_varintFrom_le 9 _⟩

/-! ## Arbitrary bytes -/

/-- What `n` rounds make of a buffer: a number ends at the first byte without the high bit. -/
inductive DecodeOutcome (n : Nat) : Bytes → DecodeResult → Prop
  | ended (high : Bytes) (b : UInt8) (ptr : Bytes) (nValue : UInt64) (hlen : high.length < n)
      (hhigh : ∀ c ∈ high, 128 ≤ c.toNat) (hlast : b.toNat < 128) :
      DecodeOutcome n (high ++ b :: ptr) (.ended nValue ptr)
  | null (high ptr : Bytes) (nValue : UInt64) (hlen : high.length = n)
      (hhigh : ∀ c ∈ high, 128 ≤ c.toNat) :
      DecodeOutcome n (high ++ ptr) (.null nValue ptr)
  | overrun (high : Bytes) (hlen : high.length < n) (hhigh : ∀ c ∈ high, 128 ≤ c.toNat) :
      DecodeOutcome n high .overrun

/-- A byte with the high bit takes one round. -/
theorem DecodeOutcome.cons {n : Nat} {b : UInt8} {szBuf : Bytes} {result : DecodeResult}
    (hb : 128 ≤ b.toNat) (h : DecodeOutcome n szBuf result) :
    DecodeOutcome (n + 1) (b :: szBuf) result := by
  cases h with
  | ended high c ptr nValue hlen hhigh hlast =>
      exact .ended (b :: high) c ptr nValue (Nat.succ_lt_succ hlen)
        (List.forall_mem_cons.mpr ⟨hb, hhigh⟩) hlast
  | null high ptr nValue hlen hhigh =>
      exact .null (b :: high) ptr nValue (congrArg (· + 1) hlen)
        (List.forall_mem_cons.mpr ⟨hb, hhigh⟩)
  | overrun _ hlen hhigh =>
      exact .overrun (b :: szBuf) (Nat.succ_lt_succ hlen)
        (List.forall_mem_cons.mpr ⟨hb, hhigh⟩)

/-- The shifts leave ten rounds. -/
theorem decodeVarintFrom_outcome {n nShift : Nat} (hrounds : nShift + 7 * n = 70)
    (nValue : UInt64) (szBuf : Bytes) :
    DecodeOutcome n szBuf (decodeVarintFrom nShift nValue szBuf) := by
  induction n generalizing nShift nValue szBuf with
  | zero =>
      rw [decodeVarintFrom_null (by omega)]
      exact .null [] szBuf nValue rfl (by simp)
  | succ n ih =>
      have hshift : nShift < 64 := by omega
      cases szBuf with
      | nil =>
          rw [decodeVarintFrom, if_pos hshift]
          exact .overrun [] (Nat.succ_pos n) (by simp)
      | cons b ptr =>
          by_cases hb : 128 ≤ b.toNat
          · rw [decodeVarintFrom_high hshift hb]
            exact (ih (by omega) _ ptr).cons hb
          · have hlast : b.toNat < 128 := Nat.not_le.mp hb
            rw [decodeVarintFrom_low hshift hlast]
            exact .ended [] b ptr _ (Nat.succ_pos n) (by simp) hlast

theorem decodeVarint_outcome (szBuf : Bytes) (nValue : UInt64) :
    DecodeOutcome 10 szBuf (decodeVarint szBuf nValue) :=
  decodeVarintFrom_outcome rfl nValue szBuf

/-- The cursor is at most ten bytes into the buffer, also where the buffer ends too early. -/
def DecodeResult.WithinTen (szBuf : Bytes) : DecodeResult → Prop
  | .ended _ ptr | .null _ ptr => ∃ bytes : Bytes, bytes.length ≤ 10 ∧ szBuf = bytes ++ ptr
  | .overrun => szBuf.length < 10

/-- It looks at ten bytes at most. -/
theorem decodeVarint_withinTen (szBuf : Bytes) (nValue : UInt64) :
    (decodeVarint szBuf nValue).WithinTen szBuf := by
  have houtcome := decodeVarint_outcome szBuf nValue
  generalize decodeVarint szBuf nValue = result at houtcome ⊢
  cases houtcome with
  | ended high b ptr nValue hlen hhigh hlast =>
      refine ⟨high ++ [b], ?_, ?_⟩
      · rw [List.length_append, List.length_singleton]
        omega
      · rw [List.append_assoc, List.singleton_append]
  | null high ptr nValue hlen => exact ⟨high, hlen.le, rfl⟩
  | overrun _ hlen => exact hlen

/-- **No number** is what ten bytes with the high bit are. -/
theorem decodeVarint_null_iff (szBuf : Bytes) (nValue : UInt64) :
    (∃ nValue' ptr, decodeVarint szBuf nValue = .null nValue' ptr) ↔
      10 ≤ szBuf.length ∧ ∀ b ∈ szBuf.take 10, 128 ≤ b.toNat := by
  have houtcome := decodeVarint_outcome szBuf nValue
  constructor
  · rintro ⟨nValue', ptr, hnull⟩
    rw [hnull] at houtcome
    cases houtcome with
    | null high _ _ hlen hhigh =>
        rw [List.length_append, List.take_left' hlen]
        exact ⟨by omega, hhigh⟩
  · rintro ⟨hten, hall⟩
    generalize decodeVarint szBuf nValue = result at houtcome ⊢
    cases houtcome with
    | ended high b ptr nValue' hlen hhigh hlast =>
        have hin : b ∈ (high ++ b :: ptr).take 10 := by
          rw [List.mem_take_iff_getElem]
          exact ⟨high.length, by simp; omega, by simp⟩
        have hb := hall b hin
        omega
    | null high ptr nValue' => exact ⟨nValue', ptr, rfl⟩
    | overrun _ hlen => omega

/-- **Streams of varints.**  Numbers written one after the other are read back in order and
the cursor stops at what follows them; a number takes one to ten bytes; and whatever the
bytes, `decodeVarint` returns null exactly for ten bytes with the high bit, and reads no
further than that. -/
theorem varint_streams_round_trip :
    (∀ (values : List UInt64) (trailing : Bytes),
      decodeEach values.length (values.flatMap encodeVarint ++ trailing) =
        some (values, trailing)) ∧
    (∀ nValue : UInt64, 1 ≤ (encodeVarint nValue).length ∧ (encodeVarint nValue).length ≤ 10) ∧
    (∀ (szBuf : Bytes) (nValue : UInt64),
      (∃ nValue' ptr, decodeVarint szBuf nValue = .null nValue' ptr) ↔
        10 ≤ szBuf.length ∧ ∀ b ∈ szBuf.take 10, 128 ≤ b.toNat) ∧
    ∀ (szBuf : Bytes) (nValue : UInt64), (decodeVarint szBuf nValue).WithinTen szBuf :=
  ⟨decodeEach_encodeVarint, encodeVarint_length, decodeVarint_null_iff, decodeVarint_withinTen⟩

end Db
