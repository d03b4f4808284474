import DbService.ProtoWire

/-!
# The fields of a class

A message class looks for its fields by their tags.  Of a singular field it keeps the last value,
of a repeated one all of them, and the rest it passes over: a field of another number, and also
one of its own numbers under another wire type.  So what a class reads from a text depends only on
the fields with its tags.

* `Alike.numberOf`, `Alike.bytesOf`, `Alike.allBytesOf` -- texts alike in the tags of a class give
  it the same values;
* `length_optNumber_le`, `length_optBytes_le`, `length_repBytes_le` -- a field is written again in
  no more bytes than the fields with its tag had;
* `length_tagged_le` -- fields with different tags share a text, so the same holds of a class.
-/

namespace ProtoWire

/-! ## Optional and repeated fields -/

/-- A singular field of an integer type, as it is written: nothing where it is not set. -/
def optNumber (nNumber : Nat) (value : Option Nat) : List Field :=
  value.toList.map fun n => ⟨nNumber, .varint n⟩

/-- A singular field of strings or bytes. -/
def optBytes (nNumber : Nat) (value : Option (List UInt8)) : List Field :=
  value.toList.map fun b => ⟨nNumber, .bytes b⟩

/-- A repeated field of strings, bytes or submessages: one field of the text for each element. -/
def repBytes (nNumber : Nat) (values : List (List UInt8)) : List Field :=
  values.map fun b => ⟨nNumber, .bytes b⟩

/-- The number in a field, if it is the one with `nNumber` and has a number. -/
def Field.number (nNumber : Nat) (f : Field) : Option Nat :=
  match f.value with
  | .varint n => if f.nNumber = nNumber then some n else none
  | .bytes _ | .other _ _ => none

/-- The bytes in a field, if it is the one with `nNumber` and has bytes. -/
def Field.content (nNumber : Nat) (f : Field) : Option (List UInt8) :=
  match f.value with
  | .bytes b => if f.nNumber = nNumber then some b else none
  | .varint _ | .other _ _ => none

/-- All the bytes in a field, in order. -/
def allBytesOf (nNumber : Nat) (fs : List Field) : List (List UInt8) :=
  fs.filterMap (Field.content nNumber)

/-- The number in a field; what comes last counts. -/
def numberOf (nNumber : Nat) (fs : List Field) : Option Nat :=
  (fs.filterMap (Field.number nNumber)).getLast?

/-- The bytes in a field; what comes last counts. -/
def bytesOf (nNumber : Nat) (fs : List Field) : Option (List UInt8) :=
  (allBytesOf nNumber fs).getLast?

/-- A field of an integer type can be read back if its number and its value are in range. -/
theorem optNumber_fits {nDepth nNumber : Nat} {value : Option Nat} (hpos : 0 < nNumber)
    (hnumber : nNumber < 2 ^ 29) (h : ∀ n ∈ value, n < 2 ^ 64) :
    ∀ f ∈ optNumber nNumber value, f.Fits nDepth := by
  intro f hin
  obtain ⟨n, hn, rfl⟩ := List.mem_map.mp hin
  exact ⟨hpos, hnumber, h n (Option.mem_toList.mp hn)⟩

/-- A repeated field of bytes can be read back if its number is in range. -/
theorem repBytes_fits {nDepth nNumber : Nat} (hpos : 0 < nNumber) (hnumber : nNumber < 2 ^ 29)
    (values : List (List UInt8)) : ∀ f ∈ repBytes nNumber values, f.Fits nDepth := by
  intro f hin
  obtain ⟨b, -, rfl⟩ := List.mem_map.mp hin
  exact ⟨hpos, hnumber, trivial⟩

theorem optBytes_fits {nDepth nNumber : Nat} (hpos : 0 < nNumber) (hnumber : nNumber < 2 ^ 29)
    (value : Option (List UInt8)) : ∀ f ∈ optBytes nNumber value, f.Fits nDepth :=
  repBytes_fits hpos hnumber value.toList

/-- A field gives a number for `i` only as a varint under that number. -/
theorem Field.number_eq_some_iff {i n : Nat} {f : Field} :
    f.number i = some n ↔ f = ⟨i, .varint n⟩ := by
  obtain ⟨nNumber, value⟩ := f
  cases value <;> simp [Field.number]

/-- A field gives bytes for `i` only as counted bytes under that number. -/
theorem Field.content_eq_some_iff {i : Nat} {b : List UInt8} {f : Field} :
    f.content i = some b ↔ f = ⟨i, .bytes b⟩ := by
  obtain ⟨nNumber, value⟩ := f
  cases value <;> simp [Field.content]

@[simp] theorem numberOf_append (nNumber : Nat) (fs fs' : List Field) :
    numberOf nNumber (fs ++ fs') = (numberOf nNumber fs').or (numberOf nNumber fs) := by
  rw [numberOf, List.filterMap_append, List.getLast?_append]
  rfl

@[simp] theorem allBytesOf_append (nNumber : Nat) (fs fs' : List Field) :
    allBytesOf nNumber (fs ++ fs') = allBytesOf nNumber fs ++ allBytesOf nNumber fs' :=
  List.filterMap_append

@[simp] theorem bytesOf_append (nNumber : Nat) (fs fs' : List Field) :
    bytesOf nNumber (fs ++ fs') = (bytesOf nNumber fs').or (bytesOf nNumber fs) := by
  rw [bytesOf, allBytesOf_append, List.getLast?_append]
  rfl

@[simp] theorem numberOf_optNumber (i j : Nat) (value : Option Nat) :
    numberOf i (optNumber j value) = if j = i then value else none := by
  cases value <;> by_cases h : j = i <;> simp [optNumber, numberOf, Field.number, h]

@[simp] theorem numberOf_optBytes (i j : Nat) (value : Option (List UInt8)) :
    numberOf i (optBytes j value) = none := by
  cases value <;> simp [optBytes, numberOf, Field.number]

@[simp] theorem allBytesOf_repBytes (i j : Nat) (values : List (List UInt8)) :
    allBytesOf i (repBytes j values) = if j = i then values else [] := by
  by_cases h : j = i <;>
    simp [allBytesOf, repBytes, List.filterMap_map, Function.comp_def, Field.content, h]

@[simp] theorem allBytesOf_optBytes (i j : Nat) (value : Option (List UInt8)) :
    allBytesOf i (optBytes j value) = if j = i then value.toList else [] :=
  allBytesOf_repBytes i j value.toList

@[simp] theorem allBytesOf_optNumber (i j : Nat) (value : Option Nat) :
    allBytesOf i (optNumber j value) = [] := by
  cases value <;> simp [optNumber, allBytesOf, Field.content]

@[simp] theorem bytesOf_optBytes (i j : Nat) (value : Option (List UInt8)) :
    bytesOf i (optBytes j value) = if j = i then value else none := by
  cases value <;> by_cases h : j = i <;> simp [bytesOf, h]

@[simp] theorem bytesOf_optNumber (i j : Nat) (value : Option Nat) :
    bytesOf i (optNumber j value) = none := by
  simp [bytesOf]

@[simp] theorem bytesOf_repBytes_of_ne {i j : Nat} (h : j ≠ i) (values : List (List UInt8)) :
    bytesOf i (repBytes j values) = none := by
  simp [bytesOf, h]

/-- The fields with a tag, in order. -/
def tagged (tag : Nat) (fs : List Field) : List Field := fs.filter fun f => f.tag = tag

/-- Only fields with the tag of a number have one. -/
theorem numberOf_tagged (nNumber : Nat) (fs : List Field) :
    numberOf nNumber (tagged (8 * nNumber) fs) = numberOf nNumber fs := by
  rw [numberOf, tagged, List.filterMap_filter, numberOf]
  congr 2
  funext f
  split
  · rfl
  · rename_i htag
    refine (Option.eq_none_iff_forall_ne_some.mpr fun n h => ?_).symm
    rw [Field.number_eq_some_iff] at h
    exact htag (by simp [h, Field.tag, Value.nType])

/-- Only fields with the tag of counted bytes have bytes. -/
theorem allBytesOf_tagged (nNumber : Nat) (fs : List Field) :
    allBytesOf nNumber (tagged (8 * nNumber + 2) fs) = allBytesOf nNumber fs := by
  rw [allBytesOf, tagged, List.filterMap_filter, allBytesOf]
  congr 1
  funext f
  split
  · rfl
  · rename_i htag
    refine (Option.eq_none_iff_forall_ne_some.mpr fun b h => ?_).symm
    rw [Field.content_eq_some_iff] at h
    exact htag (by simp [h, Field.tag, Value.nType])

/-- **Texts alike in the fields with some tags:** the order of fields with different tags does not
count, nor do the fields with other tags, be it another number or another wire type. -/
def Alike (tags : List Nat) (fs fs' : List Field) : Prop :=
  ∀ tag ∈ tags, tagged tag fs = tagged tag fs'

section Alike

variable {tags : List Nat} {fs fs' : List Field} (h : Alike tags fs fs') {nNumber : Nat}

include h

theorem Alike.numberOf (hin : 8 * nNumber ∈ tags) : numberOf nNumber fs = numberOf nNumber fs' := by
  rw [← numberOf_tagged, h _ hin, numberOf_tagged]

theorem Alike.allBytesOf (hin : 8 * nNumber + 2 ∈ tags) :
    allBytesOf nNumber fs = allBytesOf nNumber fs' := by
  rw [← allBytesOf_tagged, h _ hin, allBytesOf_tagged]

theorem Alike.bytesOf (hin : 8 * nNumber + 2 ∈ tags) : bytesOf nNumber fs = bytesOf nNumber fs' :=
  congrArg List.getLast? (h.allBytesOf hin)

end Alike

/-! ## A class writes no more than it read -/

@[simp] theorem length_writeFields_append (fs fs' : List Field) :
    (writeFields (fs ++ fs')).length = (writeFields fs).length + (writeFields fs').length := by
  rw [writeFields, List.flatMap_append, List.length_append]
  rfl

/-- Fields left out make a text shorter. -/
theorem length_writeFields_of_sublist {fs fs' : List Field} (h : fs.Sublist fs') :
    (writeFields fs).length ≤ (writeFields fs').length := by
  induction h with
  | slnil => exact le_rfl
  | cons f _ ih =>
      simp only [writeFields, List.flatMap_cons, List.length_append] at ih ⊢
      omega
  | cons_cons f _ ih =>
      simp only [writeFields, List.flatMap_cons, List.length_append] at ih ⊢
      omega

/-- The bytes in a field are part of the text. -/
theorem length_le_of_mem_allBytesOf {nNumber : Nat} {fs : List Field} {b : List UInt8}
    (h : b ∈ allBytesOf nNumber fs) : b.length ≤ (writeFields fs).length := by
  obtain ⟨f, hin, hcontent⟩ := List.mem_filterMap.mp h
  obtain rfl := Field.content_eq_some_iff.mp hcontent
  have hfield := length_writeFields_of_sublist (List.singleton_sublist.mpr hin)
  simp only [writeFields, List.flatMap_cons, List.flatMap_nil, List.append_nil,
    List.length_append, Field.write, Value.write] at hfield ⊢
  omega

/-- The fields with a tag and those without share a text. -/
theorem length_tagged_add (tag : Nat) (fs : List Field) :
    (writeFields (tagged tag fs)).length +
      (writeFields (fs.filter fun f => ¬ f.tag = tag)).length = (writeFields fs).length := by
  induction fs with
  | nil => rfl
  | cons f fs ih =>
      rw [tagged] at ih
      by_cases h : f.tag = tag <;>
        simp only [writeFields, tagged, List.filter_cons, List.flatMap_cons, List.length_append, h,
          decide_true, decide_false, not_true, not_false_eq_true, if_true,
          Bool.false_eq_true, if_false] at ih ⊢ <;>
        omega

/-- Fields with different tags share a text. -/
theorem length_tagged_le {tags : List Nat} (h : tags.Nodup) (fs : List Field) :
    (tags.map fun tag => (writeFields (tagged tag fs)).length).sum ≤ (writeFields fs).length := by
  induction tags generalizing fs with
  | nil => exact Nat.zero_le _
  | cons tag tags ih =>
      obtain ⟨hnot, hnodup⟩ := List.nodup_cons.mp h
      have hrest := ih hnodup (fs.filter fun f => ¬ f.tag = tag)
      have hsame : ∀ t ∈ tags, tagged t (fs.filter fun f => ¬ f.tag = tag) = tagged t fs := by
        intro t ht
        rw [tagged, List.filter_filter, tagged]
        refine List.filter_congr fun f _ => ?_
        by_cases heq : f.tag = t
        · have hne : ¬ t = tag := fun hcontra => hnot (hcontra ▸ ht)
          simp [heq, hne]
        · simp [heq]
      rw [List.map_congr_left fun t ht => congrArg (fun fs => (writeFields fs).length)
        (hsame t ht)] at hrest
      have hsplit := length_tagged_add tag fs
      rw [List.map_cons, List.sum_cons]
      omega

/-- The number that counts stands in a field with its tag. -/
theorem length_optNumber_le (nNumber : Nat) (fs : List Field) :
    (writeFields (optNumber nNumber (numberOf nNumber fs))).length ≤
      (writeFields (tagged (8 * nNumber) fs)).length := by
  apply length_writeFields_of_sublist
  cases h : numberOf nNumber fs with
  | none => exact List.nil_sublist _
  | some n =>
      obtain ⟨f, hin, hnumber⟩ := List.mem_filterMap.mp (List.mem_of_getLast? h)
      obtain rfl := Field.number_eq_some_iff.mp hnumber
      refine List.singleton_sublist.mpr (List.mem_filter.mpr ⟨hin, ?_⟩)
      simp [Field.tag, Value.nType]

/-- All the bytes of a field stand in fields with its tag. -/
theorem length_repBytes_le (nNumber : Nat) (fs : List Field) :
    (writeFields (repBytes nNumber (allBytesOf nNumber fs))).length ≤
      (writeFields (tagged (8 * nNumber + 2) fs)).length := by
  apply length_writeFields_of_sublist
  induction fs with
  | nil => exact List.nil_sublist _
  | cons f fs ih =>
      cases h : f.content nNumber with
      | none =>
          rw [allBytesOf, List.filterMap_cons_none h]
          exact ih.trans ((List.sublist_cons_self f fs).filter _)
      | some b =>
          have htag : f.tag = 8 * nNumber + 2 := by
            simp [Field.content_eq_some_iff.mp h, Field.tag, Value.nType]
          rw [allBytesOf, List.filterMap_cons_some h, tagged,
            List.filter_cons_of_pos (by simpa using htag), repBytes, List.map_cons,
            ← Field.content_eq_some_iff.mp h]
          exact ih.cons_cons f

/-- The bytes that count stand in a field with their tag. -/
theorem length_optBytes_le (nNumber : Nat) (fs : List Field) :
    (writeFields (optBytes nNumber (bytesOf nNumber fs))).length ≤
      (writeFields (tagged (8 * nNumber + 2) fs)).length := by
  refine le_trans (length_writeFields_of_sublist ?_) (length_repBytes_le nNumber fs)
  cases h : bytesOf nNumber fs with
  | none => exact List.nil_sublist _
  | some b => exact (List.singleton_sublist.mpr (List.mem_of_getLast? h)).map _

/-- A number cut to its type takes no more bytes. -/
theorem length_optNumber_mono {nNumber m n : Nat} (h : m ≤ n) :
    (writeFields (optNumber nNumber (some m))).length ≤
      (writeFields (optNumber nNumber (some n))).length := by
  have hvalue := length_varint_mono h
  simpa [writeFields, optNumber, Field.write, Field.tag, Value.nType, Value.write] using hvalue

/-- Shorter bytes take no more bytes. -/
theorem length_repBytes_mono {nNumber : Nat} {values values' : List (List UInt8)}
    (h : List.Forall₂ (fun b b' => b.length ≤ b'.length) values values') :
    (writeFields (repBytes nNumber values)).length ≤
      (writeFields (repBytes nNumber values')).length := by
  induction h with
  | nil => exact le_rfl
  | cons hle _ ih =>
      have hcount := length_varint_mono hle
      simp only [writeFields, repBytes, List.map_cons, List.flatMap_cons, List.length_append,
        Field.write, Field.tag, Value.nType, Value.write] at ih ⊢
      omega

end ProtoWire
