import DbService.Tables
import DbService.CacheView

/-!
# Merged records

`CDbCache::setData` copies every declared field of a message into the record, set or not, so
the merged record is the message with its getters' values (`filled`), whatever was in the
record before.

* `copyFields_filled` -- the loop over the fields leaves the filled message;
* `mergeData_filled`, `mergeData_eq_some` -- what a merge makes of a record.
-/

namespace Reflection

/-- The message with every field set to what its getter returns. -/
def RowMessage.filled (m : RowMessage) : RowMessage where
  descriptor := m.descriptor
  value := fun name => (m.descriptor.FindFieldByName name).map m.Get
  accepted := by
    intro name v hv
    obtain ⟨f, hfind, rfl⟩ := Option.map_eq_some_iff.mp hv
    obtain ⟨hf, rfl⟩ := FindFieldByName_name hfind
    exact m.accepts_Get hf

@[simp] theorem filled_descriptor (m : RowMessage) : m.filled.descriptor = m.descriptor := rfl

theorem filled_value_of_mem (m : RowMessage) {f : FieldDescriptor}
    (hf : f ∈ m.descriptor.fields) : m.filled.value f.name = some (m.Get f) := by
  simp [RowMessage.filled, FindFieldByName_of_mem hf]

theorem filled_full (m : RowMessage) : m.filled.Full := by
  intro f hf
  simp only [RowMessage.HasField, filled_value_of_mem m hf, Option.isSome_some]

/-- A message with all fields set is filled. -/
theorem filled_of_full {m : RowMessage} (hfull : m.Full) : m.filled = m := by
  apply RowMessage.Full.ext (filled_full m) hfull rfl
  intro f hf
  rw [RowMessage.Get, filled_value_of_mem m hf, Option.getD_some]

end Reflection

namespace Db

open Reflection ByteText

variable {pb : Runtime}

namespace CDbCache

/-- Copying a list of declared fields into a message of the same type sets these. -/
theorem copyFields_eq {m : RowMessage} {fields : List FieldDescriptor}
    (hin : ∀ f ∈ fields, f ∈ m.descriptor.fields) (hcopies : ∀ f ∈ fields, copiesType f.type = true)
    {pDstData : RowMessage} (hd : pDstData.descriptor = m.descriptor) :
    ∃ pMerged, copyFields m fields pDstData = some pMerged ∧
      pMerged.descriptor = m.descriptor ∧
      (∀ f ∈ fields, pMerged.value f.name = some (m.Get f)) ∧
      ∀ name, name ∉ fields.map (·.name) → pMerged.value name = pDstData.value name := by
  induction fields generalizing pDstData with
  | nil => exact ⟨pDstData, rfl, hd, by simp, fun _ _ => rfl⟩
  | cons f rest ih =>
      have hf := hin f List.mem_cons_self
      have hfind : pDstData.descriptor.FindFieldByName f.name = some f := by
        rw [hd]
        exact FindFieldByName_of_mem hf
      have haccepts : pDstData.descriptor.accepts f.name (m.Get f) = true := by
        rw [hd]
        exact m.accepts_Get hf
      have hset : (pDstData.Set f.name (m.Get f)).value =
          Function.update pDstData.value f.name (some (m.Get f)) := Set_value haccepts
      obtain ⟨pMerged, hcopy, hdesc, hcopied, hother⟩ :=
        ih (fun g hg => hin g (List.mem_cons_of_mem _ hg))
          (fun g hg => hcopies g (List.mem_cons_of_mem _ hg))
          ((Set_descriptor pDstData f.name (m.Get f)).trans hd)
      refine ⟨pMerged, ?_, hdesc, ?_, ?_⟩
      · simp only [copyFields, hfind, hcopies f List.mem_cons_self, if_true]
        exact hcopy
      · intro g hg
        rcases List.mem_cons.mp hg with rfl | hrest
        · by_cases hlater : g.name ∈ rest.map (·.name)
          · obtain ⟨g', hg', hname⟩ := List.mem_map.mp hlater
            have hsame : g' = g := by
              have hfind' := FindFieldByName_of_mem (hin g' (List.mem_cons_of_mem _ hg'))
              rw [hname, FindFieldByName_of_mem hf, Option.some.injEq] at hfind'
              exact hfind'.symm
            exact hcopied g (hsame ▸ hg')
          · rw [hother g.name hlater, hset, Function.update_self]
        · exact hcopied g hrest
      · intro name hname
        rw [List.map_cons, List.mem_cons, not_or] at hname
        rw [hother name hname.2, hset, Function.update_of_ne hname.1]

/-- **The merged record is the filled message.** -/
theorem copyFields_filled {m pDstData : RowMessage} (hd : pDstData.descriptor = m.descriptor)
    (hcopies : ∀ f ∈ m.descriptor.fields, copiesType f.type = true) :
    copyFields m m.descriptor.fields pDstData = some m.filled := by
  obtain ⟨pMerged, hcopy, hdesc, hcopied, _⟩ := copyFields_eq (fun _ hf => hf) hcopies hd
  rw [hcopy, Option.some.injEq]
  have hfull : pMerged.Full := by
    intro f hf
    simp only [RowMessage.HasField, hcopied f (hdesc ▸ hf), Option.isSome_some]
  apply RowMessage.Full.ext hfull (filled_full m) hdesc
  intro f hf
  have hf' : f ∈ m.descriptor.fields := hdesc ▸ hf
  have hleft : pMerged.Get f = m.Get f := by simp [RowMessage.Get, hcopied f hf']
  have hright : m.filled.Get f = m.Get f := by
    simp [RowMessage.Get, filled_value_of_mem m hf']
  rw [hleft, hright]

/-- A merge writes the filled message, where the record is of its type and every type of field is
one that the loop copies. -/
theorem mergeData_filled {szDataName : String} {szData : Bytes} {m pDstData : RowMessage}
    (hload : loadRecord pb szDataName szData = some pDstData)
    (hd : pDstData.descriptor = m.descriptor)
    (hcopies : ∀ f ∈ m.descriptor.fields, copiesType f.type = true) :
    mergeData pb szDataName szData m = pb.SerializeToString (.row m.filled) := by
  simp only [mergeData, hload, copyFields_filled hd hcopies]

/-- A merge that succeeds copied every field. -/
theorem copiesType_of_copyFields {m : RowMessage} {fields : List FieldDescriptor}
    {pDstData pMerged : RowMessage} (h : copyFields m fields pDstData = some pMerged) :
    ∀ f ∈ fields, copiesType f.type = true := by
  induction fields generalizing pDstData with
  | nil => simp
  | cons f rest ih =>
      unfold copyFields at h
      split at h
      · cases h
      · split at h
        · rename_i hcopies
          intro g hg
          rcases List.mem_cons.mp hg with rfl | hrest
          · exact hcopies
          · exact ih h g hrest
        · cases h

/-- **A merge that succeeds** leaves the bytes of the filled message. -/
theorem mergeData_eq_some {szDataName : String} {szData szMerged : Bytes}
    {m pDstData : RowMessage} (hload : loadRecord pb szDataName szData = some pDstData)
    (hd : pDstData.descriptor = m.descriptor)
    (hmerge : mergeData pb szDataName szData m = some szMerged) :
    pb.SerializeToString (.row m.filled) = some szMerged := by
  have hcopies : ∀ f ∈ m.descriptor.fields, copiesType f.type = true := by
    have hmerge' := hmerge
    simp only [mergeData, hload] at hmerge'
    split at hmerge'
    · cases hmerge'
    · rename_i pMerged hcopy
      exact copiesType_of_copyFields hcopy
  rw [← hmerge, mergeData_filled hload hd hcopies]

/-- A field that has a column text is of a type the merge copies. -/
theorem copiesType_of_info {f : FieldDescriptor} {v : Value}
    (h : (getFieldInfo pb f v).isSome) : copiesType f.type = true := by
  unfold getFieldInfo at h
  cases htype : f.type <;> simp_all [copiesType, getBasicTypeFieldValue]

end CDbCache

/-- A message whose filled form can be stored is merged without failing. -/
theorem Storable.copies {m : RowMessage} {szTableName : String} {nID : Nat}
    {vecFieldInfo : List SFieldInfo} (h : Storable pb m.filled szTableName nID vecFieldInfo)
    {f : FieldDescriptor} (hf : f ∈ m.descriptor.fields) :
    CDbCache.copiesType f.type = true :=
  CDbCache.copiesType_of_info (fieldInfosFrom_isSome h.infos hf (filled_value_of_mem m hf))

/-- The bytes of a record are those of a message of the type its data name names. -/
structure Holds (pb : Runtime) (szDataName : String) (szData : Bytes) (m : RowMessage) : Prop where
  known : pb.FindMessageTypeByName szDataName = some m.descriptor
  data : pb.SerializeToString (.row m) = some szData

theorem Holds.typeName (hpb : pb.Lawful) {szDataName : String} {szData : Bytes} {m : RowMessage}
    (h : Holds pb szDataName szData m) : m.GetTypeName = szDataName :=
  hpb.full_name _ _ h.known

/-- Such a record is read as that message. -/
theorem Holds.load (hpb : pb.Lawful) {szDataName : String} {szData : Bytes} {m : RowMessage}
    (h : Holds pb szDataName szData m) :
    CDbCache.loadRecord pb szDataName szData = some m := by
  have hname := h.typeName hpb
  have hknows : pb.Knows (.row m) := by
    have hknown := h.known
    rwa [← hname] at hknown
  have hparse := hpb.parse_serialize _ _ hknows h.data
  have hnew : (RowMessage.New m.descriptor).GetTypeName = (Message.row m).GetTypeName := rfl
  simp only [CDbCache.loadRecord, Runtime.createMessage, h.known, Option.map_some,
    Runtime.ParseRow, hnew, hparse]

end Db
