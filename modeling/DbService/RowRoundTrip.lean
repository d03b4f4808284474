import DbService.Tables
import DbService.SqlText
import DbService.PlayerBase

/-!
# Rows that come back

INSERT and UPDATE write one literal per column; the row buffer holds the bytes it denotes;
SELECT and QUERY read them into fields, CALL hands them on.  Escaping and the decimal texts
lose nothing, whatever the bytes and in the full range of every integer type.  `getData`
hands out a C string, so a text comes back if and only if it has no NUL byte.

* `ColumnText.setFieldValue_iff` -- when the column of a field gives its value back;
* `fillRow_givesBack_iff` -- when a row does;
* `rows_come_back_iff` -- SELECT, QUERY and CALL over any rows;
* `nul_name_cut` -- a name with a null byte.
-/

namespace Db

open Reflection ByteText

/-! ## What a column holds -/

/-- The literal both write handlers put into their statement for a column. -/
def SFieldInfo.literal (escape : Bytes → Bytes) (sFieldInfo : SFieldInfo) : Bytes :=
  if sFieldInfo.bStr then 39 :: (escape sFieldInfo.szValue ++ [39]) else sFieldInfo.szValue

/-- Optional fields of integer types, strings, bytes, and sub-messages that are stored
serialised. -/
structure RowField (f : FieldDescriptor) : Prop where
  optional : f.label = .LABEL_OPTIONAL
  type : isInteger f.type = true ∨ f.type = .TYPE_STRING ∨ f.type = .TYPE_BYTES ∨
    f.type = .TYPE_MESSAGE ∧ f.serialize_type = eST_Protobuf_Bin

/-- The sub-messages of a row parse back from their serialisation, and not from a part that
it begins with. -/
structure Runtime.Inverse (pb : Runtime) (m : RowMessage) : Prop where
  parse : ∀ f ∈ m.descriptor.fields, ∀ sub szBuf, m.value f.name = some (.message sub) →
    pb.SerializeToArray sub = some szBuf → pb.ParseSubMessage f.message_type szBuf = some sub
  part : ∀ f ∈ m.descriptor.fields, ∀ sub szBuf szPart,
    m.value f.name = some (.message sub) → pb.SerializeToArray sub = some szBuf →
    szPart <+: szBuf → pb.ParseSubMessage f.message_type szPart = some sub → szPart = szBuf

/-- A row as the database returns it: for each column of the statement the bytes its literal
denotes, and anything in other columns of the table. -/
structure Returned (escape : Bytes → Bytes) (d : Descriptor) (vecFieldInfo : List SFieldInfo)
    (columns : List (String × Option Bytes)) : Prop where
  nodup : (columns.map Prod.fst).Nodup
  declared : ∀ column ∈ columns, (d.FindFieldByName column.1).isSome
  written : ∀ sFieldInfo ∈ vecFieldInfo, ∃ szStored,
    SqlText.denoted (sFieldInfo.literal escape) = some szStored ∧
      (sFieldInfo.szName, some szStored) ∈ columns

/-- The text of a value has no NUL byte. -/
def NulFreeValue (pb : Runtime) : Value → Prop
  | .bytes s => 0 ∉ s
  | .message sub => ∀ szBuf, pb.SerializeToArray sub = some szBuf → 0 ∉ szBuf
  | _ => True

/-- No text of the row has a NUL byte. -/
def NulFree (pb : Runtime) (m : RowMessage) : Prop :=
  ∀ f ∈ m.descriptor.fields, ∀ v, m.value f.name = some v → NulFreeValue pb v

/-- The columns the row did not set hold what their fields can be read from. -/
def OthersReadable (pb : Runtime) (m : RowMessage) (columns : List (String × Option Bytes)) :
    Prop :=
  ∀ column ∈ columns, m.value column.1 = none →
    ∀ f, m.descriptor.FindFieldByName column.1 = some f →
      (setFieldValue pb f (CDbRecordset.getData column.2)).isSome

/-- Every field that is set in `m` has its value in `m'`. -/
def GivesBack (m m' : RowMessage) : Prop :=
  ∀ name v, m.value name = some v → m'.value name = some v

/-! ## One column -/

section Column

variable {pb : Runtime} {f : FieldDescriptor} {v : Value} {sFieldInfo : SFieldInfo}

/-- The three texts a column is made of. -/
inductive ColumnText (pb : Runtime) (f : FieldDescriptor) : Value → SFieldInfo → Prop
  | integer (z : Int) (htype : isInteger f.type = true) :
      ColumnText pb f (.int z) ⟨f.name, decimal z, false⟩
  | text (s : Bytes) (htype : f.type = .TYPE_STRING ∨ f.type = .TYPE_BYTES) :
      ColumnText pb f (.bytes s) ⟨f.name, s, true⟩
  | message (sub : SubMessage) (szBuf : Bytes) (htype : f.type = .TYPE_MESSAGE)
      (hserialize : f.serialize_type = eST_Protobuf_Bin)
      (hdata : pb.SerializeToArray sub = some szBuf) :
      ColumnText pb f (.message sub) ⟨f.name, szBuf, true⟩

/-- A value of a field that can be part of a row has a text that gives it back. -/
theorem columnText (hf : RowField f) (hfits : v.fits f.type = true)
    (hinfo : getFieldInfo pb f v = some sFieldInfo) : ColumnText pb f v sFieldInfo := by
  rcases hf.type with htype | htype | htype | ⟨htype, hserialize⟩
  · obtain ⟨z, rfl, _⟩ := fits_integer htype hfits
    rw [getFieldInfo_integer pb htype, Option.some.injEq] at hinfo
    subst hinfo
    exact .integer z htype
  · cases v <;> simp [htype, Value.fits] at hfits
    simp only [getFieldInfo, htype, getBasicTypeFieldValue, Option.map_some,
      Option.some.injEq] at hinfo
    subst hinfo
    exact .text _ (.inl htype)
  · cases v <;> simp [htype, Value.fits] at hfits
    simp only [getFieldInfo, htype, getBasicTypeFieldValue, Option.map_some,
      Option.some.injEq] at hinfo
    subst hinfo
    exact .text _ (.inr htype)
  · cases v <;> simp [htype, Value.fits] at hfits
    simp only [getFieldInfo, htype, getSubMessageText, hserialize, if_true,
      Option.map_eq_some_iff] at hinfo
    obtain ⟨szBuf, hdata, rfl⟩ := hinfo
    exact .message _ szBuf htype hserialize hdata

/-- **A column holds the text of its field.** -/
theorem ColumnText.denoted (h : ColumnText pb f v sFieldInfo) :
    SqlText.denoted (sFieldInfo.literal SqlText.escape) = some sFieldInfo.szValue := by
  cases h with
  | integer z => exact SqlText.denoted_decimal z
  | text s => exact SqlText.denoted_quoted s
  | message sub szBuf => exact SqlText.denoted_quoted szBuf

/-- **The full range of every integer type is read back.** -/
theorem setFieldValue_decimal (hlabel : f.label = .LABEL_OPTIONAL)
    (hint : isInteger f.type = true) {z : Int} (hfits : (Value.int z).fits f.type = true) :
    setFieldValue pb f (cstr (decimal z)) = some (.int z) := by
  rw [cstr_decimal, setFieldValue, if_neg (by simp [hlabel])]
  unfold setBasicTypeFieldValue
  cases htype : f.type <;> rw [htype] at hint hfits <;>
    simp only [isInteger, Bool.false_eq_true, Value.fits, signedFits, unsignedFits,
      Bool.and_eq_true, decide_eq_true_eq] at hint hfits
  all_goals
    first
    | simp only [scanSigned_decimal hfits.1 hfits.2]
    | simp only [scanUnsigned_decimal hfits.1 hfits.2]

/-- **When the column of a field gives its value back.** -/
theorem ColumnText.setFieldValue_iff (h : ColumnText pb f v sFieldInfo) {m : RowMessage}
    (hinverse : pb.Inverse m) (hmem : f ∈ m.descriptor.fields) (hf : RowField f)
    (hv : m.value f.name = some v) (hfits : v.fits f.type = true) :
    setFieldValue pb f (cstr sFieldInfo.szValue) = some v ↔ 0 ∉ sFieldInfo.szValue := by
  have hlabel : ¬ f.label ≠ .LABEL_OPTIONAL := by simp [hf.optional]
  rw [← cstr_eq_iff]
  cases h with
  | integer z htype =>
      exact ⟨fun _ => cstr_decimal z, fun _ => setFieldValue_decimal hf.optional htype hfits⟩
  | text s htype =>
      have hread : setFieldValue pb f (cstr s) = some (.bytes (cstr s)) := by
        rcases htype with htype | htype <;>
          simp [setFieldValue, setBasicTypeFieldValue, hf.optional, htype]
      simp [hread]
  | message sub szBuf htype hserialize hdata =>
      have hread : ∀ szValue, setFieldValue pb f szValue =
          (pb.ParseSubMessage f.message_type szValue).map .message := by
        intro szValue
        simp [setFieldValue, hf.optional, htype, hserialize]
      have hparse := hinverse.parse f hmem sub szBuf hv hdata
      simp only [hread, Option.map_eq_some_iff, Value.message.injEq, exists_eq_right]
      constructor
      · exact hinverse.part f hmem sub szBuf _ hv hdata (List.takeWhile_prefix _)
      · intro hsame
        rw [hsame]
        exact hparse

/-- The value is free of null bytes if its text is. -/
theorem ColumnText.nulFreeValue_iff (h : ColumnText pb f v sFieldInfo) :
    NulFreeValue pb v ↔ 0 ∉ sFieldInfo.szValue := by
  cases h with
  | integer z =>
      exact ⟨fun _ => (cstr_eq_iff _).mp (cstr_decimal z), fun _ => trivial⟩
  | text s => rfl
  | message sub szBuf _ _ hdata => simp [NulFreeValue, hdata]

end Column

/-! ## One row -/

section Row

variable {pb : Runtime} {m m' : RowMessage} {columns : List (String × Option Bytes)}

/-- What a column is read as. -/
def columnValue (pb : Runtime) (d : Descriptor) (column : String × Option Bytes) :
    Option Value :=
  (d.FindFieldByName column.1).bind fun f => setFieldValue pb f (CDbRecordset.getData column.2)

/-- A row is read exactly if each of its columns is. -/
theorem fillRow_isSome_iff :
    (fillRow pb columns m).isSome ↔
      ∀ column ∈ columns, (columnValue pb m.descriptor column).isSome := by
  induction columns generalizing m with
  | nil => simp [fillRow]
  | cons column rest ih =>
      obtain ⟨szFieldName, cell⟩ := column
      rw [List.forall_mem_cons, fillRow]
      cases hfind : m.descriptor.FindFieldByName szFieldName with
      | none => simp [columnValue, hfind]
      | some f =>
          cases hset : setFieldValue pb f (CDbRecordset.getData cell) with
          | none => simp [columnValue, hfind, hset]
          | some v => simp [columnValue, hfind, hset, ih]

/-- A column that is not in the row leaves its field alone. -/
theorem fillRow_value_of_notMem (h : fillRow pb columns m = some m') {name : String}
    (hname : name ∉ columns.map Prod.fst) : m'.value name = m.value name := by
  induction columns generalizing m with
  | nil =>
      obtain rfl := Option.some.inj h
      rfl
  | cons column rest ih =>
      obtain ⟨szFieldName, cell⟩ := column
      simp only [List.map_cons, List.mem_cons, not_or] at hname
      unfold fillRow at h
      split at h
      · cases h
      · rename_i f hfind
        split at h
        · cases h
        · rename_i v _
          rw [ih h hname.2]
          rcases Set_value_cases m f.name v name with hsame | ⟨heq, _⟩
          · exact hsame
          · exact absurd (heq.trans (FindFieldByName_name hfind).2) hname.1

/-- **What a field holds after its row was read** is what its column is read as. -/
theorem fillRow_value_of_mem (h : fillRow pb columns m = some m')
    (hnodup : (columns.map Prod.fst).Nodup) {column : String × Option Bytes}
    (hcolumn : column ∈ columns) (hunset : m.value column.1 = none) {v : Value}
    (haccepts : m.descriptor.accepts column.1 v = true) :
    m'.value column.1 = some v ↔ columnValue pb m.descriptor column = some v := by
  induction columns generalizing m with
  | nil => cases hcolumn
  | cons head rest ih =>
      obtain ⟨szFieldName, cell⟩ := head
      obtain ⟨hfresh, hnodup'⟩ := List.nodup_cons.mp hnodup
      unfold fillRow at h
      split at h
      · cases h
      · rename_i f hfind
        have hfname := (FindFieldByName_name hfind).2
        split at h
        · cases h
        · rename_i w hset
          rcases List.mem_cons.mp hcolumn with rfl | hrest
          · have hread : columnValue pb m.descriptor (szFieldName, cell) = some w := by
              simp [columnValue, hfind, hset]
            have hvalue := fillRow_value_of_notMem h hfresh
            simp only at hvalue hunset haccepts ⊢
            rw [hvalue, hread]
            by_cases hw : m.descriptor.accepts f.name w = true
            · rw [Set_value hw, hfname, Function.update_self]
            · have hkeep : m.Set f.name w = m := by simp [RowMessage.Set, hw]
              rw [hkeep, hunset]
              constructor
              · intro hcase
                cases hcase
              · intro hcase
                obtain rfl := Option.some.inj hcase
                rw [hfname] at hw
                exact absurd haccepts hw
          · have hne : column.1 ≠ f.name := by
              intro heq
              exact hfresh (List.mem_map.mpr ⟨column, hrest, heq.trans hfname⟩)
            have hkept : (m.Set f.name w).value column.1 = m.value column.1 :=
              (Set_value_cases m f.name w column.1).resolve_right fun hcase => hne hcase.1
            have hiff := ih h hnodup' hrest (hkept.trans hunset)
              (by rw [Set_descriptor]; exact haccepts)
            rwa [Set_descriptor] at hiff

/-- The columns of a statement are those of its set fields. -/
theorem mem_infos {vecFieldInfo : List SFieldInfo}
    (h : getMessageFieldInfos pb (.row m) = some vecFieldInfo) {sFieldInfo : SFieldInfo}
    (hin : sFieldInfo ∈ vecFieldInfo) :
    ∃ f ∈ m.descriptor.fields, ∃ v, m.value f.name = some v ∧
      getFieldInfo pb f v = some sFieldInfo := by
  have hfrom : ∀ fields : List FieldDescriptor, ∀ vecFieldInfo,
      fieldInfosFrom pb m fields = some vecFieldInfo → sFieldInfo ∈ vecFieldInfo →
      ∃ f ∈ fields, ∃ v, m.value f.name = some v ∧ getFieldInfo pb f v = some sFieldInfo := by
    intro fields
    induction fields with
    | nil =>
        intro vecFieldInfo h hin
        obtain rfl := Option.some.inj h
        cases hin
    | cons f rest ih =>
        intro vecFieldInfo h hin
        unfold fieldInfosFrom at h
        split at h
        · cases h
        · split at h
          · obtain ⟨g, hg, v, hset, hinfo⟩ := ih _ h hin
            exact ⟨g, List.mem_cons_of_mem f hg, v, hset, hinfo⟩
          · rename_i v hset
            split at h
            · rename_i sFieldInfo' vecFieldInfo' hinfo hrest
              obtain rfl := Option.some.inj h
              rcases List.mem_cons.mp hin with rfl | hin'
              · exact ⟨f, List.mem_cons_self, v, hset, hinfo⟩
              · obtain ⟨g, hg, w, hset', hinfo'⟩ := ih _ hrest hin'
                exact ⟨g, List.mem_cons_of_mem f hg, w, hset', hinfo'⟩
            · cases h
  exact hfrom m.descriptor.fields vecFieldInfo h hin

/-- A set field has a column in the statement. -/
theorem exists_info {vecFieldInfo : List SFieldInfo}
    (h : getMessageFieldInfos pb (.row m) = some vecFieldInfo) {f : FieldDescriptor}
    (hf : f ∈ m.descriptor.fields) {v : Value} (hv : m.value f.name = some v) :
    ∃ sFieldInfo ∈ vecFieldInfo, getFieldInfo pb f v = some sFieldInfo := by
  obtain ⟨sFieldInfo, hinfo⟩ := Option.isSome_iff_exists.mp (fieldInfosFrom_isSome h hf hv)
  have hfind := find_infos h f.name
  simp only [columnInfo, FindFieldByName_of_mem hf, Option.bind_some, hv, hinfo] at hfind
  exact ⟨sFieldInfo, List.mem_of_find?_eq_some hfind, hinfo⟩

/-- **A row comes back** exactly if its texts have no NUL byte and the other columns can be
read. -/
theorem fillRow_givesBack_iff (hrow : ∀ f ∈ m.descriptor.fields, RowField f)
    (hinverse : pb.Inverse m) {vecFieldInfo : List SFieldInfo}
    (hinfos : getMessageFieldInfos pb (.row m) = some vecFieldInfo)
    (hreturned : Returned SqlText.escape m.descriptor vecFieldInfo columns) :
    (∃ m', fillRow pb columns (.New m.descriptor) = some m' ∧ GivesBack m m') ↔
      NulFree pb m ∧ OthersReadable pb m columns := by
  -- The column of a set field, and what it is read as.
  have hcolumn : ∀ f ∈ m.descriptor.fields, ∀ v, m.value f.name = some v →
      ∃ cell, (f.name, cell) ∈ columns ∧
        (columnValue pb m.descriptor (f.name, cell) = some v ↔ NulFreeValue pb v) := by
    intro f hf v hv
    have hfits : v.fits f.type = true := by
      have haccepts := m.accepted f.name v hv
      rwa [Descriptor.accepts, FindFieldByName_of_mem hf] at haccepts
    obtain ⟨sFieldInfo, hin, hinfo⟩ := exists_info hinfos hf hv
    have htext := columnText (hrow f hf) hfits hinfo
    obtain ⟨szStored, hdenoted, hstored⟩ := hreturned.written sFieldInfo hin
    rw [htext.denoted, Option.some.injEq] at hdenoted
    rw [getFieldInfo_szName hinfo, ← hdenoted] at hstored
    refine ⟨_, hstored, ?_⟩
    rw [htext.nulFreeValue_iff, ← htext.setFieldValue_iff hinverse hf (hrow f hf) hv hfits]
    simp [columnValue, FindFieldByName_of_mem hf, CDbRecordset.getData]
  constructor
  · intro hcase
    obtain ⟨m', hfill, hback⟩ := hcase
    refine ⟨fun f hf v hv => ?_, fun column hin hunset f hfind => ?_⟩
    · obtain ⟨cell, hin, hiff⟩ := hcolumn f hf v hv
      exact hiff.mp ((fillRow_value_of_mem hfill hreturned.nodup hin rfl
        (m.accepted f.name v hv)).mp (hback f.name v hv))
    · have hsome : (fillRow pb columns (.New m.descriptor)).isSome := by simp [hfill]
      have hread := fillRow_isSome_iff.mp hsome column hin
      rw [New_descriptor] at hread
      simpa [columnValue, hfind] using hread
  · intro hcase
    obtain ⟨hnul, hothers⟩ := hcase
    have hsome : (fillRow pb columns (.New m.descriptor)).isSome := by
      rw [fillRow_isSome_iff]
      intro column hin
      rw [New_descriptor]
      obtain ⟨f, hfind⟩ := Option.isSome_iff_exists.mp (hreturned.declared column hin)
      obtain ⟨hf, hname⟩ := FindFieldByName_name hfind
      cases hv : m.value column.1 with
      | none =>
          have hread := hothers column hin hv f hfind
          simpa [columnValue, hfind] using hread
      | some v =>
          rw [← hname] at hv
          obtain ⟨cell, hin', hiff⟩ := hcolumn f hf v hv
          have hsame : column = (f.name, cell) :=
            List.inj_on_of_nodup_map hreturned.nodup hin hin' hname.symm
          rw [hsame, hiff.mpr (hnul f hf v hv)]
          rfl
    obtain ⟨m', hfill⟩ := Option.isSome_iff_exists.mp hsome
    refine ⟨m', hfill, fun name v hv => ?_⟩
    obtain ⟨f, hf, hname⟩ := m.exists_field hv
    subst hname
    obtain ⟨cell, hin, hiff⟩ := hcolumn f hf v hv
    exact (fillRow_value_of_mem hfill hreturned.nodup hin rfl (m.accepted f.name v hv)).mpr
      (hiff.mpr (hnul f hf v hv))

end Row

/-! ## The rows of a table -/

/-- A message of the type and the row of the recordset that was stored for it. -/
structure StoredRow (pb : Runtime) (escape : Bytes → Bytes) (d : Descriptor)
    (fieldNames : List String) (m : RowMessage) (row : List (Option Bytes)) : Prop where
  descriptor : m.descriptor = d
  inverse : pb.Inverse m
  returned : ∃ vecFieldInfo, getMessageFieldInfos pb (.row m) = some vecFieldInfo ∧
    Returned escape d vecFieldInfo (fieldNames.zip row)

/-- The `_set` type of a row type: one repeated field of it. -/
structure SetType (pb : Runtime) (main d : Descriptor) : Prop where
  found : pb.FindMessageTypeByName (d.full_name ++ "_set") = some main
  field : ∃ f, main.fields = [f] ∧ f.label = .LABEL_REPEATED ∧ f.type = .TYPE_MESSAGE ∧
    pb.FindMessageTypeByName f.message_type = some d

/-- Each row that was stored comes back: read by SELECT, read as one of the rows of a QUERY,
and as the bytes of a CALL. -/
def RowsComeBack (pb : Runtime) (main d : Descriptor) (fieldNames : List String)
    (stored : List (RowMessage × List (Option Bytes))) : Prop :=
  (∀ s ∈ stored, ∃ m', fillNormalMessage pb ⟨fieldNames, [s.2]⟩ (.New d) = some m' ∧
    GivesBack s.1 m') ∧
  (∃ data_set, createRepeatMessage pb ⟨fieldNames, stored.map Prod.snd⟩ d.full_name =
      some (.rowSet main.full_name data_set) ∧
    List.Forall₂ (fun s m' => GivesBack s.1 m') stored data_set) ∧
  ∃ rows, resultSet ⟨fieldNames, stored.map Prod.snd⟩ = .result_set fieldNames rows ∧
    List.Forall₂ (fun s row => ∀ vecFieldInfo,
      getMessageFieldInfos pb (.row s.1) = some vecFieldInfo →
      ∀ sFieldInfo ∈ vecFieldInfo,
        (sFieldInfo.szName, sFieldInfo.szValue) ∈ fieldNames.zip row) stored rows

section Rows

variable {pb : Runtime} {main d : Descriptor} {fieldNames : List String}

/-- Rows that give back their messages one by one do so together. -/
theorem fillRows_of_forall (fieldNames : List String) (d : Descriptor)
    {stored : List (RowMessage × List (Option Bytes))}
    (h : ∀ s ∈ stored, ∃ m', fillRow pb (fieldNames.zip s.2) (.New d) = some m' ∧
      GivesBack s.1 m') :
    ∃ data_set, fillRows pb fieldNames d (stored.map Prod.snd) = some data_set ∧
      List.Forall₂ (fun s m' => GivesBack s.1 m') stored data_set := by
  induction stored with
  | nil => exact ⟨[], rfl, .nil⟩
  | cons s rest ih =>
      obtain ⟨⟨m', hfill, hback⟩, hrest⟩ := List.forall_mem_cons.mp h
      obtain ⟨data_set, hfills, hbacks⟩ := ih hrest
      refine ⟨m' :: data_set, ?_, .cons hback hbacks⟩
      simp [fillRows, hfill, hfills]

/-- A QUERY reads its rows one by one. -/
theorem createRepeatMessage_eq (hset : SetType pb main d) (rows : List (List (Option Bytes))) :
    createRepeatMessage pb ⟨fieldNames, rows⟩ d.full_name =
      (fillRows pb fieldNames d rows).map (.rowSet main.full_name) := by
  obtain ⟨f, hfields, hlabel, htype, hfind⟩ := hset.field
  cases rows with
  | nil => simp [createRepeatMessage, hset.found, hfields, hlabel, htype, fillRows]
  | cons row rest => simp [createRepeatMessage, hset.found, hfields, hlabel, htype, hfind]

/-- Without a NUL byte a CALL hands out the texts themselves. -/
theorem raw_of_nulFree {m : RowMessage} {row : List (Option Bytes)}
    {vecFieldInfo : List SFieldInfo} (hrow : ∀ f ∈ m.descriptor.fields, RowField f)
    (hinfos : getMessageFieldInfos pb (.row m) = some vecFieldInfo)
    (hreturned : Returned SqlText.escape m.descriptor vecFieldInfo (fieldNames.zip row))
    (hnul : NulFree pb m) {sFieldInfo : SFieldInfo} (hin : sFieldInfo ∈ vecFieldInfo) :
    (sFieldInfo.szName, sFieldInfo.szValue) ∈
      fieldNames.zip (row.map CDbRecordset.getData) := by
  obtain ⟨f, hf, v, hv, hinfo⟩ := mem_infos hinfos hin
  have hfits : v.fits f.type = true := by
    have haccepts := m.accepted f.name v hv
    rwa [Descriptor.accepts, FindFieldByName_of_mem hf] at haccepts
  have htext := columnText (hrow f hf) hfits hinfo
  obtain ⟨szStored, hdenoted, hstored⟩ := hreturned.written sFieldInfo hin
  rw [htext.denoted, Option.some.injEq] at hdenoted
  have hcstr : cstr sFieldInfo.szValue = sFieldInfo.szValue :=
    (cstr_eq_iff _).mpr (htext.nulFreeValue_iff.mp (hnul f hf v hv))
  rw [List.zip_map_right]
  refine List.mem_map.mpr ⟨_, hstored, ?_⟩
  simp [← hdenoted, CDbRecordset.getData, hcstr]

end Rows

/-- **The rows that come back, exactly.**  Whatever rows of a type were stored, SELECT, QUERY
and CALL give each of them back if and only if no text of a row has a NUL byte and the columns
that were not set hold something their fields can be read from. -/
theorem rows_come_back_iff {σ : Type} {pb : Runtime} {srv : Server σ}
    (hescape : CDbConnection.escape srv = SqlText.escape) {main d : Descriptor}
    (hrow : ∀ f ∈ d.fields, RowField f) (hset : SetType pb main d) {fieldNames : List String}
    {stored : List (RowMessage × List (Option Bytes))}
    (hstored : ∀ s ∈ stored, StoredRow pb (CDbConnection.escape srv) d fieldNames s.1 s.2) :
    RowsComeBack pb main d fieldNames stored ↔
      ∀ s ∈ stored, NulFree pb s.1 ∧ OthersReadable pb s.1 (fieldNames.zip s.2) := by
  rw [hescape] at hstored
  have hone : ∀ s ∈ stored,
      (∃ m', fillRow pb (fieldNames.zip s.2) (.New d) = some m' ∧ GivesBack s.1 m') ↔
        NulFree pb s.1 ∧ OthersReadable pb s.1 (fieldNames.zip s.2) := by
    intro s hs
    obtain ⟨rfl, hinverse, vecFieldInfo, hinfos, hreturned⟩ := hstored s hs
    exact fillRow_givesBack_iff hrow hinverse hinfos hreturned
  constructor
  · intro hback s hs
    exact (hone s hs).mp (hback.1 s hs)
  · intro hcond
    have hread : ∀ s ∈ stored, ∃ m',
        fillRow pb (fieldNames.zip s.2) (.New d) = some m' ∧ GivesBack s.1 m' :=
      fun s hs => (hone s hs).mpr (hcond s hs)
    refine ⟨hread, ?_, _, rfl, ?_⟩
    · obtain ⟨data_set, hfills, hbacks⟩ := fillRows_of_forall fieldNames d hread
      exact ⟨data_set, by rw [createRepeatMessage_eq hset, hfills]; rfl, hbacks⟩
    · rw [List.map_map, List.forall₂_map_right_iff, List.forall₂_same]
      intro s hs vecFieldInfo' hinfos' sFieldInfo hin
      obtain ⟨rfl, _, vecFieldInfo, hinfos, hreturned⟩ := hstored s hs
      rw [hinfos, Option.some.injEq] at hinfos'
      subst hinfos'
      exact raw_of_nulFree hrow hinfos hreturned (hcond s hs).1 hin

/-! ## Players -/

/-- The type that a QUERY for players answers with. -/
def player_base_set : Descriptor where
  full_name := "proto.db.player_base_set"
  primary_key := ""
  fields :=
    [{ name := "data_set", type := .TYPE_MESSAGE, label := .LABEL_REPEATED
       default_value := .message ⟨[]⟩, serialize_type := 0
       message_type := "proto.db.player_base", default_fits := by decide }]
  names_nodup := by decide

/-- The runtime of the test program, which knows the `_set` type too. -/
def setRuntime : Runtime :=
  { PlayerBase.runtime with
    FindMessageTypeByName := fun szName =>
      if szName = player_base_set.full_name then some player_base_set
      else PlayerBase.FindMessageTypeByName szName }

/-- A server whose client library escapes as documented. -/
def escapingServer : Server Unit :=
  { Server.constant (.done 0 1) with escape := SqlText.escape }

theorem escapingServer_escape : CDbConnection.escape escapingServer = SqlText.escape := by
  funext s
  cases s <;> rfl

theorem setRuntime_setType : SetType setRuntime player_base_set PlayerBase.player_base where
  found := rfl
  field := ⟨_, rfl, rfl, rfl, rfl⟩

/-- Both fields of a player can be part of a row. -/
theorem player_rowField : ∀ f ∈ PlayerBase.player_base.fields, RowField f := by
  intro f hf
  simp only [PlayerBase.player_base, List.mem_cons, List.not_mem_nil, or_false] at hf
  rcases hf with rfl | rfl
  · exact ⟨rfl, .inl rfl⟩
  · exact ⟨rfl, .inr (.inr (.inl rfl))⟩

/-- Player 5 in the table. -/
theorem player_stored (szName : Bytes) : StoredRow setRuntime
    (CDbConnection.escape escapingServer) PlayerBase.player_base ["id", "name"]
    (PlayerBase.player 5 szName) [some [53], some szName] where
  descriptor := rfl
  inverse := by
    have hbasic : ∀ f ∈ PlayerBase.player_base.fields, ∀ sub,
        (PlayerBase.player 5 szName).value f.name ≠ some (.message sub) := by
      intro f hf sub
      simp only [PlayerBase.player_base, List.mem_cons, List.not_mem_nil, or_false] at hf
      rcases hf with rfl | rfl
      · have hid : (PlayerBase.player 5 szName).value PlayerBase.id.name = some (.int 5) := rfl
        simp [hid]
      · have hname : (PlayerBase.player 5 szName).value PlayerBase.name.name =
          some (.bytes szName) := rfl
        simp [hname]
    exact ⟨fun f hf sub _ hv => absurd hv (hbasic f hf sub),
      fun f hf sub _ _ hv => absurd hv (hbasic f hf sub)⟩
  returned := by
    refine ⟨[⟨"id", [53], false⟩, ⟨"name", szName, true⟩], rfl, ?_, ?_, ?_⟩
    · simp
    · simp [PlayerBase.player_base, PlayerBase.id, PlayerBase.name, Descriptor.FindFieldByName]
    · intro sFieldInfo hin
      simp only [List.mem_cons, List.not_mem_nil, or_false] at hin
      rw [escapingServer_escape]
      rcases hin with rfl | rfl
      · exact ⟨[53], by decide, List.mem_cons_self⟩
      · exact ⟨szName, SqlText.denoted_quoted szName, by simp⟩

/-- A player with a plain name comes back. -/
theorem plain_player_comes_back : RowsComeBack setRuntime player_base_set
    PlayerBase.player_base ["id", "name"]
    [(PlayerBase.player 5 [97, 39], [some [53], some [97, 39]])] := by
  have hstored : ∀ s ∈ [(PlayerBase.player 5 [97, 39], [some [53], some [97, 39]])],
      StoredRow setRuntime (CDbConnection.escape escapingServer) PlayerBase.player_base
        ["id", "name"] s.1 s.2 := by
    intro s hs
    obtain rfl := List.mem_singleton.mp hs
    exact player_stored [97, 39]
  refine (rows_come_back_iff escapingServer_escape player_rowField setRuntime_setType
    hstored).mpr fun s hs => ?_
  obtain rfl := List.mem_singleton.mp hs
  refine ⟨fun f hf v hv => ?_, fun column hin hunset => ?_⟩
  · simp only [PlayerBase.player, PlayerBase.row, PlayerBase.setOption, Set_descriptor,
      New_descriptor, PlayerBase.player_base, List.mem_cons, List.not_mem_nil, or_false] at hf
    rcases hf with rfl | rfl
    · obtain rfl : Value.int 5 = v := Option.some.inj hv
      trivial
    · obtain rfl : Value.bytes [97, 39] = v := Option.some.inj hv
      exact (by decide : (0 : UInt8) ∉ [97, 39])
  · simp only [List.zip_cons_cons, List.zip_nil_right, List.mem_cons, List.not_mem_nil,
      or_false] at hin
    rcases hin with rfl | rfl
    · exact absurd hunset (by decide)
    · exact absurd hunset (by decide)

/-- The name `a\0b` comes back as `a`. -/
theorem nul_name_cut :
    ¬ ∀ (σ : Type) (pb : Runtime) (srv : Server σ),
        CDbConnection.escape srv = SqlText.escape →
      ∀ main d : Descriptor, (∀ f ∈ d.fields, RowField f) → SetType pb main d →
      ∀ (fieldNames : List String) (stored : List (RowMessage × List (Option Bytes))),
        (∀ s ∈ stored, StoredRow pb (CDbConnection.escape srv) d fieldNames s.1 s.2) →
        RowsComeBack pb main d fieldNames stored := by
  intro h
  have hback := h Unit setRuntime escapingServer escapingServer_escape player_base_set
    PlayerBase.player_base player_rowField setRuntime_setType ["id", "name"]
    [(PlayerBase.player 5 [97, 0, 98], [some [53], some [97, 0, 98]])]
    (fun s hs => by
      obtain rfl := List.mem_singleton.mp hs
      exact player_stored [97, 0, 98])
  obtain ⟨m', hfill, hgives⟩ := hback.1 _ List.mem_cons_self
  have hname := hgives "name" (.bytes [97, 0, 98]) rfl
  have hread : (fillNormalMessage setRuntime ⟨["id", "name"], [[some [53], some [97, 0, 98]]]⟩
      (.New PlayerBase.player_base)).map (fun m => m.value "name") =
      some (some (.bytes [97])) := by
    decide
  rw [hfill, Option.map_some, hname] at hread
  exact absurd hread (by decide)

end Db
