import DbService.SentStatements

/-!
# Tables

What the service relies on of the database: statements on the row of a primary key.
`Tables` says what rows look like and how column texts are stored in them, and
`Server.Keeps` what the four statements of the handlers do to the rows when they succeed.
From it follows what each handler does (`handle_select` and so on).

* `find_infos` -- the columns of a message, by name;
* `handle_select`, `handle_delete`, `handle_insert`, `handle_update` -- what the handlers do.
-/

namespace Db

open Reflection ByteText

/-- A row: the cell of each column. -/
abbrev Row := String → Option Bytes

/-- The rows of a database, by table and primary key. -/
abbrev Rows := String × Nat → Option Row

/-- The columns of the tables, and how they store column texts. -/
structure Tables where
  /-- The columns of `select *`, in order. -/
  columns : String → List String
  /-- The column defaults. -/
  blank : String → Row
  /-- The cell a column text is stored as. -/
  cell : String → SFieldInfo → Option Bytes

namespace Tables

/-- A row with the columns of a statement set. -/
def set (tables : Tables) (szTableName : String) (vecFieldInfo : List SFieldInfo) (row : Row) :
    Row :=
  fun szColumn =>
    match vecFieldInfo.find? (fun sFieldInfo => sFieldInfo.szName == szColumn) with
    | some sFieldInfo => tables.cell szTableName sFieldInfo
    | none => row szColumn

/-- `insert .. on duplicate key update ..` of one row. -/
def upsert (tables : Tables) (szTableName : String) (vecFieldInfo : List SFieldInfo)
    (row : Option Row) : Option Row :=
  some (tables.set szTableName vecFieldInfo (row.getD (tables.blank szTableName)))

/-- The result set of a SELECT by primary key. -/
def recordset (tables : Tables) (szTableName : String) (row : Option Row) : CDbRecordset where
  fieldNames := tables.columns szTableName
  rows := row.toList.map fun row => (tables.columns szTableName).map row

end Tables

/-- A statement that was carried out. -/
def Reply.Succeeds : Reply → Prop
  | .failed _ => False
  | .done nError _ => nError = kMET_OK
  | .rows _ => True

instance : DecidablePred Reply.Succeeds
  | .failed _ => isFalse id
  | .done nError _ => inferInstanceAs (Decidable (nError = kMET_OK))
  | .rows _ => isTrue trivial

/-- An event of a connection that is no failure. -/
def SqlEvent.Succeeds : SqlEvent → Prop
  | .sql _ reply => reply.Succeeds
  | .connect _ => True
  | .close => True

instance : DecidablePred SqlEvent.Succeeds
  | .sql _ reply => inferInstanceAs (Decidable reply.Succeeds)
  | .connect _ => isTrue trivial
  | .close => isTrue trivial

/-- Every statement that went out on the connection was carried out. -/
def CDbConnection.Succeeded {σ : Type} (conn : CDbConnection σ) : Prop :=
  ∀ event ∈ conn.trace, event.Succeeds

instance {σ : Type} (conn : CDbConnection σ) : Decidable conn.Succeeded :=
  inferInstanceAs (Decidable (∀ event ∈ conn.trace, event.Succeeds))

/-- The type a table's rows are read as, if it declares a primary key. -/
def Runtime.rowType (pb : Runtime) (szTableName : String) : Option Descriptor :=
  (pb.FindMessageTypeByName (getMessageNameByTableName szTableName)).filter
    fun d => d.primary_key != ""

/-- The columns of a statement name the row of primary key `nID`. -/
def NamesRow (d : Descriptor) (nID : Nat) (vecFieldInfo : List SFieldInfo) : Prop :=
  (vecFieldInfo.find? fun sFieldInfo => sFieldInfo.szName == d.primary_key).map
    SFieldInfo.szValue = some (decimalNat nID)

/-- Documented behaviour of the database: what a statement does to `rows` when it succeeds.
The primary key of a table is the one its row type declares. -/
structure Server.Keeps {σ : Type} (srv : Server σ) (pb : Runtime) (tables : Tables)
    (rows : σ → Rows) : Prop where
  select : ∀ s szTableName d nID, pb.rowType szTableName = some d →
    (srv.query s (.selectRow szTableName d.primary_key nID)).1.Succeeds →
    (srv.query s (.selectRow szTableName d.primary_key nID)).1 =
        .rows (tables.recordset szTableName (rows s (szTableName, nID))) ∧
      rows (srv.query s (.selectRow szTableName d.primary_key nID)).2 = rows s
  delete : ∀ s szTableName d nID, pb.rowType szTableName = some d →
    (srv.query s (.deleteRow szTableName d.primary_key nID)).1.Succeeds →
    rows (srv.query s (.deleteRow szTableName d.primary_key nID)).2 =
      Function.update (rows s) (szTableName, nID) none
  insert : ∀ s szTableName d nID vecFieldInfo, pb.rowType szTableName = some d →
    NamesRow d nID vecFieldInfo →
    (srv.query s (.insertRow szTableName vecFieldInfo)).1.Succeeds →
    rows s (szTableName, nID) = none ∧
      rows (srv.query s (.insertRow szTableName vecFieldInfo)).2 =
        Function.update (rows s) (szTableName, nID)
          (tables.upsert szTableName vecFieldInfo none)
  upsert : ∀ s szTableName d nID vecFieldInfo, pb.rowType szTableName = some d →
    NamesRow d nID vecFieldInfo →
    (srv.query s (.upsertRow szTableName vecFieldInfo)).1.Succeeds →
    rows (srv.query s (.upsertRow szTableName vecFieldInfo)).2 =
      Function.update (rows s) (szTableName, nID)
        (tables.upsert szTableName vecFieldInfo (rows s (szTableName, nID)))

/-- A message that can be stored as the row `nID` of a table: it has the table's row type, it
serialises, its columns can be made, and its primary key is `nID`. -/
structure Storable (pb : Runtime) (m : RowMessage) (szTableName : String) (nID : Nat)
    (vecFieldInfo : List SFieldInfo) : Prop where
  rowType : pb.rowType szTableName = some m.descriptor
  typeName : m.GetTypeName = getMessageNameByTableName szTableName
  data : (pb.SerializeToString (.row m)).isSome
  infos : getMessageFieldInfos pb (.row m) = some vecFieldInfo
  id : getPrimaryValue (.row m) = some nID
  names : NamesRow m.descriptor nID vecFieldInfo

/-! ## Columns -/

section Columns

variable {pb : Runtime} {tables : Tables} {szTableName : String}

/-- The column a message makes of a name, if it sets the field of that name. -/
def columnInfo (pb : Runtime) (m : RowMessage) (szColumn : String) : Option SFieldInfo :=
  (m.descriptor.FindFieldByName szColumn).bind fun f =>
    (m.value f.name).bind (getFieldInfo pb f)

/-- The column of a field has its name. -/
theorem getFieldInfo_szName {f : FieldDescriptor} {v : Value} {sFieldInfo : SFieldInfo}
    (h : getFieldInfo pb f v = some sFieldInfo) : sFieldInfo.szName = f.name := by
  unfold getFieldInfo at h
  split at h
  · obtain ⟨_, _, rfl⟩ := Option.map_eq_some_iff.mp h
    rfl
  · obtain ⟨_, _, rfl⟩ := Option.map_eq_some_iff.mp h
    rfl

/-- The columns made of a list of fields carry the names of these. -/
theorem fieldInfosFrom_names {m : RowMessage} {fields : List FieldDescriptor}
    {vecFieldInfo : List SFieldInfo} (h : fieldInfosFrom pb m fields = some vecFieldInfo)
    {sFieldInfo : SFieldInfo} (hin : sFieldInfo ∈ vecFieldInfo) :
    sFieldInfo.szName ∈ fields.map (·.name) := by
  induction fields generalizing vecFieldInfo with
  | nil =>
      obtain rfl := Option.some.inj h
      cases hin
  | cons f rest ih =>
      unfold fieldInfosFrom at h
      split at h
      · cases h
      · split at h
        · exact List.mem_cons_of_mem _ (ih h hin)
        · split at h
          · rename_i sFieldInfo' vecFieldInfo' hinfo hrest
            obtain rfl := Option.some.inj h
            rcases List.mem_cons.mp hin with rfl | hin'
            · rw [getFieldInfo_szName hinfo]
              exact List.mem_cons_self
            · exact List.mem_cons_of_mem _ (ih hrest hin')
          · cases h

/-- A set field of a message whose columns can be made has a column. -/
theorem fieldInfosFrom_isSome {m : RowMessage} {fields : List FieldDescriptor}
    {vecFieldInfo : List SFieldInfo} (h : fieldInfosFrom pb m fields = some vecFieldInfo)
    {f : FieldDescriptor} (hf : f ∈ fields) {v : Value} (hv : m.value f.name = some v) :
    (getFieldInfo pb f v).isSome := by
  induction fields generalizing vecFieldInfo with
  | nil => cases hf
  | cons g rest ih =>
      unfold fieldInfosFrom at h
      split at h
      · cases h
      · split at h
        · rename_i hunset
          rcases List.mem_cons.mp hf with rfl | hrest
          · rw [hunset] at hv
            cases hv
          · exact ih h hrest
        · rename_i v' hset
          split at h
          · rename_i sFieldInfo vecFieldInfo' hinfo hinfos
            rcases List.mem_cons.mp hf with rfl | hrest
            · rw [hset, Option.some.injEq] at hv
              rw [← hv, hinfo]
              rfl
            · exact ih hinfos hrest
          · cases h

/-- A column of the statement is the one of the field with its name, if that is set. -/
theorem fieldInfosFrom_find {m : RowMessage} {fields : List FieldDescriptor}
    (hnodup : (fields.map (·.name)).Nodup) {vecFieldInfo : List SFieldInfo}
    (h : fieldInfosFrom pb m fields = some vecFieldInfo) (szColumn : String) :
    vecFieldInfo.find? (fun sFieldInfo => sFieldInfo.szName == szColumn) =
      (fields.find? (fun f => f.name == szColumn)).bind fun f =>
        (m.value f.name).bind (getFieldInfo pb f) := by
  induction fields generalizing vecFieldInfo with
  | nil =>
      obtain rfl := Option.some.inj h
      rfl
  | cons f rest ih =>
      rw [List.map_cons, List.nodup_cons] at hnodup
      unfold fieldInfosFrom at h
      split at h
      · cases h
      · split at h
        · rename_i hunset
          by_cases heq : f.name = szColumn
          · have hnone : vecFieldInfo.find?
                (fun sFieldInfo => sFieldInfo.szName == szColumn) = none := by
              rw [List.find?_eq_none]
              intro sFieldInfo hin hname
              have hmem := fieldInfosFrom_names h hin
              rw [beq_iff_eq.mp hname, ← heq] at hmem
              exact hnodup.1 hmem
            rw [hnone, List.find?_cons_of_pos (by simpa using heq)]
            simp [hunset]
          · rw [List.find?_cons_of_neg (by simpa using heq)]
            exact ih hnodup.2 h
        · rename_i v hset
          split at h
          · rename_i sFieldInfo vecFieldInfo' hinfo hinfos
            obtain rfl := Option.some.inj h
            have hname := getFieldInfo_szName hinfo
            by_cases heq : f.name = szColumn
            · rw [List.find?_cons_of_pos (by simpa [hname] using heq),
                List.find?_cons_of_pos (by simpa using heq)]
              simp [hset, hinfo]
            · rw [List.find?_cons_of_neg (by simpa [hname] using heq),
                List.find?_cons_of_neg (by simpa using heq)]
              exact ih hnodup.2 hinfos
          · cases h

/-- **The columns of a message, by name.** -/
theorem find_infos {m : RowMessage} {vecFieldInfo : List SFieldInfo}
    (h : getMessageFieldInfos pb (.row m) = some vecFieldInfo) (szColumn : String) :
    vecFieldInfo.find? (fun sFieldInfo => sFieldInfo.szName == szColumn) =
      columnInfo pb m szColumn :=
  fieldInfosFrom_find m.descriptor.names_nodup h szColumn

/-- A message with all fields set has a column for every declared field. -/
theorem columnInfo_of_full {m : RowMessage} {vecFieldInfo : List SFieldInfo}
    (h : getMessageFieldInfos pb (.row m) = some vecFieldInfo) (hfull : m.Full)
    (szColumn : String) :
    columnInfo pb m szColumn = none ↔ m.descriptor.FindFieldByName szColumn = none := by
  unfold columnInfo
  cases hfind : m.descriptor.FindFieldByName szColumn with
  | none => simp
  | some f =>
      have hf := (FindFieldByName_name hfind).1
      obtain ⟨v, hv⟩ := Option.isSome_iff_exists.mp (hfull f hf)
      have hinfo := fieldInfosFrom_isSome h hf hv
      obtain ⟨sFieldInfo, hsome⟩ := Option.isSome_iff_exists.mp hinfo
      simp [hv, hsome]

/-- Setting the same columns again changes nothing. -/
theorem upsert_upsert_self (tables : Tables) (szTableName : String)
    (vecFieldInfo : List SFieldInfo) (row : Option Row) :
    tables.upsert szTableName vecFieldInfo (tables.upsert szTableName vecFieldInfo row) =
      tables.upsert szTableName vecFieldInfo row := by
  unfold Tables.upsert
  rw [Option.getD_some]
  congr 1
  funext szColumn
  unfold Tables.set
  split <;> rfl

/-- **A message with all fields set hides what was set before** in a row of its type. -/
theorem upsert_upsert_of_full {m m' : RowMessage} {vecFieldInfo vecFieldInfo' : List SFieldInfo}
    (h : getMessageFieldInfos pb (.row m) = some vecFieldInfo)
    (h' : getMessageFieldInfos pb (.row m') = some vecFieldInfo') (hfull : m.Full)
    (hd : m.descriptor = m'.descriptor) (row : Option Row) :
    tables.upsert szTableName vecFieldInfo (tables.upsert szTableName vecFieldInfo' row) =
      tables.upsert szTableName vecFieldInfo row := by
  unfold Tables.upsert
  rw [Option.getD_some]
  congr 1
  funext szColumn
  unfold Tables.set
  rw [find_infos h, find_infos h']
  cases hcolumn : columnInfo pb m szColumn with
  | some sFieldInfo => rfl
  | none =>
      have hnone := (columnInfo_of_full h hfull szColumn).mp hcolumn
      have hcolumn' : columnInfo pb m' szColumn = none := by
        unfold columnInfo
        rw [← hd, hnone]
        rfl
      simp only [hcolumn']

end Columns

/-! ## What can be stored -/

section Storable

variable {pb : Runtime}

/-- The type of a table's rows is known under the table's name, and has a primary key. -/
theorem rowType_eq_some {szTableName : String} {d : Descriptor} :
    pb.rowType szTableName = some d ↔
      pb.FindMessageTypeByName (getMessageNameByTableName szTableName) = some d ∧
        d.primary_key ≠ "" := by
  simp [Runtime.rowType, Option.filter_eq_some_iff]

/-- The types `getPrimaryValue` reads. -/
def isInteger : FieldType → Bool
  | .TYPE_INT32 | .TYPE_SINT32 | .TYPE_SFIXED32 | .TYPE_UINT32 | .TYPE_FIXED32
  | .TYPE_INT64 | .TYPE_SINT64 | .TYPE_SFIXED64 | .TYPE_UINT64 | .TYPE_FIXED64 => true
  | _ => false

/-- The id of a row is its primary key, as a `uint64_t`, if that is an integer field. -/
theorem getPrimaryValue_eq_some {m : RowMessage} {nID : Nat} :
    getPrimaryValue (.row m) = some nID ↔ m.descriptor.primary_key ≠ "" ∧
      ∃ f, m.descriptor.FindFieldByName m.descriptor.primary_key = some f ∧
        isInteger f.type = true ∧ ((m.Get f).toInt % 2 ^ 64).toNat = nID := by
  by_cases hkey : m.descriptor.primary_key = ""
  · simp [getPrimaryValue, hkey]
  · cases hfind : m.descriptor.FindFieldByName m.descriptor.primary_key with
    | none => simp [getPrimaryValue, hfind]
    | some f =>
        simp only [getPrimaryValue, if_neg hkey, hfind]
        cases htype : f.type <;> simp [hkey, htype, isInteger]

/-- An integer field holds an integer below `2 ^ 64`. -/
theorem fits_integer {type : FieldType} {v : Value} (h : isInteger type = true)
    (hfits : v.fits type = true) : ∃ z, v = .int z ∧ z < 2 ^ 64 := by
  cases v with
  | int z =>
      refine ⟨z, rfl, ?_⟩
      cases type <;>
        simp only [Value.fits, signedFits, unsignedFits, Bool.and_eq_true, decide_eq_true_eq]
          at hfits <;> first | omega | cases h
  | real bits => cases type <;> simp_all [isInteger, Value.fits]
  | bytes s => cases type <;> simp_all [isInteger, Value.fits]
  | message sub => cases type <;> simp_all [isInteger, Value.fits]

/-- The text of an integer is its decimal one. -/
theorem getFieldInfo_integer (pb : Runtime) {f : FieldDescriptor}
    (h : isInteger f.type = true) (z : Int) :
    getFieldInfo pb f (.int z) = some ⟨f.name, decimal z, false⟩ := by
  unfold getFieldInfo getBasicTypeFieldValue
  cases htype : f.type <;> simp_all [isInteger]

end Storable

/-! ## Statements that succeed -/

section Handlers

variable {σ : Type} {pb : Runtime} {srv : Server σ} {tables : Tables} {rows : σ → Rows}

/-- Earlier statements succeeded when all did. -/
theorem CDbConnection.Succeeded.of_prefix {conn conn' : CDbConnection σ}
    (h : conn'.Succeeded) (hgrows : conn.trace <+: conn'.trace) : conn.Succeeded :=
  fun event hin => h event (hgrows.subset hin)

/-- Where all statements succeed, the last one does. -/
theorem CDbConnection.Succeeded.sent {conn : CDbConnection σ} {stmt : Statement}
    (h : (conn.sent srv stmt).Succeeded) : (srv.query conn.server stmt).1.Succeeds := by
  apply h (.sql stmt (srv.query conn.server stmt).1)
  rw [CDbConnection.sent_trace]
  exact List.mem_append_right _ List.mem_cons_self

/-- A statement that succeeds gives no error number a handler takes for a lost connection. -/
theorem outcome_of_succeeds {reply : Reply} (h : reply.Succeeds) (wanted : Bool) :
    (CDbConnection.outcome wanted reply).1 ≠ kMET_LostConnection := by
  cases reply with
  | failed nError => exact h.elim
  | done nError nAffectedRow =>
      obtain rfl : nError = kMET_OK := h
      simp [CDbConnection.outcome, kMET_OK, kMET_LostConnection]
  | rows rs =>
      cases wanted <;>
        simp [CDbConnection.outcome, kMET_OK, kMET_LostConnection, kMET_Unknwon]

/-- A statement that succeeds is not taken for a lost connection. -/
theorem errorCode_of_succeeds {reply : Reply} (h : reply.Succeeds) (wanted : Bool) :
    errorCode (CDbConnection.outcome wanted reply).1 ≠ some .kRC_LOST_CONNECTION := by
  unfold errorCode
  rw [if_neg (outcome_of_succeeds h wanted)]
  split <;> simp

/-- What a SELECT answers for a row. -/
def selectAnswer (pb : Runtime) (tables : Tables) (szTableName : String) (row : Option Row) :
    EResultCode × Option Message :=
  match pb.rowType szTableName with
  | none => (.kRC_PROTO_ERROR, none)
  | some d => selectResponse pb (.New d) (some (tables.recordset szTableName row))

/-- What a SELECT handler returns is no lost connection. -/
theorem selectResponse_ne_lost (pMessage : RowMessage) (rs : Option CDbRecordset) :
    (selectResponse pb pMessage rs).1 ≠ .kRC_LOST_CONNECTION := by
  intro hlost
  have hcode := selectResponse_code pb pMessage rs
  rw [hlost] at hcode
  rcases hcode with hcode | hcode
  · cases hcode
  · exact hcode

/-- The answer of a SELECT that is read off the table is no lost connection. -/
theorem selectAnswer_ne_lost (pb : Runtime) (tables : Tables) (szTableName : String)
    (row : Option Row) :
    (selectAnswer pb tables szTableName row).1 ≠ .kRC_LOST_CONNECTION := by
  unfold selectAnswer
  split
  · simp
  · exact selectResponse_ne_lost _ _

/-- A row is read into a message of its type. -/
theorem fillRow_descriptor {columns : List (String × Option Bytes)} {m pMessage : RowMessage}
    (h : fillRow pb columns m = some pMessage) : pMessage.descriptor = m.descriptor := by
  induction columns generalizing m with
  | nil =>
      obtain rfl := Option.some.inj h
      rfl
  | cons column rest ih =>
      obtain ⟨szFieldName, cell⟩ := column
      unfold fillRow at h
      split at h
      · cases h
      · split at h
        · cases h
        · exact (ih h).trans (Set_descriptor ..)

/-- A row is read into a message of the type it was asked for. -/
theorem fillNormalMessage_descriptor {rs : CDbRecordset} {m pMessage : RowMessage}
    (h : fillNormalMessage pb rs m = some pMessage) : pMessage.descriptor = m.descriptor := by
  unfold fillNormalMessage at h
  split at h
  · obtain rfl := Option.some.inj h
    rfl
  · exact fillRow_descriptor h
  · cases h

/-- **What a SELECT answers** is a message of the table's row type, or an error. -/
theorem selectAnswer_cases (pb : Runtime) (tables : Tables) (szTableName : String)
    (row : Option Row) :
    (selectAnswer pb tables szTableName row).2 = none ∨
      ∃ m, selectAnswer pb tables szTableName row = (.kRC_OK, some (.row m)) ∧
        pb.rowType szTableName = some m.descriptor := by
  unfold selectAnswer
  cases htype : pb.rowType szTableName with
  | none => exact .inl rfl
  | some d =>
      simp only [selectResponse]
      cases hfill : fillNormalMessage pb (tables.recordset szTableName row) (.New d) with
      | none => exact .inl rfl
      | some m =>
          refine .inr ⟨m, rfl, ?_⟩
          rw [fillNormalMessage_descriptor hfill]
          rfl

variable (hsrv : srv.Keeps pb tables rows) {conn : CDbConnection σ}
  (hopen : conn.isConnect = true)

include hsrv hopen

/-- **SELECT reads its row and changes none.** -/
theorem handle_select (id : Nat) (table_name : String)
    (h : (CDbThread.handle pb srv .kOT_SELECT (some (.select_command id table_name))
      conn).2.2.Succeeded) :
    (CDbThread.handle pb srv .kOT_SELECT (some (.select_command id table_name)) conn).1 =
        (selectAnswer pb tables table_name (rows conn.server (table_name, id))).1 ∧
      (CDbThread.handle pb srv .kOT_SELECT (some (.select_command id table_name)) conn).2.1 =
        (selectAnswer pb tables table_name (rows conn.server (table_name, id))).2 ∧
      rows (CDbThread.handle pb srv .kOT_SELECT (some (.select_command id table_name))
        conn).2.2.server = rows conn.server := by
  simp only [CDbThread.handle, CDbCommandHandlerProxy.onDbCommand,
    CDbCommandSelectHandler.onDbCommand, Runtime.createMessage, selectAnswer] at h ⊢
  cases hfind : pb.FindMessageTypeByName (getMessageNameByTableName table_name) with
  | none => simp [Runtime.rowType, hfind]
  | some d =>
      by_cases hkey : d.primary_key = ""
      · have htype : pb.rowType table_name = none := by simp [Runtime.rowType, hfind, hkey]
        simp [htype, hkey, getPrimaryName]
      · have htype : pb.rowType table_name = some d := rowType_eq_some.mpr ⟨hfind, hkey⟩
        have hname : getPrimaryName (.New d) = d.primary_key := rfl
        simp only [hfind, Option.map_some, hname, if_neg hkey, htype,
          CDbConnection.execute_of_isConnect srv hopen] at h ⊢
        have hsent : (conn.sent srv (.selectRow table_name d.primary_key id)).Succeeded := by
          revert h
          split <;> exact fun h => h
        obtain ⟨hreply, hrows⟩ := hsrv.select _ _ _ _ htype hsent.sent
        rw [hreply]
        exact ⟨rfl, rfl, hrows⟩

/-- **DELETE removes its row.** -/
theorem handle_delete (id : Nat) (table_name : String)
    (h : (CDbThread.handle pb srv .kOT_DELETE (some (.delete_command id table_name))
      conn).2.2.Succeeded) :
    (CDbThread.handle pb srv .kOT_DELETE (some (.delete_command id table_name)) conn).1 ≠
        .kRC_LOST_CONNECTION ∧
      rows (CDbThread.handle pb srv .kOT_DELETE (some (.delete_command id table_name))
          conn).2.2.server =
        if (pb.rowType table_name).isSome then
          Function.update (rows conn.server) (table_name, id) none
        else rows conn.server := by
  simp only [CDbThread.handle, CDbCommandHandlerProxy.onDbCommand,
    CDbCommandDeleteHandler.onDbCommand, Runtime.createMessage] at h ⊢
  cases hfind : pb.FindMessageTypeByName (getMessageNameByTableName table_name) with
  | none => simp [Runtime.rowType, hfind]
  | some d =>
      by_cases hkey : d.primary_key = ""
      · have htype : pb.rowType table_name = none := by simp [Runtime.rowType, hfind, hkey]
        simp [htype, hkey, getPrimaryName]
      · have htype : pb.rowType table_name = some d := rowType_eq_some.mpr ⟨hfind, hkey⟩
        have hname : getPrimaryName (.New d) = d.primary_key := rfl
        simp only [hfind, Option.map_some, hname, if_neg hkey, htype, Option.isSome_some,
          if_true, CDbConnection.execute_of_isConnect srv hopen] at h ⊢
        have hcode := errorCode_of_succeeds h.sent false
        refine ⟨?_, hsrv.delete _ _ _ _ htype h.sent⟩
        cases hcase : errorCode (CDbConnection.outcome false (srv.query conn.server
          (.deleteRow table_name d.primary_key id)).1).1 with
        | none => simp
        | some code =>
            rw [hcase] at hcode
            simpa using hcode

variable {m : RowMessage} {szTableName : String} {nID : Nat} {vecFieldInfo : List SFieldInfo}

omit hsrv in
/-- The part INSERT and UPDATE share: the message's statement goes out. -/
theorem writeMessage_sent (statement : String → List SFieldInfo → Statement)
    (accepts : Nat → Bool) (hm : Storable pb m szTableName nID vecFieldInfo)
    (h : (writeMessage pb srv statement accepts (.row m) conn).2.2.Succeeded) :
    (writeMessage pb srv statement accepts (.row m) conn).1 ≠ .kRC_LOST_CONNECTION ∧
      (writeMessage pb srv statement accepts (.row m) conn).2.2 =
        conn.sent srv (statement szTableName vecFieldInfo) := by
  have htable : getTableNameByMessageName (Message.row m).GetTypeName = some szTableName := by
    have hname : (Message.row m).GetTypeName = getMessageNameByTableName szTableName :=
      hm.typeName
    rw [hname]
    exact getTableNameByMessageName_getMessageNameByTableName szTableName
  simp only [writeMessage, htable, hm.infos, CDbConnection.execute_of_isConnect srv hopen]
    at h ⊢
  have hsent : (conn.sent srv (statement szTableName vecFieldInfo)).Succeeded := by
    revert h
    split <;> exact fun h => h
  have hcode := errorCode_of_succeeds hsent.sent false
  split
  · rename_i code hcase
    rw [hcase] at hcode
    exact ⟨by simpa using hcode, rfl⟩
  · refine ⟨?_, rfl⟩
    split <;> simp

/-- **INSERT makes a new row of its message.** -/
theorem handle_insert (hm : Storable pb m szTableName nID vecFieldInfo)
    (h : (CDbThread.handle pb srv .kOT_INSERT (some (.row m)) conn).2.2.Succeeded) :
    (CDbThread.handle pb srv .kOT_INSERT (some (.row m)) conn).1 ≠ .kRC_LOST_CONNECTION ∧
      rows conn.server (szTableName, nID) = none ∧
      rows (CDbThread.handle pb srv .kOT_INSERT (some (.row m)) conn).2.2.server =
        Function.update (rows conn.server) (szTableName, nID)
          (tables.upsert szTableName vecFieldInfo none) := by
  obtain ⟨hcode, hconn⟩ := writeMessage_sent hopen .insertRow (fun n => n == 1) hm h
  have hsent : (conn.sent srv (.insertRow szTableName vecFieldInfo)).Succeeded := hconn ▸ h
  have hrow := hsrv.insert _ _ _ _ _ hm.rowType hm.names hsent.sent
  refine ⟨hcode, hrow.1, ?_⟩
  have hserver := congrArg (fun conn => rows conn.server) hconn
  exact hserver.trans hrow.2

/-- **UPDATE sets the columns of its message.** -/
theorem handle_update (hm : Storable pb m szTableName nID vecFieldInfo)
    (h : (CDbThread.handle pb srv .kOT_UPDATE (some (.row m)) conn).2.2.Succeeded) :
    (CDbThread.handle pb srv .kOT_UPDATE (some (.row m)) conn).1 ≠ .kRC_LOST_CONNECTION ∧
      rows (CDbThread.handle pb srv .kOT_UPDATE (some (.row m)) conn).2.2.server =
        Function.update (rows conn.server) (szTableName, nID)
          (tables.upsert szTableName vecFieldInfo (rows conn.server (szTableName, nID))) := by
  obtain ⟨hcode, hconn⟩ := writeMessage_sent hopen .upsertRow (fun n => 1 ≤ n) hm h
  have hsent : (conn.sent srv (.upsertRow szTableName vecFieldInfo)).Succeeded := hconn ▸ h
  have hrow := hsrv.upsert _ _ _ _ _ hm.rowType hm.names hsent.sent
  refine ⟨hcode, ?_⟩
  have hserver := congrArg (fun conn => rows conn.server) hconn
  exact hserver.trans hrow

end Handlers

end Db
