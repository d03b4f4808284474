import DbService.Durability

/-!
# Read coherence

A record of the cache should be what the database would answer for it (`Coherent`).  Then a
SELECT answers the same with the cache and without it.  INSERT breaks this when its record is
cached already, as it is after a SELECT that found no row, or when the message is not what its
row is read as.  UPDATE breaks it when it finds no record, or when a field it leaves unset is
set in the row.  SELECT breaks it when it finds a record with fields unset.

Where none of these happens a store with a cache does what a table in memory does
(`execute_serves`, with `tableAfter` and `Answers` for the table).

* `step_coherent` -- a step that stays coherent shows the same with the cache on and off;
* `selects_answer_alike` -- whole runs;
* `stale_placeholder_read` -- a player that is read while missing, inserted, and read as missing
  again.
-/

namespace Db

open Reflection ByteText CDbCacheMgr

/-- The message sets its primary key. -/
def SetsKey (m : RowMessage) : Prop :=
  (m.value m.descriptor.primary_key).isSome

/-- A record holds the message that a row is read as. -/
def Reads (pb : Runtime) (tables : Tables) (szTableName : String) (row : Option Row)
    (sCacheInfo : SCacheInfo) : Prop :=
  ∃ m, CDbCache.loadRecord pb (getMessageNameByTableName szTableName) sCacheInfo.szData =
      some m ∧
    selectAnswer pb tables szTableName row = (.kRC_OK, some (.row m))

/-! ## A table in memory -/

/-- The row a message is written to, with its columns. -/
def rowOf (pb : Runtime) (m : RowMessage) : Option (String × Nat × List SFieldInfo) :=
  match getTableNameByMessageName m.GetTypeName, getPrimaryValue (.row m),
      getMessageFieldInfos pb (.row m) with
  | some szTableName, some nID, some vecFieldInfo => some (szTableName, nID, vecFieldInfo)
  | _, _, _ => none

theorem Storable.rowOf {pb : Runtime} {m : RowMessage} {szTableName : String} {nID : Nat}
    {vecFieldInfo : List SFieldInfo} (h : Storable pb m szTableName nID vecFieldInfo) :
    rowOf pb m = some (szTableName, nID, vecFieldInfo) := by
  rw [Db.rowOf, h.typeName, getTableNameByMessageName_getMessageNameByTableName, h.id, h.infos]

/-- The row a command writes, and what it makes of it. -/
def rowWrite (pb : Runtime) (tables : Tables) :
    EOperatorType → Option Message → Option ((String × Nat) × (Option Row → Option Row))
  | .kOT_UPDATE, some (.row m) =>
      (rowOf pb m).map fun (szTableName, nID, vecFieldInfo) =>
        ((szTableName, nID), tables.upsert szTableName vecFieldInfo)
  | .kOT_INSERT, some (.row m) =>
      (rowOf pb m).map fun (szTableName, nID, vecFieldInfo) =>
        ((szTableName, nID), fun _ => tables.upsert szTableName vecFieldInfo none)
  | .kOT_DELETE, some (.delete_command id table_name) =>
      if (pb.rowType table_name).isSome then some ((table_name, id), fun _ => none) else none
  | _, _ => none

/-- What a table makes of a command on a row. -/
def tableAfter (pb : Runtime) (tables : Tables) (table : Rows) (nType : EOperatorType)
    (pRequest : Option Message) : Rows :=
  match rowWrite pb tables nType pRequest with
  | none => table
  | some (key, w) => Function.update table key (w (table key))

/-- What a table answers: to a SELECT, its row. -/
def Answers (pb : Runtime) (tables : Tables) (table : Rows) (nType : EOperatorType)
    (pRequest : Option Message) (answer : EResultCode × Option Message) : Prop :=
  nType = .kOT_SELECT → ∀ id table_name, pRequest = some (.select_command id table_name) →
    answer = selectAnswer pb tables table_name (table (table_name, id))

/-- An INSERT is of a row that the table does not have. -/
def InsertsNew (pb : Runtime) (table : Rows) (nType : EOperatorType)
    (pRequest : Option Message) : Prop :=
  nType = .kOT_INSERT → ∀ m szTableName nID vecFieldInfo, pRequest = some (.row m) →
    rowOf pb m = some (szTableName, nID, vecFieldInfo) → table (szTableName, nID) = none

namespace Store

variable {σ : Type}

/-- The cached records are what the database would answer, were all writes made. -/
def Coherent (pb : Runtime) (tables : Tables) (rows : σ → Rows) (st : Store σ) : Prop :=
  ∀ (szTableName : String) (nID : Nat) (sCacheInfo : SCacheInfo),
    st.m_dbCacheMgr.lookup nID (getMessageNameByTableName szTableName) = some sCacheInfo →
    Reads pb tables szTableName (st.meantRows pb tables rows (szTableName, nID)) sCacheInfo

/-- When a command leaves the cache coherent.  There is an index for its data name.  A SELECT
that finds a record finds one with all fields set that can be stored under the id and changes
nothing in the row it is meant for.  An UPDATE finds a record; with all fields set its message
can be stored, changes the row as the message does, and is what the row is read as then.  An
INSERT finds no record; if it enters one, the message is what its row is read as. -/
def ReadsBack (pb : Runtime) (tables : Tables) (rows : σ → Rows) (st : Store σ) :
    EOperatorType → Option Message → Prop
  | .kOT_SELECT, some (.select_command id table_name) =>
      st.m_dbCacheMgr.HasIndex (getMessageNameByTableName table_name) ∧
        ∀ sCacheInfo m,
          st.m_dbCacheMgr.lookup id (getMessageNameByTableName table_name) = some sCacheInfo →
          CDbCache.loadRecord pb (getMessageNameByTableName table_name) sCacheInfo.szData =
            some m →
          m.Full ∧ ∃ vecFieldInfo, Storable pb m table_name id vecFieldInfo ∧
            tables.upsert table_name vecFieldInfo
                (st.meantRows pb tables rows (table_name, id)) =
              st.meantRows pb tables rows (table_name, id)
  | .kOT_UPDATE, some (.row m) =>
      ∀ szTableName nID vecFieldInfo, Storable pb m szTableName nID vecFieldInfo →
        st.m_dbCacheMgr.lookup nID m.GetTypeName ≠ none ∧
        ∃ vecFilled, Storable pb m.filled szTableName nID vecFilled ∧
          tables.upsert szTableName vecFilled
              (st.meantRows pb tables rows (szTableName, nID)) =
            tables.upsert szTableName vecFieldInfo
              (st.meantRows pb tables rows (szTableName, nID)) ∧
          selectAnswer pb tables szTableName (tables.upsert szTableName vecFieldInfo
            (st.meantRows pb tables rows (szTableName, nID))) = (.kRC_OK, some (.row m.filled))
  | .kOT_INSERT, some (.row m) =>
      st.m_dbCacheMgr.HasIndex m.GetTypeName ∧
        ∀ szTableName nID vecFieldInfo, Storable pb m szTableName nID vecFieldInfo →
          st.m_dbCacheMgr.lookup nID m.GetTypeName = none ∧
          (st.m_dbCacheMgr.m_mapCache[nID]? = none →
            selectAnswer pb tables szTableName (tables.upsert szTableName vecFieldInfo none) =
              (.kRC_OK, some (.row m)))
  | .kOT_DELETE, some (.delete_command _ table_name) =>
      st.m_dbCacheMgr.HasIndex (getMessageNameByTableName table_name)
  | _, _ => True

/-- An action leaves the cache coherent: a command does, or its deadline is past. -/
def StaysCoherent (pb : Runtime) (tables : Tables) (rows : σ → Rows) (st : Store σ) :
    StoreAction → Prop
  | .command sDbCommand clock =>
      sDbCommand.isExpired clock.nCurTime = true ∨
        ReadsBack pb tables rows st sDbCommand.nType sDbCommand.pMessage
  | _ => True

/-- A SELECT shows the same with the cache and without. -/
def SameAnswer (action : StoreAction) (output output' : StoreOutput) : Prop :=
  ∀ sDbCommand clock, action = .command sDbCommand clock → sDbCommand.nType = .kOT_SELECT →
    output'.outcome = output.outcome

variable {pb : Runtime} {srv : Server σ} {tables : Tables} {rows : σ → Rows}
  {plain st plain' st' : Store σ}

/-- A record is read as the message it was made of. -/
theorem reads_of_answer (hpb : pb.Lawful) {szTableName : String} {row : Option Row}
    {m : RowMessage} {szData : Bytes} {nTime : Nat}
    (hanswer : selectAnswer pb tables szTableName row = (.kRC_OK, some (.row m)))
    (hdata : pb.SerializeToString (.row m) = some szData) :
    Reads pb tables szTableName row ⟨szData, nTime⟩ := by
  have hknown : pb.FindMessageTypeByName (getMessageNameByTableName szTableName) =
      some m.descriptor := by
    rcases selectAnswer_cases pb tables szTableName row with hnone | ⟨m', hsame, htype⟩
    · rw [hanswer] at hnone
      cases hnone
    · rw [hanswer] at hsame
      cases hsame
      exact (rowType_eq_some.mp htype).1
  have hholds : Holds pb (getMessageNameByTableName szTableName) szData m := ⟨hknown, hdata⟩
  exact ⟨m, hholds.load hpb, hanswer⟩

/-- **One record and one row changed:** the cache stays coherent when the record is what the
row is read as. -/
theorem Puts.coherent {szTableName : String} {nID : Nat} {info : Option SCacheInfo}
    {row : Option Row} (h : Puts pb tables rows st st' szTableName nID info row)
    (hcoherent : Coherent pb tables rows st)
    (hreads : ∀ sCacheInfo, info = some sCacheInfo →
      Reads pb tables szTableName row sCacheInfo) : Coherent pb tables rows st' := by
  intro szTableName' nID' sCacheInfo hlook
  rw [h.meant]
  by_cases hkey : (szTableName', nID') = (szTableName, nID)
  · cases hkey
    rw [h.record.self] at hlook
    rw [Function.update_self]
    exact hreads sCacheInfo hlook
  · have hne : ¬ (nID' = nID ∧ getMessageNameByTableName szTableName' =
        getMessageNameByTableName szTableName) := by
      intro hcase
      obtain ⟨rfl, hname⟩ := hcase
      exact hkey (by rw [getMessageNameByTableName_inj hname])
    rw [h.record.of_ne hne] at hlook
    rw [Function.update_of_ne hkey]
    exact hcoherent szTableName' nID' sCacheInfo hlook

/-- A tick forgets records at most. -/
theorem tick_lookup (st : Store σ) (nCurTime : Nat) (sample : Sample) (nID : Nat)
    (szDataName : String) :
    (st.step pb srv (.tick nCurTime sample)).1.m_dbCacheMgr.lookup nID szDataName =
        st.m_dbCacheMgr.lookup nID szDataName ∨
      (st.step pb srv (.tick nCurTime sample)).1.m_dbCacheMgr.lookup nID szDataName = none := by
  let cleaned := st.m_dbCacheMgr.cleanCache pb srv nCurTime sample st.m_dbConnection
  have hmgr : (st.step pb srv (.tick nCurTime sample)).1.m_dbCacheMgr =
      (cleaned.1.writeback pb srv nCurTime cleaned.2.2).1 := rfl
  have hcache : (cleaned.1.writeback pb srv nCurTime cleaned.2.2).1.m_mapCache[nID]? =
      cleaned.1.m_mapCache[nID]? := by
    rw [writeback_mapCache]
  rw [hmgr, (writeback_sameRecords pb srv cleaned.1 nCurTime cleaned.2.2).lookup hcache]
  rcases cleanCache_mapCache pb srv st.m_dbCacheMgr nCurTime sample st.m_dbConnection nID with
    hsame | hgone
  · exact .inl ((cleanCache_sameRecords pb srv st.m_dbCacheMgr nCurTime sample
      st.m_dbConnection).lookup hsame szDataName)
  · exact .inr (lookup_of_uncached hgone szDataName)

/-- **The store serves the table:** the table is what its database is meant to hold, and its
cached records are read from it. -/
structure Serves (pb : Runtime) (tables : Tables) (rows : σ → Rows) (st : Store σ)
    (table : Rows) : Prop extends Ready pb tables rows st where
  coherent : Coherent pb tables rows st
  meant : st.meantRows pb tables rows = table

theorem Puts.serves {szTableName : String} {nID : Nat} {info : Option SCacheInfo}
    {row : Option Row} (h : Puts pb tables rows st st' szTableName nID info row)
    {table : Rows} (hserves : Serves pb tables rows st table)
    (hreads : ∀ sCacheInfo, info = some sCacheInfo →
      Reads pb tables szTableName row sCacheInfo) :
    Serves pb tables rows st' (Function.update table (szTableName, nID) row) :=
  ⟨h.toReady, h.coherent hserves.coherent hreads, by rw [h.meant, hserves.meant]⟩

section Handled

variable (hsrv : srv.Keeps pb tables rows) {sets : RowMessage → Prop} {nType : EOperatorType}
  {pMessage : Option Message} (hcommand : RowCommand pb sets nType pMessage)

include hsrv hcommand

/-- A statement that succeeds is no lost connection. -/
theorem handle_ne_lost {conn : CDbConnection σ} (hopen : conn.isConnect = true)
    (hsucceeded : (CDbThread.handle pb srv nType pMessage conn).2.2.Succeeded) :
    (CDbThread.handle pb srv nType pMessage conn).1 ≠ .kRC_LOST_CONNECTION := by
  cases hcommand with
  | select id table_name =>
      rw [(handle_select hsrv hopen id table_name hsucceeded).1]
      exact selectAnswer_ne_lost pb tables table_name _
  | update m szTableName nID vecFieldInfo hm _ => exact (handle_update hsrv hopen hm hsucceeded).1
  | insert m szTableName nID vecFieldInfo hm _ => exact (handle_insert hsrv hopen hm hsucceeded).1
  | delete id table_name => exact (handle_delete hsrv hopen id table_name hsucceeded).1

/-- So the command is handled. -/
theorem execute_handled {nSetTime : Nat} (hopen : st.m_dbConnection.isConnect = true)
    (hsucceeded : (st.execute pb srv nType pMessage nSetTime).1.m_dbConnection.Succeeded) :
    ∃ answer : EResultCode × Option Message,
      (st.execute pb srv nType pMessage nSetTime).2 = .handled answer.1 answer.2 := by
  have hexecuted := execute_cases pb srv st nType pMessage nSetTime
  generalize st.execute pb srv nType pMessage nSetTime = result at hexecuted hsucceeded
  cases hexecuted with
  | absorbed pAnswer => exact ⟨(_, pAnswer), rfl⟩
  | lost _ _ _ conn _ hhandle =>
      have hne := handle_ne_lost hsrv hcommand hopen (by rwa [hhandle])
      rw [hhandle] at hne
      exact absurd rfl hne
  | answered _ pAnswer _ nErrorCode => exact ⟨(nErrorCode, pAnswer), rfl⟩

/-- **A store whose cache is switched off** does what a table does. -/
theorem plain_execute {nSetTime : Nat} (hdisabled : plain.m_dbCacheMgr.isDisabled = true)
    (hopen : plain.m_dbConnection.isConnect = true)
    (hsucceeded : (plain.execute pb srv nType pMessage nSetTime).1.m_dbConnection.Succeeded) :
    rows (plain.execute pb srv nType pMessage nSetTime).1.m_dbConnection.server =
        tableAfter pb tables (rows plain.m_dbConnection.server) nType pMessage ∧
      (∃ answer, (plain.execute pb srv nType pMessage nSetTime).2 = .handled answer.1 answer.2 ∧
        Answers pb tables (rows plain.m_dbConnection.server) nType pMessage answer) ∧
      InsertsNew pb (rows plain.m_dbConnection.server) nType pMessage := by
  rw [execute_disabled_conn hdisabled] at hsucceeded
  have hlost := handle_ne_lost hsrv hcommand hopen hsucceeded
  rw [execute_disabled hdisabled _ _ _ hlost]
  cases hcommand with
  | select id table_name =>
      obtain ⟨hcode, hmessage, hrows⟩ := handle_select hsrv hopen id table_name hsucceeded
      refine ⟨hrows, ⟨(_, _), rfl, ?_⟩, by simp [InsertsNew]⟩
      rintro _ _ _ ⟨⟩
      exact Prod.ext hcode hmessage
  | update m szTableName nID vecFieldInfo hm _ =>
      simp only [tableAfter, rowWrite, hm.rowOf, Option.map_some]
      exact ⟨(handle_update hsrv hopen hm hsucceeded).2, ⟨(_, _), rfl, by simp [Answers]⟩,
        by simp [InsertsNew]⟩
  | insert m szTableName nID vecFieldInfo hm _ =>
      obtain ⟨_, hnew, hrows⟩ := handle_insert hsrv hopen hm hsucceeded
      simp only [tableAfter, rowWrite, hm.rowOf, Option.map_some]
      refine ⟨hrows, ⟨(_, _), rfl, by simp [Answers]⟩, ?_⟩
      rintro _ _ _ _ _ ⟨⟩ hrow
      obtain ⟨rfl, rfl, rfl⟩ : szTableName = _ ∧ nID = _ ∧ vecFieldInfo = _ := by
        simpa [hm.rowOf] using hrow
      exact hnew
  | delete id table_name =>
      refine ⟨(handle_delete hsrv hopen id table_name hsucceeded).2.trans ?_,
        ⟨(_, _), rfl, by simp [Answers]⟩, by simp [InsertsNew]⟩
      simp only [tableAfter, rowWrite]
      cases (pb.rowType table_name).isSome <;> rfl

end Handled

section Serves

variable (hpb : pb.Lawful) (hsrv : srv.Keeps pb tables rows) {table : Rows}
  (hserves : Serves pb tables rows st table)

include hpb hsrv hserves

/-- **A tick** serves the same table. -/
theorem tick_serves (nCurTime : Nat) (sample : Sample)
    (hsucceeded : (st.step pb srv (.tick nCurTime sample)).1.m_dbConnection.Succeeded) :
    Serves pb tables rows (st.step pb srv (.tick nCurTime sample)).1 table := by
  obtain ⟨hready, hmeant⟩ := tick_ready hpb hsrv hserves.toReady nCurTime sample hsucceeded
  refine ⟨hready, ?_, hmeant.trans hserves.meant⟩
  intro szTableName nID sCacheInfo hlook
  rw [hmeant]
  rcases tick_lookup st nCurTime sample nID (getMessageNameByTableName szTableName) with
    hsame | hnone
  · exact hserves.coherent szTableName nID sCacheInfo (hsame ▸ hlook)
  · rw [hnone] at hlook
    cases hlook

variable {nSetTime : Nat} (htime : nSetTime ≠ 0)

include htime

/-- **SELECT** answers with the row of the table. -/
theorem select_serves {id : Nat} {table_name : String}
    (hback : ReadsBack pb tables rows st .kOT_SELECT (some (.select_command id table_name)))
    (hsucceeded : (st.execute pb srv .kOT_SELECT (some (.select_command id table_name))
      nSetTime).1.m_dbConnection.Succeeded) :
    (st.execute pb srv .kOT_SELECT (some (.select_command id table_name)) nSetTime).2 =
        .handled (selectAnswer pb tables table_name (table (table_name, id))).1
          (selectAnswer pb tables table_name (table (table_name, id))).2 ∧
      Serves pb tables rows
        (st.execute pb srv .kOT_SELECT (some (.select_command id table_name)) nSetTime).1
        table := by
  obtain ⟨hindex, hhit⟩ := hback
  have hrow : Function.update table (table_name, id) (table (table_name, id)) = table :=
    Function.update_eq_self _ _
  rw [← hrow]
  cases hlook : st.m_dbCacheMgr.lookup id (getMessageNameByTableName table_name) with
  | none =>
      obtain ⟨hanswer, info, hinfo, hputs⟩ := select_miss_puts hpb hserves.toReady hsrv hindex
        hlook hsucceeded
      rw [hserves.meant] at hanswer hinfo hputs
      refine ⟨by rw [hrow, hanswer], hputs.serves hserves ?_⟩
      intro sCacheInfo heq
      subst heq
      rcases hinfo with hnone | ⟨m, szData, hmessage, hdata, hentered⟩
      · cases hnone
      · cases hentered
        exact reads_of_answer hpb hmessage hdata
  | some sCacheInfo =>
      obtain ⟨m, hholds, _⟩ := hserves.caches.records _ _ _ hlook
      have hload := hholds.load hpb
      obtain ⟨hfull, vecFieldInfo, hm, hunchanged⟩ := hhit sCacheInfo m hlook hload
      have hfilled := filled_of_full hfull
      obtain ⟨hcached, szFilled, hdata, hputs⟩ := select_hit_puts hpb hserves.toReady htime hindex
        hlook hholds (hfilled.symm ▸ hm) hunchanged
      -- The record is what the row is read as, so the answer is the row's.
      obtain ⟨m', hload', hanswer⟩ := hserves.coherent table_name id sCacheInfo hlook
      rw [hload, Option.some.injEq] at hload'
      subst hload'
      rw [hserves.meant] at hanswer hputs
      refine ⟨by rw [hrow, hcached, hanswer], hputs.serves hserves ?_⟩
      intro _ heq
      cases heq
      rw [hfilled] at hdata
      exact reads_of_answer hpb hanswer hdata

/-- **A command on a row** that reads back does what a table does. -/
theorem execute_serves {sets : RowMessage → Prop} {nType : EOperatorType}
    {pMessage : Option Message} (hcommand : RowCommand pb sets nType pMessage)
    (hback : ReadsBack pb tables rows st nType pMessage)
    (hnew : InsertsNew pb table nType pMessage)
    (hsucceeded : (st.execute pb srv nType pMessage nSetTime).1.m_dbConnection.Succeeded) :
    Serves pb tables rows (st.execute pb srv nType pMessage nSetTime).1
        (tableAfter pb tables table nType pMessage) ∧
      ∃ answer, (st.execute pb srv nType pMessage nSetTime).2 = .handled answer.1 answer.2 ∧
        Answers pb tables table nType pMessage answer := by
  obtain ⟨answer, hanswer⟩ := execute_handled hsrv hcommand hserves.opened hsucceeded
  cases hcommand with
  | select id table_name =>
      obtain ⟨hselected, hserves'⟩ := select_serves hpb hsrv hserves htime hback hsucceeded
      refine ⟨hserves', _, hselected, ?_⟩
      rintro _ _ _ ⟨⟩
      rfl
  | update m szTableName nID vecFieldInfo hm _ =>
      obtain ⟨hcached, vecFilled, hfilled, hsame, hreads⟩ := hback _ _ _ hm
      obtain ⟨szFilled, hdata, hputs⟩ := @update_puts σ pb srv tables rows st hpb hserves.toReady
        nSetTime htime m szTableName nID vecFieldInfo vecFilled hm hfilled hcached hsame
      rw [hserves.meant] at hputs hreads
      simp only [tableAfter, rowWrite, hm.rowOf, Option.map_some]
      refine ⟨hputs.serves hserves ?_, answer, hanswer, by simp [Answers]⟩
      intro _ heq
      cases heq
      exact reads_of_answer hpb hreads hdata
  | insert m szTableName nID vecFieldInfo hm _ =>
      obtain ⟨hindex, hentered⟩ := hback
      obtain ⟨habsent, hreads⟩ := hentered _ _ _ hm
      have hrow := hnew rfl m szTableName nID vecFieldInfo rfl hm.rowOf
      rw [← hserves.meant] at hrow
      obtain ⟨info, hinfo, hputs⟩ := insert_puts hpb hserves.toReady hsrv hm hindex hrow hsucceeded
      simp only [tableAfter, rowWrite, hm.rowOf, Option.map_some]
      refine ⟨hputs.serves hserves ?_, answer, hanswer, by simp [Answers]⟩
      intro sCacheInfo heq
      subst heq
      rcases hinfo with hold | ⟨huncached, szData, hdata, heq⟩
      · rw [← hm.typeName, habsent] at hold
        cases hold
      · cases heq
        exact reads_of_answer hpb (hreads huncached) hdata
  | delete id table_name =>
      have hputs := delete_puts hpb hserves.toReady hsrv hback hsucceeded
      rw [hserves.meant] at hputs
      have hserves' := hputs.serves hserves fun _ heq => by cases heq
      refine ⟨?_, answer, hanswer, by simp [Answers]⟩
      simp only [tableAfter, rowWrite]
      cases htype : (pb.rowType table_name).isSome with
      | true =>
          rw [htype, if_pos rfl] at hserves'
          rwa [if_pos rfl]
      | false =>
          rw [htype, if_neg Bool.false_ne_true, Function.update_eq_self] at hserves'
          rwa [if_neg Bool.false_ne_true]

end Serves

/-- A store with an empty cache serves the rows of the database. -/
theorem init_serves (pb : Runtime) (tables : Tables) (rows : σ → Rows) {nMaxCacheSize : Nat}
    (hlimit : 0 < toInt64 nMaxCacheSize) (nWritebackTime : Nat) {conn : CDbConnection σ}
    (hopen : conn.isConnect = true) :
    Serves pb tables rows (init nMaxCacheSize nWritebackTime conn) (rows conn.server) := by
  have hnone : ∀ key, (CDbCacheMgr.init nMaxCacheSize nWritebackTime).pending pb tables key =
      none := by
    intro key
    simp [pending, lookup, CDbCacheMgr.init]
  have hsettled : ∀ key, WriteBack.Settled
      ((CDbCacheMgr.init nMaxCacheSize nWritebackTime).pending pb tables) (rows conn.server) key :=
    fun key => WriteBack.settled_of_none (hnone key)
  refine ⟨⟨init_caches pb hlimit nWritebackTime, hopen, fun key _ => hsettled key⟩, ?_,
    WriteBack.meant_of_settled hsettled⟩
  intro szTableName nID sCacheInfo hlook
  simp [init, lookup, CDbCacheMgr.init] at hlook

section Steps

variable (hpb : pb.Lawful) (hsrv : srv.Keeps pb tables rows)
  (hfollows : Follows pb tables rows plain st) (hcoherent : Coherent pb tables rows st)

include hpb hsrv hfollows hcoherent

theorem tick_coherent (nCurTime : Nat) (sample : Sample)
    (hsucceeded : (st.step pb srv (.tick nCurTime sample)).1.m_dbConnection.Succeeded) :
    Follows pb tables rows (plain.step pb srv (.tick nCurTime sample)).1
        (st.step pb srv (.tick nCurTime sample)).1 ∧
      Coherent pb tables rows (st.step pb srv (.tick nCurTime sample)).1 :=
  ⟨tick_follows hpb hsrv hfollows nCurTime sample hsucceeded,
    (tick_serves hpb hsrv ⟨hfollows.ready, hcoherent, rfl⟩ nCurTime sample hsucceeded).coherent⟩

variable {nSetTime : Nat} (htime : nSetTime ≠ 0)

include htime

/-- **A command on a row** that reads back leaves the cache coherent, and a SELECT answers the
same. -/
theorem execute_coherent {sets : RowMessage → Prop} {nType : EOperatorType}
    {pMessage : Option Message} (hcommand : RowCommand pb sets nType pMessage)
    (hback : ReadsBack pb tables rows st nType pMessage)
    (hsucceeded : (plain.execute pb srv nType pMessage nSetTime).1.m_dbConnection.Succeeded)
    (hsucceeded' : (st.execute pb srv nType pMessage nSetTime).1.m_dbConnection.Succeeded) :
    (nType = .kOT_SELECT → (st.execute pb srv nType pMessage nSetTime).2 =
        (plain.execute pb srv nType pMessage nSetTime).2) ∧
      Follows pb tables rows (plain.execute pb srv nType pMessage nSetTime).1
        (st.execute pb srv nType pMessage nSetTime).1 ∧
      Coherent pb tables rows (st.execute pb srv nType pMessage nSetTime).1 := by
  obtain ⟨hrows, ⟨answer, hanswer, hanswers⟩, hnew⟩ := plain_execute hsrv hcommand
    hfollows.disabled hfollows.plainOpen hsucceeded
  obtain ⟨hserves, answer', hanswer', hanswers'⟩ := execute_serves hpb hsrv
    ⟨hfollows.ready, hcoherent, hfollows.meant⟩ htime hcommand hback hnew hsucceeded'
  refine ⟨?_, ⟨?_, ?_, hserves.caches, hserves.opened, hserves.covered,
    hserves.meant.trans hrows.symm⟩, hserves.coherent⟩
  · intro hselect
    cases hcommand with
    | select id table_name =>
        rw [hanswer, hanswer', hanswers hselect id table_name rfl,
          hanswers' hselect id table_name rfl]
    | _ => cases hselect
  · exact (kept_isDisabled pb true).executed (fun _ _ => trivial)
      (execute_cases pb srv plain nType pMessage nSetTime) hfollows.disabled
  · rw [execute_disabled_conn hfollows.disabled]
    exact (isConnect_keptBySent srv true).handle pb hfollows.plainOpen _ _

end Steps

/-- **A step that stays coherent** keeps the stores together, and a SELECT shows the same. -/
theorem step_coherent (hpb : pb.Lawful) (hsrv : srv.Keeps pb tables rows)
    (h : Follows pb tables rows plain st ∧ Coherent pb tables rows st)
    {sets : RowMessage → Prop} {action : StoreAction} (hrows : OnRows pb sets action)
    (hback : StaysCoherent pb tables rows st action)
    (hsucceeded : (plain.step pb srv action).1.m_dbConnection.Succeeded)
    (hsucceeded' : (st.step pb srv action).1.m_dbConnection.Succeeded) :
    (Follows pb tables rows (plain.step pb srv action).1 (st.step pb srv action).1 ∧
        Coherent pb tables rows (st.step pb srv action).1) ∧
      SameAnswer action (plain.step pb srv action).2 (st.step pb srv action).2 := by
  obtain ⟨hfollows, hcoherent⟩ := h
  cases action with
  | command sDbCommand clock =>
      obtain ⟨htime, hcommand⟩ := hrows
      have htype := hcommand.ne_flush
      cases hexpired : sDbCommand.isExpired clock.nCurTime with
      | true =>
          simp only [step, process_expired pb srv htype hexpired]
          exact ⟨⟨hfollows, hcoherent⟩, fun _ _ _ _ => rfl⟩
      | false =>
          have hcommandBack := hback.resolve_left (by simp [hexpired])
          simp only [step, process_executed pb srv htype hexpired] at hsucceeded hsucceeded' ⊢
          obtain ⟨hsame, hboth⟩ := execute_coherent hpb hsrv hfollows hcoherent htime hcommand
            hcommandBack hsucceeded hsucceeded'
          refine ⟨hboth, ?_⟩
          intro _ _ heq hselect
          cases heq
          exact congrArg some (hsame hselect)
  | tick nCurTime sample =>
      refine ⟨tick_coherent hpb hsrv hfollows hcoherent nCurTime sample hsucceeded', ?_⟩
      intro _ _ heq
      cases heq
  | finish => exact hrows.elim

end Store

/-- **Read coherence.**  When every statement succeeds and every action leaves the cache
coherent, each SELECT has the same outcome, code and record, as when the same actions run with
the cache switched off. -/
theorem selects_answer_alike {σ : Type} {pb : Runtime} {srv : Server σ} {tables : Tables}
    {rows : σ → Rows} (hpb : pb.Lawful) (hsrv : srv.Keeps pb tables rows)
    {nMaxCacheSize : Nat} (hlimit : 0 < toInt64 nMaxCacheSize) (nWritebackTime : Nat)
    {conn : CDbConnection σ} (hopen : conn.isConnect = true) {actions : List StoreAction}
    (hrows : ∀ action ∈ actions, Store.OnRows pb SetsKey action)
    (hback : Runs.Guarded (Store.step pb srv) (Store.StaysCoherent pb tables rows)
      (Store.init nMaxCacheSize nWritebackTime conn) actions)
    (hplain : (Runs.run (Store.step pb srv) (Store.init 0 nWritebackTime conn)
      actions).m_dbConnection.Succeeded)
    (hcached : (Runs.run (Store.step pb srv) (Store.init nMaxCacheSize nWritebackTime conn)
      actions).m_dbConnection.Succeeded)
    {i : Nat} {sDbCommand : SDbCommand} {clock : Clock}
    (hi : actions[i]? = some (.command sDbCommand clock))
    (hselect : sDbCommand.nType = .kOT_SELECT) :
    ∃ output output',
      (Runs.outputs (Store.step pb srv) (Store.init 0 nWritebackTime conn) actions)[i]? =
        some output ∧
      (Runs.outputs (Store.step pb srv) (Store.init nMaxCacheSize nWritebackTime conn)
        actions)[i]? = some output' ∧
      output'.outcome = output.outcome := by
  have hempty : Store.Coherent pb tables rows (Store.init nMaxCacheSize nWritebackTime conn) := by
    intro szTableName nID sCacheInfo hlook
    simp [Store.init, lookup, CDbCacheMgr.init] at hlook
  obtain ⟨_, houts⟩ := Store.simulation_of_succeeded Store.SameAnswer
    (fun _ _ _ h hok hs hs' => Store.step_coherent hpb hsrv h hok.1 hok.2 hs hs')
    ⟨Store.init_follows pb tables rows hlimit nWritebackTime hopen, hempty⟩
    (hback.and_forall hrows) hplain hcached
  obtain ⟨hlt, haction⟩ := List.getElem?_eq_some_iff.mp hi
  obtain ⟨output, output', houtput, houtput', hsame⟩ := houts i hlt
  exact ⟨output, output', houtput, houtput', hsame sDbCommand clock haction hselect⟩

/-! ## Player 5 -/

/-- SELECT of player 5. -/
def readPlayer : StoreAction :=
  .command ⟨0, .kOT_SELECT, 0, 0, some (.select_command 5 "player_base")⟩ ⟨1, 1⟩

theorem readPlayer_onRows (sets : RowMessage → Prop) :
    Store.OnRows PlayerBase.runtime sets readPlayer :=
  ⟨by decide, .select 5 "player_base"⟩

/-- Player 5 is stored in one way. -/
theorem player_storable_unique {szName : Bytes} {szTableName : String} {nID : Nat}
    {vecFieldInfo : List SFieldInfo}
    (h : Storable PlayerBase.runtime (PlayerBase.player 5 szName) szTableName nID vecFieldInfo) :
    szTableName = "player_base" ∧ nID = 5 ∧ vecFieldInfo = playerInfos szName := by
  refine ⟨?_, ?_, ?_⟩
  · have hname : getMessageNameByTableName "player_base" =
        getMessageNameByTableName szTableName := h.typeName
    exact (getMessageNameByTableName_inj hname).symm
  · have hid : some 5 = some nID := h.id
    exact (Option.some.inj hid).symm
  · have hinfos : some (playerInfos szName) = some vecFieldInfo := h.infos
    exact (Option.some.inj hinfos).symm

/-- The record of player 5 is read as player 5. -/
theorem player_load {szName szData : Bytes}
    (hdata : PlayerBase.runtime.SerializeToString (.row (PlayerBase.player 5 szName)) =
      some szData) :
    CDbCache.loadRecord PlayerBase.runtime (getMessageNameByTableName "player_base") szData =
      some (PlayerBase.player 5 szName) :=
  Holds.load PlayerBase.runtime_lawful ⟨rfl, hdata⟩

/-- So is its row, unless the name has a NUL byte. -/
theorem player_answer {szName : Bytes} (hname : cstr szName = szName) (row : Option Row) :
    selectAnswer PlayerBase.runtime playerTables "player_base"
        (playerTables.upsert "player_base" (playerInfos szName) row) =
      (.kRC_OK, some (.row (PlayerBase.player 5 szName))) := by
  have hanswer : selectAnswer PlayerBase.runtime playerTables "player_base"
        (playerTables.upsert "player_base" (playerInfos szName) row) =
      (.kRC_OK, some (.row (PlayerBase.player 5 (cstr szName)))) := rfl
  rw [hanswer, hname]

/-- Player 5 is inserted as 97, updated to 98 in the cache and read from it. -/
theorem select_after_player_update :
    let actions := [writePlayer .kOT_INSERT [97], writePlayer .kOT_UPDATE [98], readPlayer]
    ∃ output output',
      (Runs.outputs (Store.step PlayerBase.runtime playerServer) (Store.init 0 60 noPlayers)
        actions)[2]? = some output ∧
      (Runs.outputs (Store.step PlayerBase.runtime playerServer) (Store.init 1000 60 noPlayers)
        actions)[2]? = some output' ∧
      output'.outcome = output.outcome := by
  refine selects_answer_alike PlayerBase.runtime_lawful
    (TableServer.server_keeps PlayerBase.runtime playerTables) (by decide) 60 rfl ?_ ?_
    (by decide) (by decide) rfl rfl
  · intro action hin
    simp only [List.mem_cons, List.not_mem_nil, or_false] at hin
    rcases hin with rfl | rfl | rfl
    · exact writePlayer_onRows (.inl rfl) (by decide) rfl
    · exact writePlayer_onRows (.inr rfl) (by decide) rfl
    · exact readPlayer_onRows SetsKey
  · refine ⟨.inr ⟨.inr (by decide), ?_⟩, .inr ?_, .inr ⟨.inl (by decide), ?_⟩, trivial⟩
    · intro szTableName nID vecFieldInfo hm
      obtain ⟨rfl, rfl, rfl⟩ := player_storable_unique hm
      exact ⟨by decide, fun _ => player_answer (by decide) none⟩
    · intro szTableName nID vecFieldInfo hm
      obtain ⟨rfl, rfl, rfl⟩ := player_storable_unique hm
      have hfilled : (PlayerBase.player 5 [98]).filled = PlayerBase.player 5 [98] :=
        filled_of_full (player_full [98])
      exact ⟨by decide, playerInfos [98], hfilled.symm ▸ hm, rfl,
        hfilled.symm ▸ player_answer (by decide) _⟩
    · intro sCacheInfo m hlook hload
      have hstored : (Runs.run (Store.step PlayerBase.runtime playerServer)
          (Store.init 1000 60 noPlayers)
          [writePlayer .kOT_INSERT [97], writePlayer .kOT_UPDATE [98]]).m_dbCacheMgr.lookup 5
            (getMessageNameByTableName "player_base") =
          some ⟨[13, 5, 0, 0, 0, 18, 1, 98], 1⟩ := by decide
      obtain rfl := Option.some.inj (hstored.symm.trans hlook)
      obtain rfl : PlayerBase.player 5 [98] = m :=
        Option.some.inj ((player_load (by decide)).symm.trans hload)
      have hm := player_storable (show [98].length < 128 by decide)
      exact ⟨player_full [98], playerInfos [98], hm, Store.upsert_of_modified
        PlayerBase.runtime_lawful playerTables TableServer.rows hm hlook ⟨rfl, by decide⟩
        (by decide)⟩

/-- The name that an answer sets. -/
def answeredName : Option Outcome → Option Value
  | some (.handled _ (some (.row m))) => m.value "name"
  | _ => none

/-- A SELECT of a missing player, its INSERT, and a SELECT, which finds the empty message of
the first. -/
theorem stale_placeholder_read :
    ¬ ∀ (σ : Type) (pb : Runtime) (srv : Server σ) (tables : Tables) (rows : σ → Rows)
        (nMaxCacheSize nWritebackTime : Nat) (conn : CDbConnection σ)
        (actions : List StoreAction) (i : Nat) (sDbCommand : SDbCommand) (clock : Clock),
      pb.Lawful → srv.Keeps pb tables rows → 0 < toInt64 nMaxCacheSize →
      conn.isConnect = true → (∀ action ∈ actions, Store.OnRows pb SetsKey action) →
      (Runs.run (Store.step pb srv) (Store.init 0 nWritebackTime conn)
        actions).m_dbConnection.Succeeded →
      (Runs.run (Store.step pb srv) (Store.init nMaxCacheSize nWritebackTime conn)
        actions).m_dbConnection.Succeeded →
      actions[i]? = some (.command sDbCommand clock) → sDbCommand.nType = .kOT_SELECT →
      ∃ output output',
        (Runs.outputs (Store.step pb srv) (Store.init 0 nWritebackTime conn) actions)[i]? =
          some output ∧
        (Runs.outputs (Store.step pb srv) (Store.init nMaxCacheSize nWritebackTime conn)
          actions)[i]? = some output' ∧
        output'.outcome = output.outcome := by
  intro h
  obtain ⟨output, output', houtput, houtput', hsame⟩ := h TableServer.State
    PlayerBase.runtime playerServer playerTables TableServer.rows 1000 60 noPlayers
    [readPlayer, writePlayer .kOT_INSERT [97], readPlayer] 2 _ _
    PlayerBase.runtime_lawful (TableServer.server_keeps PlayerBase.runtime playerTables)
    (by decide) rfl
    (by
      intro action hin
      simp only [List.mem_cons, List.not_mem_nil, or_false] at hin
      rcases hin with rfl | rfl | rfl
      · exact readPlayer_onRows SetsKey
      · exact writePlayer_onRows (.inl rfl) (by decide) rfl
      · exact readPlayer_onRows SetsKey)
    (by decide) (by decide) rfl rfl
  obtain rfl := Option.some.inj houtput
  obtain rfl := Option.some.inj houtput'
  have hname := congrArg answeredName hsame
  revert hname
  decide

end Db
