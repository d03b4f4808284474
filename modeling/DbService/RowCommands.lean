import DbService.PendingRows

/-!
# Commands on one row, with the cache and without

SELECT, UPDATE, INSERT and DELETE change one record of the cache and one of the rows that the
database is meant to hold (`Puts`).  A store with its cache follows one without: the rows its
database is meant to hold are the rows of the other (`Follows`).  So what each of the four does
to both is one statement: the stores still follow each other, one record of the cache changed and
one row (`Moves`).

* `update_puts`, `select_hit_puts`, `insert_puts`, `delete_puts`, `select_miss_puts` -- what a
  command does to the store with the cache;
* `update_follows`, `select_hit_follows`, `insert_follows`, `delete_follows`,
  `select_miss_follows` -- and that the store without it follows.
-/

namespace Db

open Reflection ByteText CDbCacheMgr

namespace Store

variable {σ : Type}

/-- The rows the database of a store is meant to hold. -/
def meantRows (pb : Runtime) (tables : Tables) (rows : σ → Rows) (st : Store σ) : Rows :=
  WriteBack.meant (st.m_dbCacheMgr.pending pb tables) (rows st.m_dbConnection.server)

/-- The cache is on and in order, and what it owes the database is scheduled. -/
structure Ready (pb : Runtime) (tables : Tables) (rows : σ → Rows) (st : Store σ) : Prop where
  caches : Caches pb st.m_dbCacheMgr
  opened : st.m_dbConnection.isConnect = true
  covered : Covered pb tables st.m_dbCacheMgr (rows st.m_dbConnection.server)

/-- What a command on the row `nID` of a table does to a store: the record of the row became
`info`, and the row it is meant for `row`. -/
structure Puts (pb : Runtime) (tables : Tables) (rows : σ → Rows) (st st' : Store σ)
    (szTableName : String) (nID : Nat) (info : Option SCacheInfo) (row : Option Row) : Prop
    extends Ready pb tables rows st' where
  record : LookupSet st.m_dbCacheMgr st'.m_dbCacheMgr nID
    (getMessageNameByTableName szTableName) info
  meant : st'.meantRows pb tables rows =
    Function.update (st.meantRows pb tables rows) (szTableName, nID) row

/-- **The simulation.**  `plain` has its cache switched off; `st` is meant to hold its rows. -/
structure Follows (pb : Runtime) (tables : Tables) (rows : σ → Rows) (plain st : Store σ) :
    Prop where
  disabled : plain.m_dbCacheMgr.isDisabled = true
  plainOpen : plain.m_dbConnection.isConnect = true
  caches : Caches pb st.m_dbCacheMgr
  opened : st.m_dbConnection.isConnect = true
  covered : Covered pb tables st.m_dbCacheMgr (rows st.m_dbConnection.server)
  meant : st.meantRows pb tables rows = rows plain.m_dbConnection.server

/-- What a command on the row `nID` of a table does to a store with its cache and to the one
it follows: the record of the row became `info`, the row `row`. -/
structure Moves (pb : Runtime) (tables : Tables) (rows : σ → Rows) (plain st plain' st' : Store σ)
    (szTableName : String) (nID : Nat) (info : Option SCacheInfo) (row : Option Row) :
    Prop where
  follows : Follows pb tables rows plain' st'
  record : LookupSet st.m_dbCacheMgr st'.m_dbCacheMgr nID
    (getMessageNameByTableName szTableName) info
  row : rows plain'.m_dbConnection.server =
    Function.update (rows plain.m_dbConnection.server) (szTableName, nID) row

variable {pb : Runtime} {srv : Server σ} {tables : Tables} {rows : σ → Rows}
  {plain st : Store σ}

theorem meantRows_congr {st' : Store σ}
    (hpending : st'.m_dbCacheMgr.pending pb tables = st.m_dbCacheMgr.pending pb tables)
    (hrows : rows st'.m_dbConnection.server = rows st.m_dbConnection.server) :
    st'.meantRows pb tables rows = st.meantRows pb tables rows := by
  unfold meantRows
  rw [hpending, hrows]

theorem Follows.ready (h : Follows pb tables rows plain st) : Ready pb tables rows st :=
  ⟨h.caches, h.opened, h.covered⟩

/-- A store that follows another still does when the same row is put into both. -/
theorem Puts.moves {plain' st' : Store σ} {szTableName : String} {nID : Nat}
    {info : Option SCacheInfo} {row : Option Row}
    (h : Puts pb tables rows st st' szTableName nID info row)
    (hfollows : Follows pb tables rows plain st)
    (hdisabled : plain'.m_dbCacheMgr.isDisabled = true)
    (hopen : plain'.m_dbConnection.isConnect = true)
    (hrow : rows plain'.m_dbConnection.server =
      Function.update (rows plain.m_dbConnection.server) (szTableName, nID) row) :
    Moves pb tables rows plain st plain' st' szTableName nID info row where
  follows := ⟨hdisabled, hopen, h.caches, h.opened, h.covered,
    by rw [h.meant, hfollows.meant, hrow]⟩
  record := h.record
  row := hrow

/-- A store without a cache runs the handler. -/
theorem execute_disabled (hdisabled : plain.m_dbCacheMgr.isDisabled = true)
    (nType : EOperatorType) (pRequest : Option Message) (nSetTime : Nat)
    (hcode : (CDbThread.handle pb srv nType pRequest plain.m_dbConnection).1 ≠
      .kRC_LOST_CONNECTION) :
    plain.execute pb srv nType pRequest nSetTime =
      (⟨plain.m_dbCacheMgr, (CDbThread.handle pb srv nType pRequest plain.m_dbConnection).2.2⟩,
        .handled (CDbThread.handle pb srv nType pRequest plain.m_dbConnection).1
          (CDbThread.handle pb srv nType pRequest plain.m_dbConnection).2.1) := by
  unfold execute
  rw [CDbThread.onPreCache_disabled hdisabled]
  simp only [if_neg hcode, CDbThread.onPostCache, hdisabled, if_true]

/-- So its connection is the handler's, also when that is lost. -/
theorem execute_disabled_conn (hdisabled : plain.m_dbCacheMgr.isDisabled = true)
    (nType : EOperatorType) (pRequest : Option Message) (nSetTime : Nat) :
    (plain.execute pb srv nType pRequest nSetTime).1.m_dbConnection =
      (CDbThread.handle pb srv nType pRequest plain.m_dbConnection).2.2 := by
  unfold execute
  rw [CDbThread.onPreCache_disabled hdisabled]
  simp only
  split <;> rfl

/-- When the pre-step does not answer, the connection is the handler's too. -/
theorem execute_conn {nType : EOperatorType} {pRequest : Option Message} {nSetTime : Nat}
    {pMessage : Option Message} {mgr : CDbCacheMgr}
    (hpre : CDbThread.onPreCache pb st.m_dbCacheMgr nType pRequest nSetTime =
      (false, pMessage, mgr)) :
    (st.execute pb srv nType pRequest nSetTime).1.m_dbConnection =
      (CDbThread.handle pb srv nType pRequest st.m_dbConnection).2.2 := by
  unfold execute
  rw [hpre]
  simp only
  split <;> rfl

theorem execute_answered {nType : EOperatorType} {pRequest : Option Message} {nSetTime : Nat}
    {pMessage : Option Message} {mgr : CDbCacheMgr}
    (hpre : CDbThread.onPreCache pb st.m_dbCacheMgr nType pRequest nSetTime =
      (false, pMessage, mgr))
    (hcode : (CDbThread.handle pb srv nType pRequest st.m_dbConnection).1 ≠
      .kRC_LOST_CONNECTION) :
    st.execute pb srv nType pRequest nSetTime =
      (⟨CDbThread.onPostCache pb mgr nType pRequest
          (CDbThread.handle pb srv nType pRequest st.m_dbConnection).2.1 nSetTime,
          (CDbThread.handle pb srv nType pRequest st.m_dbConnection).2.2⟩,
        .handled (CDbThread.handle pb srv nType pRequest st.m_dbConnection).1
          (CDbThread.handle pb srv nType pRequest st.m_dbConnection).2.1) := by
  unfold execute
  rw [hpre]
  simp only [if_neg hcode]

/-- A message with all fields set changes the row in the database and the row it is meant to
hold alike. -/
theorem upsert_meantRows (hpb : pb.Lawful) (hcaches : Caches pb st.m_dbCacheMgr)
    {m : RowMessage} {szTableName : String} {nID : Nat} {vecFieldInfo : List SFieldInfo}
    (hm : Storable pb m szTableName nID vecFieldInfo) (hfull : m.Full) :
    tables.upsert szTableName vecFieldInfo (st.meantRows pb tables rows (szTableName, nID)) =
      tables.upsert szTableName vecFieldInfo
        (rows st.m_dbConnection.server (szTableName, nID)) := by
  unfold meantRows
  rcases hcaches.pending_cases hpb tables szTableName nID with
    hnone | ⟨_, m', vecFieldInfo', _, _, _, _, hm', hpending⟩
  · rw [WriteBack.meant_of_none hnone]
  · rw [WriteBack.meant_of_some hpending]
    have hd : m.descriptor = m'.descriptor :=
      Option.some.inj (hm.rowType.symm.trans hm'.rowType)
    exact upsert_upsert_of_full hm.infos hm'.infos hfull hd _

/-- Writing a modified record changes nothing in the row it is meant for. -/
theorem upsert_of_modified (hpb : pb.Lawful) (tables : Tables) (rows : σ → Rows)
    {m : RowMessage} {szTableName : String} {nID : Nat} {vecFieldInfo : List SFieldInfo}
    (hm : Storable pb m szTableName nID vecFieldInfo) {sCacheInfo : SCacheInfo}
    (hlook : st.m_dbCacheMgr.lookup nID (getMessageNameByTableName szTableName) =
      some sCacheInfo)
    (hholds : Holds pb (getMessageNameByTableName szTableName) sCacheInfo.szData m)
    (hmodified : sCacheInfo.nTime ≠ 0) :
    tables.upsert szTableName vecFieldInfo (st.meantRows pb tables rows (szTableName, nID)) =
      st.meantRows pb tables rows (szTableName, nID) := by
  have hpending : st.m_dbCacheMgr.pending pb tables (szTableName, nID) =
      some (tables.upsert szTableName vecFieldInfo) := by
    simp only [pending, hlook, Option.bind_some]
    exact owedWrite_eq hpb hm hholds hmodified
  unfold meantRows
  rw [WriteBack.meant_of_some hpending]
  exact upsert_upsert_self tables szTableName vecFieldInfo _

/-- What a state keeps when one record became modified: the write is owed. -/
theorem Ready.absorb (hpb : pb.Lawful) (hready : Ready pb tables rows st)
    {m : RowMessage} {szTableName : String} {nID nTime : Nat} {vecFieldInfo : List SFieldInfo}
    {szData : Bytes} (hm : Storable pb m szTableName nID vecFieldInfo) (hfull : m.Full)
    (hdata : pb.SerializeToString (.row m) = some szData) (htime : nTime ≠ 0)
    {mgr : CDbCacheMgr} (henabled : mgr.isDisabled = false) (hwf : WellFormed mgr)
    (haligned : Aligned mgr) (hnamed : Named mgr)
    (hdirty : KeepsDirty st.m_dbCacheMgr mgr) (hscheduled : mgr.m_mapDirtyCache[nID]? ≠ none)
    (hlookup : LookupSet st.m_dbCacheMgr mgr nID (getMessageNameByTableName szTableName)
      (some ⟨szData, nTime⟩)) :
    Caches pb mgr ∧ Covered pb tables mgr (rows st.m_dbConnection.server) ∧
      WriteBack.meant (mgr.pending pb tables) (rows st.m_dbConnection.server) =
        Function.update (st.meantRows pb tables rows) (szTableName, nID)
          (tables.upsert szTableName vecFieldInfo
            (st.meantRows pb tables rows (szTableName, nID))) := by
  have hholds : Holds pb (getMessageNameByTableName szTableName) szData m :=
    ⟨(rowType_eq_some.mp hm.rowType).1, hdata⟩
  obtain ⟨hother, hself⟩ := hlookup.pending pb tables
  have howed : mgr.pending pb tables (szTableName, nID) =
      some (tables.upsert szTableName vecFieldInfo) :=
    hself.trans (owedWrite_eq hpb hm hholds htime)
  refine ⟨⟨henabled, hwf, haligned, hnamed, ?_⟩, ?_, ?_⟩
  · intro nID' szDataName' sCacheInfo' hlook
    rw [hlookup nID' szDataName'] at hlook
    split at hlook
    · rename_i hkey
      obtain rfl := Option.some.inj hlook
      refine ⟨m, ?_, fun _ => ⟨hfull, szTableName, vecFieldInfo, hkey.2, ?_⟩⟩
      · rw [hkey.2]
        exact hholds
      · rw [hkey.1]
        exact hm
    · exact hready.caches.records _ _ _ hlook
  · intro key hnone
    obtain ⟨szTableName', nID'⟩ := key
    have hne : (szTableName', nID') ≠ (szTableName, nID) := by
      intro heq
      cases heq
      exact hscheduled hnone
    have hold : st.m_dbCacheMgr.m_mapDirtyCache[nID']? = none := by
      by_contra hin
      exact hdirty nID' hin hnone
    have hsettled := hready.covered (szTableName', nID') hold
    unfold WriteBack.Settled at *
    rw [← hsettled]
    exact WriteBack.meant_congr (hother _ hne) rfl
  · rw [WriteBack.meant_absorb hother howed, upsert_meantRows hpb hready.caches hm hfull]
    rfl

/-- What a state keeps when a record was entered as unmodified, or none was: nothing is owed
for it. -/
theorem enter_caches (pb : Runtime) (tables : Tables) {old mgr : CDbCacheMgr}
    (hcaches : Caches pb old) {m : RowMessage} {szTableName : String} {nID : Nat}
    (hknown : pb.FindMessageTypeByName (getMessageNameByTableName szTableName) =
      some m.descriptor)
    (hnone : old.pending pb tables (szTableName, nID) = none)
    (henabled : mgr.isDisabled = false) (hwf : WellFormed mgr) (haligned : Aligned mgr)
    (hnamed : Named mgr)
    (hview : mgr.lookup = old.lookup ∨
      ∃ szData, pb.SerializeToString (.row m) = some szData ∧
        LookupSet old mgr nID (getMessageNameByTableName szTableName) (some ⟨szData, 0⟩)) :
    Caches pb mgr ∧ mgr.pending pb tables = old.pending pb tables := by
  rcases hview with hsame | ⟨szData, hdata, hlookup⟩
  · refine ⟨⟨henabled, hwf, haligned, hnamed, ?_⟩, pending_congr hsame⟩
    rw [hsame]
    exact hcaches.records
  · refine ⟨⟨henabled, hwf, haligned, hnamed, ?_⟩, hlookup.pending_same ?_⟩
    · intro nID' szDataName' sCacheInfo' hlook
      rw [hlookup nID' szDataName'] at hlook
      split at hlook
      · rename_i hkey
        obtain rfl := Option.some.inj hlook
        refine ⟨m, ?_, fun hmodified => absurd rfl hmodified⟩
        rw [hkey.2]
        exact ⟨hknown, hdata⟩
      · exact hcaches.records _ _ _ hlook
    · rw [hnone]
      exact owedWrite_of_unmodified rfl szTableName

/-- The same writes, on the ids that are still scheduled. -/
theorem covered_of_same {old mgr : CDbCacheMgr} {stored : Rows}
    (hpending : mgr.pending pb tables = old.pending pb tables) (hdirty : KeepsDirty old mgr)
    (h : Covered pb tables old stored) : Covered pb tables mgr stored := by
  intro key hnone
  rw [hpending]
  apply h key
  by_contra hin
  exact hdirty key.2 hin hnone

/-- A row put past the cache, with no write pending for it afterwards. -/
theorem covered_of_pass {old mgr : CDbCacheMgr} {stored : Rows} {key : String × Nat}
    (hother : ∀ key', key' ≠ key → mgr.pending pb tables key' = old.pending pb tables key')
    (hself : mgr.pending pb tables key = none) (hdirty : KeepsDirty old mgr)
    (h : Covered pb tables old stored) (row : Option Row) :
    Covered pb tables mgr (Function.update stored key row) := by
  intro key' hnone
  by_cases heq : key' = key
  · rw [heq]
    exact WriteBack.settled_of_none hself
  · have hold : old.m_mapDirtyCache[key'.2]? = none := by
      by_contra hin
      exact hdirty key'.2 hin hnone
    have hsettled := h key' hold
    unfold WriteBack.Settled at *
    rw [Function.update_of_ne heq, ← hsettled]
    exact WriteBack.meant_congr (hother key' heq) (Function.update_of_ne heq ..)

/-- Taking a record out leaves a cache of readable records. -/
theorem delData_caches {mgr : CDbCacheMgr} (h : Caches pb mgr) {nID : Nat} {szDataName : String}
    (hnamed : (mgr.delData nID szDataName).2.Named)
    (hlookup : mgr.LookupSet (mgr.delData nID szDataName).2 nID szDataName none) :
    Caches pb (mgr.delData nID szDataName).2 where
  enabled := (kept_isDisabled pb false).delData mgr nID szDataName trivial h.enabled
  wellFormed := (kept_wellFormed pb).delData mgr nID szDataName trivial h.wellFormed
  aligned := (kept_aligned pb).delData mgr nID szDataName trivial h.aligned
  named := hnamed
  records := by
    intro nID' szDataName' sCacheInfo' hlook
    rw [hlookup nID' szDataName'] at hlook
    split at hlook
    · cases hlook
    · exact h.records _ _ _ hlook

section Commands

variable (hpb : pb.Lawful) (hready : Ready pb tables rows st) {nSetTime : Nat}

include hready

/-- What SELECT finds in the cache. -/
theorem onPreCache_select_view (nSetTime id : Nat) {table_name : String}
    (hindex : st.m_dbCacheMgr.HasIndex (getMessageNameByTableName table_name)) :
    CDbThread.onPreCache pb st.m_dbCacheMgr .kOT_SELECT (some (.select_command id table_name))
      nSetTime =
      let found := (st.m_dbCacheMgr.lookup id (getMessageNameByTableName table_name)).bind
        fun sCacheInfo =>
          CDbCache.loadRecord pb (getMessageNameByTableName table_name) sCacheInfo.szData
      (found.isSome, found.map .row,
        (st.m_dbCacheMgr.getDataID (getMessageNameByTableName table_name)).2) := by
  rw [CDbThread.onPreCache_select hready.caches.enabled,
    getData_view pb hready.caches.named hindex id]

/-- Finding the index of a name keeps the cache in order. -/
theorem getDataID_caches {szDataName : String} (hindex : st.m_dbCacheMgr.HasIndex szDataName) :
    Caches pb (st.m_dbCacheMgr.getDataID szDataName).2 where
  enabled := by
    rw [getDataID_isDisabled]
    exact hready.caches.enabled
  wellFormed := getDataID_wellFormed hready.caches.wellFormed szDataName
  aligned := by simpa [Aligned] using hready.caches.aligned
  named := getDataID_named hready.caches.named hindex
  records := by
    rw [getDataID_lookup hready.caches.named]
    exact hready.caches.records

include hpb

/-- **UPDATE** of a cached record: the cache takes it, as a modified record. -/
theorem update_puts (htime : nSetTime ≠ 0) {m : RowMessage} {szTableName : String} {nID : Nat}
    {vecFieldInfo vecFilled : List SFieldInfo}
    (hm : Storable pb m szTableName nID vecFieldInfo)
    (hfilled : Storable pb m.filled szTableName nID vecFilled)
    (hcached : st.m_dbCacheMgr.lookup nID m.GetTypeName ≠ none)
    (hsame : tables.upsert szTableName vecFilled
        (st.meantRows pb tables rows (szTableName, nID)) =
      tables.upsert szTableName vecFieldInfo
        (st.meantRows pb tables rows (szTableName, nID))) :
    ∃ szFilled, pb.SerializeToString (.row m.filled) = some szFilled ∧
      Puts pb tables rows st (st.execute pb srv .kOT_UPDATE (some (.row m)) nSetTime).1
        szTableName nID (some ⟨szFilled, nSetTime⟩)
        (tables.upsert szTableName vecFieldInfo
          (st.meantRows pb tables rows (szTableName, nID))) := by
  have hcaches := hready.caches
  obtain ⟨sCacheInfo, hlook⟩ := Option.ne_none_iff_exists'.mp hcached
  obtain ⟨pDstData, hholds, _⟩ := hcaches.records _ _ _ hlook
  obtain ⟨szFilled, hdataFilled⟩ := Option.isSome_iff_exists.mp hfilled.data
  obtain ⟨szData, hdata⟩ := Option.isSome_iff_exists.mp hm.data
  -- The merge does not fail, and gives the filled message.
  have hd : pDstData.descriptor = m.descriptor := by
    have hknown := (rowType_eq_some.mp hm.rowType).1
    have hknown' := hholds.known
    rw [hm.typeName, hknown, Option.some.injEq] at hknown'
    exact hknown'.symm
  have hmerge : CDbCache.mergeData pb m.GetTypeName sCacheInfo.szData m = some szFilled :=
    (CDbCache.mergeData_filled (hholds.load hpb) hd fun f hf => hfilled.copies hf).trans
      hdataFilled
  obtain ⟨hset, hnamed, hdirty, hscheduled, hlookup⟩ := setData_view_merged pb
    hcaches.wellFormed hcaches.enabled hcaches.named hlook hmerge nSetTime
  have henabled := (kept_isDisabled pb false).setData st.m_dbCacheMgr nID m nSetTime trivial
    hcaches.enabled
  have hwf := (kept_wellFormed pb).setData st.m_dbCacheMgr nID m nSetTime trivial
    hcaches.wellFormed
  have haligned := (kept_aligned pb).setData st.m_dbCacheMgr nID m nSetTime trivial
    hcaches.aligned
  rw [hm.typeName] at hlookup
  obtain ⟨hcaches', hcovered', hmeant'⟩ := hready.absorb hpb hfilled (filled_full m)
    hdataFilled htime henabled hwf haligned hnamed hdirty hscheduled hlookup
  -- The cache answers.
  have hpre := CDbThread.onPreCache_update hcaches.enabled hm.id hdata nSetTime
  have hexecute : (st.execute pb srv .kOT_UPDATE (some (.row m)) nSetTime).1 =
      ⟨(st.m_dbCacheMgr.setData pb nID m nSetTime).2, st.m_dbConnection⟩ := by
    unfold execute
    rw [hpre, hset]
    simp only [CDbThread.onPostCache]
    split <;> rfl
  rw [hexecute]
  exact ⟨szFilled, hdataFilled, ⟨hcaches', hready.opened, hcovered'⟩, hlookup,
    hmeant'.trans (by rw [hsame])⟩

/-- **SELECT, answered by the cache:** the record is now a modified one. -/
theorem select_hit_puts (htime : nSetTime ≠ 0) {id : Nat} {table_name : String}
    (hindex : st.m_dbCacheMgr.HasIndex (getMessageNameByTableName table_name))
    {sCacheInfo : SCacheInfo}
    (hlook : st.m_dbCacheMgr.lookup id (getMessageNameByTableName table_name) = some sCacheInfo)
    {m : RowMessage} (hholds : Holds pb (getMessageNameByTableName table_name)
      sCacheInfo.szData m) {vecFieldInfo : List SFieldInfo}
    (hfilled : Storable pb m.filled table_name id vecFieldInfo)
    (hsame : tables.upsert table_name vecFieldInfo
      (st.meantRows pb tables rows (table_name, id)) =
        st.meantRows pb tables rows (table_name, id)) :
    (st.execute pb srv .kOT_SELECT (some (.select_command id table_name)) nSetTime).2 =
        .handled .kRC_OK (some (.row m)) ∧
      ∃ szFilled, pb.SerializeToString (.row m.filled) = some szFilled ∧
        Puts pb tables rows st
          (st.execute pb srv .kOT_SELECT (some (.select_command id table_name)) nSetTime).1
          table_name id (some ⟨szFilled, nSetTime⟩)
          (st.meantRows pb tables rows (table_name, id)) := by
  have hnamedCaches := getDataID_caches hready hindex
  have hsameLookup := getDataID_lookup hready.caches.named
    (getMessageNameByTableName table_name)
  have hname := hholds.typeName hpb
  obtain ⟨szFilled, hdataFilled⟩ := Option.isSome_iff_exists.mp hfilled.data
  -- The record is merged with itself.
  have hlook' : (st.m_dbCacheMgr.getDataID (getMessageNameByTableName table_name)).2.lookup id
      m.GetTypeName = some sCacheInfo := by
    rw [hname, hsameLookup]
    exact hlook
  have hmerge : CDbCache.mergeData pb m.GetTypeName sCacheInfo.szData m = some szFilled := by
    rw [hname, CDbCache.mergeData_filled (hholds.load hpb) rfl fun f hf => hfilled.copies hf]
    exact hdataFilled
  obtain ⟨_, hnamed, hdirty, hscheduled, hlookup⟩ := setData_view_merged pb
    hnamedCaches.wellFormed hnamedCaches.enabled hnamedCaches.named hlook' hmerge nSetTime
  have hdirty' : KeepsDirty st.m_dbCacheMgr ((st.m_dbCacheMgr.getDataID
      (getMessageNameByTableName table_name)).2.setData pb id m nSetTime).2 := by
    intro nID hin
    apply hdirty nID
    rwa [getDataID_mapDirtyCache]
  have hlookup' : LookupSet st.m_dbCacheMgr ((st.m_dbCacheMgr.getDataID
      (getMessageNameByTableName table_name)).2.setData pb id m nSetTime).2 id
      (getMessageNameByTableName table_name) (some ⟨szFilled, nSetTime⟩) := by
    intro nID szDataName
    have hset := hlookup nID szDataName
    rwa [hname, hsameLookup] at hset
  obtain ⟨hcaches', hcovered', hmeant'⟩ := hready.absorb hpb hfilled (filled_full m)
    hdataFilled htime
    ((kept_isDisabled pb false).setData _ id m nSetTime trivial hnamedCaches.enabled)
    ((kept_wellFormed pb).setData _ id m nSetTime trivial hnamedCaches.wellFormed)
    ((kept_aligned pb).setData _ id m nSetTime trivial hnamedCaches.aligned)
    hnamed hdirty' hscheduled hlookup'
  -- The cache answers, and its answer goes into the cache.
  have hpre := onPreCache_select_view hready nSetTime id hindex
  rw [hlook, Option.bind_some, hholds.load hpb] at hpre
  have hexecute : st.execute pb srv .kOT_SELECT (some (.select_command id table_name)) nSetTime =
      (⟨((st.m_dbCacheMgr.getDataID (getMessageNameByTableName table_name)).2.setData pb id m
          nSetTime).2, st.m_dbConnection⟩, .handled .kRC_OK (some (.row m))) := by
    unfold execute
    rw [hpre]
    simp only [Option.isSome_some, Option.map_some, CDbThread.onPostCache,
      hnamedCaches.enabled, Bool.false_eq_true, if_false, hholds.data]
  rw [hexecute]
  exact ⟨rfl, szFilled, hdataFilled, ⟨hcaches', hready.opened, hcovered'⟩, hlookup',
    hmeant'.trans (by rw [hsame])⟩

variable (hsrv : srv.Keeps pb tables rows)

include hsrv

/-- **INSERT** of a row that is not meant to be there: the cache enters an unmodified record for
an id that has no object. -/
theorem insert_puts {m : RowMessage} {szTableName : String} {nID : Nat}
    {vecFieldInfo : List SFieldInfo} (hm : Storable pb m szTableName nID vecFieldInfo)
    (hindex : st.m_dbCacheMgr.HasIndex m.GetTypeName)
    (hnew : st.meantRows pb tables rows (szTableName, nID) = none)
    (hsucceeded : (st.execute pb srv .kOT_INSERT (some (.row m))
      nSetTime).1.m_dbConnection.Succeeded) :
    ∃ info,
      (info = st.m_dbCacheMgr.lookup nID (getMessageNameByTableName szTableName) ∨
        st.m_dbCacheMgr.m_mapCache[nID]? = none ∧
          ∃ szData, pb.SerializeToString (.row m) = some szData ∧ info = some ⟨szData, 0⟩) ∧
      Puts pb tables rows st (st.execute pb srv .kOT_INSERT (some (.row m)) nSetTime).1
        szTableName nID info (tables.upsert szTableName vecFieldInfo none) := by
  have hcaches := hready.caches
  obtain ⟨szData, hdata⟩ := Option.isSome_iff_exists.mp hm.data
  have hpre := CDbThread.onPreCache_insert hcaches.enabled hm.id hdata nSetTime
  rw [execute_conn hpre] at hsucceeded
  obtain ⟨hcode, _, hrows⟩ := handle_insert hsrv hready.opened hm hsucceeded
  -- A write that is pending for a row makes the row.
  have hnone : st.m_dbCacheMgr.pending pb tables (szTableName, nID) = none := by
    rcases hcaches.pending_cases hpb tables szTableName nID with
      hnone | ⟨_, _, _, _, _, _, _, _, hpending⟩
    · exact hnone
    · unfold meantRows at hnew
      rw [WriteBack.meant_of_some hpending] at hnew
      cases hnew
  obtain ⟨hnamed, hdirty, hview⟩ := addData_view pb hcaches.wellFormed hcaches.enabled
    hcaches.named nID hindex
  rw [hm.typeName] at hview
  obtain ⟨hcaches', hpending⟩ := enter_caches pb tables hcaches
    (rowType_eq_some.mp hm.rowType).1 hnone
    ((kept_isDisabled pb false).addData _ nID m trivial hcaches.enabled)
    ((kept_wellFormed pb).addData _ nID m trivial hcaches.wellFormed)
    ((kept_aligned pb).addData _ nID m trivial hcaches.aligned) hnamed (hview.imp id And.right)
  rw [execute_answered hpre hcode, CDbThread.onPostCache_of_ne_select (by decide)]
  have hready' : Ready pb tables rows
      ⟨(st.m_dbCacheMgr.addData pb nID m).2, (CDbThread.handle pb srv .kOT_INSERT
        (some (.row m)) st.m_dbConnection).2.2⟩ := by
    refine ⟨hcaches', (isConnect_keptBySent srv true).handle pb hready.opened _ _, ?_⟩
    rw [hrows]
    exact covered_of_pass (fun key _ => congrFun hpending key) (hpending ▸ hnone) hdirty
      hready.covered _
  have hmeant' : WriteBack.meant ((st.m_dbCacheMgr.addData pb nID m).2.pending pb tables)
      (rows (CDbThread.handle pb srv .kOT_INSERT (some (.row m)) st.m_dbConnection).2.2.server) =
        Function.update (st.meantRows pb tables rows) (szTableName, nID)
          (tables.upsert szTableName vecFieldInfo none) := by
    rw [hpending, hrows]
    exact WriteBack.meant_pass (fun _ _ => rfl) hnone _
  rcases hview with hsame | ⟨huncached, szData', hdata', hlookup⟩
  · exact ⟨_, .inl rfl, hready', LookupSet.of_same hsame, hmeant'⟩
  · exact ⟨_, .inr ⟨huncached, szData', hdata', rfl⟩, hready', hlookup, hmeant'⟩

/-- **DELETE:** the record goes, and with it a write it waited for. -/
theorem delete_puts {id : Nat} {table_name : String}
    (hindex : st.m_dbCacheMgr.HasIndex (getMessageNameByTableName table_name))
    (hsucceeded : (st.execute pb srv .kOT_DELETE (some (.delete_command id table_name))
      nSetTime).1.m_dbConnection.Succeeded) :
    Puts pb tables rows st
      (st.execute pb srv .kOT_DELETE (some (.delete_command id table_name)) nSetTime).1
      table_name id none
      (if (pb.rowType table_name).isSome then none
        else st.meantRows pb tables rows (table_name, id)) := by
  have hcaches := hready.caches
  have hpre : CDbThread.onPreCache pb st.m_dbCacheMgr .kOT_DELETE
      (some (.delete_command id table_name)) nSetTime = (false, none,
        (st.m_dbCacheMgr.delData id (getMessageNameByTableName table_name)).2) :=
    CDbThread.onPreCache_delete hcaches.enabled id table_name nSetTime
  rw [execute_conn hpre] at hsucceeded
  obtain ⟨hcode, hrows⟩ := handle_delete hsrv hready.opened id table_name hsucceeded
  obtain ⟨hnamed, hdirty, hlookup⟩ := delData_view hcaches.wellFormed hcaches.enabled
    hcaches.named id hindex
  obtain ⟨hother, hself⟩ := hlookup.pending pb tables
  have hcaches' := delData_caches hcaches hnamed hlookup
  rw [execute_answered hpre hcode, CDbThread.onPostCache_of_ne_select (by decide)]
  have hopen' := (isConnect_keptBySent srv true).handle pb hready.opened .kOT_DELETE
    (some (.delete_command id table_name))
  cases htype : pb.rowType table_name with
  | some d =>
      rw [htype, Option.isSome_some, if_pos rfl] at hrows
      rw [Option.isSome_some, if_pos rfl]
      refine ⟨⟨hcaches', hopen', ?_⟩, hlookup, ?_⟩
      · rw [hrows]
        exact covered_of_pass hother hself hdirty hready.covered none
      · unfold meantRows
        rw [hrows]
        exact WriteBack.meant_pass hother hself none
  | none =>
      -- Nothing is sent, and nothing can have been pending.
      rw [htype, Option.isSome_none, if_neg Bool.false_ne_true] at hrows
      have hpending : (st.m_dbCacheMgr.delData id
          (getMessageNameByTableName table_name)).2.pending pb tables =
          st.m_dbCacheMgr.pending pb tables := by
        apply hlookup.pending_same
        rw [hcaches.pending_untyped hpb tables htype id]
        rfl
      rw [Option.isSome_none, if_neg Bool.false_ne_true]
      refine ⟨⟨hcaches', hopen', ?_⟩, hlookup, ?_⟩
      · apply covered_of_same hpending hdirty
        rw [hrows]
        exact hready.covered
      · rw [Function.update_eq_self]
        exact meantRows_congr hpending hrows

omit hready hpb hsrv in
/-- The post-step of a SELECT that found no record enters its answer as an unmodified one. -/
theorem onPostCache_select_caches (hpb : pb.Lawful) {mgr : CDbCacheMgr} (hcaches : Caches pb mgr)
    {id : Nat} {table_name : String}
    (hindex : mgr.HasIndex (getMessageNameByTableName table_name))
    (habsent : mgr.lookup id (getMessageNameByTableName table_name) = none)
    (tables : Tables) (row : Option Row) (nSetTime : Nat) :
    let mgr' := CDbThread.onPostCache pb mgr .kOT_SELECT
      (some (.select_command id table_name)) (selectAnswer pb tables table_name row).2 nSetTime
    Caches pb mgr' ∧ mgr'.pending pb tables = mgr.pending pb tables ∧ KeepsDirty mgr mgr' ∧
      ∃ info, LookupSet mgr mgr' id (getMessageNameByTableName table_name) info ∧
        (info = none ∨ ∃ m szData,
          selectAnswer pb tables table_name row = (.kRC_OK, some (.row m)) ∧
          pb.SerializeToString (.row m) = some szData ∧ info = some ⟨szData, 0⟩) := by
  have hnone : mgr.pending pb tables (table_name, id) = none := by
    simp only [pending, habsent, Option.bind_none]
  simp only [CDbThread.onPostCache, hcaches.enabled, Bool.false_eq_true, if_false]
  rcases selectAnswer_cases pb tables table_name row with hanswer | ⟨m, hanswer, htype⟩
  · rw [hanswer]
    exact ⟨hcaches, rfl, fun _ hin => hin, _, LookupSet.of_same rfl, .inl habsent⟩
  · rw [hanswer]
    simp only
    have hknown := (rowType_eq_some.mp htype).1
    have hname : m.GetTypeName = getMessageNameByTableName table_name :=
      hpb.full_name _ _ hknown
    cases hdata : pb.SerializeToString (.row m) with
    | none => exact ⟨hcaches, rfl, fun _ hin => hin, _, LookupSet.of_same rfl, .inl habsent⟩
    | some szData =>
        obtain ⟨hnamed, hdirty, hview⟩ := setData_view_absent pb hcaches.wellFormed
          hcaches.enabled hcaches.named (hname ▸ hindex) (hname ▸ habsent) nSetTime
        rw [hname] at hview
        obtain ⟨hcaches', hpending⟩ := enter_caches pb tables hcaches hknown hnone
          ((kept_isDisabled pb false).setData _ id m nSetTime trivial hcaches.enabled)
          ((kept_wellFormed pb).setData _ id m nSetTime trivial hcaches.wellFormed)
          ((kept_aligned pb).setData _ id m nSetTime trivial hcaches.aligned) hnamed hview
        refine ⟨hcaches', hpending, hdirty, ?_⟩
        rcases hview with hsame | ⟨szData', hdata', hlookup⟩
        · exact ⟨_, LookupSet.of_same hsame, .inl habsent⟩
        · exact ⟨_, hlookup, .inr ⟨m, szData', rfl, hdata ▸ hdata', rfl⟩⟩

/-- **SELECT, answered by the database:** its answer goes into the cache. -/
theorem select_miss_puts {id : Nat} {table_name : String}
    (hindex : st.m_dbCacheMgr.HasIndex (getMessageNameByTableName table_name))
    (habsent : st.m_dbCacheMgr.lookup id (getMessageNameByTableName table_name) = none)
    (hsucceeded : (st.execute pb srv .kOT_SELECT (some (.select_command id table_name))
      nSetTime).1.m_dbConnection.Succeeded) :
    (st.execute pb srv .kOT_SELECT (some (.select_command id table_name)) nSetTime).2 =
        .handled (selectAnswer pb tables table_name
            (st.meantRows pb tables rows (table_name, id))).1
          (selectAnswer pb tables table_name
            (st.meantRows pb tables rows (table_name, id))).2 ∧
      ∃ info,
        (info = none ∨ ∃ m szData, selectAnswer pb tables table_name
            (st.meantRows pb tables rows (table_name, id)) = (.kRC_OK, some (.row m)) ∧
          pb.SerializeToString (.row m) = some szData ∧ info = some ⟨szData, 0⟩) ∧
        Puts pb tables rows st
          (st.execute pb srv .kOT_SELECT (some (.select_command id table_name)) nSetTime).1
          table_name id info (st.meantRows pb tables rows (table_name, id)) := by
  have hnamedCaches := getDataID_caches hready hindex
  have hsameLookup := getDataID_lookup hready.caches.named
    (getMessageNameByTableName table_name)
  have hpre := onPreCache_select_view hready nSetTime id hindex
  rw [habsent] at hpre
  rw [execute_conn hpre] at hsucceeded
  obtain ⟨hcode, hmessage, hrows⟩ := handle_select hsrv hready.opened id table_name hsucceeded
  -- No write is pending for the row, so the database holds what it is meant to hold.
  have hrow : rows st.m_dbConnection.server (table_name, id) =
      st.meantRows pb tables rows (table_name, id) := by
    unfold meantRows
    rw [WriteBack.meant_of_none]
    simp only [pending, habsent, Option.bind_none]
  rw [hrow] at hcode hmessage
  have hlost := selectAnswer_ne_lost pb tables table_name
    (st.meantRows pb tables rows (table_name, id))
  obtain ⟨hcaches', hpending, hdirty, info, hlookup, hinfo⟩ := onPostCache_select_caches hpb
    hnamedCaches (.inl (by rw [getDataID_index]; simp)) (hsameLookup ▸ habsent) tables
    (st.meantRows pb tables rows (table_name, id)) nSetTime
  have hpending' := hpending.trans (pending_congr hsameLookup)
  rw [execute_answered hpre (hcode ▸ hlost), hcode, hmessage]
  refine ⟨rfl, info, hinfo, ⟨hcaches',
    (isConnect_keptBySent srv true).handle pb hready.opened _ _, ?_⟩, ?_, ?_⟩
  · refine covered_of_same hpending' ?_ ?_
    · intro nID hin
      apply hdirty nID
      rwa [getDataID_mapDirtyCache]
    · rw [hrows]
      exact hready.covered
  · intro nID szDataName
    rw [← hsameLookup]
    exact hlookup nID szDataName
  · rw [Function.update_eq_self]
    exact meantRows_congr hpending' hrows

end Commands

section Follows

variable (hpb : pb.Lawful) (hsrv : srv.Keeps pb tables rows)
  (hfollows : Follows pb tables rows plain st) {nSetTime : Nat}

include hpb hsrv hfollows

/-- **UPDATE** of a cached record, while the other store sends the statement. -/
theorem update_follows (htime : nSetTime ≠ 0) {m : RowMessage} {szTableName : String} {nID : Nat}
    {vecFieldInfo vecFilled : List SFieldInfo}
    (hm : Storable pb m szTableName nID vecFieldInfo)
    (hfilled : Storable pb m.filled szTableName nID vecFilled)
    (hcached : st.m_dbCacheMgr.lookup nID m.GetTypeName ≠ none)
    (hsame : tables.upsert szTableName vecFilled
        (st.meantRows pb tables rows (szTableName, nID)) =
      tables.upsert szTableName vecFieldInfo
        (st.meantRows pb tables rows (szTableName, nID)))
    (hsucceeded : (plain.execute pb srv .kOT_UPDATE (some (.row m))
      nSetTime).1.m_dbConnection.Succeeded) :
    ∃ szFilled, pb.SerializeToString (.row m.filled) = some szFilled ∧
      Moves pb tables rows plain st
        (plain.execute pb srv .kOT_UPDATE (some (.row m)) nSetTime).1
        (st.execute pb srv .kOT_UPDATE (some (.row m)) nSetTime).1 szTableName nID
        (some ⟨szFilled, nSetTime⟩)
        (tables.upsert szTableName vecFieldInfo
          (rows plain.m_dbConnection.server (szTableName, nID))) := by
  obtain ⟨szFilled, hdata, hputs⟩ := @update_puts σ pb srv tables rows st hpb hfollows.ready
    nSetTime htime m szTableName nID vecFieldInfo vecFilled hm hfilled hcached hsame
  rw [execute_disabled_conn hfollows.disabled] at hsucceeded
  obtain ⟨hcode, hrows⟩ := handle_update hsrv hfollows.plainOpen hm hsucceeded
  rw [execute_disabled hfollows.disabled _ _ _ hcode]
  rw [hfollows.meant] at hputs
  exact ⟨szFilled, hdata, hputs.moves hfollows hfollows.disabled
    ((isConnect_keptBySent srv true).handle pb hfollows.plainOpen _ _) hrows⟩

/-- **INSERT:** the row is new for the other store, so it is not meant to be there. -/
theorem insert_follows {m : RowMessage} {szTableName : String} {nID : Nat}
    {vecFieldInfo : List SFieldInfo} (hm : Storable pb m szTableName nID vecFieldInfo)
    (hindex : st.m_dbCacheMgr.HasIndex m.GetTypeName)
    (hsucceeded : (plain.execute pb srv .kOT_INSERT (some (.row m))
      nSetTime).1.m_dbConnection.Succeeded)
    (hsucceeded' : (st.execute pb srv .kOT_INSERT (some (.row m))
      nSetTime).1.m_dbConnection.Succeeded) :
    ∃ info,
      (info = st.m_dbCacheMgr.lookup nID (getMessageNameByTableName szTableName) ∨
        st.m_dbCacheMgr.m_mapCache[nID]? = none ∧
          ∃ szData, pb.SerializeToString (.row m) = some szData ∧ info = some ⟨szData, 0⟩) ∧
      Moves pb tables rows plain st
        (plain.execute pb srv .kOT_INSERT (some (.row m)) nSetTime).1
        (st.execute pb srv .kOT_INSERT (some (.row m)) nSetTime).1 szTableName nID info
        (tables.upsert szTableName vecFieldInfo none) := by
  rw [execute_disabled_conn hfollows.disabled] at hsucceeded
  obtain ⟨hcode, hnew, hrows⟩ := handle_insert hsrv hfollows.plainOpen hm hsucceeded
  obtain ⟨info, hinfo, hputs⟩ := insert_puts hpb hfollows.ready hsrv hm hindex
    ((congrFun hfollows.meant _).trans hnew) hsucceeded'
  rw [execute_disabled hfollows.disabled _ _ _ hcode]
  exact ⟨info, hinfo, hputs.moves hfollows hfollows.disabled
    ((isConnect_keptBySent srv true).handle pb hfollows.plainOpen _ _) hrows⟩

/-- **DELETE,** in both. -/
theorem delete_follows {id : Nat} {table_name : String}
    (hindex : st.m_dbCacheMgr.HasIndex (getMessageNameByTableName table_name))
    (hsucceeded : (plain.execute pb srv .kOT_DELETE (some (.delete_command id table_name))
      nSetTime).1.m_dbConnection.Succeeded)
    (hsucceeded' : (st.execute pb srv .kOT_DELETE (some (.delete_command id table_name))
      nSetTime).1.m_dbConnection.Succeeded) :
    Moves pb tables rows plain st
      (plain.execute pb srv .kOT_DELETE (some (.delete_command id table_name)) nSetTime).1
      (st.execute pb srv .kOT_DELETE (some (.delete_command id table_name)) nSetTime).1
      table_name id none
      (if (pb.rowType table_name).isSome then none
        else rows plain.m_dbConnection.server (table_name, id)) := by
  rw [execute_disabled_conn hfollows.disabled] at hsucceeded
  obtain ⟨hcode, hrows⟩ := handle_delete hsrv hfollows.plainOpen id table_name hsucceeded
  have hputs := delete_puts hpb hfollows.ready hsrv hindex hsucceeded'
  rw [hfollows.meant] at hputs
  rw [execute_disabled hfollows.disabled _ _ _ hcode]
  refine hputs.moves hfollows hfollows.disabled
    ((isConnect_keptBySent srv true).handle pb hfollows.plainOpen _ _) ?_
  rw [hrows]
  split
  · rfl
  · rw [Function.update_eq_self]

omit hpb in
/-- What the other store does at a SELECT. -/
theorem plain_select {id : Nat} {table_name : String}
    (hsucceeded : (plain.execute pb srv .kOT_SELECT (some (.select_command id table_name))
      nSetTime).1.m_dbConnection.Succeeded) :
    (plain.execute pb srv .kOT_SELECT (some (.select_command id table_name)) nSetTime).2 =
        .handled (selectAnswer pb tables table_name
            (rows plain.m_dbConnection.server (table_name, id))).1
          (selectAnswer pb tables table_name
            (rows plain.m_dbConnection.server (table_name, id))).2 ∧
      ∀ {st' : Store σ} {info : Option SCacheInfo},
        Puts pb tables rows st st' table_name id info
          (st.meantRows pb tables rows (table_name, id)) →
        Moves pb tables rows plain st
          (plain.execute pb srv .kOT_SELECT (some (.select_command id table_name)) nSetTime).1 st'
          table_name id info (rows plain.m_dbConnection.server (table_name, id)) := by
  rw [execute_disabled_conn hfollows.disabled] at hsucceeded
  obtain ⟨hcode, hmessage, hrows⟩ := handle_select hsrv hfollows.plainOpen id table_name
    hsucceeded
  have hcode' : (CDbThread.handle pb srv .kOT_SELECT (some (.select_command id table_name))
      plain.m_dbConnection).1 ≠ .kRC_LOST_CONNECTION := by
    rw [hcode]
    exact selectAnswer_ne_lost pb tables table_name _
  rw [execute_disabled hfollows.disabled _ _ _ hcode']
  refine ⟨by rw [hcode, hmessage], fun hputs => ?_⟩
  rw [hfollows.meant] at hputs
  refine hputs.moves hfollows hfollows.disabled
    ((isConnect_keptBySent srv true).handle pb hfollows.plainOpen _ _) ?_
  rw [Function.update_eq_self]
  exact hrows

/-- **SELECT, answered by the cache,** while the other store asks the database. -/
theorem select_hit_follows (htime : nSetTime ≠ 0) {id : Nat} {table_name : String}
    (hindex : st.m_dbCacheMgr.HasIndex (getMessageNameByTableName table_name))
    {sCacheInfo : SCacheInfo}
    (hlook : st.m_dbCacheMgr.lookup id (getMessageNameByTableName table_name) = some sCacheInfo)
    {m : RowMessage} (hholds : Holds pb (getMessageNameByTableName table_name)
      sCacheInfo.szData m) {vecFieldInfo : List SFieldInfo}
    (hfilled : Storable pb m.filled table_name id vecFieldInfo)
    (hsame : tables.upsert table_name vecFieldInfo
      (st.meantRows pb tables rows (table_name, id)) =
        st.meantRows pb tables rows (table_name, id))
    (hsucceeded : (plain.execute pb srv .kOT_SELECT (some (.select_command id table_name))
      nSetTime).1.m_dbConnection.Succeeded) :
    (plain.execute pb srv .kOT_SELECT (some (.select_command id table_name)) nSetTime).2 =
        .handled (selectAnswer pb tables table_name
            (rows plain.m_dbConnection.server (table_name, id))).1
          (selectAnswer pb tables table_name
            (rows plain.m_dbConnection.server (table_name, id))).2 ∧
      (st.execute pb srv .kOT_SELECT (some (.select_command id table_name)) nSetTime).2 =
        .handled .kRC_OK (some (.row m)) ∧
      ∃ szFilled, pb.SerializeToString (.row m.filled) = some szFilled ∧
        Moves pb tables rows plain st
          (plain.execute pb srv .kOT_SELECT (some (.select_command id table_name)) nSetTime).1
          (st.execute pb srv .kOT_SELECT (some (.select_command id table_name)) nSetTime).1
          table_name id (some ⟨szFilled, nSetTime⟩)
          (rows plain.m_dbConnection.server (table_name, id)) := by
  obtain ⟨hanswer, hmoves⟩ := plain_select hsrv hfollows hsucceeded
  obtain ⟨hcached, szFilled, hdata, hputs⟩ := select_hit_puts hpb hfollows.ready htime hindex
    hlook hholds hfilled hsame
  exact ⟨hanswer, hcached, szFilled, hdata, hmoves hputs⟩

/-- **SELECT, answered by the database** in both. -/
theorem select_miss_follows {id : Nat} {table_name : String}
    (hindex : st.m_dbCacheMgr.HasIndex (getMessageNameByTableName table_name))
    (habsent : st.m_dbCacheMgr.lookup id (getMessageNameByTableName table_name) = none)
    (hsucceeded : (plain.execute pb srv .kOT_SELECT (some (.select_command id table_name))
      nSetTime).1.m_dbConnection.Succeeded)
    (hsucceeded' : (st.execute pb srv .kOT_SELECT (some (.select_command id table_name))
      nSetTime).1.m_dbConnection.Succeeded) :
    (plain.execute pb srv .kOT_SELECT (some (.select_command id table_name)) nSetTime).2 =
        .handled (selectAnswer pb tables table_name
            (rows plain.m_dbConnection.server (table_name, id))).1
          (selectAnswer pb tables table_name
            (rows plain.m_dbConnection.server (table_name, id))).2 ∧
      (st.execute pb srv .kOT_SELECT (some (.select_command id table_name)) nSetTime).2 =
        (plain.execute pb srv .kOT_SELECT (some (.select_command id table_name)) nSetTime).2 ∧
      ∃ info,
        (info = none ∨ ∃ m szData, selectAnswer pb tables table_name
            (rows plain.m_dbConnection.server (table_name, id)) = (.kRC_OK, some (.row m)) ∧
          pb.SerializeToString (.row m) = some szData ∧ info = some ⟨szData, 0⟩) ∧
        Moves pb tables rows plain st
          (plain.execute pb srv .kOT_SELECT (some (.select_command id table_name)) nSetTime).1
          (st.execute pb srv .kOT_SELECT (some (.select_command id table_name)) nSetTime).1
          table_name id info (rows plain.m_dbConnection.server (table_name, id)) := by
  obtain ⟨hanswer, hmoves⟩ := plain_select hsrv hfollows hsucceeded
  obtain ⟨hcached, info, hinfo, hputs⟩ := select_miss_puts hpb hfollows.ready hsrv hindex
    habsent hsucceeded'
  have hputs' := hmoves hputs
  rw [hfollows.meant] at hcached hinfo
  exact ⟨hanswer, hcached.trans hanswer.symm, info, hinfo, hputs'⟩

end Follows

end Store

end Db
