import DbService.MergedRecords
import DbService.PureReads

/-!
# Properties of single records

A record comes into the cache as the bytes of a message, by an INSERT, an UPDATE or the answer
of a SELECT, and a merge replaces it by other bytes.  A property that these keep
(`RecordRule`) holds of every record that is cached or scheduled, in every state reached
(`EachRecord`).

* `holds_of_merge` -- what a merge leaves;
* `setData_eachRecord`, `execute_select_eachRecord` -- what enters keeps the property;
* `step_eachRecord` -- one action.
-/

namespace Db

open Reflection ByteText

/-- A property of a record, by its id, data name and bytes, that messages with the property `ok`
enter and keep. -/
structure RecordRule (pb : Runtime) (P : Nat → String → Bytes → Prop)
    (ok : Nat → RowMessage → Prop) : Prop where
  added : ∀ nID m szData, ok nID m → Holds pb m.GetTypeName szData m →
    P nID m.GetTypeName szData
  merged : ∀ nID m szOld szData, ok nID m → pb.Knows (.row m) → P nID m.GetTypeName szOld →
    CDbCache.mergeData pb m.GetTypeName szOld m = some szData → P nID m.GetTypeName szData

/-- **What a merge leaves** over a record of the type of the message: the filled message. -/
theorem holds_of_merge {pb : Runtime} {szDataName : String} {m : RowMessage}
    (hknown : pb.FindMessageTypeByName szDataName = some m.descriptor) {szOld szData : Bytes}
    (hold : ∀ m', CDbCache.loadRecord pb szDataName szOld = some m' →
      m'.descriptor = m.descriptor)
    (hmerge : CDbCache.mergeData pb szDataName szOld m = some szData) :
    Holds pb szDataName szData m.filled := by
  cases hload : CDbCache.loadRecord pb szDataName szOld with
  | none => simp [CDbCache.mergeData, hload] at hmerge
  | some pDstData =>
      exact ⟨hknown, CDbCache.mergeData_eq_some hload (hold pDstData hload) hmerge⟩

namespace CDbCacheMgr

variable {pb : Runtime} {P : Nat → String → Bytes → Prop} {ok : Nat → RowMessage → Prop}
  {mgr : CDbCacheMgr}

/-- Every record cached or scheduled under an id has the property; objects belong to ids, and
indices to data names. -/
structure EachRecord (P : Nat → String → Bytes → Prop) (mgr : CDbCacheMgr) : Prop where
  wellFormed : WellFormed mgr
  named : Named mgr
  records : ∀ nID pObject : Nat,
    mgr.m_mapCache[nID]? = some pObject ∨ mgr.m_mapDirtyCache[nID]? = some pObject →
    ∀ (nDataID : Nat) (sCacheInfo : SCacheInfo),
      (mgr.objects pObject).m_mapCacheInfo[nDataID]? = some sCacheInfo →
      P nID (mgr.getDataName nDataID) sCacheInfo.szData

/-- At first there is no record. -/
theorem init_eachRecord (P : Nat → String → Bytes → Prop) (nMaxCacheSize nWritebackTime : Nat) :
    EachRecord P (init nMaxCacheSize nWritebackTime) where
  wellFormed := init_wellFormed nMaxCacheSize nWritebackTime
  named := init_named nMaxCacheSize nWritebackTime
  records := by
    intro nID pObject _ nDataID sCacheInfo hrecord
    simp [init, CDbCache.empty] at hrecord

/-- The manager with its cache on. -/
def switchedOn (mgr : CDbCacheMgr) : CDbCacheMgr := { mgr with m_nMaxCacheSize := 1 }

/-- The limit says nothing about the records. -/
theorem EachRecord.switchedOn (h : EachRecord P mgr) : EachRecord P mgr.switchedOn where
  wellFormed := ⟨h.wellFormed.owner, h.wellFormed.records, fun hoff => by cases hoff⟩
  named := ⟨h.named.name, h.named.index, h.named.bound⟩
  records := h.records

/-- With the cache on, the manager is its own switched-on self. -/
theorem EachRecord.of_switchedOn (h : EachRecord P mgr.switchedOn)
    (hon : mgr.isDisabled = false) : EachRecord P mgr where
  wellFormed := ⟨h.wellFormed.owner, h.wellFormed.records,
    fun hoff => absurd (hon.symm.trans hoff) Bool.false_ne_true⟩
  named := ⟨h.named.name, h.named.index, h.named.bound⟩
  records := h.records

/-- A data name that has an index is the name of that index. -/
theorem Named.getDataName (h : Named mgr) {szDataName : String} {nDataID : Nat}
    (hindex : mgr.m_mapDataIndex[szDataName]? = some nDataID) :
    mgr.getDataName nDataID = szDataName := by
  simp [CDbCacheMgr.getDataName, (h.name _ _ hindex).1]

/-- **What a SELECT finds** is a record with the property. -/
theorem EachRecord.of_getData (h : EachRecord P mgr) {nID : Nat} {szDataName : String}
    (hroom : HasIndex mgr szDataName) {m : RowMessage}
    (hfound : (mgr.getData pb nID szDataName).1 = some m) :
    ∃ szData, P nID szDataName szData ∧ CDbCache.loadRecord pb szDataName szData = some m := by
  rw [getData_view pb h.named hroom] at hfound
  obtain ⟨sCacheInfo, hlook, hload⟩ := Option.bind_eq_some_iff.mp hfound
  obtain ⟨pObject, nDataID, hcached, hindex, hrecord⟩ := exists_of_lookup hlook
  have hproperty := h.records nID pObject (.inl hcached) nDataID sCacheInfo hrecord
  rw [h.named.getDataName hindex] at hproperty
  exact ⟨sCacheInfo.szData, hproperty, hload⟩

/-- Taking entries out of the maps keeps the records as they are. -/
theorem EachRecord.shrink (h : EachRecord P mgr) {mgr' : CDbCacheMgr}
    (hsame : SameRecords mgr mgr') (hwf : WellFormed mgr')
    (hmaps : ∀ nID pObject : Nat,
      mgr'.m_mapCache[nID]? = some pObject ∨ mgr'.m_mapDirtyCache[nID]? = some pObject →
      mgr.m_mapCache[nID]? = some pObject ∨ mgr.m_mapDirtyCache[nID]? = some pObject) :
    EachRecord P mgr' where
  wellFormed := hwf
  named := hsame.named h.named
  records := by
    intro nID pObject hin nDataID sCacheInfo hrecord
    rw [hsame.objects] at hrecord
    rw [hsame.getDataName]
    exact h.records nID pObject (hmaps nID pObject hin) nDataID sCacheInfo hrecord

/-- A new index names no record. -/
theorem getDataID_eachRecord (h : EachRecord P mgr) {szDataName : String}
    (hroom : HasIndex mgr szDataName) : EachRecord P (mgr.getDataID szDataName).2 where
  wellFormed := getDataID_wellFormed h.wellFormed szDataName
  named := getDataID_named h.named hroom
  records := by
    intro nID pObject hin nDataID sCacheInfo hrecord
    rw [getDataID_mapCache, getDataID_mapDirtyCache] at hin
    rw [getDataID_objects] at hrecord
    obtain ⟨szName, hindex⟩ := h.named.index pObject nDataID (by simp [hrecord])
    have hname : (mgr.getDataID szDataName).2.getDataName nDataID = mgr.getDataName nDataID := by
      have hne : mgr.m_nCurIndex ≠ nDataID := Nat.ne_of_gt (h.named.name _ _ hindex).2
      unfold getDataID
      split
      · rfl
      · simp [getDataName, Std.ExtTreeMap.getElem?_insert, hne]
    rw [hname]
    exact h.records nID pObject hin nDataID sCacheInfo hrecord

/-- A new object has no records. -/
theorem allocate_eachRecord (h : EachRecord P mgr) (hdisabled : mgr.isDisabled = false)
    (nID : Nat) : EachRecord P (mgr.allocate nID) where
  wellFormed := allocate_wellFormed h.wellFormed hdisabled nID
  named := allocate_named h.named nID
  records := by
    intro nID' pObject hin nDataID sCacheInfo hrecord
    by_cases hnew : pObject = mgr.nNextObject
    · subst hnew
      simp [allocate, CDbCache.empty] at hrecord
    · have hold : mgr.m_mapCache[nID']? = some pObject ∨
          mgr.m_mapDirtyCache[nID']? = some pObject := by
        simp only [allocate_mapCache, allocate_mapDirtyCache, Std.ExtTreeMap.getElem?_insert,
          compare_eq_iff_eq] at hin
        rcases hin with hcache | hdirty
        · split at hcache
          · exact absurd (Option.some.inj hcache).symm hnew
          · exact .inl hcache
        · exact .inr hdirty
      have hrecord' : (mgr.objects pObject).m_mapCacheInfo[nDataID]? = some sCacheInfo := by
        simpa [allocate, hnew] using hrecord
      exact h.records nID' pObject hold nDataID sCacheInfo hrecord'

/-- **One record of a cached object replaced** by one with the property, or taken out. -/
theorem store_eachRecord (h : EachRecord P mgr) {nID pObject nDataID : Nat}
    {szDataName : String} (hcached : mgr.m_mapCache[nID]? = some pObject)
    (hindex : mgr.m_mapDataIndex[szDataName]? = some nDataID) {pDbCache : CDbCache}
    {info : Option SCacheInfo}
    (hrecords : ∀ nDataID' : Nat, pDbCache.m_mapCacheInfo[nDataID']? =
      if nDataID' = nDataID then info else (mgr.objects pObject).m_mapCacheInfo[nDataID']?)
    (hinfo : ∀ sCacheInfo, info = some sCacheInfo →
      P nID szDataName sCacheInfo.szData) :
    EachRecord P (mgr.store pObject pDbCache) where
  wellFormed := by
    apply store_wellFormed h.wellFormed pObject
    rw [hrecords, if_neg (h.named.good hindex).symm]
    exact h.wellFormed.records pObject
  named := store_named h.named hindex hrecords
  records := by
    intro nID' pObject' hin nDataID' sCacheInfo hrecord
    have hin' : mgr.m_mapCache[nID']? = some pObject' ∨
        mgr.m_mapDirtyCache[nID']? = some pObject' := hin
    by_cases heq : pObject' = pObject
    · subst heq
      obtain rfl : nID = nID' := h.wellFormed.inj (.inl hcached) hin'
      rw [store_objects, Function.update_self, hrecords] at hrecord
      split at hrecord
      · rename_i hid
        subst hid
        have hname : (mgr.store pObject' pDbCache).getDataName nDataID' = szDataName :=
          h.named.getDataName hindex
        rw [hname]
        exact hinfo sCacheInfo hrecord
      · exact h.records nID pObject' hin' nDataID' sCacheInfo hrecord
    · rw [store_objects, Function.update_of_ne heq] at hrecord
      exact h.records nID' pObject' hin' nDataID' sCacheInfo hrecord

/-- Marking an id dirty changes no record. -/
theorem markDirty_eachRecord (h : EachRecord P mgr) (hdisabled : mgr.isDisabled = false)
    {nID pObject : Nat} (hcached : mgr.m_mapCache[nID]? = some pObject) :
    EachRecord P (mgr.markDirty nID pObject) where
  wellFormed := markDirty_wellFormed h.wellFormed hdisabled hcached
  named := ⟨h.named.name, h.named.index, h.named.bound⟩
  records := by
    intro nID' pObject' hin
    simp only [markDirty_mapCache, markDirty_mapDirtyCache, Std.ExtTreeMap.getElem?_insert,
      compare_eq_iff_eq] at hin
    rcases hin with hcache | hdirty
    · exact h.records nID' pObject' (.inl hcache)
    · split at hdirty
      · rename_i hid
        subst hid
        obtain rfl := Option.some.inj hdirty
        exact h.records nID pObject (.inl hcached)
      · exact h.records nID' pObject' (.inr hdirty)

/-! ## The operations -/

variable {nID : Nat} {pData : RowMessage}

/-- `addData` enters the record of the message. -/
theorem AddOutcome.eachRecord (hrule : RecordRule pb P ok) (h : EachRecord P mgr)
    (hdisabled : mgr.isDisabled = false) (hroom : HasIndex mgr pData.GetTypeName)
    (hknown : pb.Knows (.row pData)) (hok : ok nID pData)
    {result : Bool × CDbCacheMgr} (houtcome : AddOutcome pb mgr nID pData result) :
    EachRecord P result.2 := by
  have hnamed := getDataID_eachRecord h hroom
  have hallocated := allocate_eachRecord hnamed
    ((getDataID_isDisabled mgr pData.GetTypeName).trans hdisabled) nID
  cases houtcome with
  | badIndex => exact hnamed
  | present => exact hnamed
  | unserialised => exact hallocated
  | added szData hgood huncached hdata =>
      have hcached := getDataID_allocate_cached mgr pData.GetTypeName nID
      have hindex : ((mgr.getDataID pData.GetTypeName).2.allocate nID).m_mapDataIndex[
          pData.GetTypeName]? = some (mgr.getDataID pData.GetTypeName).1 :=
        getDataID_index mgr pData.GetTypeName
      have hempty : ((mgr.getDataID pData.GetTypeName).2.allocate nID).objects
          mgr.nNextObject = CDbCache.empty := by
        simp [allocate]
      refine store_eachRecord hallocated hcached hindex
        (fun nDataID' => (withRecord_records ..).trans (by rw [hempty])) ?_
      intro sCacheInfo hinfo
      obtain rfl := Option.some.inj hinfo
      exact hrule.added nID pData szData hok ⟨hknown, hdata⟩

/-- A record that is added has the property by the rule. -/
theorem addData_eachRecord (hrule : RecordRule pb P ok) (h : EachRecord P mgr)
    (hdisabled : mgr.isDisabled = false) (hroom : HasIndex mgr pData.GetTypeName)
    (hknown : pb.Knows (.row pData)) (hok : ok nID pData) :
    EachRecord P (mgr.addData pb nID pData).2 :=
  (addData_outcome pb hdisabled nID pData).eachRecord hrule h hdisabled hroom hknown hok

/-- **`setData`** enters the record of the message, or merges the message over a record. -/
theorem setData_eachRecord (hrule : RecordRule pb P ok) (h : EachRecord P mgr)
    (hdisabled : mgr.isDisabled = false) (hroom : HasIndex mgr pData.GetTypeName)
    (hknown : pb.Knows (.row pData)) (hok : ok nID pData) (nTime : Nat) :
    EachRecord P (mgr.setData pb nID pData nTime).2 := by
  have hnamed := getDataID_eachRecord h hroom
  have hindex := getDataID_index mgr pData.GetTypeName
  have houtcome := setData_outcome pb hdisabled nID pData nTime
  generalize mgr.setData pb nID pData nTime = result at houtcome
  cases houtcome with
  | uncached _ _ hadd => exact hadd.eachRecord hrule h hdisabled hroom hknown hok
  | badIndex => exact hnamed
  | refused => exact hnamed
  | stored pObject pDbCache hcached hgood hset =>
      have hcached' : (mgr.getDataID pData.GetTypeName).2.m_mapCache[nID]? = some pObject := by
        simpa using hcached
      have hon : ((mgr.getDataID pData.GetTypeName).2.store pObject pDbCache).isDisabled =
          false := (getDataID_isDisabled ..).trans hdisabled
      refine markDirty_eachRecord ?_ hon hcached'
      have hrecords : ∀ (sNew : SCacheInfo) (nSize : Int) (nDataID' : Nat),
          ((mgr.objects pObject).withRecord (mgr.getDataID pData.GetTypeName).1 sNew
              nSize).m_mapCacheInfo[nDataID']? =
            if nDataID' = (mgr.getDataID pData.GetTypeName).1 then some sNew
            else ((mgr.getDataID pData.GetTypeName).2.objects
              pObject).m_mapCacheInfo[nDataID']? := by
        intro sNew nSize nDataID'
        rw [withRecord_records, getDataID_objects]
      cases hset with
      | absent _ _ hadd =>
          cases hadd with
          | added szData _ hdata =>
              apply store_eachRecord hnamed hcached' hindex (hrecords _ _)
              intro sCacheInfo hinfo
              obtain rfl := Option.some.inj hinfo
              exact hrule.added nID pData szData hok ⟨hknown, hdata⟩
      | merged sOld szData hrecord hmerge =>
          have hold : P nID pData.GetTypeName sOld.szData := by
            have hkeyed := hnamed.records nID pObject (.inl hcached')
              (mgr.getDataID pData.GetTypeName).1 sOld (by rwa [getDataID_objects])
            rwa [hnamed.named.getDataName hindex] at hkeyed
          apply store_eachRecord hnamed hcached' hindex (hrecords _ _)
          intro sCacheInfo hinfo
          obtain rfl := Option.some.inj hinfo
          exact hrule.merged nID pData sOld.szData szData hok hknown hold hmerge

/-- `delData` takes a record out. -/
theorem delData_eachRecord (h : EachRecord P mgr) (hdisabled : mgr.isDisabled = false)
    (nID : Nat) {szDataName : String} (hroom : HasIndex mgr szDataName) :
    EachRecord P (mgr.delData nID szDataName).2 := by
  have hnamed := getDataID_eachRecord h hroom
  have houtcome := delData_outcome hdisabled nID szDataName
  generalize mgr.delData nID szDataName = result at houtcome
  cases houtcome with
  | uncached => exact h
  | badIndex => exact hnamed
  | absent => exact hnamed
  | deleted pObject sCacheInfo hcached hgood hrecord =>
      have hcached' : (mgr.getDataID szDataName).2.m_mapCache[nID]? = some pObject := by
        simpa using hcached
      have hrecords : ∀ nDataID' : Nat,
          ((mgr.objects pObject).m_mapCacheInfo.erase (mgr.getDataID szDataName).1)[nDataID']? =
            if nDataID' = (mgr.getDataID szDataName).1 then none
            else ((mgr.getDataID szDataName).2.objects pObject).m_mapCacheInfo[nDataID']? := by
        intro nDataID'
        simp only [Std.ExtTreeMap.getElem?_erase, compare_eq_iff_eq, getDataID_objects]
        simp only [eq_comm]
      exact store_eachRecord hnamed hcached' (getDataID_index mgr szDataName) hrecords
        (fun _ hinfo => (by cases hinfo))

/-! ## Passes -/

section Passes

variable {σ : Type} (pb : Runtime) (srv : Server σ)

/-- A timed pass changes no record, -/
theorem writeback_eachRecord (h : EachRecord P mgr) (nTime : Nat) (conn : CDbConnection σ) :
    EachRecord P (mgr.writeback pb srv nTime conn).1 := by
  refine h.shrink (writeback_sameRecords pb srv mgr nTime conn)
    (writeback_wellFormed pb srv h.wellFormed nTime conn) ?_
  intro nID pObject hin
  rw [writeback_mapCache] at hin
  exact hin.imp_right (writeback_dirty_le mgr nTime conn)

/-- an eviction changes none, -/
theorem cleanCache_eachRecord (h : EachRecord P mgr) (nTime : Nat) (sample : Sample)
    (conn : CDbConnection σ) : EachRecord P (mgr.cleanCache pb srv nTime sample conn).1 := by
  refine h.shrink (cleanCache_sameRecords pb srv mgr nTime sample conn)
    (cleanCache_wellFormed pb srv h.wellFormed nTime sample conn) ?_
  intro nID pObject hin
  exact hin.imp (cleanCache_cache_le mgr nTime sample conn)
    (cleanCache_dirty_le mgr nTime sample conn)

/-- and neither does a flush. -/
theorem flushCache_eachRecord (h : EachRecord P mgr) (nKey : Nat) (bDel : Bool)
    (conn : CDbConnection σ) : EachRecord P (mgr.flushCache pb srv nKey bDel conn).1 := by
  refine h.shrink (flushCache_sameRecords pb srv mgr nKey bDel conn)
    (flushCache_wellFormed pb srv h.wellFormed nKey bDel conn) ?_
  intro nID pObject hin
  exact hin.imp (flushCache_cache_le mgr nKey bDel conn) (flushCache_dirty_le mgr nKey bDel conn)

end Passes

end CDbCacheMgr

namespace Store

open CDbCacheMgr

variable {σ : Type} (pb : Runtime) (srv : Server σ)

/-- What a command puts into the cache has the property `ok`.  The cache is off; or there is an
index for the data name, and the message that enters is of a known type and has it. -/
def Enters (ok : Nat → RowMessage → Prop) (st : Store σ) (nType : EOperatorType)
    (pRequest : Option Message) : Prop :=
  st.m_dbCacheMgr.isDisabled = false →
    match nType, pRequest with
    | .kOT_SELECT, some (.select_command id table_name) =>
        st.m_dbCacheMgr.HasIndex (getMessageNameByTableName table_name) ∧
          ∀ m, st.selected pb srv id table_name = some m →
            pb.FindMessageTypeByName (getMessageNameByTableName table_name) =
                some m.descriptor ∧ ok id m
    | .kOT_UPDATE, some (.row m) | .kOT_INSERT, some (.row m) =>
        st.m_dbCacheMgr.HasIndex m.GetTypeName ∧
          ∀ nID, getPrimaryValue (.row m) = some nID → pb.Knows (.row m) ∧ ok nID m
    | .kOT_DELETE, some (.delete_command _ table_name) =>
        st.m_dbCacheMgr.HasIndex (getMessageNameByTableName table_name)
    | _, _ => True

/-- An action does: a command does, or its deadline is past. -/
def EntersAction (ok : Nat → RowMessage → Prop) (st : Store σ) : StoreAction → Prop
  | .command sDbCommand clock =>
      sDbCommand.isExpired clock.nCurTime = true ∨
        st.Enters pb srv ok sDbCommand.nType sDbCommand.pMessage
  | _ => True

/-- A change of the limit enters nothing. -/
def EntersLimit (ok : Nat → RowMessage → Prop) (st : Store σ) : LimitAction → Prop
  | .store action => st.EntersAction pb srv ok action
  | .setMaxCacheSize _ => True

variable {pb srv} {P : Nat → String → Bytes → Prop} {ok : Nat → RowMessage → Prop}
  {st : Store σ}

/-- A recordset comes from the server. -/
theorem execute_rows {conn : CDbConnection σ} {stmt : Statement} {wanted : Bool}
    {rs : CDbRecordset} (h : (conn.execute srv stmt wanted).2.1 = some rs) :
    (srv.query conn.server stmt).1 = .rows rs := by
  unfold CDbConnection.execute at h
  split at h
  · unfold CDbConnection.outcome at h
    cases hreply : (srv.query conn.server stmt).1 with
    | failed nError => simp [hreply] at h
    | done nError nAffectedRow => simp [hreply] at h
    | rows rs' =>
        cases wanted with
        | false => simp [hreply] at h
        | true =>
            simp only [hreply, if_true, Option.some.injEq] at h
            rw [h]
  · cases h

/-- The handler of SELECT reads the row of a known type. -/
theorem select_answer {id : Nat} {table_name : String} {conn conn' : CDbConnection σ}
    {nErrorCode : EResultCode} {m : RowMessage}
    (h : CDbThread.handle pb srv .kOT_SELECT (some (.select_command id table_name)) conn =
      (nErrorCode, some (.row m), conn')) :
    ∃ d rs, pb.rowType table_name = some d ∧
      (srv.query conn.server (.selectRow table_name d.primary_key id)).1 = .rows rs ∧
      fillNormalMessage pb rs (.New d) = some m := by
  simp only [CDbThread.handle, CDbCommandHandlerProxy.onDbCommand,
    CDbCommandSelectHandler.onDbCommand, Runtime.createMessage] at h
  cases hfind : pb.FindMessageTypeByName (getMessageNameByTableName table_name) with
  | none => simp [hfind] at h
  | some d =>
      simp only [hfind, Option.map_some] at h
      by_cases hkey : getPrimaryName (.New d) = ""
      · rw [if_pos hkey] at h
        cases h
      · rw [if_neg hkey] at h
        have htype : pb.rowType table_name = some d := rowType_eq_some.mpr ⟨hfind, hkey⟩
        cases hcode : errorCode (conn.execute srv
            (.selectRow table_name (getPrimaryName (.New d)) id) true).1 with
        | some code =>
            rw [hcode] at h
            cases h
        | none =>
            rw [hcode] at h
            simp only [Prod.mk.injEq] at h
            obtain ⟨_, hresponse, _⟩ := h
            cases hrows : (conn.execute srv
                (.selectRow table_name (getPrimaryName (.New d)) id) true).2.1 with
            | none =>
                rw [hrows] at hresponse
                cases hresponse
            | some rs =>
                have hreply := execute_rows hrows
                rw [hrows] at hresponse
                unfold selectResponse at hresponse
                cases hfill : fillNormalMessage pb rs (.New d) with
                | none => simp [hfill] at hresponse
                | some m' =>
                    simp only [hfill, Option.some.injEq, Message.row.injEq] at hresponse
                    exact ⟨d, rs, htype, hreply, by rw [hfill, hresponse]⟩

/-- **What a SELECT answers** is the record it finds in the cache or the row it reads. -/
theorem selected_cases {id : Nat} {table_name : String} {m : RowMessage}
    (h : st.selected pb srv id table_name = some m) :
    (st.m_dbCacheMgr.getData pb id (getMessageNameByTableName table_name)).1 = some m ∨
      (st.m_dbCacheMgr.getData pb id (getMessageNameByTableName table_name)).1 = none ∧
        ∃ d rs, pb.rowType table_name = some d ∧
          (srv.query st.m_dbConnection.server (.selectRow table_name d.primary_key id)).1 =
            .rows rs ∧
          fillNormalMessage pb rs (.New d) = some m := by
  unfold selected at h
  cases hcache : (st.m_dbCacheMgr.getData pb id (getMessageNameByTableName table_name)).1 with
  | some m' =>
      rw [hcache] at h
      exact .inl h
  | none =>
      rw [hcache] at h
      rcases hhandle : CDbThread.handle pb srv .kOT_SELECT
        (some (.select_command id table_name)) st.m_dbConnection with ⟨nErrorCode, pMessage, conn⟩
      rw [hhandle] at h
      simp only at h
      split at h
      · cases h
      · have hmessage : pMessage = some (.row m) := by
          unfold rowOf at h
          split at h
          · rw [Option.some.inj h]
          · cases h
        subst hmessage
        exact .inr ⟨rfl, select_answer hhandle⟩

/-- The pre-step of a command other than SELECT. -/
theorem onPreCache_eachRecord (hrule : RecordRule pb P ok) (h : EachRecord P st.m_dbCacheMgr)
    {nType : EOperatorType} (htype : nType ≠ .kOT_SELECT) {pRequest : Option Message}
    (henters : st.Enters pb srv ok nType pRequest) (nSetTime : Nat) :
    EachRecord P (CDbThread.onPreCache pb st.m_dbCacheMgr nType pRequest nSetTime).2.2 := by
  cases hdisabled : st.m_dbCacheMgr.isDisabled with
  | true =>
      rw [CDbThread.onPreCache_disabled hdisabled]
      exact h
  | false =>
      have hon := henters hdisabled
      unfold CDbThread.onPreCache
      rw [hdisabled, if_neg Bool.false_ne_true]
      split
      · exact absurd rfl htype
      · rename_i m
        split
        · rename_i nID szData hid _
          obtain ⟨hroom, hmessage⟩ := hon
          obtain ⟨hknown, hok⟩ := hmessage nID hid
          exact setData_eachRecord hrule h hdisabled hroom hknown hok nSetTime
        · exact h
      · rename_i m
        split
        · rename_i nID szData hid _
          obtain ⟨hroom, hmessage⟩ := hon
          obtain ⟨hknown, hok⟩ := hmessage nID hid
          exact addData_eachRecord hrule h hdisabled hroom hknown hok
        · exact h
      · rename_i id table_name
        exact delData_eachRecord h hdisabled id hon
      · exact h

/-- **A SELECT** enters its answer. -/
theorem execute_select_eachRecord (hpb : pb.Lawful) (hrule : RecordRule pb P ok)
    (h : EachRecord P st.m_dbCacheMgr) {pRequest : Option Message}
    (henters : st.Enters pb srv ok .kOT_SELECT pRequest) (nSetTime : Nat) :
    EachRecord P (st.execute pb srv .kOT_SELECT pRequest nSetTime).1.m_dbCacheMgr := by
  obtain hsame | ⟨hdisabled, id, table_name, rfl⟩ :=
    @execute_select_or _ pb srv st pRequest nSetTime
  · rw [hsame]
    exact h
  · obtain ⟨hroom, hanswer⟩ := henters hdisabled
    have hnamed := getDataID_eachRecord h hroom
    rw [execute_select_mgr hdisabled]
    cases hselected : st.selected pb srv id table_name with
    | none => exact hnamed
    | some m =>
        obtain ⟨hknown, hok⟩ := hanswer m hselected
        have hname : m.GetTypeName = getMessageNameByTableName table_name :=
          hpb.full_name _ _ hknown
        simp only
        split
        · refine setData_eachRecord hrule hnamed ((getDataID_isDisabled ..).trans hdisabled) ?_ ?_
            hok nSetTime
          · rw [hname]
            exact getDataID_hasIndex ..
          · exact (congrArg pb.FindMessageTypeByName hname).trans hknown
        · exact hnamed

/-- **Step.**  If what a command brings in is allowed by the rule, every record of the cache has
the property afterwards: passes and evictions only mark records as written or drop them. -/
theorem step_eachRecord (hpb : pb.Lawful) (hrule : RecordRule pb P ok)
    (h : EachRecord P st.m_dbCacheMgr) {action : StoreAction}
    (henters : st.EntersAction pb srv ok action) :
    EachRecord P (st.step pb srv action).1.m_dbCacheMgr := by
  cases action with
  | command sDbCommand clock =>
      by_cases hflush : sDbCommand.nType = .kOT_FLUSH
      · have hprocessed := process_cases pb srv st sDbCommand clock
        simp only [step]
        generalize st.process pb srv sDbCommand clock = result at hprocessed
        cases hprocessed with
        | flush id type _ _ mgr writes conn hpass =>
            have hkept := flushCache_eachRecord pb srv h id
              (type == EFlushCacheType.kFCT_DEL.code) st.m_dbConnection
            rwa [hpass] at hkept
        | flushNothing => exact h
        | expired htype => exact absurd hflush htype
        | executed htype => exact absurd hflush htype
      · cases hexpired : sDbCommand.isExpired clock.nCurTime with
        | true =>
            simp only [step, process_expired pb srv hflush hexpired]
            exact h
        | false =>
            have henters' : st.Enters pb srv ok sDbCommand.nType sDbCommand.pMessage :=
              henters.resolve_left (by simp [hexpired])
            simp only [step, process_executed pb srv hflush hexpired]
            by_cases hselect : sDbCommand.nType = .kOT_SELECT
            · rw [hselect] at henters' ⊢
              exact execute_select_eachRecord hpb hrule h henters' clock.nSetTime
            · rw [executed_mgr hselect (execute_cases ..)]
              exact onPreCache_eachRecord hrule h hselect henters' clock.nSetTime
  | tick nCurTime sample =>
      exact writeback_eachRecord pb srv
        (cleanCache_eachRecord pb srv h nCurTime sample st.m_dbConnection) nCurTime _
  | finish => exact flushCache_eachRecord pb srv h 0 true st.m_dbConnection

end Store

end Db
