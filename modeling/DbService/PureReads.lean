import DbService.FailedWrites
import DbService.WritebackFailures

/-!
# Reads that cause writes

The post-step of a SELECT hands its answer to `setData`, which serves UPDATE as well: over a
record that is cached already it merges and takes the time, and for any id that is cached it
schedules the object.  So a SELECT leaves what awaits a write-back as it was (`SameAwaiting`)
only under the condition `KeepsTimes`.  A worker whose SELECTs all meet it and that executes
nothing but SELECT and FLUSH issues no UPDATE.

* `execute_select_sameAwaiting_iff`, `process_sameAwaiting_iff` -- one SELECT;
* `Reading.step` -- one action of a worker that only reads;
* `reads_without_updates_iff` -- every reachable state, and the runs of quiet reads;
* `second_select_written_back` -- a row that is read twice is written.
-/

namespace Db

open Reflection ByteText

namespace CDbCacheMgr

variable {σ : Type} {pb : Runtime} {srv : Server σ} {mgr mgr' : CDbCacheMgr}

/-- No record of the object is modified. -/
def Unmodified (mgr : CDbCacheMgr) (pObject : Nat) : Prop :=
  ∀ (nDataID : Nat) (sCacheInfo : SCacheInfo),
    (mgr.objects pObject).m_mapCacheInfo[nDataID]? = some sCacheInfo → sCacheInfo.nTime = 0

/-- The modified records that a pass over the dirty map reaches are the same, and the cached
records keep their times of modification. -/
structure SameAwaiting (mgr mgr' : CDbCacheMgr) : Prop where
  awaiting : ∀ nID pObject nDataID : Nat,
    (∃ sCacheInfo, Scheduled mgr' nID pObject nDataID sCacheInfo) ↔
      ∃ sCacheInfo, Scheduled mgr nID pObject nDataID sCacheInfo
  times : ∀ (nID nDataID : Nat) (sCacheInfo : SCacheInfo),
    mgr.record nID nDataID = some sCacheInfo →
    ∃ sCacheInfo', mgr'.record nID nDataID = some sCacheInfo' ∧
      sCacheInfo'.nTime = sCacheInfo.nTime

/-- When `setData` changes nothing that awaits a write-back.  Where it succeeds for a cached
id, the record it merges into was modified at the very same time, and the object is scheduled
already or nothing that the new entry of the dirty map reveals or hides is modified. -/
def KeepsTimes (pb : Runtime) (mgr : CDbCacheMgr) (nID : Nat) (pData : RowMessage)
    (nTime : Nat) : Prop :=
  ∀ pObject : Nat, mgr.m_mapCache[nID]? = some pObject →
    (mgr.getDataID pData.GetTypeName).1 ≠ badDataID →
    ((mgr.objects pObject).setData pb (mgr.getDataID pData.GetTypeName).1 pData.GetTypeName
      pData nTime).1 = true →
    (∀ sCacheInfo, (mgr.objects pObject).m_mapCacheInfo[(mgr.getDataID
        pData.GetTypeName).1]? = some sCacheInfo → sCacheInfo.nTime = nTime) ∧
      (mgr.m_mapDirtyCache[nID]? = some pObject ∨
        Unmodified mgr pObject ∧
          ∀ pObject' : Nat, mgr.m_mapDirtyCache[nID]? = some pObject' → Unmodified mgr pObject')

theorem SameAwaiting.refl (mgr : CDbCacheMgr) : SameAwaiting mgr mgr :=
  ⟨fun _ _ _ => Iff.rfl, fun _ _ sCacheInfo h => ⟨sCacheInfo, h, rfl⟩⟩

/-- The same records under the same entries await the same. -/
theorem SameAwaiting.of_same (hobjects : ∀ nID pObject : Nat,
      mgr.m_mapDirtyCache[nID]? = some pObject → mgr'.objects pObject = mgr.objects pObject)
    (hdirty : mgr'.m_mapDirtyCache = mgr.m_mapDirtyCache)
    (hrecord : ∀ nID nDataID sCacheInfo, mgr.record nID nDataID = some sCacheInfo →
      mgr'.record nID nDataID = some sCacheInfo) : SameAwaiting mgr mgr' where
  awaiting := by
    intro nID pObject nDataID
    refine exists_congr fun sCacheInfo => ?_
    unfold Scheduled
    rw [hdirty]
    refine and_congr_right fun hentry => ?_
    rw [hobjects nID pObject hentry]
  times := fun nID nDataID sCacheInfo h => ⟨sCacheInfo, hrecord nID nDataID sCacheInfo h, rfl⟩

/-- Looking up a name leaves what waits to be written. -/
theorem getDataID_sameAwaiting (mgr : CDbCacheMgr) (szDataName : String) :
    SameAwaiting mgr (mgr.getDataID szDataName).2 :=
  .of_same (fun _ _ _ => by rw [getDataID_objects]) (getDataID_mapDirtyCache mgr szDataName)
    (fun _ _ _ h => by rwa [getDataID_record])

/-- **`addData`** changes nothing that awaits a write-back. -/
theorem AddOutcome.sameAwaiting (hwf : WellFormed mgr) {nID : Nat} {pData : RowMessage}
    {result : Bool × CDbCacheMgr} (houtcome : AddOutcome pb mgr nID pData result) :
    SameAwaiting mgr result.2 := by
  have hnamed := getDataID_sameAwaiting mgr pData.GetTypeName
  have hwf' := getDataID_wellFormed hwf pData.GetTypeName
  have hold : ∀ nID' pObject : Nat, mgr.m_mapDirtyCache[nID']? = some pObject →
      pObject ≠ mgr.nNextObject := fun nID' pObject h => Nat.ne_of_lt (hwf.lt (.inr h))
  have hother : ∀ nID' nDataID sCacheInfo, mgr.m_mapCache[nID]? = none →
      mgr.record nID' nDataID = some sCacheInfo → nID ≠ nID' := by
    intro nID' nDataID sCacheInfo huncached hrecord heq
    subst heq
    rw [record_of_uncached huncached] at hrecord
    cases hrecord
  cases houtcome with
  | badIndex => exact hnamed
  | present => exact hnamed
  | unserialised _ huncached =>
      refine .of_same ?_ (getDataID_mapDirtyCache mgr _) ?_
      · intro nID' pObject hentry
        simp [allocate, hold nID' pObject hentry]
      · intro nID' nDataID sCacheInfo hrecord
        rw [allocate_record hwf' (by simpa using huncached), getDataID_record]
        exact hrecord
  | added szData _ huncached =>
      refine .of_same ?_ (getDataID_mapDirtyCache mgr _) ?_
      · intro nID' pObject hentry
        simp [allocate, hold nID' pObject hentry]
      · intro nID' nDataID sCacheInfo hrecord
        have hne := hother nID' nDataID sCacheInfo huncached hrecord
        have huncached' : (mgr.getDataID pData.GetTypeName).2.m_mapCache[nID]? = none := by
          simpa using huncached
        have hcached : ((mgr.getDataID pData.GetTypeName).2.allocate nID).m_mapCache[nID']? =
            mgr.m_mapCache[nID']? := by
          simp [Std.ExtTreeMap.getElem?_insert, hne]
        simp only [record, Option.bind_eq_some_iff] at hrecord
        obtain ⟨pObject, hget, hinfo⟩ := hrecord
        have hnew : pObject ≠ mgr.nNextObject := Nat.ne_of_lt (hwf.lt (.inl hget))
        rw [record_of_cached (show _ = some pObject by rw [store_mapCache, hcached]; exact hget)]
        simpa [allocate, hnew] using hinfo

/-- **What `setData` does to one object:** a record enters as unmodified, or replaces another
and takes the time. -/
theorem setOutcome_records {pDbCache pDbCache' : CDbCache} {nDataID nTime : Nat}
    {szDataName : String} {pData : RowMessage}
    (hset : CDbCache.SetOutcome pb pDbCache nDataID szDataName pData nTime (true, pDbCache')) :
    ∃ sNew : SCacheInfo,
      (∀ nDataID' : Nat, pDbCache'.m_mapCacheInfo[nDataID']? =
        if nDataID' = nDataID then some sNew else pDbCache.m_mapCacheInfo[nDataID']?) ∧
      (pDbCache.m_mapCacheInfo[nDataID]? = none ∧ sNew.nTime = 0 ∨
        ∃ sOld, pDbCache.m_mapCacheInfo[nDataID]? = some sOld ∧ sNew.nTime = nTime) := by
  have hrecords : ∀ (sNew : SCacheInfo) (nSize : Int) (nDataID' : Nat),
      (pDbCache.withRecord nDataID sNew nSize).m_mapCacheInfo[nDataID']? =
        if nDataID' = nDataID then some sNew else pDbCache.m_mapCacheInfo[nDataID']? := by
    intro sNew nSize nDataID'
    simp only [CDbCache.withRecord, Std.ExtTreeMap.getElem?_insert, compare_eq_iff_eq]
    simp only [eq_comm]
  cases hset with
  | absent _ habsent hadd =>
      cases hadd with
      | added szData => exact ⟨⟨szData, 0⟩, hrecords _ _, .inl ⟨habsent, rfl⟩⟩
  | merged sOld szData hrecord => exact ⟨⟨szData, nTime⟩, hrecords _ _, .inr ⟨sOld, hrecord, rfl⟩⟩

/-- Every record of the object is there afterwards, with the same time. -/
def KeepsRecordTimes (pDbCache pDbCache' : CDbCache) : Prop :=
  ∀ (nDataID : Nat) (sOld : SCacheInfo), pDbCache.m_mapCacheInfo[nDataID]? = some sOld →
    ∃ sNew, pDbCache'.m_mapCacheInfo[nDataID]? = some sNew ∧ sNew.nTime = sOld.nTime

section Replaced

variable {pDbCache pDbCache' : CDbCache} {nDataID nTime : Nat} {sNew : SCacheInfo}

/-- A replaced record keeps its time exactly if that is the one it takes. -/
theorem keepsRecordTimes_iff
    (hrecords : ∀ nDataID' : Nat, pDbCache'.m_mapCacheInfo[nDataID']? =
      if nDataID' = nDataID then some sNew else pDbCache.m_mapCacheInfo[nDataID']?)
    (htime : pDbCache.m_mapCacheInfo[nDataID]? = none ∧ sNew.nTime = 0 ∨
      ∃ sOld, pDbCache.m_mapCacheInfo[nDataID]? = some sOld ∧ sNew.nTime = nTime) :
    KeepsRecordTimes pDbCache pDbCache' ↔
      ∀ sCacheInfo, pDbCache.m_mapCacheInfo[nDataID]? = some sCacheInfo →
        sCacheInfo.nTime = nTime := by
  have hreplaced : ∀ sOld, pDbCache.m_mapCacheInfo[nDataID]? = some sOld →
      sNew.nTime = nTime := by
    intro sOld hsome
    rcases htime with ⟨hnone, _⟩ | ⟨_, _, hset⟩
    · rw [hsome] at hnone
      cases hnone
    · exact hset
  constructor
  · intro hkept sOld hsome
    obtain ⟨sNew', hnew, heq⟩ := hkept nDataID sOld hsome
    rw [hrecords, if_pos rfl, Option.some.injEq] at hnew
    subst hnew
    exact heq.symm.trans (hreplaced sOld hsome)
  · intro hold nDataID' sOld hsome
    rw [hrecords]
    by_cases heq : nDataID' = nDataID
    · subst heq
      rw [if_pos rfl]
      exact ⟨sNew, rfl, (hreplaced sOld hsome).trans (hold sOld hsome).symm⟩
    · rw [if_neg heq]
      exact ⟨sOld, hsome, rfl⟩

/-- A record that is new is not modified. -/
theorem KeepsRecordTimes.modified (hkept : KeepsRecordTimes pDbCache pDbCache')
    (hrecords : ∀ nDataID' : Nat, pDbCache'.m_mapCacheInfo[nDataID']? =
      if nDataID' = nDataID then some sNew else pDbCache.m_mapCacheInfo[nDataID']?)
    (htime : pDbCache.m_mapCacheInfo[nDataID]? = none ∧ sNew.nTime = 0 ∨
      ∃ sOld, pDbCache.m_mapCacheInfo[nDataID]? = some sOld ∧ sNew.nTime = nTime)
    {nDataID' : Nat} {sNew' : SCacheInfo}
    (hnew : pDbCache'.m_mapCacheInfo[nDataID']? = some sNew') (hne : sNew'.nTime ≠ 0) :
    ∃ sOld, pDbCache.m_mapCacheInfo[nDataID']? = some sOld ∧ sOld.nTime ≠ 0 := by
  cases hsome : pDbCache.m_mapCacheInfo[nDataID']? with
  | some sOld =>
      obtain ⟨sNew'', hnew', heq⟩ := hkept nDataID' sOld hsome
      rw [hnew, Option.some.injEq] at hnew'
      subst hnew'
      exact ⟨sOld, rfl, heq ▸ hne⟩
  | none =>
      rw [hrecords, hsome] at hnew
      split at hnew
      · rename_i heq
        subst heq
        obtain rfl := Option.some.inj hnew
        rcases htime with ⟨_, hzero⟩ | ⟨sOld, hold', _⟩
        · exact absurd hzero hne
        · rw [hsome] at hold'
          cases hold'
      · cases hnew

end Replaced

/-- **What scheduling an object reveals and hides:** nothing if the object is scheduled already, or
if neither it nor the one it replaces has a modified record. -/
theorem schedule_awaiting_iff {nID pObject : Nat} {pDbCache : CDbCache}
    (hkept : KeepsRecordTimes (mgr.objects pObject) pDbCache)
    (hmodified : ∀ (nDataID : Nat) (sNew : SCacheInfo),
      pDbCache.m_mapCacheInfo[nDataID]? = some sNew → sNew.nTime ≠ 0 →
      ∃ sOld, (mgr.objects pObject).m_mapCacheInfo[nDataID]? = some sOld ∧ sOld.nTime ≠ 0)
    (hentry : mgr'.m_mapDirtyCache[nID]? = some pObject)
    (hobject : mgr'.objects pObject = pDbCache) :
    (∀ pObject' nDataID : Nat, (∃ sCacheInfo, Scheduled mgr' nID pObject' nDataID sCacheInfo) ↔
        ∃ sCacheInfo, Scheduled mgr nID pObject' nDataID sCacheInfo) ↔
      mgr.m_mapDirtyCache[nID]? = some pObject ∨
        Unmodified mgr pObject ∧
          ∀ pObject' : Nat, mgr.m_mapDirtyCache[nID]? = some pObject' →
            Unmodified mgr pObject' := by
  constructor
  · intro hsame
    by_cases hscheduled : mgr.m_mapDirtyCache[nID]? = some pObject
    · exact .inl hscheduled
    · refine .inr ⟨?_, ?_⟩
      · -- A modified record of the object would become reachable.
        intro nDataID sOld hsome
        by_contra hne
        obtain ⟨sNew, hnew, heq⟩ := hkept nDataID sOld hsome
        obtain ⟨_, hreached, _⟩ := (hsame pObject nDataID).mp
          ⟨sNew, hentry, by rw [hobject]; exact hnew, heq ▸ hne⟩
        exact hscheduled hreached
      · -- One of the object it replaces would not be reachable any more.
        intro pObject' hin nDataID sOld hsome
        by_contra hne
        obtain ⟨_, hreached, _⟩ := (hsame pObject' nDataID).mpr ⟨sOld, hin, hsome, hne⟩
        rw [hentry, Option.some.injEq] at hreached
        exact hscheduled (hreached ▸ hin)
  · intro hscheduled pObject' nDataID
    constructor
    · intro hreached
      obtain ⟨sNew, hp, hnew, hne⟩ := hreached
      obtain rfl := Option.some.inj (hentry.symm.trans hp)
      rw [hobject] at hnew
      obtain ⟨sOld, hsome, hne'⟩ := hmodified nDataID sNew hnew hne
      rcases hscheduled with hin | ⟨hclean, _⟩
      · exact ⟨sOld, hin, hsome, hne'⟩
      · exact absurd (hclean nDataID sOld hsome) hne'
    · intro hreached
      obtain ⟨sOld, hp, hsome, hne⟩ := hreached
      rcases hscheduled with hin | ⟨_, hclean⟩
      · obtain rfl := Option.some.inj (hin.symm.trans hp)
        obtain ⟨sNew, hnew, heq⟩ := hkept nDataID sOld hsome
        exact ⟨sNew, hentry, by rw [hobject]; exact hnew, heq ▸ hne⟩
      · exact absurd (hclean pObject' hp nDataID sOld hsome) hne

/-- **One record of a cached object replaced, and the object scheduled.** -/
theorem schedule_sameAwaiting_iff (hwf : WellFormed mgr) {nID pObject nDataID nTime : Nat}
    (hcached : mgr.m_mapCache[nID]? = some pObject) {pDbCache : CDbCache} {sNew : SCacheInfo}
    (hrecords : ∀ nDataID' : Nat, pDbCache.m_mapCacheInfo[nDataID']? =
      if nDataID' = nDataID then some sNew else (mgr.objects pObject).m_mapCacheInfo[nDataID']?)
    (htime : (mgr.objects pObject).m_mapCacheInfo[nDataID]? = none ∧ sNew.nTime = 0 ∨
      ∃ sOld, (mgr.objects pObject).m_mapCacheInfo[nDataID]? = some sOld ∧ sNew.nTime = nTime)
    (hcache : mgr'.m_mapCache = mgr.m_mapCache)
    (hobjects : mgr'.objects = Function.update mgr.objects pObject pDbCache)
    (hdirty : mgr'.m_mapDirtyCache = mgr.m_mapDirtyCache.insert nID pObject) :
    SameAwaiting mgr mgr' ↔
      (∀ sCacheInfo, (mgr.objects pObject).m_mapCacheInfo[nDataID]? = some sCacheInfo →
        sCacheInfo.nTime = nTime) ∧
      (mgr.m_mapDirtyCache[nID]? = some pObject ∨
        Unmodified mgr pObject ∧
          ∀ pObject' : Nat, mgr.m_mapDirtyCache[nID]? = some pObject' →
            Unmodified mgr pObject') := by
  have hobject : mgr'.objects pObject = pDbCache := by rw [hobjects, Function.update_self]
  have hentry : mgr'.m_mapDirtyCache[nID]? = some pObject := by simp [hdirty]
  have hself : ∀ nDataID' : Nat,
      mgr'.record nID nDataID' = pDbCache.m_mapCacheInfo[nDataID']? := by
    intro nDataID'
    rw [record_of_cached (hcache ▸ hcached), hobject]
  have hother : ∀ nID' nDataID' : Nat, nID ≠ nID' →
      mgr'.record nID' nDataID' = mgr.record nID' nDataID' := by
    intro nID' nDataID' hne
    rw [← (store_sameAt hwf hne hcached pDbCache).record nDataID']
    simp only [record, hcache, hobjects, store_mapCache, store_objects]
  rw [← keepsRecordTimes_iff hrecords htime]
  constructor
  · intro hsame
    have hkept : KeepsRecordTimes (mgr.objects pObject) pDbCache := by
      intro nDataID' sOld hsome
      rw [← hself]
      exact hsame.times nID nDataID' sOld ((record_of_cached hcached nDataID').trans hsome)
    exact ⟨hkept, (schedule_awaiting_iff hkept (fun _ _ => hkept.modified hrecords htime) hentry
      hobject).mp (hsame.awaiting nID)⟩
  · intro hcond
    obtain ⟨hkept, hscheduled⟩ := hcond
    refine ⟨fun nID' => ?_, fun nID' nDataID' sOld hrecord => ?_⟩
    · by_cases hid : nID = nID'
      · subst hid
        exact (schedule_awaiting_iff hkept (fun _ _ => hkept.modified hrecords htime) hentry
          hobject).mpr hscheduled
      · -- The entries of the other ids lead to other objects.
        intro pObject' nDataID'
        have hentry' : mgr'.m_mapDirtyCache[nID']? = mgr.m_mapDirtyCache[nID']? := by
          simp [hdirty, Std.ExtTreeMap.getElem?_insert, hid]
        unfold Scheduled
        rw [hentry', hobjects]
        refine exists_congr fun sCacheInfo => and_congr_right fun hin => ?_
        have hp : pObject' ≠ pObject := by
          rintro rfl
          exact hid (hwf.inj (.inl hcached) (.inr hin))
        rw [Function.update_of_ne hp]
    · by_cases hid : nID = nID'
      · subst hid
        rw [hself]
        rw [record_of_cached hcached] at hrecord
        exact hkept nDataID' sOld hrecord
      · exact ⟨sOld, (hother nID' nDataID' hid).trans hrecord, rfl⟩

/-- **`setData` and what awaits a write-back.** -/
theorem setData_sameAwaiting_iff (pb : Runtime) (hwf : WellFormed mgr)
    (hdisabled : mgr.isDisabled = false) (nID : Nat) (pData : RowMessage) (nTime : Nat) :
    SameAwaiting mgr (mgr.setData pb nID pData nTime).2 ↔ KeepsTimes pb mgr nID pData nTime := by
  have houtcome := setData_outcome pb hdisabled nID pData nTime
  have hnamed := getDataID_sameAwaiting mgr pData.GetTypeName
  unfold KeepsTimes
  generalize hresult : mgr.setData pb nID pData nTime = result at houtcome
  cases houtcome with
  | uncached _ huncached hadd =>
      refine ⟨fun _ pObject hcached => ?_, fun _ => hadd.sameAwaiting hwf⟩
      rw [huncached] at hcached
      cases hcached
  | badIndex _ _ hbad => exact ⟨fun _ _ _ hgood => absurd hbad hgood, fun _ => hnamed⟩
  | refused pObject hcached _ hrefused =>
      refine ⟨fun _ pObject' hcached' _ hset => ?_, fun _ => hnamed⟩
      rw [hcached, Option.some.injEq] at hcached'
      rw [← hcached', hrefused] at hset
      cases hset
  | stored pObject pDbCache hcached hgood hset =>
      obtain ⟨sNew, hrecords, htime⟩ := setOutcome_records hset
      have hset' : ((mgr.objects pObject).setData pb (mgr.getDataID pData.GetTypeName).1
          pData.GetTypeName pData nTime).1 = true := by
        by_contra hrefused
        simp only [Bool.not_eq_true] at hrefused
        have hsnd : mgr.setData pb nID pData nTime =
            (false, (mgr.getDataID pData.GetTypeName).2) := by
          unfold setData
          rcases hpair : (mgr.objects pObject).setData pb
            (mgr.getDataID pData.GetTypeName).1 pData.GetTypeName pData nTime with ⟨bSet, pNew⟩
          rw [hpair] at hrefused
          simp only at hrefused
          subst hrefused
          simp [hdisabled, hcached, hgood, hpair]
        rw [hsnd] at hresult
        cases hresult
      let mgr' := ((mgr.getDataID pData.GetTypeName).2.store pObject pDbCache).markDirty nID pObject
      have hcache : mgr'.m_mapCache = mgr.m_mapCache := by simp [mgr']
      have hobjects : mgr'.objects = Function.update mgr.objects pObject pDbCache := by
        simp [mgr']
      have hdirty : mgr'.m_mapDirtyCache = mgr.m_mapDirtyCache.insert nID pObject := by
        simp [mgr']
      refine (schedule_sameAwaiting_iff hwf hcached hrecords htime hcache hobjects
        hdirty).trans ?_
      constructor
      · intro hcond pObject' hcached' _ _
        rw [hcached, Option.some.injEq] at hcached'
        exact hcached' ▸ hcond
      · exact fun hcond => hcond pObject hcached hgood hset'

end CDbCacheMgr

namespace Store

open CDbCacheMgr

variable {σ : Type} (pb : Runtime) (srv : Server σ)

/-- The row in a response. -/
def rowOf : Option Message → Option RowMessage
  | some (.row m) => some m
  | _ => none

/-- The message a SELECT answers with: the cached one, or else the database's, unless the
connection is lost. -/
def selected (st : Store σ) (id : Nat) (table_name : String) : Option RowMessage :=
  match (st.m_dbCacheMgr.getData pb id (getMessageNameByTableName table_name)).1 with
  | some pMessage => some pMessage
  | none =>
      let (nErrorCode, pMessage, _) := CDbThread.handle pb srv .kOT_SELECT
        (some (.select_command id table_name)) st.m_dbConnection
      if nErrorCode = .kRC_LOST_CONNECTION then none else rowOf pMessage

/-- A SELECT leaves what awaits a write-back as it was: the cache is off, or `setData` does with
the answer, as far as there is one that serialises. -/
def QuietSelect (st : Store σ) (pRequest : Option Message) (nSetTime : Nat) : Prop :=
  match pRequest with
  | some (.select_command id table_name) =>
      st.m_dbCacheMgr.isDisabled = false → ∀ m szData, st.selected pb srv id table_name = some m →
        pb.SerializeToString (.row m) = some szData →
        KeepsTimes pb
          (st.m_dbCacheMgr.getDataID (getMessageNameByTableName table_name)).2 id m nSetTime
  | _ => True

variable {pb srv} {st : Store σ}

/-- The post-step of a SELECT is `setData` with the row of the response, if it serialises. -/
theorem onPostCache_select {mgr : CDbCacheMgr} (hdisabled : mgr.isDisabled = false) (id : Nat)
    (table_name : String) (pResponse : Option Message) (nSetTime : Nat) :
    CDbThread.onPostCache pb mgr .kOT_SELECT (some (.select_command id table_name)) pResponse
        nSetTime =
      match rowOf pResponse with
      | none => mgr
      | some m =>
          if (pb.SerializeToString (.row m)).isSome then (mgr.setData pb id m nSetTime).2
          else mgr := by
  unfold CDbThread.onPostCache
  rw [hdisabled, if_neg Bool.false_ne_true]
  cases pResponse with
  | none => rfl
  | some response =>
      cases response with
      | row m =>
          simp only [rowOf]
          cases pb.SerializeToString (.row m) <;> rfl
      | _ => rfl

/-- **A SELECT changes the cache** by finding the index of its name and by `setData` with its
answer. -/
theorem execute_select_mgr (hdisabled : st.m_dbCacheMgr.isDisabled = false) (id : Nat)
    (table_name : String) (nSetTime : Nat) :
    (st.execute pb srv .kOT_SELECT (some (.select_command id table_name))
        nSetTime).1.m_dbCacheMgr =
      let mgr := (st.m_dbCacheMgr.getDataID (getMessageNameByTableName table_name)).2
      match st.selected pb srv id table_name with
      | none => mgr
      | some m =>
          if (pb.SerializeToString (.row m)).isSome then (mgr.setData pb id m nSetTime).2
          else mgr := by
  have hon : (st.m_dbCacheMgr.getDataID (getMessageNameByTableName table_name)).2.isDisabled =
      false := (getDataID_isDisabled ..).trans hdisabled
  have hmgr : (st.m_dbCacheMgr.getData pb id (getMessageNameByTableName table_name)).2 =
      (st.m_dbCacheMgr.getDataID (getMessageNameByTableName table_name)).2 := by
    rw [getData_eq]
  have hpre := @CDbThread.onPreCache_select pb st.m_dbCacheMgr hdisabled id table_name nSetTime
  have hexecuted := execute_cases pb srv st .kOT_SELECT (some (.select_command id table_name))
    nSetTime
  rw [← hmgr] at hon ⊢
  unfold selected
  generalize st.execute pb srv .kOT_SELECT (some (.select_command id table_name)) nSetTime =
    result at hexecuted
  cases hfound : (st.m_dbCacheMgr.getData pb id (getMessageNameByTableName table_name)).1 with
  | some m =>
      simp only [hfound, Option.isSome_some, Option.map_some] at hpre
      cases hexecuted with
      | absorbed pMessage mgr heq =>
          rw [hpre] at heq
          cases heq
          exact onPostCache_select hon id table_name (some (.row m)) nSetTime
      | lost _ _ _ _ heq =>
          rw [hpre] at heq
          cases heq
      | answered _ _ _ _ _ heq =>
          rw [hpre] at heq
          cases heq
  | none =>
      simp only [hfound, Option.isSome_none, Option.map_none] at hpre
      cases hexecuted with
      | absorbed _ _ heq =>
          rw [hpre] at heq
          cases heq
      | lost pMessage pAnswer mgr conn heq hhandle =>
          rw [hpre] at heq
          cases heq
          rw [hhandle]
          rfl
      | answered pMessage pAnswer mgr nErrorCode conn heq hhandle hcode =>
          rw [hpre] at heq
          cases heq
          rw [hhandle]
          simp only [if_neg hcode]
          exact onPostCache_select hon id table_name pAnswer nSetTime

/-- What `getDataID` does before is of no account. -/
theorem sameAwaiting_getDataID_iff (mgr mgr' : CDbCacheMgr) (szDataName : String) :
    SameAwaiting (mgr.getDataID szDataName).2 mgr' ↔ SameAwaiting mgr mgr' := by
  constructor
  · intro h
    refine ⟨?_, ?_⟩
    · intro nID pObject nDataID
      have hsame := h.awaiting nID pObject nDataID
      simpa [Scheduled] using hsame
    · intro nID nDataID sCacheInfo hrecord
      exact h.times nID nDataID sCacheInfo (by rwa [getDataID_record])
  · intro h
    refine ⟨?_, ?_⟩
    · intro nID pObject nDataID
      have hsame := h.awaiting nID pObject nDataID
      simpa [Scheduled] using hsame
    · intro nID nDataID sCacheInfo hrecord
      rw [getDataID_record] at hrecord
      exact h.times nID nDataID sCacheInfo hrecord

/-- With the cache off, or with another request, a SELECT leaves the manager alone. -/
theorem execute_select_refused {pRequest : Option Message}
    (hrefused : st.m_dbCacheMgr.isDisabled = true ∨
      ∀ id table_name, pRequest ≠ some (.select_command id table_name)) (nSetTime : Nat) :
    (st.execute pb srv .kOT_SELECT pRequest nSetTime).1.m_dbCacheMgr = st.m_dbCacheMgr := by
  have hpre : CDbThread.onPreCache pb st.m_dbCacheMgr .kOT_SELECT pRequest nSetTime =
      (false, none, st.m_dbCacheMgr) := by
    rcases hrefused with hdisabled | hother
    · exact CDbThread.onPreCache_disabled hdisabled ..
    · unfold CDbThread.onPreCache
      split
      · rfl
      · split <;> first | rfl | simp_all
  have hpost : ∀ pResponse, CDbThread.onPostCache pb st.m_dbCacheMgr .kOT_SELECT pRequest
      pResponse nSetTime = st.m_dbCacheMgr := by
    intro pResponse
    unfold CDbThread.onPostCache
    split
    · rfl
    · split <;> first | rfl | simp_all
  unfold execute
  rw [hpre]
  simp only
  split
  · rfl
  · exact hpost _

/-- A SELECT leaves the manager alone, or carries its command to a cache that is on. -/
theorem execute_select_or (pRequest : Option Message) (nSetTime : Nat) :
    (st.execute pb srv .kOT_SELECT pRequest nSetTime).1.m_dbCacheMgr = st.m_dbCacheMgr ∨
      st.m_dbCacheMgr.isDisabled = false ∧
        ∃ id table_name, pRequest = some (.select_command id table_name) := by
  by_cases hrefused : st.m_dbCacheMgr.isDisabled = true ∨
      ∀ id table_name, pRequest ≠ some (.select_command id table_name)
  · exact .inl (execute_select_refused hrefused nSetTime)
  · simp only [not_or, not_forall, not_not, Bool.not_eq_true] at hrefused
    exact .inr hrefused

/-- **A SELECT that is executed** leaves what awaits a write-back as it was exactly when it is
quiet. -/
theorem execute_select_sameAwaiting_iff (hwf : st.m_dbCacheMgr.WellFormed)
    (pRequest : Option Message) (nSetTime : Nat) :
    SameAwaiting st.m_dbCacheMgr
        (st.execute pb srv .kOT_SELECT pRequest nSetTime).1.m_dbCacheMgr ↔
      st.QuietSelect pb srv pRequest nSetTime := by
  by_cases hselect : ∃ id table_name, pRequest = some (.select_command id table_name)
  · obtain ⟨id, table_name, rfl⟩ := hselect
    cases hdisabled : st.m_dbCacheMgr.isDisabled with
    | true =>
        rw [execute_select_refused (.inl hdisabled)]
        refine ⟨fun _ => ?_, fun _ => .refl _⟩
        intro hon
        exact absurd (hdisabled.symm.trans hon) (by simp)
    | false =>
        have hnamed := getDataID_sameAwaiting st.m_dbCacheMgr (getMessageNameByTableName table_name)
        rw [execute_select_mgr hdisabled]
        simp only [QuietSelect, hdisabled, forall_true_left]
        cases hselected : st.selected pb srv id table_name with
        | none => exact ⟨fun _ _ _ h => (by cases h), fun _ => hnamed⟩
        | some m =>
            simp only
            cases hdata : pb.SerializeToString (.row m) with
            | none =>
                refine ⟨fun _ m' szData h hdata' => ?_, fun _ => hnamed⟩
                rw [← Option.some.inj h, hdata] at hdata'
                cases hdata'
            | some szData =>
                rw [Option.isSome_some, if_pos rfl, ← sameAwaiting_getDataID_iff,
                  setData_sameAwaiting_iff pb (getDataID_wellFormed hwf _)
                    ((getDataID_isDisabled ..).trans hdisabled)]
                constructor
                · intro hkeeps m' _ h _
                  rwa [← Option.some.inj h]
                · exact fun hall => hall m szData rfl hdata
  · have hother : ∀ id table_name, pRequest ≠ some (.select_command id table_name) :=
      fun id table_name heq => hselect ⟨id, table_name, heq⟩
    rw [execute_select_refused (.inr hother)]
    refine ⟨fun _ => ?_, fun _ => .refl _⟩
    unfold QuietSelect
    split
    · exact absurd rfl (hother _ _)
    · trivial

end Store

/-! ## Runs of reads -/

/-- The event is an UPDATE. -/
def SqlEvent.isUpdate : SqlEvent → Bool
  | .sql (.upsertRow ..) _ => true
  | _ => false

namespace CDbCacheMgr

variable {σ : Type} {pb : Runtime} {srv : Server σ} {mgr : CDbCacheMgr}

/-- No object has a modified record. -/
def AllUnmodified (mgr : CDbCacheMgr) : Prop := ∀ pObject, Unmodified mgr pObject

/-- Where the objects are the same, nothing is modified as before. -/
theorem allUnmodified_of_objects {mgr' : CDbCacheMgr} (h : AllUnmodified mgr)
    (hobjects : mgr'.objects = mgr.objects) : AllUnmodified mgr' := by
  intro pObject nDataID sCacheInfo hrecord
  rw [hobjects] at hrecord
  exact h pObject nDataID sCacheInfo hrecord

/-- One object replaced by one without a modified record. -/
theorem allUnmodified_update (h : AllUnmodified mgr) {mgr' : CDbCacheMgr} {pObject : Nat}
    {pDbCache : CDbCache} (hobjects : mgr'.objects = Function.update mgr.objects pObject pDbCache)
    (hclean : ∀ (nDataID : Nat) (sCacheInfo : SCacheInfo),
      pDbCache.m_mapCacheInfo[nDataID]? = some sCacheInfo → sCacheInfo.nTime = 0) :
    AllUnmodified mgr' := by
  intro pObject' nDataID sCacheInfo hrecord
  rw [hobjects] at hrecord
  by_cases heq : pObject' = pObject
  · subst heq
    rw [Function.update_self] at hrecord
    exact hclean nDataID sCacheInfo hrecord
  · rw [Function.update_of_ne heq] at hrecord
    exact h pObject' nDataID sCacheInfo hrecord

theorem allocate_allUnmodified (h : AllUnmodified mgr) (nID : Nat) :
    AllUnmodified (mgr.allocate nID) :=
  allUnmodified_update h rfl (by simp [CDbCache.empty])

/-- A record that is added is not modified. -/
theorem AddOutcome.allUnmodified (h : AllUnmodified mgr) {nID : Nat} {pData : RowMessage}
    {result : Bool × CDbCacheMgr} (houtcome : AddOutcome pb mgr nID pData result) :
    AllUnmodified result.2 := by
  have hnamed := allUnmodified_of_objects h (getDataID_objects mgr pData.GetTypeName)
  cases houtcome with
  | badIndex => exact hnamed
  | present => exact hnamed
  | unserialised => exact allocate_allUnmodified hnamed nID
  | added szData =>
      apply allUnmodified_update (allocate_allUnmodified hnamed nID) (store_objects ..)
      intro nDataID sCacheInfo hrecord
      simp only [CDbCache.withRecord, CDbCache.empty, Std.ExtTreeMap.getElem?_insert] at hrecord
      split at hrecord
      · exact (Option.some.inj hrecord) ▸ rfl
      · simp at hrecord

/-- **Where it keeps the times, `setData` modifies nothing.** -/
theorem setData_allUnmodified (h : AllUnmodified mgr) (hdisabled : mgr.isDisabled = false)
    {nID nTime : Nat} {pData : RowMessage} (hkeeps : KeepsTimes pb mgr nID pData nTime) :
    AllUnmodified (mgr.setData pb nID pData nTime).2 := by
  have houtcome := setData_outcome pb hdisabled nID pData nTime
  have hnamed := allUnmodified_of_objects h (getDataID_objects mgr pData.GetTypeName)
  have hset : ∀ pObject : Nat, mgr.m_mapCache[nID]? = some pObject →
      (mgr.getDataID pData.GetTypeName).1 ≠ badDataID →
      (mgr.setData pb nID pData nTime).1 = true →
      ((mgr.objects pObject).setData pb (mgr.getDataID pData.GetTypeName).1
        pData.GetTypeName pData nTime).1 = true := by
    intro pObject hcached hgood hsucceeded
    revert hsucceeded
    unfold setData
    simp only [hdisabled, Bool.false_eq_true, if_false, hcached, if_neg hgood, getDataID_objects]
    rcases (mgr.objects pObject).setData pb (mgr.getDataID pData.GetTypeName).1
      pData.GetTypeName pData nTime with ⟨_ | _, pNew⟩
    · exact fun hfalse => hfalse
    · exact fun _ => rfl
  generalize mgr.setData pb nID pData nTime = result at houtcome hset
  cases houtcome with
  | uncached _ _ hadd => exact hadd.allUnmodified h
  | badIndex => exact hnamed
  | refused => exact hnamed
  | stored pObject pDbCache hcached hgood hstored =>
      obtain ⟨hsame, _⟩ := hkeeps pObject hcached hgood (hset pObject hcached hgood rfl)
      obtain ⟨sNew, hrecords, htime⟩ := setOutcome_records hstored
      have hobjects : (((mgr.getDataID pData.GetTypeName).2.store pObject pDbCache).markDirty nID
          pObject).objects = Function.update mgr.objects pObject pDbCache := by
        simp
      apply allUnmodified_update h hobjects
      intro nDataID sCacheInfo hrecord
      rw [hrecords] at hrecord
      split at hrecord
      · obtain rfl := Option.some.inj hrecord
        rcases htime with ⟨_, hzero⟩ | ⟨sOld, hsome, htook⟩
        · exact hzero
        · rw [htook, ← hsame sOld hsome]
          exact h pObject _ sOld hsome
      · exact h pObject nDataID sCacheInfo hrecord

/-! ### Passes with nothing to write -/

/-- A pass over records that were not modified sends nothing, -/
theorem writebackRecords_idle (pb : Runtime) (srv : Server σ) (getDataName : Nat → String)
    (nTime : Nat) {records : List (Nat × SCacheInfo)}
    (h : ∀ record ∈ records, record.2.nTime = 0) (conn : CDbConnection σ) :
    CDbCache.writebackFrom pb srv getDataName nTime records conn = ([], conn) := by
  induction records with
  | nil => rfl
  | cons record rest ih =>
      obtain ⟨nDataID, sCacheInfo⟩ := record
      unfold CDbCache.writebackFrom
      rw [if_pos (.inl (h _ List.mem_cons_self))]
      exact ih fun record hin => h record (List.mem_cons_of_mem _ hin)

/-- so it sends nothing for an object, -/
theorem writebackObject_idle (pb : Runtime) (srv : Server σ) (h : AllUnmodified mgr)
    (nID pObject nTime : Nat) (conn : CDbConnection σ) :
    (mgr.writebackObject pb srv nID pObject nTime conn).2 = ([], conn) := by
  have hrecords : ∀ record ∈ (mgr.objects pObject).m_mapCacheInfo.toList, record.2.nTime = 0 :=
    fun record hin => h pObject record.1 record.2
      (Std.ExtTreeMap.mem_toList_iff_getElem?_eq_some.mp hin)
  simp only [writebackObject, CDbCache.writeback,
    writebackRecords_idle pb srv mgr.getDataName nTime hrecords, List.map_nil]

/-- nor for entries. -/
theorem writebackFrom_idle (pb : Runtime) (srv : Server σ) (h : AllUnmodified mgr) (nTime : Nat)
    (entries : List (Nat × Nat)) (conn : CDbConnection σ) :
    (mgr.writebackFrom pb srv nTime entries conn).2 = ([], conn) := by
  induction entries with
  | nil => rfl
  | cons entry rest ih =>
      obtain ⟨nID, pObject⟩ := entry
      have hhead := writebackObject_idle pb srv h nID pObject nTime conn
      unfold CDbCacheMgr.writebackFrom
      simp only [hhead, ih, List.append_nil]

/-- The timed pass, -/
theorem writeback_idle (pb : Runtime) (srv : Server σ) (h : AllUnmodified mgr) (nTime : Nat)
    (conn : CDbConnection σ) : (mgr.writeback pb srv nTime conn).2 = ([], conn) := by
  rcases writeback_cases pb srv mgr nTime conn with ⟨_, heq⟩ | ⟨_, _, heq⟩
  · rw [heq]
  · rw [heq]
    exact writebackFrom_idle pb srv h nTime _ conn

/-- the eviction -/
theorem cleanCache_idle (pb : Runtime) (srv : Server σ) (h : AllUnmodified mgr) (nTime : Nat)
    (sample : Sample) (conn : CDbConnection σ) :
    (mgr.cleanCache pb srv nTime sample conn).2 = ([], conn) := by
  rcases cleanCache_cases pb srv mgr nTime sample conn with ⟨_, _, heq⟩ | ⟨nID, pObject, _, _, heq⟩
  · rw [heq]
  · rw [heq]
    exact writebackObject_idle pb srv h nID pObject 0 conn

/-- and the flush are idle. -/
theorem flushCache_idle (pb : Runtime) (srv : Server σ) (h : AllUnmodified mgr) (nKey : Nat)
    (bDel : Bool) (conn : CDbConnection σ) :
    (mgr.flushCache pb srv nKey bDel conn).2 = ([], conn) := by
  rcases flushCache_cases pb srv mgr nKey bDel conn with
    ⟨_, heq⟩ | ⟨pObject, _, _, _, heq⟩ | ⟨_, _, heq⟩
  · rw [heq]
  · rw [heq]
    exact writebackObject_idle pb srv h nKey pObject 0 conn
  · rw [heq]
    exact writeback_idle pb srv h 0 conn

/-- **A tick without modified records** leaves the connection alone. -/
theorem update_idle (pb : Runtime) (srv : Server σ) (h : AllUnmodified mgr) (nCurTime : Nat)
    (sample : Sample) (conn : CDbConnection σ) :
    (mgr.update pb srv nCurTime sample conn).2 = ([], conn) := by
  have hclean := Prod.ext_iff.mp (cleanCache_idle pb srv h nCurTime sample conn)
  have hcleaned := allUnmodified_of_objects h
    (cleanCache_sameRecords pb srv mgr nCurTime sample conn).objects
  have hpass := Prod.ext_iff.mp (writeback_idle pb srv hcleaned nCurTime conn)
  simp only [update, hclean.1, hclean.2, hpass.1, hpass.2, List.append_nil]

end CDbCacheMgr

/-- The handler of SELECT sends no UPDATE. -/
theorem selectHandler_updates {σ : Type} (pb : Runtime) (srv : Server σ) (conn : CDbConnection σ)
    (pRequest : Option Message) :
    (CDbThread.handle pb srv .kOT_SELECT pRequest conn).2.2.trace.filter SqlEvent.isUpdate =
      conn.trace.filter SqlEvent.isUpdate := by
  have hsent : ∀ szTableName szPrimaryName nID,
      (conn.execute srv (.selectRow szTableName szPrimaryName nID) true).2.2.trace.filter
        SqlEvent.isUpdate = conn.trace.filter SqlEvent.isUpdate := by
    intro szTableName szPrimaryName nID
    unfold CDbConnection.execute
    split
    · simp [CDbConnection.sent_trace, SqlEvent.isUpdate]
    · rfl
  cases pRequest with
  | none => rfl
  | some pMessage =>
      simp only [CDbThread.handle, CDbCommandHandlerProxy.onDbCommand,
        CDbCommandSelectHandler.onDbCommand]
      split
      · rename_i id table_name
        split
        · rfl
        · rename_i m _
          split
          · rfl
          · rw [← hsent table_name (getPrimaryName m) id]
            rcases conn.execute srv (.selectRow table_name (getPrimaryName m) id) true with
              ⟨nErrorType, pDbRecordset, conn'⟩
            simp only
            split <;> rfl
      · rfl

/-- What a worker that only reads goes through. -/
def StoreAction.ReadOnly : StoreAction → Prop
  | .command sDbCommand _ => sDbCommand.nType = .kOT_SELECT ∨ sDbCommand.nType = .kOT_FLUSH
  | _ => True

namespace Store

open CDbCacheMgr

variable {σ : Type} {pb : Runtime} {srv : Server σ} {st : Store σ}

/-- A SELECT that is due leaves what awaits a write-back as it was. -/
def QuietAction (pb : Runtime) (srv : Server σ) (st : Store σ) : StoreAction → Prop
  | .command sDbCommand clock =>
      sDbCommand.nType = .kOT_SELECT → sDbCommand.isExpired clock.nCurTime = false →
        st.QuietSelect pb srv sDbCommand.pMessage clock.nSetTime
  | _ => True

/-- The store has nothing to write back, and its connection has sent the UPDATEs `updates`. -/
structure Reading (updates : List SqlEvent) (st : Store σ) : Prop where
  unmodified : st.m_dbCacheMgr.AllUnmodified
  updates : st.m_dbConnection.trace.filter SqlEvent.isUpdate = updates

/-- **A SELECT keeps what awaits a write-back** exactly when it is quiet or past its deadline. -/
theorem process_sameAwaiting_iff (hwf : st.m_dbCacheMgr.WellFormed) {sDbCommand : SDbCommand}
    (htype : sDbCommand.nType = .kOT_SELECT) (clock : Clock) :
    SameAwaiting st.m_dbCacheMgr (st.process pb srv sDbCommand clock).1.m_dbCacheMgr ↔
      st.QuietAction pb srv (.command sDbCommand clock) := by
  have hflush : sDbCommand.nType ≠ .kOT_FLUSH := by simp [htype]
  simp only [QuietAction, htype, forall_true_left]
  cases hexpired : sDbCommand.isExpired clock.nCurTime with
  | true =>
      rw [process_expired pb srv hflush hexpired]
      exact ⟨fun _ h => (by cases h), fun _ => .refl _⟩
  | false =>
      rw [process_executed pb srv hflush hexpired, htype]
      exact (execute_select_sameAwaiting_iff hwf sDbCommand.pMessage clock.nSetTime).trans
        ⟨fun h _ => h, fun h => h rfl⟩

/-- A quiet SELECT modifies nothing. -/
theorem execute_select_allUnmodified (h : st.m_dbCacheMgr.AllUnmodified)
    (pRequest : Option Message) (nSetTime : Nat)
    (hquiet : st.QuietSelect pb srv pRequest nSetTime) :
    (st.execute pb srv .kOT_SELECT pRequest nSetTime).1.m_dbCacheMgr.AllUnmodified := by
  obtain hsame | ⟨hdisabled, id, table_name, rfl⟩ :=
    @execute_select_or _ pb srv st pRequest nSetTime
  · rw [hsame]
    exact h
  · have hnamed := allUnmodified_of_objects h
      (getDataID_objects st.m_dbCacheMgr (getMessageNameByTableName table_name))
    rw [execute_select_mgr hdisabled]
    cases hselected : st.selected pb srv id table_name with
    | none => exact hnamed
    | some m =>
        simp only
        cases hdata : pb.SerializeToString (.row m) with
        | none => exact hnamed
        | some szData =>
            rw [Option.isSome_some, if_pos rfl]
            exact setData_allUnmodified hnamed ((getDataID_isDisabled ..).trans hdisabled)
              (hquiet hdisabled m szData hselected hdata)

/-- A SELECT sends no UPDATE. -/
theorem execute_select_updates (pRequest : Option Message) (nSetTime : Nat) :
    (st.execute pb srv .kOT_SELECT pRequest nSetTime).1.m_dbConnection.trace.filter
        SqlEvent.isUpdate = st.m_dbConnection.trace.filter SqlEvent.isUpdate := by
  have hexecuted := execute_cases pb srv st .kOT_SELECT pRequest nSetTime
  have hkept := selectHandler_updates pb srv st.m_dbConnection pRequest
  generalize st.execute pb srv .kOT_SELECT pRequest nSetTime = result at hexecuted
  cases hexecuted with
  | absorbed => rfl
  | lost _ _ _ conn _ hhandle => rwa [hhandle] at hkept
  | answered _ _ _ _ conn _ hhandle => rwa [hhandle] at hkept

/-- **Step.**  Reading goes on with every action that only reads, and quietly. -/
theorem Reading.step {updates : List SqlEvent} (h : Reading updates st) {action : StoreAction}
    (hread : action.ReadOnly) (hquiet : st.QuietAction pb srv action) :
    Reading updates (st.step pb srv action).1 := by
  cases action with
  | command sDbCommand clock =>
      rcases hread with hselect | hflush
      · have htype : sDbCommand.nType ≠ .kOT_FLUSH := by simp [hselect]
        cases hexpired : sDbCommand.isExpired clock.nCurTime with
        | true =>
            simp only [Store.step, process_expired pb srv htype hexpired]
            exact h
        | false =>
            simp only [Store.step, process_executed pb srv htype hexpired, hselect]
            exact ⟨execute_select_allUnmodified h.unmodified _ _ (hquiet hselect hexpired),
              (execute_select_updates _ _).trans h.updates⟩
      · have hprocessed := process_cases pb srv st sDbCommand clock
        simp only [Store.step]
        generalize st.process pb srv sDbCommand clock = result at hprocessed
        cases hprocessed with
        | flush id type _ _ mgr writes conn hpass =>
            have hsame := flushCache_sameRecords pb srv st.m_dbCacheMgr id
              (type == EFlushCacheType.kFCT_DEL.code) st.m_dbConnection
            have hidle := flushCache_idle pb srv h.unmodified id
              (type == EFlushCacheType.kFCT_DEL.code) st.m_dbConnection
            rw [hpass] at hsame hidle
            obtain ⟨rfl, rfl⟩ := Prod.mk.inj hidle
            exact ⟨allUnmodified_of_objects h.unmodified hsame.objects, h.updates⟩
        | flushNothing => exact h
        | expired htype => exact absurd hflush htype
        | executed htype => exact absurd hflush htype
  | tick nCurTime sample =>
      have hsame := update_sameRecords pb srv st.m_dbCacheMgr nCurTime sample st.m_dbConnection
      have hidle := update_idle pb srv h.unmodified nCurTime sample st.m_dbConnection
      refine ⟨allUnmodified_of_objects h.unmodified hsame.objects, ?_⟩
      simp only [Store.step, Store.update, hidle]
      exact h.updates
  | finish =>
      have hsame := flushCache_sameRecords pb srv st.m_dbCacheMgr 0 true st.m_dbConnection
      have hidle := flushCache_idle pb srv h.unmodified 0 true st.m_dbConnection
      refine ⟨allUnmodified_of_objects h.unmodified hsame.objects, ?_⟩
      simp only [Store.step, Store.flushAll, hidle]
      exact h.updates

end Store

/-- **Reads and writes.**  In every state a worker reaches, a SELECT leaves the records that
await a write-back and all times of modification as they were exactly when it is quiet; and a
worker that takes only quiet SELECTs, FLUSHes, ticks and its last flush, in any order, sends no
UPDATE. -/
theorem reads_without_updates_iff {σ : Type} (pb : Runtime) (srv : Server σ)
    (nMaxCacheSize nWritebackTime : Nat) (conn : CDbConnection σ) :
    (∀ (actions : List StoreAction) (sDbCommand : SDbCommand) (clock : Clock),
      sDbCommand.nType = .kOT_SELECT →
      let st := Runs.run (Store.step pb srv) (Store.init nMaxCacheSize nWritebackTime conn) actions
      st.m_dbCacheMgr.SameAwaiting (st.process pb srv sDbCommand clock).1.m_dbCacheMgr ↔
        st.QuietAction pb srv (.command sDbCommand clock)) ∧
    ∀ actions : List StoreAction, (∀ action ∈ actions, action.ReadOnly) →
      Runs.Guarded (Store.step pb srv) (Store.QuietAction pb srv)
        (Store.init nMaxCacheSize nWritebackTime conn) actions →
      (Runs.run (Store.step pb srv) (Store.init nMaxCacheSize nWritebackTime conn)
          actions).m_dbConnection.trace.filter SqlEvent.isUpdate =
        conn.trace.filter SqlEvent.isUpdate := by
  refine ⟨?_, ?_⟩
  · intro actions sDbCommand clock htype
    have hinit : (Store.init nMaxCacheSize nWritebackTime conn).m_dbCacheMgr.WellFormed :=
      CDbCacheMgr.init_wellFormed nMaxCacheSize nWritebackTime
    have hwf := Store.run_wellFormed pb srv hinit actions
    exact Store.process_sameAwaiting_iff hwf htype clock
  · intro actions hread hquiet
    have hinit : Store.Reading (conn.trace.filter SqlEvent.isUpdate)
        (Store.init nMaxCacheSize nWritebackTime conn) := by
      refine ⟨?_, rfl⟩
      intro pObject nDataID sCacheInfo hrecord
      simp [Store.init, CDbCacheMgr.init, CDbCache.empty] at hrecord
    exact (Runs.run_invariant (Store.Reading (conn.trace.filter SqlEvent.isUpdate))
      (fun _ _ h hok => h.step hok.1 hok.2) hinit (hquiet.and_forall hread)).updates

/-- A server that answers every SELECT with player 5. -/
def onePlayerServer : Server Unit :=
  .constant (.rows ⟨["id", "name"], [[some [53], some [97]]]⟩)

/-- SELECT of player 5. -/
def selectFive : SDbCommand := ⟨0, .kOT_SELECT, 0, 0, some (.select_command 5 "player_base")⟩

/-- The first SELECT of a player leaves nothing to write. -/
theorem first_select_without_updates :
    let st := Store.init 1000 60 ⟨true, (), 0, []⟩
    (st.m_dbCacheMgr.SameAwaiting
        (st.process PlayerBase.runtime onePlayerServer selectFive ⟨1, 1⟩).1.m_dbCacheMgr ↔
      st.QuietAction PlayerBase.runtime onePlayerServer (.command selectFive ⟨1, 1⟩)) ∧
    (Runs.run (Store.step PlayerBase.runtime onePlayerServer) st
        [.command selectFive ⟨1, 1⟩, .finish]).m_dbConnection.trace.filter SqlEvent.isUpdate =
      [] := by
  have hreads := reads_without_updates_iff PlayerBase.runtime onePlayerServer 1000 60
    ⟨true, (), 0, []⟩
  refine ⟨hreads.1 [] selectFive ⟨1, 1⟩ rfl, hreads.2 _ ?_ ?_⟩
  · intro action hin
    simp only [List.mem_cons, List.not_mem_nil, or_false] at hin
    rcases hin with rfl | rfl
    · exact .inl rfl
    · trivial
  · refine ⟨?_, trivial, trivial⟩
    -- Nothing is cached yet.
    intro _ _ _ m szData _ _ pObject hcached
    simp [Store.init, CDbCacheMgr.init] at hcached

/-- The second SELECT of a player schedules it, and the last flush writes it. -/
theorem second_select_written_back :
    (¬ ∀ (σ : Type) (pb : Runtime) (srv : Server σ) (nMaxCacheSize nWritebackTime : Nat)
        (conn : CDbConnection σ) (actions : List StoreAction) (sDbCommand : SDbCommand)
        (clock : Clock),
      let st := Runs.run (Store.step pb srv) (Store.init nMaxCacheSize nWritebackTime conn) actions
      sDbCommand.nType = .kOT_SELECT →
      st.m_dbCacheMgr.SameAwaiting (st.process pb srv sDbCommand clock).1.m_dbCacheMgr) ∧
    ¬ ∀ (σ : Type) (pb : Runtime) (srv : Server σ) (nMaxCacheSize nWritebackTime : Nat)
        (conn : CDbConnection σ) (actions : List StoreAction),
      (∀ action ∈ actions, action.ReadOnly) →
      (Runs.run (Store.step pb srv) (Store.init nMaxCacheSize nWritebackTime conn)
          actions).m_dbConnection.trace.filter SqlEvent.isUpdate =
        conn.trace.filter SqlEvent.isUpdate := by
  refine ⟨?_, ?_⟩
  · intro h
    have hsame := h Unit PlayerBase.runtime onePlayerServer 1000 60 ⟨true, (), 0, []⟩
      [.command selectFive ⟨1, 1⟩] selectFive ⟨2, 2⟩ rfl
    obtain ⟨sCacheInfo, hrecord, htime⟩ := hsame.times 5 1 ⟨[13, 5, 0, 0, 0, 18, 1, 97], 0⟩
      (by decide)
    have htimes := (congrArg (Option.map SCacheInfo.nTime) hrecord).trans
      (congrArg some htime)
    revert htimes
    decide
  · intro h
    have hupdates := h Unit PlayerBase.runtime onePlayerServer 1000 60 ⟨true, (), 0, []⟩
      [.command selectFive ⟨1, 1⟩, .command selectFive ⟨2, 2⟩, .finish] (by
        intro action hin
        simp only [List.mem_cons, List.not_mem_nil, or_false] at hin
        rcases hin with rfl | rfl | rfl
        · exact .inl rfl
        · exact .inl rfl
        · trivial)
    have hlength := congrArg List.length hupdates
    revert hlength
    decide

end Db
