import DbService.EachRecord

/-!
# Dirty records and copies of records

What one action does to one record.  A dirty record stays dirty until an UPDATE of a write-back
carries it, a DELETE takes it out, or another object takes the place of its own in the dirty map
(which `KeepsDirtyRecords` excludes).  A record of which there is no copy is not written and no
SELECT finds it, and only a command on its id makes a copy.

* `step_isDirty` -- a dirty record is written by the action, deleted, or dirty afterwards;
* `step_hasCopy` -- a record without a copy gets one only by a command on its id;
* `step_disabled` -- a cache that is switched off stays as it is, and writes nothing.
-/

namespace Db

open Reflection ByteText

namespace CDbCacheMgr

variable {σ : Type} {pb : Runtime} {srv : Server σ} {mgr : CDbCacheMgr}

/-- The record is modified and scheduled to be written. -/
def IsDirty (mgr : CDbCacheMgr) (nID nDataID : Nat) : Prop :=
  ∃ pObject sCacheInfo, Scheduled mgr nID pObject nDataID sCacheInfo

/-- A copy of the record is cached, or a modified one is scheduled to be written. -/
def HasCopy (mgr : CDbCacheMgr) (nID nDataID : Nat) : Prop :=
  mgr.record nID nDataID ≠ none ∨ IsDirty mgr nID nDataID

/-- The object with the dirty records of the id is the cached one, if one is cached. -/
def DirtyIsCached (mgr : CDbCacheMgr) (nID : Nat) : Prop :=
  ∀ pObject nDataID sCacheInfo, Scheduled mgr nID pObject nDataID sCacheInfo →
    ∀ pObject' : Nat, mgr.m_mapCache[nID]? = some pObject' → pObject' = pObject

theorem SameAt.hasCopy_iff {mgr' : CDbCacheMgr} {nID : Nat} (h : SameAt mgr mgr' nID)
    (nDataID : Nat) : HasCopy mgr' nID nDataID ↔ HasCopy mgr nID nDataID := by
  simp only [HasCopy, IsDirty, h.record, h.scheduled_iff]

theorem kept_noCopy (pb : Runtime) (nID nDataID : Nat) :
    Kept pb (fun nID' => nID' ≠ nID) (fun mgr => WellFormed mgr ∧ ¬ mgr.HasCopy nID nDataID) :=
  kept_of_sameAt pb nID fun _ _ hsame => mt (hsame.hasCopy_iff nDataID).mp

/-! ## Records that can be read back -/

/-- The record is a message of the type its data name names. -/
def KnownRecord (pb : Runtime) (_nID : Nat) (szDataName : String) (szData : Bytes) : Prop :=
  ∃ m, Holds pb szDataName szData m

/-- Records of known messages stay such: what is added is one, and so is what two are merged into.
-/
theorem knownRecord_rule (hpb : pb.Lawful) :
    RecordRule pb (KnownRecord pb) (fun _ _ => True) where
  added := fun _ m _ _ hholds => ⟨m, hholds⟩
  merged := by
    intro nID m szOld szData _ hknown hold hmerge
    obtain ⟨mOld, hholds⟩ := hold
    refine ⟨m.filled, holds_of_merge hknown (fun m' hload => ?_) hmerge⟩
    obtain rfl := Option.some.inj ((hholds.load hpb).symm.trans hload)
    exact Option.some.inj (hholds.known.symm.trans hknown)

/-- A scheduled record of a known message can be read and written. -/
theorem EachRecord.readable (hpb : pb.Lawful) (h : EachRecord (KnownRecord pb) mgr)
    {nID pObject nDataID : Nat} {sCacheInfo : SCacheInfo}
    (hscheduled : Scheduled mgr nID pObject nDataID sCacheInfo) :
    Readable pb mgr nDataID sCacheInfo := by
  obtain ⟨hdirty, hrecord, _⟩ := hscheduled
  obtain ⟨m, hholds⟩ := h.records nID pObject (.inr hdirty) nDataID sCacheInfo hrecord
  have hname : mgr.getDataName nDataID ≠ "" := by
    intro hempty
    have hknown := hholds.known
    rw [hempty, hpb.empty_name] at hknown
    cases hknown
  unfold Readable CDbCache.recordMessage
  rw [if_neg hname, hholds.load hpb]
  rfl

/-! ## Passes whose UPDATEs are accepted -/

/-- Every UPDATE among the writes was accepted. -/
def Accepted (writes : List WriteEvent) : Prop := ∀ w ∈ writes, w.info.nErrorCode = .kRC_OK

/-- A timed pass whose writes are all accepted keeps what failed before, -/
theorem writeback_keeps (hpb : pb.Lawful) (h : EachRecord (KnownRecord pb) mgr) {nTime : Nat}
    {conn : CDbConnection σ} (haccepted : Accepted (mgr.writeback pb srv nTime conn).2.1) :
    KeepsFailures mgr (mgr.writeback pb srv nTime conn).1
      (mgr.writeback pb srv nTime conn).2.1 := by
  apply (writeback_keeps_iff pb srv mgr nTime conn).mpr
  rcases writeback_cases pb srv mgr nTime conn with ⟨hskip, _⟩ | ⟨_, _, heq⟩
  · exact hskip.imp_right .inl
  · refine .inr (.inr fun nID pObject hdirty => .inr ⟨?_, ?_⟩)
    · intro nDataID sCacheInfo hrecord hmodified
      exact h.readable hpb ⟨hdirty, hrecord, hmodified⟩
    · rw [heq] at haccepted
      exact (accepts_iff (writebackFrom_answers pb srv mgr nTime _ conn) nID).mpr
        fun w hw _ => haccepted w hw

/-- an eviction does, where the object it evicts is the dirty one, -/
theorem cleanCache_keeps (hpb : pb.Lawful) (h : EachRecord (KnownRecord pb) mgr) {nTime : Nat}
    {sample : Sample} {conn : CDbConnection σ}
    (hcached : ∀ nID pObject : Nat, mgr.evicted nTime sample = some (nID, pObject) →
      DirtyIsCached mgr nID)
    (haccepted : Accepted (mgr.cleanCache pb srv nTime sample conn).2.1) :
    KeepsFailures mgr (mgr.cleanCache pb srv nTime sample conn).1
      (mgr.cleanCache pb srv nTime sample conn).2.1 := by
  apply (cleanCache_keeps_iff pb srv mgr nTime sample conn).mpr
  intro nID pObject hevicted
  rcases cleanCache_cases pb srv mgr nTime sample conn with
    ⟨_, hnone, _⟩ | ⟨nID', pObject', hevicted', hchosen, heq⟩
  · rw [hnone] at hevicted
    cases hevicted
  · rw [hevicted', Option.some.injEq, Prod.mk.injEq] at hevicted
    obtain ⟨rfl, rfl⟩ := hevicted
    rw [heq] at haccepted
    refine ⟨(accepts_iff (writebackObject_answers pb srv mgr nID' pObject' 0 conn) nID').mpr
      fun w hw _ => haccepted w hw, ?_⟩
    intro pObject nDataID sCacheInfo hscheduled
    have hsame := hcached nID' pObject' hevicted' _ _ _ hscheduled _ (chosen_mem hchosen)
    exact ⟨hsame.symm, h.readable hpb hscheduled⟩

/-- and a flush. -/
theorem flushCache_keeps (hpb : pb.Lawful) (h : EachRecord (KnownRecord pb) mgr) {nKey : Nat}
    {bDel : Bool} {conn : CDbConnection σ}
    (haccepted : Accepted (mgr.flushCache pb srv nKey bDel conn).2.1) :
    KeepsFailures mgr (mgr.flushCache pb srv nKey bDel conn).1
      (mgr.flushCache pb srv nKey bDel conn).2.1 := by
  apply (flushCache_keeps_iff pb srv mgr nKey bDel conn).mpr
  unfold FlushRetries
  rcases flushCache_cases pb srv mgr nKey bDel conn with
    ⟨hdisabled | ⟨hkey, huncached⟩, _⟩ | ⟨pObject, _, hkey, hcached, heq⟩ | ⟨_, hkey, heq⟩
  · split
    · exact .inl hdisabled
    · exact .inl hdisabled
  · rw [if_neg hkey, huncached]
    exact .inr fun pObject hsome => by cases hsome
  · rw [if_neg hkey, hcached]
    refine .inr fun pObject' hsome => .inr ?_
    obtain rfl := Option.some.inj hsome
    rw [heq] at haccepted
    exact (accepts_iff (writebackObject_answers pb srv mgr nKey pObject 0 conn) nKey).mpr
      fun w hw _ => haccepted w hw
  · rw [if_pos hkey]
    rw [heq] at haccepted
    exact (writeback_keeps_iff pb srv mgr 0 conn).mp (writeback_keeps hpb h haccepted)

/-- A forced pass that is not skipped writes what is scheduled. -/
theorem flushCache_writes (hpb : pb.Lawful) (h : EachRecord (KnownRecord pb) mgr)
    (hon : mgr.isDisabled = false) (hpaced : mgr.isPaced 0 = false) (bDel : Bool)
    (conn : CDbConnection σ) {nID pObject nDataID : Nat} {sCacheInfo : SCacheInfo}
    (hscheduled : Scheduled mgr nID pObject nDataID sCacheInfo) :
    ∃ w ∈ (mgr.flushCache pb srv 0 bDel conn).2.1,
      w.nID = nID ∧ w.pDbCache = pObject ∧ w.info.nDataID = nDataID ∧
        w.info.szData = sCacheInfo.szData := by
  have hdue : CDbCache.isDue 0 sCacheInfo = true := by simp [CDbCache.isDue]
  rcases flushCache_cases pb srv mgr 0 bDel conn with
    ⟨hnothing, _⟩ | ⟨_, _, hkey, _⟩ | ⟨_, _, heq⟩
  · simp [hon] at hnothing
  · exact absurd rfl hkey
  · rw [heq]
    exact writeback_complete srv hon hpaced hscheduled hdue (h.readable hpb hscheduled) conn

/-! ## Operations on the id of a dirty record -/

variable {nID nDataID : Nat}

/-- Looking up a name leaves dirty what was, -/
theorem getDataID_isDirty (szDataName : String) (h : IsDirty mgr nID nDataID) :
    IsDirty (mgr.getDataID szDataName).2 nID nDataID := by
  obtain ⟨pObject, sCacheInfo, hscheduled⟩ := h
  exact ⟨pObject, sCacheInfo,
    ((getDataID_sameAt mgr szDataName nID).scheduled_iff ..).mpr hscheduled⟩

/-- and cached. -/
theorem getDataID_dirtyIsCached (szDataName : String) (h : DirtyIsCached mgr nID) :
    DirtyIsCached (mgr.getDataID szDataName).2 nID := by
  intro pObject nDataID sCacheInfo hscheduled pObject' hcached
  rw [getDataID_mapCache] at hcached
  exact h _ _ _ (((getDataID_sameAt mgr szDataName nID).scheduled_iff ..).mp hscheduled) _ hcached

/-- A new object is not scheduled. -/
theorem AddOutcome.isDirty (hwf : WellFormed mgr) {nID' : Nat} {pData : RowMessage}
    {result : Bool × CDbCacheMgr} (houtcome : AddOutcome pb mgr nID' pData result)
    (h : IsDirty mgr nID nDataID) : IsDirty result.2 nID nDataID := by
  have hnamed := getDataID_isDirty pData.GetTypeName h
  obtain ⟨pObject, sCacheInfo, hscheduled⟩ := h
  have hold : pObject ≠ mgr.nNextObject := Nat.ne_of_lt (hwf.lt (.inr hscheduled.1))
  cases houtcome with
  | badIndex => exact hnamed
  | present => exact hnamed
  | unserialised =>
      exact ⟨pObject, sCacheInfo, by simpa [Scheduled, allocate, hold] using hscheduled⟩
  | added szData =>
      exact ⟨pObject, sCacheInfo, by simpa [Scheduled, allocate, hold] using hscheduled⟩

/-- **`setData`** on the object that is scheduled leaves the record dirty: it is not the one that
is set, or it takes the time of the change. -/
theorem setData_isDirty (hwf : WellFormed mgr) (hdisabled : mgr.isDisabled = false) {nTime : Nat}
    (htime : nTime ≠ 0) (hcached : DirtyIsCached mgr nID) (h : IsDirty mgr nID nDataID)
    (pData : RowMessage) : IsDirty (mgr.setData pb nID pData nTime).2 nID nDataID := by
  have hnamed := getDataID_isDirty pData.GetTypeName h
  have houtcome := setData_outcome pb hdisabled nID pData nTime
  generalize mgr.setData pb nID pData nTime = result at houtcome
  cases houtcome with
  | uncached _ _ hadd => exact hadd.isDirty hwf h
  | badIndex => exact hnamed
  | refused => exact hnamed
  | stored pObject pDbCache hcached' hgood hset =>
      obtain ⟨pObject', sCacheInfo, hscheduled⟩ := h
      obtain rfl := hcached _ _ _ hscheduled _ hcached'
      obtain ⟨_, hrecord, hmodified⟩ := hscheduled
      -- The object with the new record, scheduled.
      have hentry : ∀ (sNew sKept : SCacheInfo) (nSize : Int), sKept.nTime ≠ 0 →
          (if nDataID = (mgr.getDataID pData.GetTypeName).1 then some sNew
            else some sCacheInfo) = some sKept →
          IsDirty (((mgr.getDataID pData.GetTypeName).2.store pObject
            ((mgr.objects pObject).withRecord (mgr.getDataID pData.GetTypeName).1 sNew
              nSize)).markDirty nID pObject) nID nDataID := by
        intro sNew sKept nSize hkept hsome
        refine ⟨pObject, sKept, by simp, ?_, hkept⟩
        rw [markDirty_objects, store_objects, Function.update_self, withRecord_records, hrecord]
        exact hsome
      cases hset with
      | absent _ habsent hadd =>
          cases hadd with
          | added szData =>
              refine hentry _ sCacheInfo _ hmodified (if_neg ?_)
              intro heq
              rw [← heq, hrecord] at habsent
              cases habsent
      | merged sOld szData =>
          by_cases heq : nDataID = (mgr.getDataID pData.GetTypeName).1
          · exact hentry _ ⟨szData, nTime⟩ _ htime (if_pos heq)
          · exact hentry _ sCacheInfo _ hmodified (if_neg heq)

/-- An index that has a record is not given to another name. -/
theorem getDataID_ne (hnamed : Named mgr) {pObject : Nat} {szDataName : String}
    (hrecord : (mgr.objects pObject).m_mapCacheInfo[nDataID]? ≠ none)
    (hother : mgr.m_mapDataIndex[szDataName]? ≠ some nDataID) :
    (mgr.getDataID szDataName).1 ≠ nDataID := by
  intro heq
  cases hindex : mgr.m_mapDataIndex[szDataName]? with
  | some nDataID' =>
      rw [getDataID_known hindex] at heq
      exact hother (heq ▸ hindex)
  | none =>
      have hnext : (mgr.getDataID szDataName).1 = mgr.m_nCurIndex := by simp [getDataID, hindex]
      rw [← heq, hnext] at hrecord
      exact hrecord (hnamed.fresh pObject)

/-- **`delData`** of another record. -/
theorem delData_isDirty (hnamed : Named mgr) (hdisabled : mgr.isDisabled = false)
    {szDataName : String} (hother : mgr.m_mapDataIndex[szDataName]? ≠ some nDataID)
    (h : IsDirty mgr nID nDataID) (nID' : Nat) :
    IsDirty (mgr.delData nID' szDataName).2 nID nDataID := by
  have hindexed := getDataID_isDirty szDataName h
  have houtcome := delData_outcome hdisabled nID' szDataName
  generalize mgr.delData nID' szDataName = result at houtcome
  cases houtcome with
  | uncached => exact h
  | badIndex => exact hindexed
  | absent => exact hindexed
  | deleted pObject' sErased hcached hgood herased =>
      obtain ⟨pObject, sCacheInfo, hdirty, hrecord, hmodified⟩ := h
      refine ⟨pObject, sCacheInfo, by simpa using hdirty, ?_, hmodified⟩
      by_cases hobject : pObject = pObject'
      · subst hobject
        have hne := getDataID_ne hnamed (Option.ne_none_iff_exists'.mpr ⟨_, hrecord⟩) hother
        rw [store_objects, Function.update_self, Std.ExtTreeMap.getElem?_erase]
        simp only [compare_eq_iff_eq, if_neg hne]
        exact hrecord
      · rw [store_objects, Function.update_of_ne hobject, getDataID_objects]
        exact hrecord

/-! ## Records without a copy -/

/-- A pass writes records that it has copies of. -/
theorem Carries.hasCopy {nTime : Nat} {w : WriteEvent}
    (hmaps : mgr.m_mapCache[w.nID]? = some w.pDbCache ∨
      mgr.m_mapDirtyCache[w.nID]? = some w.pDbCache)
    (hcarries : Carries pb mgr nTime w) : HasCopy mgr w.nID w.info.nDataID := by
  obtain ⟨sCacheInfo, hrecord, hmodified, _⟩ := hcarries
  rcases hmaps with hcached | hdirty
  · refine .inl ?_
    rw [record_of_cached hcached, hrecord]
    exact Option.some_ne_none _
  · exact .inr ⟨w.pDbCache, sCacheInfo, hdirty, hrecord, hmodified⟩

/-- Where only entries leave the maps, no copy appears. -/
theorem HasCopy.of_shrink {mgr' : CDbCacheMgr} (hsame : SameRecords mgr mgr')
    (hcache : ∀ pObject : Nat, mgr'.m_mapCache[nID]? = some pObject →
      mgr.m_mapCache[nID]? = some pObject)
    (hdirty : ∀ pObject : Nat, mgr'.m_mapDirtyCache[nID]? = some pObject →
      mgr.m_mapDirtyCache[nID]? = some pObject)
    (h : HasCopy mgr' nID nDataID) : HasCopy mgr nID nDataID := by
  rcases h with hrecord | ⟨pObject, sCacheInfo, hentry, hscheduled⟩
  · refine .inl ?_
    cases hcached : mgr'.m_mapCache[nID]? with
    | none => exact absurd (record_of_uncached hcached nDataID) hrecord
    | some pObject =>
        rw [record_of_cached hcached, hsame.objects] at hrecord
        rwa [record_of_cached (hcache pObject hcached)]
  · rw [hsame.objects] at hscheduled
    exact .inr ⟨pObject, sCacheInfo, hdirty pObject hentry, hscheduled⟩

end CDbCacheMgr

/-- A command with a key is one of the four on rows. -/
theorem CDbThread.cacheKey_cases {nType : EOperatorType} {pRequest : Option Message} {nID : Nat}
    (h : cacheKey nType pRequest = some nID) :
    (nType = .kOT_SELECT ∧ ∃ table_name, pRequest = some (.select_command nID table_name)) ∨
      (nType = .kOT_DELETE ∧ ∃ table_name, pRequest = some (.delete_command nID table_name)) ∨
      ((nType = .kOT_UPDATE ∨ nType = .kOT_INSERT) ∧
        ∃ m, pRequest = some (.row m) ∧ getPrimaryValue (.row m) = some nID) := by
  unfold cacheKey at h
  split at h
  · obtain rfl := Option.some.inj h
    exact .inl ⟨rfl, _, rfl⟩
  · exact .inr (.inr ⟨.inl rfl, _, rfl, h⟩)
  · exact .inr (.inr ⟨.inr rfl, _, rfl, h⟩)
  · obtain rfl := Option.some.inj h
    exact .inr (.inl ⟨rfl, _, rfl⟩)
  · cases h

/-- What a worker is given: rows of known types, and a clock that has started. -/
def StoreAction.Sent (pb : Runtime) : StoreAction → Prop
  | .command sDbCommand clock =>
      clock.nSetTime ≠ 0 ∧ ∀ m, sDbCommand.pMessage = some (.row m) → pb.Knows (.row m)
  | _ => True

namespace Store

open CDbCacheMgr

variable {σ : Type} (pb : Runtime) (srv : Server σ)

/-- The action is a DELETE of the record. -/
def Deletes (st : Store σ) (nID nDataID : Nat) : StoreAction → Prop
  | .command sDbCommand clock =>
      sDbCommand.nType = .kOT_DELETE ∧ sDbCommand.isExpired clock.nCurTime = false ∧
        ∃ table_name, sDbCommand.pMessage = some (.delete_command nID table_name) ∧
          st.m_dbCacheMgr.m_mapDataIndex[getMessageNameByTableName table_name]? = some nDataID
  | _ => False

/-- When an action loses no dirty record.  The last flush makes its pass, or nothing is dirty.
An eviction, and a command that sets a record, finds the dirty records of its id in the cached
object. -/
def KeepsDirtyRecords (st : Store σ) : StoreAction → Prop
  | .command sDbCommand clock =>
      st.m_dbCacheMgr.isDisabled = true ∨ sDbCommand.isExpired clock.nCurTime = true ∨
        (sDbCommand.nType = .kOT_SELECT ∨ sDbCommand.nType = .kOT_UPDATE →
          ∀ nID, CDbThread.cacheKey sDbCommand.nType sDbCommand.pMessage = some nID →
            st.m_dbCacheMgr.DirtyIsCached nID)
  | .tick nCurTime sample =>
      ∀ nID pObject : Nat, st.m_dbCacheMgr.evicted nCurTime sample = some (nID, pObject) →
        st.m_dbCacheMgr.DirtyIsCached nID
  | .finish =>
      st.m_dbCacheMgr.isDisabled = false ∧ st.m_dbCacheMgr.isPaced 0 = false ∨
        ∀ nID nDataID, ¬ st.m_dbCacheMgr.IsDirty nID nDataID

variable {pb srv} {st : Store σ}

/-- **A cache that is switched off** stays as it is, and writes nothing. -/
theorem step_disabled (hdisabled : st.m_dbCacheMgr.isDisabled = true) (action : StoreAction) :
    (st.step pb srv action).1.m_dbCacheMgr = st.m_dbCacheMgr ∧
      (st.step pb srv action).2.writes = [] := by
  cases action with
  | command sDbCommand clock =>
      by_cases hflush : sDbCommand.nType = .kOT_FLUSH
      · simp only [step, process, if_pos hflush]
        split <;> simp [CDbCacheMgr.flushCache, hdisabled]
      · cases hexpired : sDbCommand.isExpired clock.nCurTime with
        | true => simp only [step, process_expired pb srv hflush hexpired, and_self]
        | false =>
            simp only [step, process_executed pb srv hflush hexpired, and_true]
            by_cases hselect : sDbCommand.nType = .kOT_SELECT
            · rw [hselect]
              exact execute_select_refused (.inl hdisabled) clock.nSetTime
            · rw [executed_mgr hselect (execute_cases ..), CDbThread.onPreCache_disabled hdisabled]
  | tick nCurTime sample =>
      simp [step, Store.update, CDbCacheMgr.update, cleanCache, writeback, hdisabled]
  | finish => simp [step, flushAll, CDbCacheMgr.flushCache, hdisabled]

/-- Nothing enters a cache that is off. -/
theorem entersAction_disabled (hdisabled : st.m_dbCacheMgr.isDisabled = true)
    (ok : Nat → RowMessage → Prop) (action : StoreAction) :
    st.EntersAction pb srv ok action := by
  cases action with
  | command sDbCommand clock =>
      exact .inr fun hon => absurd (hon.symm.trans hdisabled) Bool.false_ne_true
  | tick => trivial
  | finish => trivial

/-- **Step.**  What enters keeps the property of the records, whatever becomes of the limit. -/
theorem stepLimit_entered (hpb : pb.Lawful) {P : Nat → String → Bytes → Prop}
    {ok : Nat → RowMessage → Prop} (hrule : RecordRule pb P ok)
    (h : EachRecord P st.m_dbCacheMgr.switchedOn) {action : LimitAction}
    (henters : st.EntersLimit pb srv ok action) :
    EachRecord P (st.stepLimit pb srv action).1.m_dbCacheMgr.switchedOn := by
  cases action with
  | setMaxCacheSize nSize => exact h
  | store action =>
      cases hdisabled : st.m_dbCacheMgr.isDisabled with
      | true =>
          simp only [stepLimit, (step_disabled hdisabled action).1]
          exact h
      | false => exact (step_eachRecord hpb hrule (h.of_switchedOn hdisabled) henters).switchedOn

/-- Passes whose UPDATEs are accepted forget nothing. -/
theorem keepsFailures_of_accepted (hpb : pb.Lawful)
    (h : EachRecord (KnownRecord pb) st.m_dbCacheMgr) {action : StoreAction}
    (hkeeps : st.KeepsDirtyRecords action) (haccepted : Accepted (st.step pb srv action).2.writes) :
    KeepsFailures pb srv st action := by
  cases action with
  | command sDbCommand clock =>
      intro id type htype hmessage
      apply flushCache_keeps hpb h
      simpa [step, process, htype, hmessage] using haccepted
  | tick nCurTime sample =>
      have hcleaned := cleanCache_eachRecord pb srv h nCurTime sample st.m_dbConnection
      exact ⟨cleanCache_keeps hpb h hkeeps fun w hw => haccepted w (List.mem_append_left _ hw),
        writeback_keeps hpb hcleaned fun w hw => haccepted w (List.mem_append_right _ hw)⟩
  | finish => exact flushCache_keeps hpb h haccepted

/-- A command on the id of a dirty record leaves it dirty or deletes it. -/
theorem command_isDirty (h : EachRecord (KnownRecord pb) st.m_dbCacheMgr)
    (hon : st.m_dbCacheMgr.isDisabled = false) {sDbCommand : SDbCommand} {clock : Clock}
    (htime : clock.nSetTime ≠ 0) (hkeeps : st.KeepsDirtyRecords (.command sDbCommand clock))
    {nID nDataID : Nat}
    (hkey : CDbThread.cacheKey sDbCommand.nType sDbCommand.pMessage = some nID)
    (hdirty : st.m_dbCacheMgr.IsDirty nID nDataID) :
    st.Deletes nID nDataID (.command sDbCommand clock) ∨
      (st.step pb srv (.command sDbCommand clock)).1.m_dbCacheMgr.IsDirty nID nDataID := by
  obtain ⟨nServiceID, nType, nSessionID, nTimeout, pMessage⟩ := sDbCommand
  have hflush : nType ≠ .kOT_FLUSH := by
    intro heq
    subst heq
    cases hkey
  cases hexpired : (⟨nServiceID, nType, nSessionID, nTimeout, pMessage⟩ :
      SDbCommand).isExpired clock.nCurTime with
  | true =>
      simp only [step, process_expired pb srv hflush hexpired]
      exact .inr hdirty
  | false =>
      have hcached : nType = .kOT_SELECT ∨ nType = .kOT_UPDATE →
          st.m_dbCacheMgr.DirtyIsCached nID := by
        intro htype
        rcases hkeeps with hoff | hpast | hsets
        · exact absurd (hon.symm.trans hoff) Bool.false_ne_true
        · exact absurd (hexpired.symm.trans hpast) Bool.false_ne_true
        · exact hsets htype nID hkey
      simp only [step, process_executed pb srv hflush hexpired]
      rcases CDbThread.cacheKey_cases hkey with
        ⟨rfl, table_name, rfl⟩ | ⟨rfl, table_name, rfl⟩ | ⟨htype, m, rfl, hid⟩
      · refine .inr ?_
        have hnamed := getDataID_isDirty (getMessageNameByTableName table_name) hdirty
        rw [execute_select_mgr hon]
        cases st.selected pb srv nID table_name with
        | none => exact hnamed
        | some m =>
            simp only
            split
            · exact setData_isDirty (getDataID_wellFormed h.wellFormed _)
                ((getDataID_isDisabled ..).trans hon) htime
                (getDataID_dirtyIsCached _ (hcached (.inl rfl))) hnamed m
            · exact hnamed
      · rw [executed_mgr (by decide) (execute_cases ..), CDbThread.onPreCache_delete hon]
        by_cases hindex : st.m_dbCacheMgr.m_mapDataIndex[
            getMessageNameByTableName table_name]? = some nDataID
        · exact .inl ⟨rfl, hexpired, table_name, rfl, hindex⟩
        · exact .inr (delData_isDirty h.named hon hindex hdirty nID)
      · refine .inr ?_
        have hselect : nType ≠ .kOT_SELECT := by rcases htype with rfl | rfl <;> decide
        rw [executed_mgr hselect (execute_cases ..)]
        cases hdata : pb.SerializeToString (.row m) with
        | none =>
            rw [CDbThread.onPreCache_write_refused htype (.inr hdata)]
            exact hdirty
        | some szData =>
            rcases htype with rfl | rfl
            · rw [CDbThread.onPreCache_update hon hid hdata]
              exact setData_isDirty h.wellFormed hon htime (hcached (.inr rfl)) hdirty m
            · rw [CDbThread.onPreCache_insert hon hid hdata]
              exact (addData_outcome pb hon nID m).isDirty h.wellFormed hdirty

/-- **A dirty record** is written by the action, deleted, or dirty afterwards; the last flush
leaves none. -/
theorem step_isDirty (hpb : pb.Lawful) (h : EachRecord (KnownRecord pb) st.m_dbCacheMgr)
    (hon : st.m_dbCacheMgr.isDisabled = false) {action : StoreAction} (hsent : action.Sent pb)
    (hkeeps : st.KeepsDirtyRecords action) (haccepted : Accepted (st.step pb srv action).2.writes)
    {nID pObject nDataID : Nat} {sCacheInfo : SCacheInfo}
    (hscheduled : Scheduled st.m_dbCacheMgr nID pObject nDataID sCacheInfo) :
    Writes pb srv st action nID pObject nDataID sCacheInfo ∨ st.Deletes nID nDataID action ∨
      action ≠ .finish ∧ (st.step pb srv action).1.m_dbCacheMgr.IsDirty nID nDataID := by
  have hkept := step_scheduled h.wellFormed (keepsFailures_of_accepted hpb h hkeeps haccepted)
    hscheduled
  cases action with
  | command sDbCommand clock =>
      rcases hkept with hkey | hwrites | hstill
      · exact .inr ((command_isDirty h hon hsent.1 hkeeps hkey ⟨_, _, hscheduled⟩).imp_right
          fun hdirty => ⟨by simp, hdirty⟩)
      · exact .inl hwrites
      · exact .inr (.inr ⟨by simp, _, _, hstill⟩)
  | tick nCurTime sample =>
      rcases hkept with hkey | hwrites | hstill
      · cases hkey
      · exact .inl hwrites
      · exact .inr (.inr ⟨by simp, _, _, hstill⟩)
  | finish =>
      rcases hkeeps with ⟨_, hpaced⟩ | hclean
      · obtain ⟨w, hw, hid, hobject, hdata, hbytes⟩ := flushCache_writes hpb h hon hpaced true
          st.m_dbConnection hscheduled
        exact .inl ⟨w, hw, hid, hobject, hdata, hbytes, haccepted w hw⟩
      · exact absurd ⟨_, _, hscheduled⟩ (hclean nID nDataID)

/-- **A record without a copy** is not written in the step, and has a copy afterwards only if the
step is a command on its id. -/
theorem step_hasCopy (pb : Runtime) (srv : Server σ) (hwf : st.m_dbCacheMgr.WellFormed)
    {nID nDataID : Nat} (hcopy : ¬ st.m_dbCacheMgr.HasCopy nID nDataID) (action : StoreAction) :
    (∀ w ∈ (st.step pb srv action).2.writes, ¬ (w.nID = nID ∧ w.info.nDataID = nDataID)) ∧
      (¬ (st.step pb srv action).1.m_dbCacheMgr.HasCopy nID nDataID ∨
        action.key = some nID) := by
  have hflush : ∀ nKey bDel,
      (∀ w ∈ (st.m_dbCacheMgr.flushCache pb srv nKey bDel st.m_dbConnection).2.1,
        ¬ (w.nID = nID ∧ w.info.nDataID = nDataID)) ∧
      ¬ (st.m_dbCacheMgr.flushCache pb srv nKey bDel st.m_dbConnection).1.HasCopy nID
        nDataID := by
    intro nKey bDel
    refine ⟨?_, fun h => hcopy (h.of_shrink (flushCache_sameRecords ..)
      (fun _ hcached => flushCache_cache_le _ _ _ _ hcached)
      (fun _ hdirty => flushCache_dirty_le _ _ _ _ hdirty))⟩
    intro w hw hcase
    obtain ⟨rfl, rfl⟩ := hcase
    obtain ⟨hmaps, hcarries⟩ := mem_flushCache hw
    exact hcopy (hcarries.hasCopy hmaps)
  cases action with
  | command sDbCommand clock =>
      have hprocessed := process_cases pb srv st sDbCommand clock
      simp only [step, StoreAction.key]
      generalize st.process pb srv sDbCommand clock = result at hprocessed
      cases hprocessed with
      | flush id type _ _ mgr writes conn heq =>
          have hflushed := hflush id (type == EFlushCacheType.kFCT_DEL.code)
          rw [heq] at hflushed
          exact ⟨hflushed.1, .inl hflushed.2⟩
      | flushNothing => exact ⟨by simp, .inl hcopy⟩
      | expired => exact ⟨by simp, .inl hcopy⟩
      | executed _ _ st' outcome hexecuted =>
          refine ⟨by simp, ?_⟩
          by_cases hkey : CDbThread.cacheKey sDbCommand.nType sDbCommand.pMessage = some nID
          · exact .inr hkey
          · exact .inl ((kept_noCopy pb nID nDataID).executed_other hkey hexecuted
              ⟨hwf, hcopy⟩).2
  | tick nCurTime sample =>
      have hcleaned : ¬ (st.m_dbCacheMgr.cleanCache pb srv nCurTime sample
          st.m_dbConnection).1.HasCopy nID nDataID :=
        fun h => hcopy (h.of_shrink (cleanCache_sameRecords ..)
          (fun _ hcached => cleanCache_cache_le _ _ _ _ hcached)
          (fun _ hdirty => cleanCache_dirty_le _ _ _ _ hdirty))
      refine ⟨?_, .inl fun h => hcleaned (h.of_shrink (writeback_sameRecords ..)
        (fun _ hcached => by rwa [writeback_mapCache] at hcached)
        (fun _ hdirty => writeback_dirty_le _ _ _ hdirty))⟩
      intro w hw hcase
      obtain ⟨rfl, rfl⟩ := hcase
      rcases List.mem_append.mp hw with hin | hin
      · obtain ⟨hcached, hcarries⟩ := mem_cleanCache hin
        exact hcopy (hcarries.hasCopy (.inl hcached))
      · obtain ⟨hdirty, hcarries⟩ := mem_writeback hin
        exact hcleaned (hcarries.hasCopy (.inr hdirty))
  | finish =>
      obtain ⟨hwrites, hnone⟩ := hflush 0 true
      exact ⟨hwrites, .inl hnone⟩

end Store

end Db
