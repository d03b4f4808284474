import DbService.Modifications

/-!
# Records that await their write

`setData` puts the object it changes into the dirty map, and a pass takes the object out when it
has sent its records.  So a cached record with a modification that is not written is scheduled,
in the object that is cached (`ChangesScheduled`): a pass leaves out only what cannot be read
back, and where the message types are known there is no such record (`run_awaits_scheduled`).

* `setData_changesScheduled`, `writeback_changesScheduled`, `flushCache_changesScheduled` -- what
  schedules an object, and what the passes leave;
* `logLimit_changesScheduled` -- one action, changes of the limit among them;
* `run_awaits_scheduled` -- in a run, what awaits its write is scheduled and can be read back.
-/

namespace Db

open Reflection ByteText

namespace CDbCacheMgr

variable {σ : Type} {pb : Runtime} {srv : Server σ} {mgr mgr' : CDbCacheMgr}
  {events : List (Ledger.Event (Nat × Nat))} {nID : Nat}

/-- A modified record of a cached object is written, or the object is scheduled. -/
def ChangesScheduled (mgr : CDbCacheMgr) (events : List (Ledger.Event (Nat × Nat))) : Prop :=
  ∀ (nID pObject nDataID : Nat) (sCacheInfo : SCacheInfo),
    mgr.m_mapCache[nID]? = some pObject →
    (mgr.objects pObject).m_mapCacheInfo[nDataID]? = some sCacheInfo → sCacheInfo.nTime ≠ 0 →
    Ledger.Unwritten events (nID, nDataID) → mgr.m_mapDirtyCache[nID]? = some pObject

/-- What is modified and cached afterwards was so before, and is scheduled as it was. -/
def NoneModified (mgr mgr' : CDbCacheMgr) : Prop :=
  ∀ (nID pObject nDataID : Nat) (sCacheInfo : SCacheInfo),
    mgr'.m_mapCache[nID]? = some pObject →
    (mgr'.objects pObject).m_mapCacheInfo[nDataID]? = some sCacheInfo → sCacheInfo.nTime ≠ 0 →
    mgr.m_mapCache[nID]? = some pObject ∧
      (mgr.objects pObject).m_mapCacheInfo[nDataID]? = some sCacheInfo ∧
      mgr'.m_mapDirtyCache[nID]? = mgr.m_mapDirtyCache[nID]?

/-- Where no record is modified, the changes of the history stay scheduled. -/
theorem ChangesScheduled.of_noneModified (h : ChangesScheduled mgr events)
    (hnone : NoneModified mgr mgr') : ChangesScheduled mgr' events := by
  intro nID pObject nDataID sCacheInfo hcached hrecord hmodified hunwritten
  obtain ⟨hcached', hrecord', hdirty⟩ := hnone nID pObject nDataID sCacheInfo hcached hrecord
    hmodified
  rw [hdirty]
  exact h nID pObject nDataID sCacheInfo hcached' hrecord' hmodified hunwritten

/-! ## Operations -/

/-- Looking up a name modifies no record. -/
theorem getDataID_noneModified (mgr : CDbCacheMgr) (szDataName : String) :
    NoneModified mgr (mgr.getDataID szDataName).2 := by
  intro nID pObject nDataID sCacheInfo hcached hrecord _
  rw [getDataID_mapCache] at hcached
  rw [getDataID_objects] at hrecord
  exact ⟨hcached, hrecord, by rw [getDataID_mapDirtyCache]⟩

/-- A new object has no modified record. -/
theorem AddOutcome.noneModified {pData : RowMessage} {result : Bool × CDbCacheMgr}
    (houtcome : AddOutcome pb mgr nID pData result) : NoneModified mgr result.2 := by
  have hnamed := getDataID_noneModified mgr pData.GetTypeName
  cases houtcome with
  | badIndex => exact hnamed
  | present => exact hnamed
  | unserialised =>
      intro nID' pObject nDataID sCacheInfo hcached hrecord hmodified
      by_cases hnew : pObject = mgr.nNextObject
      · subst hnew
        simp [allocate, CDbCache.empty] at hrecord
      · refine hnamed nID' pObject nDataID sCacheInfo ?_ ?_ hmodified
        · simp only [allocate_mapCache, Std.ExtTreeMap.getElem?_insert] at hcached
          split at hcached
          · exact absurd (by simpa using hcached.symm) hnew
          · exact hcached
        · simpa [allocate, hnew] using hrecord
  | added szData =>
      intro nID' pObject nDataID sCacheInfo hcached hrecord hmodified
      by_cases hnew : pObject = mgr.nNextObject
      · subst hnew
        rw [store_objects, Function.update_self, withRecord_records] at hrecord
        split at hrecord
        · obtain rfl := Option.some.inj hrecord
          exact absurd rfl hmodified
        · simp [CDbCache.empty] at hrecord
      · refine hnamed nID' pObject nDataID sCacheInfo ?_ ?_ hmodified
        · simp only [store_mapCache, allocate_mapCache, Std.ExtTreeMap.getElem?_insert] at hcached
          split at hcached
          · exact absurd (by simpa using hcached.symm) hnew
          · exact hcached
        · simpa [allocate, hnew] using hrecord

/-- Dropping a record modifies no other. -/
theorem DelOutcome.noneModified {szDataName : String} {result : Bool × CDbCacheMgr}
    (houtcome : DelOutcome mgr nID szDataName result) : NoneModified mgr result.2 := by
  have hnamed := getDataID_noneModified mgr szDataName
  cases houtcome with
  | uncached => exact fun _ _ _ _ hcached hrecord _ => ⟨hcached, hrecord, rfl⟩
  | badIndex => exact hnamed
  | absent => exact hnamed
  | deleted pObject sErased =>
      intro nID' pObject' nDataID sCacheInfo hcached hrecord hmodified
      refine hnamed nID' pObject' nDataID sCacheInfo hcached ?_ hmodified
      by_cases heq : pObject' = pObject
      · subst heq
        rw [store_objects, Function.update_self, Std.ExtTreeMap.getElem?_erase] at hrecord
        split at hrecord
        · cases hrecord
        · simpa using hrecord
      · rwa [store_objects, Function.update_of_ne heq] at hrecord

/-- **`setData`** schedules the object that it changes. -/
theorem setData_changesScheduled (hwf : WellFormed mgr) (h : ChangesScheduled mgr events)
    (nID : Nat) (pData : RowMessage) (nTime : Nat) :
    ChangesScheduled (mgr.setData pb nID pData nTime).2
      (events ++ (((mgr.changes pb nID pData).map fun nDataID => (nID, nDataID)).map
        .changed).toList) := by
  cases hdisabled : mgr.isDisabled with
  | true => simpa [setData_disabled pb hdisabled, changes, hdisabled] using h
  | false =>
      have houtcome := setData_outcome pb hdisabled nID pData nTime
      generalize mgr.setData pb nID pData nTime = result at houtcome
      cases houtcome with
      | uncached _ huncached hadd =>
          simpa [changes, hdisabled, huncached] using h.of_noneModified hadd.noneModified
      | badIndex pObject hcached hbad =>
          simpa [changes, hdisabled, hcached, hbad] using
            h.of_noneModified (getDataID_noneModified mgr pData.GetTypeName)
      | refused pObject hcached hgood hrefused =>
          have hnone : mgr.changes pb nID pData = none := by
            simp only [changes, hdisabled, hcached, if_neg hgood, Bool.false_eq_true, if_false]
            cases hrecord :
                (mgr.objects pObject).m_mapCacheInfo[(mgr.getDataID pData.GetTypeName).1]? with
            | none => rfl
            | some sOld =>
                cases hmerge : CDbCache.mergeData pb pData.GetTypeName sOld.szData pData with
                | none => simp [hmerge]
                | some szData => simp [CDbCache.setData, hrecord, hmerge] at hrefused
          simpa [hnone] using h.of_noneModified (getDataID_noneModified mgr pData.GetTypeName)
      | stored pObject pDbCache hcached =>
          intro nID' pObject' nDataID sCacheInfo hcached' hrecord hmodified hunwritten
          simp only [markDirty_mapCache, store_mapCache, getDataID_mapCache] at hcached'
          rw [markDirty_objects, store_objects] at hrecord
          rw [markDirty_mapDirtyCache, Std.ExtTreeMap.getElem?_insert]
          by_cases hid : nID = nID'
          · subst hid
            simp [← hcached, hcached']
          · have hother : pObject' ≠ pObject := by
              rintro rfl
              exact hid (hwf.inj (.inl hcached) (.inl hcached'))
            rw [Function.update_of_ne hother, getDataID_objects] at hrecord
            have hearlier : Ledger.Unwritten events (nID', nDataID) := by
              cases hchanges : mgr.changes pb nID pData with
              | none => simpa [hchanges] using hunwritten
              | some nChanged =>
                  rw [hchanges] at hunwritten
                  refine (Ledger.unwritten_changed.mp hunwritten).resolve_left fun heq => ?_
                  exact hid (Prod.mk.inj heq).1
            simp only [compare_eq_iff_eq, if_neg hid, store_mapDirtyCache,
              getDataID_mapDirtyCache]
            exact h nID' pObject' nDataID sCacheInfo hcached' hrecord hmodified hearlier

/-! ## Passes -/

/-- **An eviction** takes an id out of both maps. -/
theorem cleanCache_changesScheduled (pb : Runtime) (srv : Server σ)
    (h : ChangesScheduled mgr events) (nTime : Nat) (sample : Sample) (conn : CDbConnection σ) :
    ChangesScheduled (mgr.cleanCache pb srv nTime sample conn).1
      (events ++ (Store.writtenRecords (mgr.cleanCache pb srv nTime sample conn).2.1).map
        .written) := by
  intro nID pObject nDataID sCacheInfo hcached hrecord hmodified hunwritten
  have hearlier := ((Ledger.unwritten_writes _).mp hunwritten).2
  rcases cleanCache_cases pb srv mgr nTime sample conn with
    ⟨_, _, heq⟩ | ⟨nEvicted, pEvicted, _, _, heq⟩
  · rw [heq] at hcached hrecord ⊢
    exact h nID pObject nDataID sCacheInfo hcached hrecord hmodified hearlier
  · rw [heq] at hcached hrecord ⊢
    simp only [evict, Std.ExtTreeMap.getElem?_erase] at hcached ⊢
    split at hcached
    · cases hcached
    · rename_i hother
      rw [if_neg hother]
      exact h nID pObject nDataID sCacheInfo hcached hrecord hmodified hearlier

/-- **A pass** takes an object out when none of its records waits, so that all that it has are
written. -/
theorem writeback_changesScheduled (hpb : pb.Lawful) (srv : Server σ)
    (hknown : EachRecord (KnownRecord pb) mgr) (h : ChangesScheduled mgr events) (nTime : Nat)
    (conn : CDbConnection σ) :
    ChangesScheduled (mgr.writeback pb srv nTime conn).1
      (events ++ (Store.writtenRecords (mgr.writeback pb srv nTime conn).2.1).map .written) := by
  intro nID pObject nDataID sCacheInfo hcached hrecord hmodified hunwritten
  obtain ⟨hnot, hearlier⟩ := (Ledger.unwritten_writes _).mp hunwritten
  rw [writeback_mapCache] at hcached
  rw [(writeback_sameRecords pb srv mgr nTime conn).objects] at hrecord
  have hdirty := h nID pObject nDataID sCacheInfo hcached hrecord hmodified hearlier
  rcases writeback_cases pb srv mgr nTime conn with ⟨_, heq⟩ | ⟨hon, hpaced, _⟩
  · rw [heq]
    exact hdirty
  · refine (writeback_dirty_iff pb srv hon hpaced conn nID pObject).mpr ⟨hdirty, ?_⟩
    by_contra hwaits
    -- The record does not wait, so it is due, and the pass has written it.
    have hdue : CDbCache.isDue nTime sCacheInfo = true := by
      by_contra hlater
      exact hwaits ⟨nDataID, sCacheInfo, hrecord, by simp [CDbCache.isWaiting, hmodified, hlater]⟩
    have hscheduled : Scheduled mgr nID pObject nDataID sCacheInfo :=
      ⟨hdirty, hrecord, hmodified⟩
    obtain ⟨w, hw, rfl, _, rfl, _⟩ := writeback_complete srv hon hpaced hscheduled hdue
      (hknown.readable hpb hscheduled) conn
    exact hnot (List.mem_map.mpr ⟨w, hw, rfl⟩)

/-- **A flush** leaves nothing in its scope cached. -/
theorem flushCache_changesScheduled (pb : Runtime) (srv : Server σ)
    (h : ChangesScheduled mgr events) (nKey : Nat) (bDel : Bool) (conn : CDbConnection σ) :
    ChangesScheduled (mgr.flushCache pb srv nKey bDel conn).1
      (events ++ (Store.writtenRecords (mgr.flushCache pb srv nKey bDel conn).2.1).map
        .written) := by
  intro nID pObject nDataID sCacheInfo hcached hrecord hmodified hunwritten
  have hearlier := ((Ledger.unwritten_writes _).mp hunwritten).2
  rcases flushCache_cases pb srv mgr nKey bDel conn with ⟨_, heq⟩ | ⟨_, _, _, _, heq⟩ | ⟨_, _, heq⟩
  · rw [heq] at hcached hrecord ⊢
    exact h nID pObject nDataID sCacheInfo hcached hrecord hmodified hearlier
  · rw [heq] at hcached hrecord ⊢
    simp only [Std.ExtTreeMap.getElem?_erase] at hcached
    split at hcached
    · cases hcached
    · exact h nID pObject nDataID sCacheInfo hcached hrecord hmodified hearlier
  · rw [heq] at hcached
    simp at hcached

end CDbCacheMgr

namespace Store

open CDbCacheMgr

variable {σ : Type} {pb : Runtime} {srv : Server σ}

/-- A command schedules the record it changes, and leaves the others scheduled. -/
theorem touched_changesScheduled {mgr mgr' : CDbCacheMgr}
    {events : List (Ledger.Event (Nat × Nat))} (hwf : mgr.WellFormed)
    (h : mgr.ChangesScheduled events) {nSetTime : Nat}
    {call : Option (CDbCacheMgr × Nat × RowMessage)}
    (htouched : Touched pb mgr nSetTime call mgr') :
    mgr'.ChangesScheduled (events ++ ((call.bind fun call =>
      (call.1.changes pb call.2.1 call.2.2).map fun nDataID => (call.2.1, nDataID)).map
        .changed).toList) := by
  cases htouched with
  | same => simpa using h
  | named szDataName => simpa using h.of_noneModified (getDataID_noneModified mgr szDataName)
  | added nID pData =>
      cases hdisabled : mgr.isDisabled with
      | true => simpa [addData_disabled pb hdisabled] using h
      | false =>
          simpa using h.of_noneModified (addData_outcome pb hdisabled nID pData).noneModified
  | deleted nID szDataName =>
      cases hdisabled : mgr.isDisabled with
      | true => simpa [delData_disabled hdisabled] using h
      | false =>
          simpa using h.of_noneModified (delData_outcome hdisabled nID szDataName).noneModified
  | set called nID pData hcalled =>
      rcases hcalled with rfl | ⟨szDataName, rfl⟩
      · exact setData_changesScheduled hwf h nID pData nSetTime
      · exact setData_changesScheduled (getDataID_wellFormed hwf szDataName)
          (h.of_noneModified (getDataID_noneModified mgr szDataName)) nID pData nSetTime

/-- **The step lemma.**  Whatever action comes next, a modified record of a cached object that no
pass has written since its last change is still scheduled: an object leaves the dirty map with its
records written, and what a command modifies it puts there. -/
theorem log_changesScheduled (hpb : pb.Lawful) {l : Logged σ}
    (hknown : EachRecord (KnownRecord pb) l.store.m_dbCacheMgr)
    (h : l.store.m_dbCacheMgr.ChangesScheduled l.events) (action : StoreAction) :
    (log pb srv l action).1.store.m_dbCacheMgr.ChangesScheduled (log pb srv l action).1.events := by
  have hlogs := log_cases pb srv l action
  generalize (log pb srv l action).1.store.m_dbCacheMgr = mgr' at hlogs ⊢
  generalize (log pb srv l action).1.events = events' at hlogs ⊢
  cases hlogs with
  | nothing => exact h
  | flushed _ _ id _ _ _ bDel => exact flushCache_changesScheduled pb srv h id bDel _
  | touched _ _ _ htouched => exact touched_changesScheduled hknown.wellFormed h htouched
  | ticked nCurTime sample mgr conn writes hclean =>
      have hcleaned := cleanCache_changesScheduled pb srv h nCurTime sample
        l.store.m_dbConnection
      have hknown' := cleanCache_eachRecord pb srv hknown nCurTime sample l.store.m_dbConnection
      rw [hclean] at hcleaned hknown'
      exact writeback_changesScheduled hpb srv hknown' hcleaned nCurTime conn
  | finished => exact flushCache_changesScheduled pb srv h 0 true _

/-- The record has a modification that is not written, in an object that one of the maps holds for
the id. -/
structure Awaits (l : Logged σ) (nID pObject nDataID : Nat) (sCacheInfo : SCacheInfo) : Prop where
  held : l.store.m_dbCacheMgr.m_mapCache[nID]? = some pObject ∨
    l.store.m_dbCacheMgr.m_mapDirtyCache[nID]? = some pObject
  record : (l.store.m_dbCacheMgr.objects pObject).m_mapCacheInfo[nDataID]? = some sCacheInfo
  modified : sCacheInfo.nTime ≠ 0
  unwritten : Ledger.Unwritten l.events (nID, nDataID)

/-- **The step lemma with changes of the limit.**  A change of the limit touches no record, and
while the cache is off it stays as it is, with its history; otherwise the step is one of the
store. -/
theorem logLimit_changesScheduled (hpb : pb.Lawful) {l : Logged σ}
    (hknown : EachRecord (KnownRecord pb) l.store.m_dbCacheMgr.switchedOn)
    (h : l.store.m_dbCacheMgr.ChangesScheduled l.events) (action : LimitAction) :
    (logLimit pb srv l action).1.store.m_dbCacheMgr.ChangesScheduled
      (logLimit pb srv l action).1.events := by
  cases action with
  | setMaxCacheSize nSize => exact h
  | store action =>
      cases hdisabled : l.store.m_dbCacheMgr.isDisabled with
      | true =>
          obtain ⟨hmgr, hevents⟩ := @log_disabled σ pb srv l hdisabled action
          simp only [logLimit, hmgr, hevents]
          exact h
      | false => exact log_changesScheduled hpb (hknown.of_switchedOn hdisabled) h action

/-- **What awaits its write is scheduled and can be read back,** in a run whose messages are of
known types and whose data names have room. -/
theorem run_awaits_scheduled (hpb : pb.Lawful) {nMaxCacheSize nWritebackTime : Nat}
    {conn : CDbConnection σ} {actions : List LimitAction}
    (henters : Runs.Guarded (logLimit pb srv)
      (fun l => l.store.EntersLimit pb srv fun _ _ => True)
      (logFrom (init nMaxCacheSize nWritebackTime conn)) actions)
    {nID pObject nDataID : Nat} {sCacheInfo : SCacheInfo}
    (h : Awaits (Runs.run (logLimit pb srv)
        (logFrom (init nMaxCacheSize nWritebackTime conn)) actions)
      nID pObject nDataID sCacheInfo) :
    (Runs.run (logLimit pb srv) (logFrom (init nMaxCacheSize nWritebackTime conn))
        actions).store.m_dbCacheMgr.m_mapDirtyCache[nID]? = some pObject ∧
      Readable pb (Runs.run (logLimit pb srv) (logFrom (init nMaxCacheSize nWritebackTime conn))
        actions).store.m_dbCacheMgr nDataID sCacheInfo := by
  have hinvariant := Runs.run_invariant
    (fun l : Logged σ => EachRecord (KnownRecord pb) l.store.m_dbCacheMgr.switchedOn ∧
      l.store.m_dbCacheMgr.ChangesScheduled l.events)
    (fun l action hinv hin => ⟨by
        have hentered := stepLimit_entered hpb (knownRecord_rule hpb) hinv.1 hin
        cases action with
        | store => exact hentered
        | setMaxCacheSize => exact hentered,
      logLimit_changesScheduled hpb hinv.1 hinv.2 action⟩)
    ⟨(init_eachRecord (KnownRecord pb) nMaxCacheSize nWritebackTime).switchedOn,
      fun _ _ _ _ hcached => by simp [init, logFrom, CDbCacheMgr.init] at hcached⟩
    henters
  obtain ⟨hknown, hscheduled⟩ := hinvariant
  have hdirty := h.held.elim
    (fun hcached => hscheduled _ _ _ _ hcached h.record h.modified h.unwritten) id
  exact ⟨hdirty, hknown.readable hpb ⟨hdirty, h.record, h.modified⟩⟩

end Store

end Db
