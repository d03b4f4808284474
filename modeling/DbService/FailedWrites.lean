import DbService.DirtyMap

/-!
# Failed INSERTs and DELETEs

The pre-step of an INSERT enters its record and that of a DELETE takes one out, before the
statement is sent; nothing is undone when it fails.  So a failed command leaves the cache as
it was (`SameCache`) exactly when its pre-step had nothing to change (`ChangesNothing`).

* `addData_sameCache_iff`, `delData_sameCache_iff` -- what the pre-steps change;
* `process_sameCache_iff` -- the whole command, whatever became of its statement;
* `failed_write_same_cache_iff` -- in every state that a worker reaches;
* `rejected_insert_cached` -- an INSERT that the server refuses.
-/

namespace Db

open Reflection ByteText

namespace CDbCacheMgr

variable {σ : Type} {pb : Runtime} {mgr : CDbCacheMgr}

/-- The records, with their times of modification, and the scheduled ids are the same. -/
structure SameCache (mgr mgr' : CDbCacheMgr) : Prop where
  record : ∀ nID nDataID, mgr'.record nID nDataID = mgr.record nID nDataID
  scheduled : mgr'.m_mapDirtyCache = mgr.m_mapDirtyCache

theorem SameCache.refl (mgr : CDbCacheMgr) : SameCache mgr mgr := ⟨fun _ _ => rfl, rfl⟩

theorem getDataID_sameCache (mgr : CDbCacheMgr) (szDataName : String) :
    SameCache mgr (mgr.getDataID szDataName).2 :=
  ⟨getDataID_record mgr szDataName, getDataID_mapDirtyCache mgr szDataName⟩

/-- A new object has no records. -/
theorem allocate_record (hwf : WellFormed mgr) {nID : Nat}
    (huncached : mgr.m_mapCache[nID]? = none) (nID' nDataID : Nat) :
    (mgr.allocate nID).record nID' nDataID = mgr.record nID' nDataID := by
  by_cases heq : nID = nID'
  · subst heq
    rw [record_of_uncached huncached]
    simp [record, allocate, CDbCache.empty]
  · exact (allocate_sameAt hwf heq).record nDataID

/-- **`addData` changes the cache** exactly when it enters a record. -/
theorem addData_sameCache_iff (pb : Runtime) (hwf : WellFormed mgr)
    (hdisabled : mgr.isDisabled = false) (nID : Nat) (pData : RowMessage) :
    SameCache mgr (mgr.addData pb nID pData).2 ↔
      ((mgr.getDataID pData.GetTypeName).1 ≠ badDataID →
        mgr.m_mapCache[nID]? = none → pb.SerializeToString (.row pData) = none) := by
  have houtcome := addData_outcome pb hdisabled nID pData
  generalize mgr.addData pb nID pData = result at houtcome
  have hnamed := getDataID_sameCache mgr pData.GetTypeName
  cases houtcome with
  | badIndex hbad => exact ⟨fun _ hgood => absurd hbad hgood, fun _ => hnamed⟩
  | present pObject _ hcached =>
      refine ⟨fun _ _ huncached => ?_, fun _ => hnamed⟩
      rw [hcached] at huncached
      cases huncached
  | unserialised _ huncached hdata =>
      refine ⟨fun _ _ _ => hdata, fun _ => ⟨?_, hnamed.scheduled⟩⟩
      intro nID' nDataID
      rw [allocate_record (getDataID_wellFormed hwf _) (by simpa using huncached)]
      exact hnamed.record nID' nDataID
  | added szData hgood huncached hdata =>
      constructor
      · intro hsame
        have hrecord := hsame.record nID (mgr.getDataID pData.GetTypeName).1
        have hcached := getDataID_allocate_cached mgr pData.GetTypeName nID
        rw [← store_mapCache mgr.nNextObject (CDbCache.empty.withRecord
          (mgr.getDataID pData.GetTypeName).1 ⟨szData, 0⟩ (0 + szData.length))] at hcached
        rw [record_of_uncached huncached, record_of_cached hcached] at hrecord
        simp [CDbCache.withRecord] at hrecord
      · intro hnothing
        rw [hnothing hgood huncached] at hdata
        cases hdata

/-- **`delData` changes the cache** exactly when it finds a record. -/
theorem delData_sameCache_iff (hwf : WellFormed mgr) (nID : Nat) (szDataName : String) :
    SameCache mgr (mgr.delData nID szDataName).2 ↔
      mgr.record nID (mgr.getDataID szDataName).1 = none := by
  cases hdisabled : mgr.isDisabled with
  | true =>
      rw [delData_disabled hdisabled]
      have huncached : mgr.m_mapCache[nID]? = none := by simp [(hwf.disabled hdisabled).1]
      exact ⟨fun _ => record_of_uncached huncached _, fun _ => .refl mgr⟩
  | false =>
      have houtcome := delData_outcome hdisabled nID szDataName
      generalize mgr.delData nID szDataName = result at houtcome
      have hnamed := getDataID_sameCache mgr szDataName
      cases houtcome with
      | uncached huncached => exact ⟨fun _ => record_of_uncached huncached _, fun _ => .refl mgr⟩
      | badIndex pObject hcached hbad =>
          refine ⟨fun _ => ?_, fun _ => hnamed⟩
          rw [record_of_cached hcached, hbad]
          exact hwf.records pObject
      | absent pObject hcached _ habsent =>
          exact ⟨fun _ => (record_of_cached hcached _).trans habsent, fun _ => hnamed⟩
      | deleted pObject sCacheInfo hcached hgood hrecord =>
          constructor
          · intro hsame
            have hcached' : ((mgr.getDataID szDataName).2.store pObject
                ⟨(mgr.objects pObject).m_mapCacheInfo.erase (mgr.getDataID szDataName).1,
                  (mgr.objects pObject).m_nDataSize - sCacheInfo.szData.length⟩).m_mapCache[nID]? =
                some pObject := by
              simpa using hcached
            rw [← hsame.record, record_of_cached hcached']
            simp
          · intro hnone
            rw [record_of_cached hcached, hrecord] at hnone
            cases hnone

/-- The pre-step of an INSERT or DELETE has nothing to change.  For an INSERT the cache is off,
the message has no id or does not serialise, no index is left for its data name, or the id is
cached; for a DELETE no record is cached. -/
def ChangesNothing (pb : Runtime) (mgr : CDbCacheMgr) : EOperatorType → Option Message → Prop
  | .kOT_INSERT, some (.row m) =>
      ∀ nID, mgr.isDisabled = false → getPrimaryValue (.row m) = some nID →
        (mgr.getDataID m.GetTypeName).1 ≠ badDataID → mgr.m_mapCache[nID]? = none →
        pb.SerializeToString (.row m) = none
  | .kOT_DELETE, some (.delete_command id table_name) =>
      mgr.record id (mgr.getDataID (getMessageNameByTableName table_name)).1 = none
  | _, _ => True

end CDbCacheMgr

namespace CDbThread

open CDbCacheMgr

variable {pb : Runtime} {mgr : CDbCacheMgr}

/-- **The pre-step of an INSERT** is `addData`, where there is something to add. -/
theorem insert_sameCache_iff (hwf : WellFormed mgr) (pRequest : Option Message) (nSetTime : Nat) :
    SameCache mgr (onPreCache pb mgr .kOT_INSERT pRequest nSetTime).2.2 ↔
      ChangesNothing pb mgr .kOT_INSERT pRequest := by
  cases hdisabled : mgr.isDisabled with
  | true =>
      rw [onPreCache_disabled hdisabled]
      refine ⟨fun _ => ?_, fun _ => .refl mgr⟩
      unfold ChangesNothing
      split
      · intro nID hon
        exact absurd (hdisabled.symm.trans hon) (by simp)
      · cases ‹EOperatorType.kOT_INSERT = EOperatorType.kOT_DELETE›
      · trivial
  | false =>
      by_cases hrow : ∃ m, pRequest = some (.row m)
      · obtain ⟨m, rfl⟩ := hrow
        cases hid : getPrimaryValue (.row m) with
        | none =>
            rw [onPreCache_write_refused (.inr rfl) (.inl hid)]
            refine ⟨fun _ => ?_, fun _ => .refl mgr⟩
            intro nID _ hid'
            rw [hid] at hid'
            cases hid'
        | some nID =>
            cases hdata : pb.SerializeToString (.row m) with
            | none =>
                rw [onPreCache_write_refused (.inr rfl) (.inr hdata)]
                exact ⟨fun _ _ _ _ _ _ => hdata, fun _ => .refl mgr⟩
            | some szData =>
                rw [onPreCache_insert hdisabled hid hdata, addData_sameCache_iff pb hwf hdisabled]
                constructor
                · intro hnothing nID' _ hid' hgood huncached
                  rw [hid, Option.some.injEq] at hid'
                  exact hnothing hgood (hid' ▸ huncached)
                · intro hnothing hgood huncached
                  exact hnothing nID hdisabled hid hgood huncached
      · have hpre : onPreCache pb mgr .kOT_INSERT pRequest nSetTime = (false, none, mgr) := by
          unfold onPreCache
          rw [hdisabled, if_neg Bool.false_ne_true]
          split <;> first | rfl | simp_all
        rw [hpre]
        refine ⟨fun _ => ?_, fun _ => .refl mgr⟩
        unfold ChangesNothing
        split <;> first | trivial | simp_all

/-- **The pre-step of a DELETE** is `delData`. -/
theorem delete_sameCache_iff (hwf : WellFormed mgr) (pRequest : Option Message) (nSetTime : Nat) :
    SameCache mgr (onPreCache pb mgr .kOT_DELETE pRequest nSetTime).2.2 ↔
      ChangesNothing pb mgr .kOT_DELETE pRequest := by
  by_cases hdelete : ∃ id table_name, pRequest = some (.delete_command id table_name)
  · obtain ⟨id, table_name, rfl⟩ := hdelete
    have hpre : (onPreCache pb mgr .kOT_DELETE (some (.delete_command id table_name))
        nSetTime).2.2 = (mgr.delData id (getMessageNameByTableName table_name)).2 := by
      cases hdisabled : mgr.isDisabled with
      | true => rw [onPreCache_disabled hdisabled, delData_disabled hdisabled]
      | false => rw [onPreCache_delete hdisabled]
    rw [hpre]
    exact delData_sameCache_iff hwf id (getMessageNameByTableName table_name)
  · have hpre : onPreCache pb mgr .kOT_DELETE pRequest nSetTime = (false, none, mgr) := by
      unfold onPreCache
      split
      · rfl
      · split <;> first | rfl | simp_all
    rw [hpre]
    refine ⟨fun _ => ?_, fun _ => .refl mgr⟩
    unfold ChangesNothing
    split <;> first | trivial | simp_all

end CDbThread

namespace Store

open CDbCacheMgr

variable {σ : Type} {pb : Runtime} {srv : Server σ} {st : Store σ}

/-- **A handled INSERT or DELETE leaves the cache as it was** exactly when its pre-step had
nothing to change, whatever became of its statement. -/
theorem process_sameCache_iff (hwf : st.m_dbCacheMgr.WellFormed) {sDbCommand : SDbCommand}
    (htype : sDbCommand.nType = .kOT_INSERT ∨ sDbCommand.nType = .kOT_DELETE) {clock : Clock}
    {nErrorCode : EResultCode} {pMessage : Option Message}
    (hhandled : (st.process pb srv sDbCommand clock).2.1 = .handled nErrorCode pMessage) :
    SameCache st.m_dbCacheMgr (st.process pb srv sDbCommand clock).1.m_dbCacheMgr ↔
      ChangesNothing pb st.m_dbCacheMgr sDbCommand.nType sDbCommand.pMessage := by
  have hprocessed := process_cases pb srv st sDbCommand clock
  generalize st.process pb srv sDbCommand clock = result at hprocessed hhandled
  cases hprocessed with
  | flush => cases hhandled
  | flushNothing => cases hhandled
  | expired => cases hhandled
  | executed _ _ st' outcome hexecuted =>
      have hmgr := executed_mgr (by rcases htype with h | h <;> simp [h]) hexecuted
      simp only at hmgr
      rw [hmgr]
      rcases htype with h | h
      · rw [h]
        exact CDbThread.insert_sameCache_iff hwf sDbCommand.pMessage clock.nSetTime
      · rw [h]
        exact CDbThread.delete_sameCache_iff hwf sDbCommand.pMessage clock.nSetTime

end Store

/-- **Failed INSERTs and DELETEs.**  In every state a worker reaches, an INSERT or DELETE that
ends in a code and not in a lost connection, in an error as well as in a success, leaves the
records, their times and the scheduled ids as they were exactly when its pre-step had nothing
to change. -/
theorem failed_write_same_cache_iff {σ : Type} (pb : Runtime) (srv : Server σ)
    (nMaxCacheSize nWritebackTime : Nat) (conn : CDbConnection σ) (actions : List StoreAction)
    {sDbCommand : SDbCommand}
    (htype : sDbCommand.nType = .kOT_INSERT ∨ sDbCommand.nType = .kOT_DELETE) {clock : Clock}
    {nErrorCode : EResultCode} {pMessage : Option Message}
    (hhandled : ((Runs.run (Store.step pb srv) (Store.init nMaxCacheSize nWritebackTime conn)
      actions).process pb srv sDbCommand clock).2.1 = .handled nErrorCode pMessage) :
    let st := Runs.run (Store.step pb srv) (Store.init nMaxCacheSize nWritebackTime conn) actions
    st.m_dbCacheMgr.SameCache (st.process pb srv sDbCommand clock).1.m_dbCacheMgr ↔
      st.m_dbCacheMgr.ChangesNothing pb sDbCommand.nType sDbCommand.pMessage := by
  have hinit : (Store.init nMaxCacheSize nWritebackTime conn).m_dbCacheMgr.WellFormed :=
    CDbCacheMgr.init_wellFormed nMaxCacheSize nWritebackTime
  have hwf := Store.run_wellFormed pb srv hinit actions
  exact Store.process_sameCache_iff hwf htype hhandled

/-- `ER_DUP_ENTRY`: a server that rejects every statement. -/
def rejectingServer : Server Unit := .constant (.failed 1062)

/-- INSERT of player 5. -/
def insertPlayer : SDbCommand :=
  ⟨0, .kOT_INSERT, 0, 0, some (.row (PlayerBase.player 5 [97]))⟩

/-- Where player 5 is cached already, its rejected INSERT changes nothing. -/
theorem rejected_second_insert_same_cache :
    let st := Runs.run (Store.step PlayerBase.runtime rejectingServer)
      (Store.init 1000 60 ⟨true, (), 0, []⟩) [.command insertPlayer ⟨1, 1⟩]
    st.m_dbCacheMgr.SameCache
        (st.process PlayerBase.runtime rejectingServer insertPlayer ⟨1, 1⟩).1.m_dbCacheMgr ↔
      st.m_dbCacheMgr.ChangesNothing PlayerBase.runtime insertPlayer.nType
        insertPlayer.pMessage :=
  failed_write_same_cache_iff PlayerBase.runtime rejectingServer 1000 60 ⟨true, (), 0, []⟩
    [.command insertPlayer ⟨1, 1⟩] (.inl rfl) rfl

/-- The first rejected INSERT leaves its player in the cache. -/
theorem rejected_insert_cached :
    ¬ ∀ (σ : Type) (pb : Runtime) (srv : Server σ) (nMaxCacheSize nWritebackTime : Nat)
        (conn : CDbConnection σ) (actions : List StoreAction) (sDbCommand : SDbCommand)
        (clock : Clock) (nErrorCode : EResultCode) (pMessage : Option Message),
      let st := Runs.run (Store.step pb srv) (Store.init nMaxCacheSize nWritebackTime conn) actions
      sDbCommand.nType = .kOT_INSERT ∨ sDbCommand.nType = .kOT_DELETE →
      (st.process pb srv sDbCommand clock).2.1 = .handled nErrorCode pMessage →
      nErrorCode ≠ .kRC_OK →
      st.m_dbCacheMgr.SameCache (st.process pb srv sDbCommand clock).1.m_dbCacheMgr := by
  intro h
  have hsame := h Unit PlayerBase.runtime rejectingServer 1000 60 ⟨true, (), 0, []⟩ []
    insertPlayer ⟨1, 1⟩ .kRC_MYSQL_ERROR none (.inl rfl) rfl (by decide)
  have hrecord := hsame.record 5 1
  revert hrecord
  decide

end Db
