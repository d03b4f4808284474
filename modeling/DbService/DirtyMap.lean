import DbService.StoreRuns
import DbService.PlayerBase

/-!
# The dirty map and the cache map

Every scheduled object should be the one the cache map holds for its id (`Aligned`).  Only
`flushCache` breaks this: for one id it drops the cache entry and leaves the dirty entry,
and for all ids it clears the cache map even when its pass was skipped.  While the maps
agree, a record that was flushed or deleted is not written again before a command stores
it anew (`DropsAreFinal`).

* `flushCache_aligned_iff`, `step_aligned_iff` -- when a flush, and an action, keeps the maps
  together;
* `drops_uncached`, `step_uncached` -- what is dropped stays out until it is stored again;
* `dirty_map_aligned_iff` -- both over whole runs;
* `dirty_map_not_always_aligned` -- a flush of one id leaves it dirty.
-/

namespace Db

open Reflection ByteText

namespace CDbCacheMgr

variable {σ : Type} {pb : Runtime} {srv : Server σ} {mgr : CDbCacheMgr}

/-- A scheduled object is the cached one. -/
def Aligned (mgr : CDbCacheMgr) : Prop :=
  ∀ nID pObject : Nat, mgr.m_mapDirtyCache[nID]? = some pObject →
    mgr.m_mapCache[nID]? = some pObject

/-- `flushCache(nKey)` leaves no entry of the dirty map behind: `nKey` is not scheduled, or
the pass over all ids is not skipped. -/
def FlushClean (mgr : CDbCacheMgr) (nKey : Nat) : Prop :=
  if nKey = 0 then mgr.isPaced 0 = false ∨ mgr.m_mapDirtyCache = ∅
  else mgr.m_mapDirtyCache[nKey]? = none

/-- Entering a new id into the cache map keeps the maps together: it was not scheduled. -/
theorem allocate_aligned (h : Aligned mgr) {nID : Nat} (huncached : mgr.m_mapCache[nID]? = none) :
    Aligned (mgr.allocate nID) := by
  intro nID' pObject hdirty
  have hcached := h nID' pObject hdirty
  have hne : nID ≠ nID' := by
    intro heq
    subst heq
    rw [huncached] at hcached
    cases hcached
  simpa [Std.ExtTreeMap.getElem?_insert, hne] using hcached

/-- A record that is added makes nothing dirty, so the maps stay aligned. -/
theorem AddOutcome.aligned (h : Aligned mgr) {nID : Nat} {pData : RowMessage}
    {result : Bool × CDbCacheMgr} (houtcome : AddOutcome pb mgr nID pData result) :
    Aligned result.2 := by
  have hnamed : Aligned (mgr.getDataID pData.GetTypeName).2 := by simpa [Aligned] using h
  cases houtcome with
  | badIndex => exact hnamed
  | present => exact hnamed
  | unserialised _ huncached => exact allocate_aligned hnamed (by simpa using huncached)
  | added szData _ huncached => exact allocate_aligned hnamed (by simpa using huncached)

/-- `setData` schedules the object it found in the cache map. -/
theorem SetOutcome.aligned (h : Aligned mgr) {nID nTime : Nat} {pData : RowMessage}
    {result : Bool × CDbCacheMgr} (houtcome : SetOutcome pb mgr nID pData nTime result) :
    Aligned result.2 := by
  have hnamed : Aligned (mgr.getDataID pData.GetTypeName).2 := by simpa [Aligned] using h
  cases houtcome with
  | uncached _ _ hadd => exact hadd.aligned h
  | badIndex => exact hnamed
  | refused => exact hnamed
  | stored pObject pDbCache hcached _ _ =>
      intro nID' pObject' hdirty
      simp only [markDirty_mapDirtyCache, store_mapDirtyCache, getDataID_mapDirtyCache,
        Std.ExtTreeMap.getElem?_insert, compare_eq_iff_eq] at hdirty
      simp only [markDirty_mapCache, store_mapCache, getDataID_mapCache]
      by_cases heq : nID = nID'
      · rw [if_pos heq] at hdirty
        rw [← heq, hcached, hdirty]
      · rw [if_neg heq] at hdirty
        exact h nID' pObject' hdirty

/-- A record that is dropped leaves both maps as they are. -/
theorem DelOutcome.aligned (h : Aligned mgr) {nID : Nat} {szDataName : String}
    {result : Bool × CDbCacheMgr} (houtcome : DelOutcome mgr nID szDataName result) :
    Aligned result.2 := by
  have hnamed : Aligned (mgr.getDataID szDataName).2 := by simpa [Aligned] using h
  cases houtcome with
  | uncached => exact h
  | badIndex => exact hnamed
  | absent => exact hnamed
  | deleted => exact hnamed

/-- The four operations keep the maps aligned, on any ids. -/
theorem kept_aligned (pb : Runtime) : Kept pb (fun _ => True) Aligned := by
  apply Kept.of_outcomes
  · intro mgr szDataName h
    simpa [Aligned] using h
  · intro mgr nID pData result _ h _ houtcome
    exact houtcome.aligned h
  · intro mgr nID pData nTime result _ h _ houtcome
    exact houtcome.aligned h
  · intro mgr nID szDataName result _ h _ houtcome
    exact houtcome.aligned h

/-- A timed pass only takes ids out of the dirty map. -/
theorem writeback_aligned (h : Aligned mgr) (nTime : Nat) (conn : CDbConnection σ) :
    Aligned (mgr.writeback pb srv nTime conn).1 := by
  intro nID pObject hdirty
  rw [writeback_mapCache]
  exact h nID pObject (writeback_dirty_le mgr nTime conn hdirty)

/-- An eviction takes its id out of both maps. -/
theorem cleanCache_aligned (pb : Runtime) (srv : Server σ) (h : Aligned mgr) (nTime : Nat)
    (sample : Sample) (conn : CDbConnection σ) :
    Aligned (mgr.cleanCache pb srv nTime sample conn).1 := by
  rcases cleanCache_cases pb srv mgr nTime sample conn with ⟨_, _, heq⟩ | ⟨nID, pObject, _, _, heq⟩
  · rw [heq]
    exact h
  · rw [heq]
    intro nID' pObject' hdirty
    simp only [evict, Std.ExtTreeMap.getElem?_erase] at hdirty ⊢
    split at hdirty
    · cases hdirty
    · rename_i hne
      rw [if_neg hne]
      exact h nID' pObject' hdirty

/-- Nothing waits for a forced pass, so it empties the dirty map. -/
theorem writebackFrom_forced (mgr : CDbCacheMgr) (entries : List (Nat × Nat))
    (conn : CDbConnection σ) :
    (mgr.writebackFrom pb srv 0 entries conn).1 = entries.map Prod.fst := by
  induction entries generalizing conn with
  | nil => rfl
  | cons entry rest ih =>
      obtain ⟨nID, pObject⟩ := entry
      have hdirty : (mgr.writebackObject pb srv nID pObject 0 conn).1 = false := by
        simp [writebackObject, CDbCache.writeback, CDbCache.isWaiting, CDbCache.isDue]
      unfold writebackFrom
      simp only [hdirty, Bool.false_eq_true, if_false, List.map_cons]
      rw [ih]

/-- A forced pass that is not skipped leaves no id dirty. -/
theorem writeback_forced_dirty (hdisabled : mgr.isDisabled = false)
    (hpaced : mgr.isPaced 0 = false) (conn : CDbConnection σ) :
    (mgr.writeback pb srv 0 conn).1.m_mapDirtyCache = ∅ := by
  rcases writeback_cases pb srv mgr 0 conn with ⟨hskip, _⟩ | ⟨_, _, heq⟩
  · rw [hdisabled, hpaced] at hskip
    simp at hskip
  · rw [heq]
    refine Std.ExtTreeMap.ext_getElem? fun nID => ?_
    simp only [writebackFrom_forced, foldl_erase_mem]
    cases hget : mgr.m_mapDirtyCache[nID]? with
    | none => simp
    | some pObject =>
        have hin : nID ∈ mgr.m_mapDirtyCache.toList.map Prod.fst :=
          List.mem_map.mpr ⟨(nID, pObject),
            Std.ExtTreeMap.mem_toList_iff_getElem?_eq_some.mpr hget, rfl⟩
        rw [if_pos hin]
        simp

/-- With an empty cache map nothing may be scheduled. -/
theorem aligned_empty_iff (mgr : CDbCacheMgr) :
    Aligned { mgr with m_mapCache := ∅ } ↔ mgr.m_mapDirtyCache = ∅ := by
  constructor
  · intro haligned
    refine Std.ExtTreeMap.ext_getElem? fun nID => ?_
    cases hget : mgr.m_mapDirtyCache[nID]? with
    | none => simp
    | some pObject => simpa using haligned nID pObject hget
  · intro hempty nID pObject hdirty
    have hdirty' : mgr.m_mapDirtyCache[nID]? = some pObject := hdirty
    rw [hempty] at hdirty'
    simp at hdirty'

/-- **When `flushCache` keeps the maps together.** -/
theorem flushCache_aligned_iff (pb : Runtime) (srv : Server σ) (hwf : WellFormed mgr)
    (h : Aligned mgr) (nKey : Nat) (bDel : Bool) (conn : CDbConnection σ) :
    Aligned (mgr.flushCache pb srv nKey bDel conn).1 ↔ FlushClean mgr nKey := by
  unfold FlushClean
  rcases flushCache_cases pb srv mgr nKey bDel conn with
    ⟨hnothing, heq⟩ | ⟨pObject, _, hkey, _, heq⟩ | ⟨hdisabled, hkey, heq⟩
  · rw [heq]
    refine ⟨fun _ => ?_, fun _ => h⟩
    rcases hnothing with hdisabled | ⟨hkey, huncached⟩
    · have hempty := (hwf.disabled hdisabled).2
      split
      · exact .inr hempty
      · simp [hempty]
    · rw [if_neg hkey]
      cases hget : mgr.m_mapDirtyCache[nKey]? with
      | none => rfl
      | some pObject => exact absurd (huncached.symm.trans (h nKey pObject hget)) (by simp)
  · rw [heq, if_neg hkey]
    constructor
    · intro haligned
      cases hget : mgr.m_mapDirtyCache[nKey]? with
      | none => rfl
      | some pObject' => simpa using haligned nKey pObject' hget
    · intro hclean nID pObject' hdirty
      have hne : nKey ≠ nID := by
        intro heq
        subst heq
        rw [hclean] at hdirty
        cases hdirty
      simpa [Std.ExtTreeMap.getElem?_erase, hne] using h nID pObject' hdirty
  · rw [heq, if_pos hkey, aligned_empty_iff]
    cases hpaced : mgr.isPaced 0 with
    | false => simp [writeback_forced_dirty hdisabled hpaced]
    | true =>
        rcases writeback_cases pb srv mgr 0 conn with ⟨_, hskipped⟩ | ⟨_, hrun, _⟩
        · simp [hskipped]
        · exact absurd (hpaced.symm.trans hrun) (by simp)

/-! ## Records -/

/-- The record cached for an id under a data index. -/
def record (mgr : CDbCacheMgr) (nID nDataID : Nat) : Option SCacheInfo :=
  mgr.m_mapCache[nID]?.bind fun pObject => (mgr.objects pObject).m_mapCacheInfo[nDataID]?

theorem record_of_uncached {nID : Nat} (huncached : mgr.m_mapCache[nID]? = none)
    (nDataID : Nat) : mgr.record nID nDataID = none := by
  simp [record, huncached]

/-- A cached id has the records of its object. -/
theorem record_of_cached {nID pObject : Nat} (hcached : mgr.m_mapCache[nID]? = some pObject)
    (nDataID : Nat) :
    mgr.record nID nDataID = (mgr.objects pObject).m_mapCacheInfo[nDataID]? := by
  simp [record, hcached]

@[simp] theorem getDataID_record (mgr : CDbCacheMgr) (szDataName : String)
    (nID nDataID : Nat) :
    (mgr.getDataID szDataName).2.record nID nDataID = mgr.record nID nDataID := by
  simp [record]

/-- What leaves an id alone leaves its records. -/
theorem SameAt.record {mgr' : CDbCacheMgr} {nID : Nat} (h : SameAt mgr mgr' nID)
    (nDataID : Nat) : mgr'.record nID nDataID = mgr.record nID nDataID := by
  unfold CDbCacheMgr.record
  rw [h.cache]
  cases hcached : mgr.m_mapCache[nID]? with
  | none => rfl
  | some pObject => rw [Option.bind_some, Option.bind_some, h.objects pObject (.inl hcached)]

/-- **Commands on other ids leave the records of an id alone.** -/
theorem kept_record (pb : Runtime) (nID nDataID : Nat) (info : Option SCacheInfo) :
    Kept pb (fun nID' => nID' ≠ nID)
      (fun mgr => WellFormed mgr ∧ mgr.record nID nDataID = info) :=
  kept_of_sameAt pb nID fun _ _ hsame hrecord => (hsame.record nDataID).trans hrecord

/-- Where only entries leave the cache map, no record appears. -/
theorem record_none_of_shrink {mgr' : CDbCacheMgr} (hsame : SameRecords mgr mgr')
    {nID nDataID : Nat} (hcache : mgr'.m_mapCache[nID]? = mgr.m_mapCache[nID]? ∨
      mgr'.m_mapCache[nID]? = none) (hrecord : mgr.record nID nDataID = none) :
    mgr'.record nID nDataID = none := by
  unfold record at *
  rw [hsame.objects]
  rcases hcache with heq | hnone
  · rw [heq]
    exact hrecord
  · simp [hnone]

/-- While the maps agree, a pass writes cached records only. -/
theorem Carries.record_ne_none (h : Aligned mgr) {nTime : Nat} {w : WriteEvent}
    (hmaps : mgr.m_mapCache[w.nID]? = some w.pDbCache ∨
      mgr.m_mapDirtyCache[w.nID]? = some w.pDbCache) (hcarries : Carries pb mgr nTime w) :
    mgr.record w.nID w.info.nDataID ≠ none := by
  obtain ⟨sCacheInfo, hrecord, _⟩ := hcarries
  have hcached : mgr.m_mapCache[w.nID]? = some w.pDbCache := hmaps.elim id (h _ _)
  rw [record_of_cached hcached, hrecord]
  simp

end CDbCacheMgr

open CDbCacheMgr

namespace Store

variable {σ : Type} (pb : Runtime) (srv : Server σ)

/-- No FLUSH and no last flush leaves an entry of the dirty map behind. -/
def FlushesClean (st : Store σ) : StoreAction → Prop
  | .command sDbCommand _ =>
      ∀ id type, sDbCommand.nType = .kOT_FLUSH →
        sDbCommand.pMessage = some (.flush_command id type) →
        st.m_dbCacheMgr.FlushClean id
  | .tick _ _ => True
  | .finish => st.m_dbCacheMgr.FlushClean 0

/-- **An action keeps the maps together exactly when it flushes clean.** -/
theorem step_aligned_iff {st : Store σ} (hwf : st.m_dbCacheMgr.WellFormed)
    (h : st.m_dbCacheMgr.Aligned) (action : StoreAction) :
    (st.step pb srv action).1.m_dbCacheMgr.Aligned ↔ FlushesClean st action := by
  cases action with
  | command sDbCommand clock =>
      have hprocessed := process_cases pb srv st sDbCommand clock
      simp only [step, FlushesClean]
      generalize st.process pb srv sDbCommand clock = result at hprocessed
      cases hprocessed with
      | flush id type htype hmessage mgr writes conn hflush =>
          have haligned := flushCache_aligned_iff pb srv hwf h id
            (type == EFlushCacheType.kFCT_DEL.code) st.m_dbConnection
          rw [hflush] at haligned
          rw [haligned]
          constructor
          · intro hclean id' type' _ hmessage'
            rw [hmessage] at hmessage'
            cases hmessage'
            exact hclean
          · exact fun hclean => hclean id type htype hmessage
      | flushNothing htype hmessage =>
          exact ⟨fun _ id type _ hmessage' => absurd hmessage' (hmessage id type), fun _ => h⟩
      | expired htype => exact ⟨fun _ _ _ htype' => absurd htype' htype, fun _ => h⟩
      | executed htype _ st' outcome hexecuted =>
          exact ⟨fun _ _ _ htype' => absurd htype' htype,
            fun _ => (kept_aligned pb).executed (fun _ _ => trivial) hexecuted h⟩
  | tick nCurTime sample =>
      exact ⟨fun _ => trivial, fun _ => writeback_aligned
        (cleanCache_aligned pb srv h nCurTime sample st.m_dbConnection) nCurTime _⟩
  | finish => exact flushCache_aligned_iff pb srv hwf h 0 true st.m_dbConnection

/-- The action is a command on `nID` that puts its record `nDataID` into the cache. -/
def Stores (st : Store σ) (action : StoreAction) (nID nDataID : Nat) : Prop :=
  action.key = some nID ∧ st.m_dbCacheMgr.record nID nDataID = none ∧
    (st.step pb srv action).1.m_dbCacheMgr.record nID nDataID ≠ none

/-- From `st` on no write-back issues an UPDATE for the record before a command stores it. -/
def SilentUntilStored (nID nDataID : Nat) (st : Store σ) : List StoreAction → Prop
  | [] => True
  | action :: rest =>
      Stores pb srv st action nID nDataID ∨
        (∀ w ∈ (st.step pb srv action).2.writes, ¬ (w.nID = nID ∧ w.info.nDataID = nDataID)) ∧
          SilentUntilStored nID nDataID (st.step pb srv action).1 rest

/-- The action drops the record from the cache: a FLUSH of its id or of all ids, or a
DELETE of it, also when the cache never had an index for its table. -/
def Drops (st : Store σ) (nID nDataID : Nat) : StoreAction → Prop
  | .command sDbCommand clock =>
      (sDbCommand.nType = .kOT_FLUSH ∧ ∃ id type,
        sDbCommand.pMessage = some (.flush_command id type) ∧ (id = 0 ∨ id = nID)) ∨
      (sDbCommand.nType = .kOT_DELETE ∧ sDbCommand.isExpired clock.nCurTime = false ∧
        ∃ table_name, sDbCommand.pMessage = some (.delete_command nID table_name) ∧
          ∀ nDataID', (st.step pb srv (.command sDbCommand
              clock)).1.m_dbCacheMgr.m_mapDataIndex[getMessageNameByTableName table_name]? =
            some nDataID' → nDataID' = nDataID)
  | .tick _ _ => False
  | .finish => True

/-- **Nothing that was flushed or deleted is written again** unless a later command stored
it in the cache. -/
def DropsAreFinal (st : Store σ) (actions : List StoreAction) : Prop :=
  ∀ before action after, actions = before ++ action :: after → ∀ nID nDataID,
    Drops pb srv (Runs.run (step pb srv) st before) nID nDataID action →
    SilentUntilStored pb srv nID nDataID
      (step pb srv (Runs.run (step pb srv) st before) action).1 after

variable {pb srv}

/-- **A record that is not cached** is not written in the step, and stays out of the cache
unless the step stores it. -/
theorem step_uncached (pb : Runtime) (srv : Server σ) {st : Store σ}
    (hwf : st.m_dbCacheMgr.WellFormed)
    (h : st.m_dbCacheMgr.Aligned) {nID nDataID : Nat}
    (hrecord : st.m_dbCacheMgr.record nID nDataID = none) (action : StoreAction) :
    (∀ w ∈ (st.step pb srv action).2.writes, ¬ (w.nID = nID ∧ w.info.nDataID = nDataID)) ∧
      ((st.step pb srv action).1.m_dbCacheMgr.record nID nDataID = none ∨
        Stores pb srv st action nID nDataID) := by
  have hsilent : ∀ {mgr : CDbCacheMgr} {nTime : Nat} {w : WriteEvent}, mgr.Aligned →
      mgr.record nID nDataID = none →
      (mgr.m_mapCache[w.nID]? = some w.pDbCache ∨
        mgr.m_mapDirtyCache[w.nID]? = some w.pDbCache) → Carries pb mgr nTime w →
      ¬ (w.nID = nID ∧ w.info.nDataID = nDataID) := by
    intro mgr nTime w haligned hnone hmaps hcarries hcase
    obtain ⟨rfl, rfl⟩ := hcase
    exact hcarries.record_ne_none haligned hmaps hnone
  have hflush : ∀ nKey bDel,
      (∀ w ∈ (st.m_dbCacheMgr.flushCache pb srv nKey bDel st.m_dbConnection).2.1,
        ¬ (w.nID = nID ∧ w.info.nDataID = nDataID)) ∧
      (st.m_dbCacheMgr.flushCache pb srv nKey bDel st.m_dbConnection).1.record nID nDataID =
        none := by
    intro nKey bDel
    refine ⟨fun w hw => ?_, ?_⟩
    · obtain ⟨hmaps, hcarries⟩ := mem_flushCache hw
      exact hsilent h hrecord hmaps hcarries
    · exact record_none_of_shrink (flushCache_sameRecords pb srv _ nKey bDel _)
        (flushCache_mapCache pb srv _ nKey bDel _ nID) hrecord
  cases action with
  | command sDbCommand clock =>
      have hprocessed := process_cases pb srv st sDbCommand clock
      have hresult : (∀ w ∈ (st.process pb srv sDbCommand clock).2.2,
            ¬ (w.nID = nID ∧ w.info.nDataID = nDataID)) ∧
          ((st.process pb srv sDbCommand clock).1.m_dbCacheMgr.record nID nDataID = none ∨
            CDbThread.cacheKey sDbCommand.nType sDbCommand.pMessage = some nID) := by
        generalize st.process pb srv sDbCommand clock = result at hprocessed
        cases hprocessed with
        | flush id type _ _ mgr writes conn heq =>
            obtain ⟨hwrites, hnone⟩ := hflush id (type == EFlushCacheType.kFCT_DEL.code)
            rw [heq] at hwrites hnone
            exact ⟨hwrites, .inl hnone⟩
        | flushNothing => exact ⟨by simp, .inl hrecord⟩
        | expired => exact ⟨by simp, .inl hrecord⟩
        | executed _ _ st' outcome hexecuted =>
            refine ⟨by simp, ?_⟩
            by_cases hkey : CDbThread.cacheKey sDbCommand.nType sDbCommand.pMessage = some nID
            · exact .inr hkey
            · exact .inl ((kept_record pb nID nDataID none).executed_other hkey hexecuted
                ⟨hwf, hrecord⟩).2
      refine ⟨hresult.1, ?_⟩
      by_cases hnone :
          (st.process pb srv sDbCommand clock).1.m_dbCacheMgr.record nID nDataID = none
      · exact .inl hnone
      · exact .inr ⟨hresult.2.resolve_left hnone, hrecord, hnone⟩
  | tick nCurTime sample =>
      have hclean := cleanCache_aligned pb srv h nCurTime sample
        st.m_dbConnection
      have hnone := record_none_of_shrink
        (cleanCache_sameRecords pb srv st.m_dbCacheMgr nCurTime sample st.m_dbConnection)
        (cleanCache_mapCache pb srv _ nCurTime sample _ nID) hrecord
      refine ⟨fun w hw => ?_, .inl ?_⟩
      · rcases List.mem_append.mp hw with hin | hin
        · obtain ⟨hcached, hcarries⟩ := mem_cleanCache hin
          exact hsilent h hrecord (.inl hcached) hcarries
        · obtain ⟨hdirty, hcarries⟩ := mem_writeback hin
          exact hsilent hclean hnone (.inr hdirty) hcarries
      · exact record_none_of_shrink (writeback_sameRecords pb srv _ nCurTime _)
          (.inl (by rw [writeback_mapCache])) hnone
  | finish =>
      obtain ⟨hwrites, hnone⟩ := hflush 0 true
      exact ⟨hwrites, .inl hnone⟩

/-- A DELETE changes the cache by `delData` alone. -/
theorem executed_delete {st : Store σ} {id nSetTime : Nat} {table_name : String}
    {result : Store σ × Outcome}
    (hexecuted : Executed pb srv st .kOT_DELETE (some (.delete_command id table_name)) nSetTime
      result) :
    result.1.m_dbCacheMgr =
      (st.m_dbCacheMgr.delData id (getMessageNameByTableName table_name)).2 := by
  have hpre : CDbThread.onPreCache pb st.m_dbCacheMgr .kOT_DELETE
      (some (.delete_command id table_name)) nSetTime =
      (false, none,
        (st.m_dbCacheMgr.delData id (getMessageNameByTableName table_name)).2) := by
    cases hdisabled : st.m_dbCacheMgr.isDisabled with
    | true => rw [CDbThread.onPreCache_disabled hdisabled, delData_disabled hdisabled]
    | false => exact CDbThread.onPreCache_delete hdisabled id table_name nSetTime
  rw [executed_mgr (by decide) hexecuted, hpre]

end Store

namespace CDbCacheMgr

variable {σ : Type} {pb : Runtime} {srv : Server σ} {mgr : CDbCacheMgr}

/-- After `flushCache` no record of its id is cached. -/
theorem flushCache_record (pb : Runtime) (srv : Server σ) (hwf : WellFormed mgr)
    {nKey nID : Nat} (hkey : nKey = 0 ∨ nKey = nID) (bDel : Bool) (conn : CDbConnection σ)
    (nDataID : Nat) :
    (mgr.flushCache pb srv nKey bDel conn).1.record nID nDataID = none := by
  apply record_of_uncached
  rcases flushCache_cases pb srv mgr nKey bDel conn with
    ⟨hnothing, heq⟩ | ⟨_, _, hne, _, heq⟩ | ⟨_, _, heq⟩
  · rw [heq]
    rcases hnothing with hdisabled | ⟨hne, huncached⟩
    · simp [(hwf.disabled hdisabled).1]
    · exact hkey.resolve_left hne ▸ huncached
  · rw [heq, ← hkey.resolve_left hne]
    simp
  · rw [heq]
    simp

/-- After `delData` the record of its table is not cached. -/
theorem delData_record (hwf : WellFormed mgr) {nID nDataID : Nat} {szDataName : String}
    (hindex : ∀ nDataID', (mgr.delData nID szDataName).2.m_mapDataIndex[szDataName]? =
      some nDataID' → nDataID' = nDataID) :
    (mgr.delData nID szDataName).2.record nID nDataID = none := by
  cases hdisabled : mgr.isDisabled with
  | true =>
      rw [delData_disabled hdisabled]
      exact record_of_uncached (by simp [(hwf.disabled hdisabled).1]) nDataID
  | false =>
      have houtcome := delData_outcome hdisabled nID szDataName
      generalize mgr.delData nID szDataName = result at houtcome hindex ⊢
      cases houtcome with
      | uncached huncached => exact record_of_uncached huncached nDataID
      | badIndex pObject hcached hbad =>
          obtain rfl := hindex _ (getDataID_index mgr szDataName)
          rw [getDataID_record, record_of_cached hcached, hbad]
          exact hwf.records pObject
      | absent pObject hcached hgood habsent =>
          obtain rfl := hindex _ (getDataID_index mgr szDataName)
          rw [getDataID_record, record_of_cached hcached]
          exact habsent
      | deleted pObject sCacheInfo hcached hgood hrecord =>
          obtain rfl := hindex _ (getDataID_store_index mgr szDataName _ _)
          rw [record_of_cached (by simpa using hcached)]
          simp

end CDbCacheMgr

namespace Store

variable {σ : Type} {pb : Runtime} {srv : Server σ}

/-- **After a FLUSH or a DELETE the record is not cached.** -/
theorem drops_uncached {st : Store σ} (hwf : st.m_dbCacheMgr.WellFormed) {nID nDataID : Nat}
    {action : StoreAction} (hdrops : Drops pb srv st nID nDataID action) :
    (st.step pb srv action).1.m_dbCacheMgr.record nID nDataID = none := by
  cases action with
  | command sDbCommand clock =>
      have hprocessed := process_cases pb srv st sDbCommand clock
      simp only [Drops, step] at hdrops ⊢
      generalize st.process pb srv sDbCommand clock = result at hprocessed hdrops
      rcases hdrops with ⟨htype, id, type, hmessage, hid⟩ |
        ⟨htype, hlive, table_name, hmessage, hindex⟩
      · cases hprocessed with
        | flush id' type' _ hmessage' mgr writes conn heq =>
            rw [hmessage] at hmessage'
            cases hmessage'
            have hnone := flushCache_record pb srv hwf hid
              (type == EFlushCacheType.kFCT_DEL.code) st.m_dbConnection nDataID
            rwa [heq] at hnone
        | flushNothing _ hnone => exact absurd hmessage (hnone id type)
        | expired hne => exact absurd htype hne
        | executed hne => exact absurd htype hne
      · cases hprocessed with
        | flush _ _ htype' => rw [htype] at htype'; cases htype'
        | flushNothing htype' => rw [htype] at htype'; cases htype'
        | expired _ hexpired => rw [hlive] at hexpired; cases hexpired
        | executed _ _ st' outcome hexecuted =>
            rw [htype, hmessage] at hexecuted
            have hmgr := executed_delete hexecuted
            simp only at hmgr hindex ⊢
            rw [hmgr] at hindex ⊢
            exact delData_record hwf hindex
  | tick => exact absurd hdrops id
  | finish => exact flushCache_record pb srv hwf (.inl rfl) true st.m_dbConnection nDataID

/-- While the maps agree, what is not cached stays silent until it is stored. -/
theorem silentUntilStored_of_uncached {st : Store σ} (hwf : st.m_dbCacheMgr.WellFormed)
    {nID nDataID : Nat} (hrecord : st.m_dbCacheMgr.record nID nDataID = none)
    {actions : List StoreAction}
    (halways : Runs.Always (step pb srv) (fun st => st.m_dbCacheMgr.Aligned) st actions) :
    SilentUntilStored pb srv nID nDataID st actions := by
  induction actions generalizing st with
  | nil => trivial
  | cons action rest ih =>
      obtain ⟨hwrites, hnext⟩ := step_uncached pb srv hwf halways.head hrecord action
      rcases hnext with hnone | hstores
      · exact .inr ⟨hwrites, ih (step_wellFormed pb srv hwf action) hnone halways.2⟩
      · exact .inl hstores

/-- Where the maps are always aligned, what leaves the cache is written no more. -/
theorem dropsAreFinal_of_always {st : Store σ} (hwf : st.m_dbCacheMgr.WellFormed)
    {actions : List StoreAction}
    (halways : Runs.Always (step pb srv) (fun st => st.m_dbCacheMgr.Aligned) st actions) :
    DropsAreFinal pb srv st actions := by
  intro before action after heq nID nDataID hdrops
  subst heq
  have hbefore := run_wellFormed pb srv hwf before
  exact silentUntilStored_of_uncached (step_wellFormed pb srv hbefore action)
    (drops_uncached hbefore hdrops) halways.append_right.2

end Store

/-- **The two maps, exactly.**  In a run of a worker's store the maps agree in every state,
and nothing that was flushed or deleted is written again unless it was stored again, if and
only if every FLUSH and the last flush leave nothing in the dirty map behind. -/
theorem dirty_map_aligned_iff {σ : Type} (pb : Runtime) (srv : Server σ)
    (nMaxCacheSize nWritebackTime : Nat) (conn : CDbConnection σ)
    (actions : List StoreAction) :
    (Runs.Always (Store.step pb srv) (fun st : Store σ => st.m_dbCacheMgr.Aligned)
        (Store.init nMaxCacheSize nWritebackTime conn) actions ∧
      Store.DropsAreFinal pb srv (Store.init nMaxCacheSize nWritebackTime conn) actions) ↔
    Runs.Guarded (Store.step pb srv) Store.FlushesClean
      (Store.init nMaxCacheSize nWritebackTime conn) actions := by
  have hwf : (Store.init nMaxCacheSize nWritebackTime conn).m_dbCacheMgr.WellFormed :=
    init_wellFormed nMaxCacheSize nWritebackTime
  have hiff := Runs.always_iff_guarded (fun st : Store σ => st.m_dbCacheMgr.Aligned)
    (fun st : Store σ => st.m_dbCacheMgr.WellFormed)
    (fun _ action h => Store.step_wellFormed pb srv h action)
    (fun _ action hwf h => Store.step_aligned_iff pb srv hwf h action)
    hwf (by simp [Store.init, CDbCacheMgr.init, Aligned]) actions
  rw [← hiff]
  exact ⟨fun h => h.1, fun h => ⟨h, Store.dropsAreFinal_of_always hwf h⟩⟩

/-- Player 5 is inserted, updated in the cache, and flushed. -/
def flushedPlayer : List StoreAction :=
  let clock : Clock := ⟨1, 1⟩
  let m : Message := .row (PlayerBase.player 5 [97])
  [.command ⟨0, .kOT_INSERT, 0, 0, some m⟩ clock, .command ⟨0, .kOT_UPDATE, 0, 0, some m⟩ clock,
    .command ⟨0, .kOT_FLUSH, 0, 0, some (.flush_command 5 0)⟩ clock]

/-- The player is still scheduled then, and no longer cached: the maps do not always
agree. -/
theorem dirty_map_not_always_aligned :
    ¬ ∀ (σ : Type) (pb : Runtime) (srv : Server σ) (nMaxCacheSize nWritebackTime : Nat)
        (conn : CDbConnection σ) (actions : List StoreAction),
      Runs.Always (Store.step pb srv) (fun st : Store σ => st.m_dbCacheMgr.Aligned)
          (Store.init nMaxCacheSize nWritebackTime conn) actions ∧
        Store.DropsAreFinal pb srv (Store.init nMaxCacheSize nWritebackTime conn) actions := by
  intro h
  have hlast := (h Unit PlayerBase.runtime (Server.constant (.done 0 1)) 1000 60
    ⟨true, (), 0, []⟩ flushedPlayer).1.last
  have hdirty : (Runs.run (Store.step PlayerBase.runtime (Server.constant (.done 0 1)))
      (Store.init 1000 60 ⟨true, (), 0, []⟩)
      flushedPlayer).m_dbCacheMgr.m_mapDirtyCache[5]? = some 0 := by
    decide
  have hcache : (Runs.run (Store.step PlayerBase.runtime (Server.constant (.done 0 1)))
      (Store.init 1000 60 ⟨true, (), 0, []⟩)
      flushedPlayer).m_dbCacheMgr.m_mapCache[5]? = none := by
    decide
  exact absurd (hcache.symm.trans (hlast 5 0 hdirty)) (by simp)

end Db
