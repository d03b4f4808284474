import DbService.Totals
import DbService.StoreRuns
import DbService.PlayerBase

/-!
# The size of the cache

`m_nDataSize` should be the sum of the sizes of the cached objects (`Accounted`).  The
operations that set, add and delete records correct it by the difference, and an eviction
takes the evicted object off.  `flushCache` takes entries out of the cache map and leaves
the total as it is, so it must find no bytes to take out (`FlushesNothing`).

The proof follows the drift, the difference of the counter and the sum: the operations keep it
whatever it is (`Drifted`), and a flush adds to it the bytes it takes out.

* `cache_size_accounted_iff` -- the counter is the sum after a run exactly if no flush of it found
  bytes to take out.
-/

namespace Db

open Reflection ByteText

/-- The size of an object is the sum of the sizes of its records. -/
def CDbCache.Sized (pDbCache : CDbCache) : Prop :=
  pDbCache.m_nDataSize =
    Totals.total (fun _ sCacheInfo => (sCacheInfo.szData.length : Int)) pDbCache.m_mapCacheInfo

/-- No record of the object has a byte. -/
def CDbCache.HoldsNothing (pDbCache : CDbCache) : Prop :=
  ∀ (nDataID : Nat) (sCacheInfo : SCacheInfo),
    pDbCache.m_mapCacheInfo[nDataID]? = some sCacheInfo → sCacheInfo.szData = []

namespace CDbCacheMgr

variable {σ : Type} {pb : Runtime} {srv : Server σ} {mgr : CDbCacheMgr}

/-- The sum of the sizes of the objects in the cache map. -/
def cachedSize (mgr : CDbCacheMgr) : Int :=
  Totals.total (fun _ pObject => (mgr.objects pObject).getDataSize) mgr.m_mapCache

/-- The accounted size is the size of what is cached: nothing for an empty map, and never
negative. -/
structure Accounted (mgr : CDbCacheMgr) : Prop where
  total : mgr.m_nDataSize = mgr.cachedSize
  empty : mgr.m_mapCache = ∅ → mgr.m_nDataSize = 0
  nonneg : 0 ≤ mgr.m_nDataSize

/-- Every object is as large as its records. -/
def Sized (mgr : CDbCacheMgr) : Prop := ∀ pObject, (mgr.objects pObject).Sized

end CDbCacheMgr

/-- What the cache of a worker goes through, operation by operation. -/
inductive CacheAction
  | getData (nID : Nat) (szDataName : String)
  | setData (nID : Nat) (pData : RowMessage) (nTime : Nat)
  | addData (nID : Nat) (pData : RowMessage)
  | delData (nID : Nat) (szDataName : String)
  | update (nCurTime : Nat) (sample : Sample)
  | flushCache (nKey : Nat) (bDel : Bool)

namespace Store

variable {σ : Type} (pb : Runtime) (srv : Server σ)

/-- One operation on the cache, with the write-back UPDATEs it issues. -/
def operate (st : Store σ) : CacheAction → Store σ × List WriteEvent
  | .getData nID szDataName =>
      ({ st with m_dbCacheMgr := (st.m_dbCacheMgr.getData pb nID szDataName).2 }, [])
  | .setData nID pData nTime =>
      ({ st with m_dbCacheMgr := (st.m_dbCacheMgr.setData pb nID pData nTime).2 }, [])
  | .addData nID pData =>
      ({ st with m_dbCacheMgr := (st.m_dbCacheMgr.addData pb nID pData).2 }, [])
  | .delData nID szDataName =>
      ({ st with m_dbCacheMgr := (st.m_dbCacheMgr.delData nID szDataName).2 }, [])
  | .update nCurTime sample => st.update pb srv nCurTime sample
  | .flushCache nKey bDel =>
      let (mgr, writes, conn) := st.m_dbCacheMgr.flushCache pb srv nKey bDel st.m_dbConnection
      (⟨mgr, conn⟩, writes)

/-- A flush takes no byte out of the cache: it is off, or the objects of the ids it flushes
hold none. -/
def FlushesNothing (st : Store σ) : CacheAction → Prop
  | .flushCache nKey _ =>
      st.m_dbCacheMgr.isDisabled = true ∨
        ∀ nID pObject : Nat, st.m_dbCacheMgr.m_mapCache[nID]? = some pObject →
          nKey = 0 ∨ nKey = nID → (st.m_dbCacheMgr.objects pObject).HoldsNothing
  | _ => True

end Store

/-! ## Objects are as large as their records -/

namespace CDbCache

variable {pb : Runtime} {pDbCache : CDbCache}

theorem empty_sized : CDbCache.empty.Sized := by
  simp [Sized, empty]

theorem Sized.nonneg (h : pDbCache.Sized) : 0 ≤ pDbCache.getDataSize := by
  rw [getDataSize, h]
  exact Totals.total_nonneg fun _ _ _ => by omega

/-- **An object of size zero** is one without a byte. -/
theorem Sized.eq_zero_iff (h : pDbCache.Sized) :
    pDbCache.getDataSize = 0 ↔ pDbCache.HoldsNothing := by
  rw [getDataSize, h, Totals.total_eq_zero_iff fun _ _ _ => by omega]
  simp [HoldsNothing]

/-- A record put where there was none. -/
theorem Sized.withNew (h : pDbCache.Sized) {nDataID : Nat}
    (habsent : pDbCache.m_mapCacheInfo[nDataID]? = none) (sCacheInfo : SCacheInfo) :
    (pDbCache.withRecord nDataID sCacheInfo
      (pDbCache.m_nDataSize + sCacheInfo.szData.length)).Sized := by
  unfold Sized at h ⊢
  simp only [withRecord]
  rw [Totals.total_insert, Totals.erase_of_none habsent, h]
  omega

/-- A record put in the place of another. -/
theorem Sized.withMerged (h : pDbCache.Sized) {nDataID : Nat} {sOld : SCacheInfo}
    (hrecord : pDbCache.m_mapCacheInfo[nDataID]? = some sOld) (sCacheInfo : SCacheInfo) :
    (pDbCache.withRecord nDataID sCacheInfo
      (pDbCache.m_nDataSize - sOld.szData.length + sCacheInfo.szData.length)).Sized := by
  unfold Sized at h ⊢
  simp only [withRecord]
  rw [Totals.total_insert, h, Totals.total_of_get _ hrecord]
  omega

/-- A record taken out. -/
theorem Sized.withoutRecord (h : pDbCache.Sized) {nDataID : Nat} {sOld : SCacheInfo}
    (hrecord : pDbCache.m_mapCacheInfo[nDataID]? = some sOld) :
    (⟨pDbCache.m_mapCacheInfo.erase nDataID,
      pDbCache.m_nDataSize - sOld.szData.length⟩ : CDbCache).Sized := by
  unfold Sized at h ⊢
  simp only
  rw [h, Totals.total_of_get _ hrecord]
  omega

/-- `addData` corrects the size with the records, -/
theorem AddOutcome.sized (h : pDbCache.Sized) {nDataID : Nat} {pData : RowMessage}
    {result : Bool × CDbCache} (houtcome : AddOutcome pb pDbCache nDataID pData result) :
    result.2.Sized := by
  cases houtcome with
  | present => exact h
  | unserialised => exact h
  | added szData habsent hdata => exact h.withNew habsent ⟨szData, 0⟩

/-- and `setData` does. -/
theorem SetOutcome.sized (h : pDbCache.Sized) {nDataID nTime : Nat} {szDataName : String}
    {pData : RowMessage} {result : Bool × CDbCache}
    (houtcome : SetOutcome pb pDbCache nDataID szDataName pData nTime result) :
    result.2.Sized := by
  cases houtcome with
  | absent _ _ hadd => exact hadd.sized h
  | unmerged => exact h
  | merged sCacheInfo szData hrecord hmerge => exact h.withMerged hrecord ⟨szData, nTime⟩

end CDbCache

/-! ## The operations correct the total -/

namespace CDbCacheMgr

variable {σ : Type} {pb : Runtime} {srv : Server σ} {mgr : CDbCacheMgr} {nDrift : Int}

theorem init_sized (nMaxCacheSize nWritebackTime : Nat) :
    Sized (init nMaxCacheSize nWritebackTime) := fun _ => CDbCache.empty_sized

/-- The cache is empty at first, and the counter is 0. -/
theorem init_total (nMaxCacheSize nWritebackTime : Nat) :
    (init nMaxCacheSize nWritebackTime).m_nDataSize =
      (init nMaxCacheSize nWritebackTime).cachedSize := by
  simp [init, cachedSize]

/-- **With objects as large as their records,** the sum is all that is to be accounted. -/
theorem accounted_iff (h : Sized mgr) : Accounted mgr ↔ mgr.m_nDataSize = mgr.cachedSize := by
  constructor
  · exact Accounted.total
  · intro htotal
    refine ⟨htotal, ?_, ?_⟩
    · intro hempty
      rw [htotal, cachedSize, hempty, Totals.total_empty]
    · rw [htotal]
      exact Totals.total_nonneg fun _ pObject _ => (h pObject).nonneg

/-- Objects and cache map decide the sum. -/
theorem cachedSize_congr {mgr' : CDbCacheMgr} (hobjects : mgr'.objects = mgr.objects)
    (hcache : mgr'.m_mapCache = mgr.m_mapCache) : mgr'.cachedSize = mgr.cachedSize := by
  unfold cachedSize
  rw [hobjects, hcache]

/-- An object other than those of an id is not looked at when its id is. -/
theorem total_update (hwf : WellFormed mgr) {nID pObject : Nat}
    (hcached : mgr.m_mapCache[nID]? = some pObject) (pDbCache : CDbCache) :
    Totals.total (fun _ pObject' =>
        (Function.update mgr.objects pObject pDbCache pObject').getDataSize)
        (mgr.m_mapCache.erase nID) =
      Totals.total (fun _ pObject' => (mgr.objects pObject').getDataSize)
        (mgr.m_mapCache.erase nID) := by
  apply Totals.total_congr
  intro nID' pObject' hget
  rw [Std.ExtTreeMap.getElem?_erase] at hget
  split at hget
  · cases hget
  · rename_i hne
    have hother : pObject' ≠ pObject := by
      intro heq
      subst heq
      have hid := hwf.inj (.inl hcached) (.inl hget)
      exact hne (by simp [hid])
    rw [Function.update_of_ne hother]

/-- **Replacing a cached object** changes the sum by the difference of the sizes. -/
theorem store_cachedSize (hwf : WellFormed mgr) {nID pObject : Nat}
    (hcached : mgr.m_mapCache[nID]? = some pObject) (pDbCache : CDbCache) :
    (mgr.store pObject pDbCache).cachedSize =
      mgr.cachedSize - (mgr.objects pObject).getDataSize + pDbCache.getDataSize := by
  unfold cachedSize
  rw [store_mapCache, store_objects, Totals.total_of_get _ hcached,
    Totals.total_of_get _ hcached, total_update hwf hcached, Function.update_self]
  omega

/-- So the corrected total is off by as much as before. -/
theorem store_total (hwf : WellFormed mgr) {nID pObject : Nat}
    (hcached : mgr.m_mapCache[nID]? = some pObject) (pDbCache : CDbCache) {nDrift : Int}
    (h : mgr.m_nDataSize = mgr.cachedSize + nDrift) :
    (mgr.store pObject pDbCache).m_nDataSize =
      (mgr.store pObject pDbCache).cachedSize + nDrift := by
  have hstored : (mgr.store pObject pDbCache).m_nDataSize =
      mgr.m_nDataSize - (mgr.objects pObject).getDataSize + pDbCache.getDataSize := rfl
  rw [store_cachedSize hwf hcached, hstored, h]
  omega

/-- **A new object** is empty. -/
theorem allocate_cachedSize (hwf : WellFormed mgr) {nID : Nat}
    (huncached : mgr.m_mapCache[nID]? = none) :
    (mgr.allocate nID).cachedSize = mgr.cachedSize := by
  unfold cachedSize
  rw [allocate_mapCache, Totals.total_insert, Totals.erase_of_none huncached]
  have hnew : ((mgr.allocate nID).objects mgr.nNextObject).getDataSize = 0 := by
    simp [allocate, CDbCache.empty, CDbCache.getDataSize]
  rw [hnew, Int.zero_add]
  apply Totals.total_congr
  intro nID' pObject hget
  have hlt := hwf.lt (.inl hget)
  have hother : pObject ≠ mgr.nNextObject := by omega
  simp [allocate, hother]

/-- Replacing an object by one that is as large as its records keeps all of them so, -/
theorem store_sized (h : Sized mgr) (pObject : Nat) {pDbCache : CDbCache}
    (hsized : pDbCache.Sized) : Sized (mgr.store pObject pDbCache) := by
  intro pObject'
  rw [store_objects]
  by_cases heq : pObject' = pObject
  · subst heq
    rwa [Function.update_self]
  · rw [Function.update_of_ne heq]
    exact h pObject'

/-- a new one is, -/
theorem allocate_sized (h : Sized mgr) (nID : Nat) : Sized (mgr.allocate nID) := by
  intro pObject
  by_cases heq : pObject = mgr.nNextObject
  · subst heq
    simpa [allocate] using CDbCache.empty_sized
  · simpa [allocate, heq] using h pObject

/-- and looking up a name touches none. -/
theorem getDataID_sized (h : Sized mgr) (szDataName : String) :
    Sized (mgr.getDataID szDataName).2 := by
  intro pObject
  rw [getDataID_objects]
  exact h pObject

@[simp] theorem getDataID_cachedSize (mgr : CDbCacheMgr) (szDataName : String) :
    (mgr.getDataID szDataName).2.cachedSize = mgr.cachedSize :=
  cachedSize_congr (getDataID_objects ..) (getDataID_mapCache ..)

@[simp] theorem getDataID_nDataSize (mgr : CDbCacheMgr) (szDataName : String) :
    (mgr.getDataID szDataName).2.m_nDataSize = mgr.m_nDataSize := by
  unfold getDataID
  split <;> rfl

/-- A manager whose objects are in order and whose total is off by `nDrift`. -/
structure Drifted (nDrift : Int) (mgr : CDbCacheMgr) : Prop where
  wellFormed : WellFormed mgr
  sized : Sized mgr
  total : mgr.m_nDataSize = mgr.cachedSize + nDrift

/-- So the drift stays when a name is looked up, -/
theorem getDataID_drifted (h : Drifted nDrift mgr) (szDataName : String) :
    Drifted nDrift (mgr.getDataID szDataName).2 where
  wellFormed := getDataID_wellFormed h.wellFormed szDataName
  sized := getDataID_sized h.sized szDataName
  total := by simpa using h.total

/-- An `addData` keeps the drift, whatever it is. -/
theorem AddOutcome.drifted (h : Drifted nDrift mgr) (hdisabled : mgr.isDisabled = false) {nID : Nat}
    {pData : RowMessage} {result : Bool × CDbCacheMgr}
    (houtcome : AddOutcome pb mgr nID pData result) : Drifted nDrift result.2 := by
  have hwf := houtcome.wellFormed h.wellFormed hdisabled
  have hnamed := getDataID_drifted h pData.GetTypeName
  cases houtcome with
  | badIndex => exact hnamed
  | present => exact hnamed
  | unserialised _ huncached =>
      refine ⟨hwf, allocate_sized hnamed.sized nID, ?_⟩
      rw [allocate_cachedSize hnamed.wellFormed (by simpa using huncached)]
      exact hnamed.total
  | added szData _ huncached =>
      have huncached' : (mgr.getDataID pData.GetTypeName).2.m_mapCache[nID]? = none := by
        simpa using huncached
      have hallocated := allocate_wellFormed hnamed.wellFormed
        ((getDataID_isDisabled ..).trans hdisabled) nID
      refine ⟨hwf, store_sized (allocate_sized hnamed.sized nID) _ ?_, ?_⟩
      · exact CDbCache.empty_sized.withNew (by simp [CDbCache.empty]) ⟨szData, 0⟩
      · apply store_total hallocated (getDataID_allocate_cached mgr pData.GetTypeName nID) _
        rw [allocate_cachedSize hnamed.wellFormed huncached']
        exact hnamed.total

/-- So does a `setData`. -/
theorem SetOutcome.drifted (h : Drifted nDrift mgr) (hdisabled : mgr.isDisabled = false)
    {nID nTime : Nat} {pData : RowMessage} {result : Bool × CDbCacheMgr}
    (houtcome : SetOutcome pb mgr nID pData nTime result) : Drifted nDrift result.2 := by
  have hwf := houtcome.wellFormed h.wellFormed hdisabled
  have hnamed := getDataID_drifted h pData.GetTypeName
  cases houtcome with
  | uncached _ _ hadd => exact hadd.drifted h hdisabled
  | badIndex => exact hnamed
  | refused => exact hnamed
  | stored pObject pDbCache hcached hgood hset =>
      have hstored := store_sized hnamed.sized pObject (hset.sized (h.sized pObject))
      refine ⟨hwf, hstored, ?_⟩
      exact store_total hnamed.wellFormed (by simpa using hcached) pDbCache hnamed.total

/-- A `delData` keeps the drift: the counter and the cache change by the same difference. -/
theorem DelOutcome.drifted (h : Drifted nDrift mgr) {nID : Nat} {szDataName : String}
    {result : Bool × CDbCacheMgr} (houtcome : DelOutcome mgr nID szDataName result) :
    Drifted nDrift result.2 := by
  have hwf := houtcome.wellFormed h.wellFormed
  have hnamed := getDataID_drifted h szDataName
  cases houtcome with
  | uncached => exact h
  | badIndex => exact hnamed
  | absent => exact hnamed
  | deleted pObject sCacheInfo hcached hgood hrecord =>
      refine ⟨hwf, store_sized hnamed.sized pObject ((h.sized pObject).withoutRecord hrecord), ?_⟩
      exact store_total hnamed.wellFormed (by simpa using hcached) _ hnamed.total

/-- **Setting, adding and deleting records** moves the total no further off. -/
theorem kept_drifted (pb : Runtime) (nDrift : Int) :
    Kept pb (fun _ => True) (Drifted nDrift) := by
  apply Kept.of_outcomes
  · exact fun _ szDataName h => getDataID_drifted h szDataName
  · intro mgr nID pData result _ h hdisabled houtcome
    exact houtcome.drifted h hdisabled
  · intro mgr nID pData nTime result _ h hdisabled houtcome
    exact houtcome.drifted h hdisabled
  · intro mgr nID szDataName result _ h _ houtcome
    exact houtcome.drifted h

/-- **An eviction** takes the size of the evicted object off. -/
theorem cleanCache_total (pb : Runtime) (srv : Server σ) (h : Drifted nDrift mgr) (nTime : Nat)
    (sample : Sample) (conn : CDbConnection σ) :
    (mgr.cleanCache pb srv nTime sample conn).1.m_nDataSize =
      (mgr.cleanCache pb srv nTime sample conn).1.cachedSize + nDrift := by
  rcases cleanCache_cases pb srv mgr nTime sample conn with
    ⟨_, _, heq⟩ | ⟨nID, pObject, _, hchosen, heq⟩
  · rw [heq]
    exact h.total
  · rw [heq]
    have hsplit := Totals.total_of_get (fun _ pObject => (mgr.objects pObject).getDataSize)
      (chosen_mem hchosen)
    have htotal := h.total
    simp only [evict, cachedSize] at htotal ⊢
    omega

/-- A pass over the dirty map touches neither side. -/
theorem writeback_total (pb : Runtime) (srv : Server σ)
    (h : mgr.m_nDataSize = mgr.cachedSize + nDrift) (nTime : Nat) (conn : CDbConnection σ) :
    (mgr.writeback pb srv nTime conn).1.m_nDataSize =
      (mgr.writeback pb srv nTime conn).1.cachedSize + nDrift := by
  have hsame := writeback_sameRecords pb srv mgr nTime conn
  rw [cachedSize_congr hsame.objects (writeback_mapCache mgr nTime conn), ← h]
  rcases writeback_cases pb srv mgr nTime conn with ⟨_, heq⟩ | ⟨_, _, heq⟩
  · rw [heq]
  · rw [heq]

/-- **A tick** moves the total no further off. -/
theorem update_drifted (pb : Runtime) (srv : Server σ) (h : Drifted nDrift mgr) (nCurTime : Nat)
    (sample : Sample) (conn : CDbConnection σ) :
    Drifted nDrift (mgr.update pb srv nCurTime sample conn).1 where
  wellFormed := writeback_wellFormed pb srv
    (cleanCache_wellFormed pb srv h.wellFormed nCurTime sample conn) nCurTime _
  sized := by
    intro pObject
    rw [(update_sameRecords pb srv mgr nCurTime sample conn).objects]
    exact h.sized pObject
  total := writeback_total pb srv (cleanCache_total pb srv h nCurTime sample conn) nCurTime _

/-- **A flush** keeps the account exactly when it takes no byte out of the cache. -/
theorem flushCache_total_iff (pb : Runtime) (srv : Server σ) (h : Drifted 0 mgr) (nKey : Nat)
    (bDel : Bool) (conn : CDbConnection σ) :
    (mgr.flushCache pb srv nKey bDel conn).1.m_nDataSize =
        (mgr.flushCache pb srv nKey bDel conn).1.cachedSize ↔
      mgr.isDisabled = true ∨ ∀ nID pObject : Nat, mgr.m_mapCache[nID]? = some pObject →
        nKey = 0 ∨ nKey = nID → (mgr.objects pObject).HoldsNothing := by
  rcases flushCache_cases pb srv mgr nKey bDel conn with
    ⟨hnothing, heq⟩ | ⟨pObject, hon, hkey, hcached, heq⟩ | ⟨hon, hkey, heq⟩
  · rw [heq]
    refine ⟨fun _ => ?_, fun _ => by simpa using h.total⟩
    apply hnothing.imp id
    intro hmiss nID pObject hcached hflushed
    obtain ⟨hkey, hnone⟩ := hmiss
    rw [hflushed.resolve_left hkey, hcached] at hnone
    cases hnone
  · -- One object leaves the map, and its size stays in the total.
    rw [heq]
    have hsplit := Totals.total_of_get (fun _ pObject => (mgr.objects pObject).getDataSize)
      hcached
    have htotal := h.total
    have hzero : mgr.m_nDataSize =
        Totals.total (fun _ pObject => (mgr.objects pObject).getDataSize)
          (mgr.m_mapCache.erase nKey) ↔ (mgr.objects pObject).HoldsNothing := by
      rw [← (h.sized pObject).eq_zero_iff]
      unfold cachedSize at htotal
      omega
    apply hzero.trans
    rw [hon]
    constructor
    · intro hnothing
      refine .inr ?_
      intro nID pObject' hcached' hflushed
      rw [← hflushed.resolve_left hkey, hcached, Option.some.injEq] at hcached'
      exact hcached' ▸ hnothing
    · intro hall
      exact hall.resolve_left Bool.false_ne_true nKey pObject hcached (.inr rfl)
  · -- The map is emptied, and the total stays what it was.
    rw [heq]
    have hpass := writeback_total pb srv h.total 0 conn
    have hsame := writeback_sameRecords pb srv mgr 0 conn
    rw [cachedSize_congr hsame.objects (writeback_mapCache mgr 0 conn), Int.add_zero] at hpass
    have hempty : cachedSize { (mgr.writeback pb srv 0 conn).1 with m_mapCache := ∅ } = 0 := by
      simp [cachedSize]
    have hzero : mgr.cachedSize = 0 ↔ ∀ nID pObject : Nat,
        mgr.m_mapCache[nID]? = some pObject → (mgr.objects pObject).HoldsNothing := by
      unfold cachedSize
      rw [Totals.total_eq_zero_iff fun _ pObject _ => (h.sized pObject).nonneg]
      refine forall_congr' fun nID => forall_congr' fun pObject => ?_
      rw [(h.sized pObject).eq_zero_iff]
    rw [hempty, hpass, hzero, hon]
    simp [hkey]

end CDbCacheMgr

/-! ## Runs -/

namespace Store

variable {σ : Type} (pb : Runtime) (srv : Server σ) {st : Store σ}

/-- **No operation but a flush** moves the total off. -/
theorem operate_drifted {nDrift : Int} (h : st.m_dbCacheMgr.Drifted nDrift)
    {action : CacheAction} (hflush : ∀ nKey bDel, action ≠ .flushCache nKey bDel) :
    (st.operate pb srv action).1.m_dbCacheMgr.Drifted nDrift := by
  have hkept := CDbCacheMgr.kept_drifted pb nDrift
  cases action with
  | getData nID szDataName =>
      simp only [operate, CDbCacheMgr.getData_eq]
      exact hkept.getDataID _ szDataName h
  | setData nID pData nTime => exact hkept.setData _ nID pData nTime trivial h
  | addData nID pData => exact hkept.addData _ nID pData trivial h
  | delData nID szDataName => exact hkept.delData _ nID szDataName trivial h
  | update nCurTime sample =>
      exact CDbCacheMgr.update_drifted pb srv h nCurTime sample st.m_dbConnection
  | flushCache nKey bDel => exact absurd rfl (hflush nKey bDel)

/-- **Every operation keeps the objects in order.** -/
theorem operate_sized (h : st.m_dbCacheMgr.WellFormed ∧ st.m_dbCacheMgr.Sized)
    (action : CacheAction) :
    (st.operate pb srv action).1.m_dbCacheMgr.WellFormed ∧
      (st.operate pb srv action).1.m_dbCacheMgr.Sized := by
  by_cases hflush : ∃ nKey bDel, action = .flushCache nKey bDel
  · obtain ⟨nKey, bDel, rfl⟩ := hflush
    refine ⟨CDbCacheMgr.flushCache_wellFormed pb srv h.1 nKey bDel st.m_dbConnection, ?_⟩
    intro pObject
    have hsame := CDbCacheMgr.flushCache_sameRecords pb srv st.m_dbCacheMgr nKey bDel
      st.m_dbConnection
    simp only [operate, hsame.objects]
    exact h.2 pObject
  · have hdrifted : st.m_dbCacheMgr.Drifted
        (st.m_dbCacheMgr.m_nDataSize - st.m_dbCacheMgr.cachedSize) := ⟨h.1, h.2, by omega⟩
    have hkept := operate_drifted pb srv hdrifted
      (fun nKey bDel heq => hflush ⟨nKey, bDel, heq⟩)
    exact ⟨hkept.wellFormed, hkept.sized⟩

/-- **A step keeps the account** exactly when it flushes nothing. -/
theorem operate_accounted_iff (h : st.m_dbCacheMgr.WellFormed ∧ st.m_dbCacheMgr.Sized)
    (haccounted : st.m_dbCacheMgr.Accounted) (action : CacheAction) :
    (st.operate pb srv action).1.m_dbCacheMgr.Accounted ↔ st.FlushesNothing action := by
  have hdrifted : st.m_dbCacheMgr.Drifted 0 := by
    refine ⟨h.1, h.2, ?_⟩
    rw [Int.add_zero]
    exact haccounted.total
  rw [CDbCacheMgr.accounted_iff (operate_sized pb srv h action).2]
  by_cases hflush : ∃ nKey bDel, action = .flushCache nKey bDel
  · obtain ⟨nKey, bDel, rfl⟩ := hflush
    exact CDbCacheMgr.flushCache_total_iff pb srv hdrifted nKey bDel st.m_dbConnection
  · have hkept := operate_drifted pb srv hdrifted
      (fun nKey bDel heq => hflush ⟨nKey, bDel, heq⟩)
    have hnothing : st.FlushesNothing action := by
      cases action with
      | flushCache nKey bDel => exact absurd ⟨nKey, bDel, rfl⟩ hflush
      | _ => trivial
    refine ⟨fun _ => hnothing, fun _ => ?_⟩
    simpa using hkept.total

end Store

/-- **Size accounting.**  From a fresh worker, the total is the sum of the sizes of the cached
objects in every state of a run exactly when no flush of the run takes a byte out of the
cache. -/
theorem cache_size_accounted_iff {σ : Type} (pb : Runtime) (srv : Server σ)
    (nMaxCacheSize nWritebackTime : Nat) (conn : CDbConnection σ)
    (actions : List CacheAction) :
    Runs.Always (Store.operate pb srv) (fun st => st.m_dbCacheMgr.Accounted)
        (Store.init nMaxCacheSize nWritebackTime conn) actions ↔
      Runs.Guarded (Store.operate pb srv) Store.FlushesNothing
        (Store.init nMaxCacheSize nWritebackTime conn) actions := by
  have hsized := CDbCacheMgr.init_sized nMaxCacheSize nWritebackTime
  refine Runs.always_iff_guarded _
    (fun st => st.m_dbCacheMgr.WellFormed ∧ st.m_dbCacheMgr.Sized) ?_ ?_
    ⟨CDbCacheMgr.init_wellFormed nMaxCacheSize nWritebackTime, hsized⟩ ?_ actions
  · exact fun st action h => Store.operate_sized pb srv h action
  · exact fun st action h haccounted => Store.operate_accounted_iff pb srv h haccounted action
  · exact (CDbCacheMgr.accounted_iff hsized).mpr
      (CDbCacheMgr.init_total nMaxCacheSize nWritebackTime)

/-- A player is added and flushed: the cache is empty, and its total is still the size of the
player. -/
theorem flushed_size_still_counted :
    ¬ ∀ (σ : Type) (pb : Runtime) (srv : Server σ) (nMaxCacheSize nWritebackTime : Nat)
        (conn : CDbConnection σ) (actions : List CacheAction),
      Runs.Always (Store.operate pb srv) (fun st => st.m_dbCacheMgr.Accounted)
        (Store.init nMaxCacheSize nWritebackTime conn) actions := by
  intro h
  have hlast := (h Unit PlayerBase.runtime (.constant (.done 0 1)) 1000 60 ⟨true, (), 0, []⟩
    [.addData 5 (PlayerBase.player 5 [97]), .flushCache 5 true]).last
  have htotal := hlast.total
  revert htotal
  decide

end Db
