import DbService.DbCache

/-!
# The cache of a worker (`db_cache_mgr.cpp`)

The manager holds two maps from ids to `CDbCache` objects, the cache map and the dirty
map, whose entries are shared pointers: an object is named by its number in `objects`,
and both maps hold such numbers.  It also numbers the data names, accounts for the total
size and keeps the times of the last eviction and of the last write-back pass.

Clock readings and the outcome of `rand()` are arguments.

Later modules do not unfold the operations; they go by their outcomes:

* `addData_outcome`, `setData_outcome`, `delData_outcome`, with the cache on (off, the three do
  nothing);
* `cleanCache_cases`, `writeback_cases`, `flushCache_cases`, for what leaves the maps;
* `update_sameRecords`, since no pass changes a record.
-/

namespace Db

open Reflection ByteText

/-- `_CLEAN_CACHE_TIME` -/
def CLEAN_CACHE_TIME : Int := 1

/-- An UPDATE of a write-back pass: the id and the object whose record it carries. -/
structure WriteEvent where
  nID : Nat
  pDbCache : Nat
  info : WriteInfo

/-- The buckets `cleanCache` drew with `rand()`: the first id of each non-empty one, and
the draw that chooses among them. -/
structure Sample where
  vecElement : List Nat
  nPos : Nat

/-- The members of the class, and the heap its shared pointers point into. -/
structure CDbCacheMgr where
  /-- The `CDbCache` objects allocated so far, by number. -/
  objects : Nat → CDbCache
  nNextObject : Nat
  m_mapCache : Std.ExtTreeMap Nat Nat
  m_mapDataIndex : Std.ExtTreeMap String Nat
  m_mapDataName : Std.ExtTreeMap Nat String
  m_nCurIndex : Nat
  m_mapDirtyCache : Std.ExtTreeMap Nat Nat
  m_nDataSize : Int
  m_nMaxCacheSize : Int
  m_nLastCleanCacheTime : Int
  m_nLastWritebackTime : Nat
  m_nWritebackTime : Nat

namespace CDbCacheMgr

variable {σ : Type} (pb : Runtime) (srv : Server σ)

/-- The value of an `int64_t` that is assigned a `uint64_t`. -/
def toInt64 (n : Nat) : Int :=
  if n % 2 ^ 64 < 2 ^ 63 then (n % 2 ^ 64 : Nat) else (n % 2 ^ 64 : Nat) - 2 ^ 64

/-- `a - b` in `uint64_t`. -/
def subUInt64 (a b : Nat) : Nat := (a + (2 ^ 64 - b % 2 ^ 64)) % 2 ^ 64

/-- A constructed and initialised manager. -/
def init (nMaxCacheSize nWritebackTime : Nat) : CDbCacheMgr where
  objects := fun _ => CDbCache.empty
  nNextObject := 0
  m_mapCache := ∅
  m_mapDataIndex := ∅
  m_mapDataName := ∅
  m_nCurIndex := 1
  m_mapDirtyCache := ∅
  m_nDataSize := 0
  m_nMaxCacheSize := toInt64 nMaxCacheSize
  m_nLastCleanCacheTime := 0
  m_nLastWritebackTime := 0
  m_nWritebackTime := nWritebackTime

/-- The cache is switched off. -/
def isDisabled (mgr : CDbCacheMgr) : Bool := decide (mgr.m_nMaxCacheSize ≤ 0)

/-- `getDataID`: a name seen for the first time takes the next index. -/
def getDataID (mgr : CDbCacheMgr) (szDataName : String) : Nat × CDbCacheMgr :=
  match mgr.m_mapDataIndex[szDataName]? with
  | some nDataID => (nDataID, mgr)
  | none =>
      (mgr.m_nCurIndex,
        { mgr with
          m_nCurIndex := (mgr.m_nCurIndex + 1) % 2 ^ 32
          m_mapDataIndex := mgr.m_mapDataIndex.insert szDataName mgr.m_nCurIndex
          m_mapDataName := mgr.m_mapDataName.insert mgr.m_nCurIndex szDataName })

/-- `getDataName`, the empty name for an unknown index. -/
def getDataName (mgr : CDbCacheMgr) (nIndex : Nat) : String :=
  mgr.m_mapDataName[nIndex]?.getD ""

/-- The index the code takes for an error (`nDataID != -1` fails). -/
def badDataID : Nat := 2 ^ 32 - 1

/-- The object behind a pointer is replaced by `pDbCache`, and the total is corrected by
the difference of the sizes. -/
def store (mgr : CDbCacheMgr) (pObject : Nat) (pDbCache : CDbCache) : CDbCacheMgr :=
  { mgr with
    objects := Function.update mgr.objects pObject pDbCache
    m_nDataSize :=
      mgr.m_nDataSize - (mgr.objects pObject).getDataSize + pDbCache.getDataSize }

/-- `m_mapCache[nID] = make_shared<CDbCache>(this)` -/
def allocate (mgr : CDbCacheMgr) (nID : Nat) : CDbCacheMgr :=
  { mgr with
    objects := Function.update mgr.objects mgr.nNextObject CDbCache.empty
    nNextObject := mgr.nNextObject + 1
    m_mapCache := mgr.m_mapCache.insert nID mgr.nNextObject }

/-- `m_mapDirtyCache[nID] = pDbCache` -/
def markDirty (mgr : CDbCacheMgr) (nID pObject : Nat) : CDbCacheMgr :=
  { mgr with m_mapDirtyCache := mgr.m_mapDirtyCache.insert nID pObject }

/-- `getData`: the record of a table that is cached under an id. -/
def getData (mgr : CDbCacheMgr) (nID : Nat) (szDataName : String) :
    Option RowMessage × CDbCacheMgr :=
  let (nDataID, mgr) := mgr.getDataID szDataName
  if nDataID = badDataID then (none, mgr)
  else
    match mgr.m_mapCache[nID]? with
    | none => (none, mgr)
    | some pObject =>
        ((mgr.objects pObject).getData pb nDataID (mgr.getDataName nDataID), mgr)

/-- `addData`: an id that is not cached gets an object of its own with the record in it.  The
object stays where the record cannot be made. -/
def addData (mgr : CDbCacheMgr) (nID : Nat) (pData : RowMessage) : Bool × CDbCacheMgr :=
  if mgr.isDisabled then (false, mgr)
  else
    let (nDataID, mgr) := mgr.getDataID pData.GetTypeName
    if nDataID = badDataID then (false, mgr)
    else
      match mgr.m_mapCache[nID]? with
      | some _ => (false, mgr)
      | none =>
          match CDbCache.empty.addData pb nDataID pData with
          | (false, _) => (false, mgr.allocate nID)
          | (true, pDbCache) => (true, (mgr.allocate nID).store mgr.nNextObject pDbCache)

/-- `setData`: the record is merged into the object of a cached id, which becomes dirty; for an id
that is not cached it is added, and nothing becomes dirty. -/
def setData (mgr : CDbCacheMgr) (nID : Nat) (pData : RowMessage) (nTime : Nat) :
    Bool × CDbCacheMgr :=
  if mgr.isDisabled then (false, mgr)
  else
    match mgr.m_mapCache[nID]? with
    | none => mgr.addData pb nID pData
    | some pObject =>
        let (nDataID, mgr) := mgr.getDataID pData.GetTypeName
        if nDataID = badDataID then (false, mgr)
        else
          match (mgr.objects pObject).setData pb nDataID pData.GetTypeName pData nTime with
          | (false, _) => (false, mgr)
          | (true, pDbCache) => (true, (mgr.store pObject pDbCache).markDirty nID pObject)

/-- `delData`: the record leaves the object, and the object stays. -/
def delData (mgr : CDbCacheMgr) (nID : Nat) (szDataName : String) : Bool × CDbCacheMgr :=
  if mgr.isDisabled then (false, mgr)
  else
    match mgr.m_mapCache[nID]? with
    | none => (false, mgr)
    | some pObject =>
        let (nDataID, mgr) := mgr.getDataID szDataName
        if nDataID = badDataID then (false, mgr)
        else
          match (mgr.objects pObject).delData nDataID with
          | (false, _) => (false, mgr)
          | (true, pDbCache) => (true, mgr.store pObject pDbCache)

/-- The UPDATEs `CDbCache::writeback` issues for the object cached under an id. -/
def writebackObject (mgr : CDbCacheMgr) (nID pObject nTime : Nat) (conn : CDbConnection σ) :
    Bool × List WriteEvent × CDbConnection σ :=
  let (bDirty, writes, conn') :=
    (mgr.objects pObject).writeback pb srv mgr.getDataName nTime conn
  (bDirty, writes.map fun info => ⟨nID, pObject, info⟩, conn')

/-- The element `cleanCache` evicts, if its sampling hit one. -/
def chosen (mgr : CDbCacheMgr) (sample : Sample) : Option (Nat × Nat) :=
  let vecElement :=
    (sample.vecElement.take 5).filterMap fun nID =>
      mgr.m_mapCache[nID]?.map fun pObject => (nID, pObject)
  vecElement[sample.nPos % vecElement.length]?

/-- `cleanCache`: at the size limit, one sampled id leaves both maps and its modified
records are written. -/
def cleanCache (mgr : CDbCacheMgr) (nTime : Nat) (sample : Sample) (conn : CDbConnection σ) :
    CDbCacheMgr × List WriteEvent × CDbConnection σ :=
  if mgr.isDisabled then (mgr, [], conn)
  else if mgr.m_nLastCleanCacheTime ≠ 0 ∧
      mgr.m_nLastCleanCacheTime - nTime < CLEAN_CACHE_TIME then (mgr, [], conn)
  else if mgr.m_nDataSize < mgr.m_nMaxCacheSize then (mgr, [], conn)
  else
    let mgr := { mgr with m_nLastCleanCacheTime := nTime }
    match mgr.chosen sample with
    | none => (mgr, [], conn)
    | some (nID, pObject) =>
        let mgr : CDbCacheMgr :=
          { mgr with
            m_nDataSize := mgr.m_nDataSize - (mgr.objects pObject).getDataSize
            m_mapCache := mgr.m_mapCache.erase nID
            m_mapDirtyCache := mgr.m_mapDirtyCache.erase nID }
        let (_, writes, conn') := mgr.writebackObject pb srv nID pObject 0 conn
        (mgr, writes, conn')

/-- The loop of `writeback` over the dirty map: an entry is erased when nothing of its
object waits any longer. -/
def writebackFrom (mgr : CDbCacheMgr) (nTime : Nat) :
    List (Nat × Nat) → CDbConnection σ → List Nat × List WriteEvent × CDbConnection σ
  | [], conn => ([], [], conn)
  | (nID, pObject) :: rest, conn =>
      let (bDirty, writes, conn') := mgr.writebackObject pb srv nID pObject nTime conn
      let (erased, writes', conn'') := writebackFrom mgr nTime rest conn'
      (if bDirty then erased else nID :: erased, writes ++ writes', conn'')

/-- The test at the head of `writeback`: the pass is skipped. -/
def isPaced (mgr : CDbCacheMgr) (nTime : Nat) : Bool :=
  mgr.m_nLastWritebackTime != 0 &&
    decide (subUInt64 mgr.m_nLastWritebackTime nTime < mgr.m_nWritebackTime)

/-- `writeback`: a timed pass over the dirty map, a forced one for time 0. -/
def writeback (mgr : CDbCacheMgr) (nTime : Nat) (conn : CDbConnection σ) :
    CDbCacheMgr × List WriteEvent × CDbConnection σ :=
  if mgr.isDisabled then (mgr, [], conn)
  else if mgr.isPaced nTime then (mgr, [], conn)
  else
    let (erased, writes, conn') :=
      mgr.writebackFrom pb srv nTime mgr.m_mapDirtyCache.toList conn
    ({ mgr with
        m_nLastWritebackTime := nTime
        m_mapDirtyCache := erased.foldl (fun map nID => map.erase nID) mgr.m_mapDirtyCache },
      writes, conn')

/-- `setMaxCacheSize` assigns the limit, as a signed number, and does nothing else. -/
def setMaxCacheSize (mgr : CDbCacheMgr) (nSize : Nat) : CDbCacheMgr :=
  { mgr with m_nMaxCacheSize := toInt64 nSize }

/-- `flushCache`; the source does not read its `bDel` argument. -/
def flushCache (mgr : CDbCacheMgr) (nKey : Nat) (_bDel : Bool) (conn : CDbConnection σ) :
    CDbCacheMgr × List WriteEvent × CDbConnection σ :=
  if mgr.isDisabled then (mgr, [], conn)
  else if nKey ≠ 0 then
    match mgr.m_mapCache[nKey]? with
    | none => (mgr, [], conn)
    | some pObject =>
        let (_, writes, conn') := mgr.writebackObject pb srv nKey pObject 0 conn
        ({ mgr with m_mapCache := mgr.m_mapCache.erase nKey }, writes, conn')
  else
    let (mgr, writes, conn') := mgr.writeback pb srv 0 conn
    ({ mgr with m_mapCache := ∅ }, writes, conn')

/-- `update`, the tick at the start of every round of the worker. -/
def update (mgr : CDbCacheMgr) (nCurTime : Nat) (sample : Sample) (conn : CDbConnection σ) :
    CDbCacheMgr × List WriteEvent × CDbConnection σ :=
  let (mgr, writes, conn) := mgr.cleanCache pb srv nCurTime sample conn
  let (mgr, writes', conn) := mgr.writeback pb srv nCurTime conn
  (mgr, writes ++ writes', conn)

/-! ## What the operations change -/

section Lemmas

variable {pb srv} {mgr : CDbCacheMgr} {szDataName : String} {nDataID : Nat}

/-- A known name is found, and finding it changes nothing. -/
theorem getDataID_known (h : mgr.m_mapDataIndex[szDataName]? = some nDataID) :
    mgr.getDataID szDataName = (nDataID, mgr) := by
  simp [getDataID, h]

/-- After `getDataID` the name is known under the index it returned. -/
theorem getDataID_index (mgr : CDbCacheMgr) (szDataName : String) :
    (mgr.getDataID szDataName).2.m_mapDataIndex[szDataName]? =
      some (mgr.getDataID szDataName).1 := by
  unfold getDataID
  split
  · assumption
  · simp

@[simp] theorem getDataID_mapCache (mgr : CDbCacheMgr) (szDataName : String) :
    (mgr.getDataID szDataName).2.m_mapCache = mgr.m_mapCache := by
  unfold getDataID; split <;> rfl

@[simp] theorem getDataID_mapDirtyCache (mgr : CDbCacheMgr) (szDataName : String) :
    (mgr.getDataID szDataName).2.m_mapDirtyCache = mgr.m_mapDirtyCache := by
  unfold getDataID; split <;> rfl

@[simp] theorem getDataID_objects (mgr : CDbCacheMgr) (szDataName : String) :
    (mgr.getDataID szDataName).2.objects = mgr.objects := by
  unfold getDataID; split <;> rfl

@[simp] theorem getDataID_nNextObject (mgr : CDbCacheMgr) (szDataName : String) :
    (mgr.getDataID szDataName).2.nNextObject = mgr.nNextObject := by
  unfold getDataID; split <;> rfl

@[simp] theorem getDataID_isDisabled (mgr : CDbCacheMgr) (szDataName : String) :
    (mgr.getDataID szDataName).2.isDisabled = mgr.isDisabled := by
  unfold getDataID; split <;> rfl

@[simp] theorem getDataID_store_index (mgr : CDbCacheMgr) (szDataName : String)
    (pObject : Nat) (pDbCache : CDbCache) :
    ((mgr.getDataID szDataName).2.store pObject pDbCache).m_mapDataIndex[szDataName]? =
      some (mgr.getDataID szDataName).1 :=
  getDataID_index mgr szDataName

@[simp] theorem store_mapCache (pObject : Nat) (pDbCache : CDbCache) :
    (mgr.store pObject pDbCache).m_mapCache = mgr.m_mapCache := rfl

@[simp] theorem store_mapDirtyCache (pObject : Nat) (pDbCache : CDbCache) :
    (mgr.store pObject pDbCache).m_mapDirtyCache = mgr.m_mapDirtyCache := rfl

@[simp] theorem store_objects (pObject : Nat) (pDbCache : CDbCache) :
    (mgr.store pObject pDbCache).objects =
      Function.update mgr.objects pObject pDbCache := rfl

@[simp] theorem markDirty_mapCache (nID pObject : Nat) :
    (mgr.markDirty nID pObject).m_mapCache = mgr.m_mapCache := rfl

@[simp] theorem markDirty_mapDirtyCache (nID pObject : Nat) :
    (mgr.markDirty nID pObject).m_mapDirtyCache = mgr.m_mapDirtyCache.insert nID pObject :=
  rfl

@[simp] theorem markDirty_objects (nID pObject : Nat) :
    (mgr.markDirty nID pObject).objects = mgr.objects := rfl

@[simp] theorem allocate_mapCache (nID : Nat) :
    (mgr.allocate nID).m_mapCache = mgr.m_mapCache.insert nID mgr.nNextObject := rfl

@[simp] theorem allocate_mapDirtyCache (nID : Nat) :
    (mgr.allocate nID).m_mapDirtyCache = mgr.m_mapDirtyCache := rfl

/-- The object that `addData` makes is the cached one. -/
theorem getDataID_allocate_cached (mgr : CDbCacheMgr) (szDataName : String) (nID : Nat) :
    ((mgr.getDataID szDataName).2.allocate nID).m_mapCache[nID]? = some mgr.nNextObject := by
  simp

/-- The record found under the index of the name in the object cached for the id. -/
theorem getData_eq (pb : Runtime) (mgr : CDbCacheMgr) (nID : Nat) (szDataName : String) :
    mgr.getData pb nID szDataName =
      (if (mgr.getDataID szDataName).1 = badDataID then none
        else
          mgr.m_mapCache[nID]?.bind fun pObject =>
            (mgr.objects pObject).getData pb (mgr.getDataID szDataName).1
              ((mgr.getDataID szDataName).2.getDataName (mgr.getDataID szDataName).1),
        (mgr.getDataID szDataName).2) := by
  unfold getData
  by_cases hbad : (mgr.getDataID szDataName).1 = badDataID
  · simp [hbad]
  · cases hcached : mgr.m_mapCache[nID]? with
    | none => simp [hbad, hcached]
    | some pObject => simp [hbad, hcached]

/-- A cache that is switched off takes nothing. -/
theorem addData_disabled (pb : Runtime) {mgr : CDbCacheMgr} (hdisabled : mgr.isDisabled = true)
    (nID : Nat) (pData : RowMessage) : mgr.addData pb nID pData = (false, mgr) := by
  simp [addData, hdisabled]

/-- A cache that is switched off is not changed. -/
theorem setData_disabled (pb : Runtime) {mgr : CDbCacheMgr} (hdisabled : mgr.isDisabled = true)
    (nID : Nat) (pData : RowMessage) (nTime : Nat) :
    mgr.setData pb nID pData nTime = (false, mgr) := by
  simp [setData, hdisabled]

theorem delData_disabled {mgr : CDbCacheMgr} (hdisabled : mgr.isDisabled = true) (nID : Nat)
    (szDataName : String) : mgr.delData nID szDataName = (false, mgr) := by
  simp [delData, hdisabled]

/-- `addData` refuses an id that is cached, whichever records it has, and gives a new id
an object with one unmodified record. -/
inductive AddOutcome (pb : Runtime) (mgr : CDbCacheMgr) (nID : Nat) (pData : RowMessage) :
    Bool × CDbCacheMgr → Prop
  | badIndex (hbad : (mgr.getDataID pData.GetTypeName).1 = badDataID) :
      AddOutcome pb mgr nID pData (false, (mgr.getDataID pData.GetTypeName).2)
  | present (pObject : Nat) (hgood : (mgr.getDataID pData.GetTypeName).1 ≠ badDataID)
      (hcached : mgr.m_mapCache[nID]? = some pObject) :
      AddOutcome pb mgr nID pData (false, (mgr.getDataID pData.GetTypeName).2)
  | unserialised (hgood : (mgr.getDataID pData.GetTypeName).1 ≠ badDataID)
      (huncached : mgr.m_mapCache[nID]? = none)
      (hdata : pb.SerializeToString (.row pData) = none) :
      AddOutcome pb mgr nID pData (false, (mgr.getDataID pData.GetTypeName).2.allocate nID)
  | added (szData : Bytes) (hgood : (mgr.getDataID pData.GetTypeName).1 ≠ badDataID)
      (huncached : mgr.m_mapCache[nID]? = none)
      (hdata : pb.SerializeToString (.row pData) = some szData) :
      AddOutcome pb mgr nID pData
        (true, ((mgr.getDataID pData.GetTypeName).2.allocate nID).store mgr.nNextObject
          (CDbCache.empty.withRecord (mgr.getDataID pData.GetTypeName).1 ⟨szData, 0⟩
            (0 + szData.length)))

/-- With the cache on `addData` has one of these outcomes. -/
theorem addData_outcome (pb : Runtime) {mgr : CDbCacheMgr} (hdisabled : mgr.isDisabled = false)
    (nID : Nat) (pData : RowMessage) :
    AddOutcome pb mgr nID pData (mgr.addData pb nID pData) := by
  unfold addData
  simp only [hdisabled, Bool.false_eq_true, if_false, getDataID_mapCache]
  split
  · rename_i hbad
    exact .badIndex hbad
  · rename_i hgood
    cases hcached : mgr.m_mapCache[nID]? with
    | some pObject => exact .present pObject hgood hcached
    | none =>
        have habsent : ∀ nDataID : Nat, CDbCache.empty.m_mapCacheInfo[nDataID]? = none := by
          simp [CDbCache.empty]
        simp only [getDataID_nNextObject]
        rcases hadd : CDbCache.empty.addData pb (mgr.getDataID pData.GetTypeName).1 pData with
          ⟨bAdded, pDbCache⟩
        have houtcome := CDbCache.addData_outcome pb CDbCache.empty
          (mgr.getDataID pData.GetTypeName).1 pData
        rw [hadd] at houtcome
        cases houtcome with
        | present _ hrecord => rw [habsent] at hrecord; cases hrecord
        | unserialised _ hdata => exact .unserialised hgood hcached hdata
        | added szData _ hdata => exact .added szData hgood hcached hdata

/-- `setData` is `addData` for an id that is not cached; otherwise it changes the cached
object and enters the id into the dirty map, even when the record was only added. -/
inductive SetOutcome (pb : Runtime) (mgr : CDbCacheMgr) (nID : Nat) (pData : RowMessage)
    (nTime : Nat) : Bool × CDbCacheMgr → Prop
  | uncached (result : Bool × CDbCacheMgr) (huncached : mgr.m_mapCache[nID]? = none)
      (hadd : AddOutcome pb mgr nID pData result) :
      SetOutcome pb mgr nID pData nTime result
  | badIndex (pObject : Nat) (hcached : mgr.m_mapCache[nID]? = some pObject)
      (hbad : (mgr.getDataID pData.GetTypeName).1 = badDataID) :
      SetOutcome pb mgr nID pData nTime (false, (mgr.getDataID pData.GetTypeName).2)
  | refused (pObject : Nat) (hcached : mgr.m_mapCache[nID]? = some pObject)
      (hgood : (mgr.getDataID pData.GetTypeName).1 ≠ badDataID)
      (hrefused : ((mgr.objects pObject).setData pb (mgr.getDataID pData.GetTypeName).1
        pData.GetTypeName pData nTime).1 = false) :
      SetOutcome pb mgr nID pData nTime (false, (mgr.getDataID pData.GetTypeName).2)
  | stored (pObject : Nat) (pDbCache : CDbCache)
      (hcached : mgr.m_mapCache[nID]? = some pObject)
      (hgood : (mgr.getDataID pData.GetTypeName).1 ≠ badDataID)
      (hset : CDbCache.SetOutcome pb (mgr.objects pObject)
        (mgr.getDataID pData.GetTypeName).1 pData.GetTypeName pData nTime (true, pDbCache)) :
      SetOutcome pb mgr nID pData nTime
        (true, ((mgr.getDataID pData.GetTypeName).2.store pObject pDbCache).markDirty nID
          pObject)

/-- With the cache on `setData` has one of these outcomes. -/
theorem setData_outcome (pb : Runtime) {mgr : CDbCacheMgr} (hdisabled : mgr.isDisabled = false)
    (nID : Nat) (pData : RowMessage) (nTime : Nat) :
    SetOutcome pb mgr nID pData nTime (mgr.setData pb nID pData nTime) := by
  unfold setData
  simp only [hdisabled, Bool.false_eq_true, if_false]
  cases hcached : mgr.m_mapCache[nID]? with
  | none => exact .uncached _ hcached (addData_outcome pb hdisabled nID pData)
  | some pObject =>
      simp only
      split
      · rename_i hbad
        exact .badIndex pObject hcached hbad
      · rename_i hgood
        rw [getDataID_objects]
        rcases hset : (mgr.objects pObject).setData pb (mgr.getDataID pData.GetTypeName).1
          pData.GetTypeName pData nTime with ⟨bSet, pDbCache⟩
        cases bSet with
        | false => exact .refused pObject hcached hgood (by rw [hset])
        | true =>
            have houtcome := CDbCache.setData_outcome pb (mgr.objects pObject)
              (mgr.getDataID pData.GetTypeName).1 pData.GetTypeName pData nTime
            rw [hset] at houtcome
            exact .stored pObject pDbCache hcached hgood houtcome

/-- `delData` takes one record out of a cached object. -/
inductive DelOutcome (mgr : CDbCacheMgr) (nID : Nat) (szDataName : String) :
    Bool × CDbCacheMgr → Prop
  | uncached (huncached : mgr.m_mapCache[nID]? = none) :
      DelOutcome mgr nID szDataName (false, mgr)
  | badIndex (pObject : Nat) (hcached : mgr.m_mapCache[nID]? = some pObject)
      (hbad : (mgr.getDataID szDataName).1 = badDataID) :
      DelOutcome mgr nID szDataName (false, (mgr.getDataID szDataName).2)
  | absent (pObject : Nat) (hcached : mgr.m_mapCache[nID]? = some pObject)
      (hgood : (mgr.getDataID szDataName).1 ≠ badDataID)
      (habsent : (mgr.objects pObject).m_mapCacheInfo[(mgr.getDataID szDataName).1]? = none) :
      DelOutcome mgr nID szDataName (false, (mgr.getDataID szDataName).2)
  | deleted (pObject : Nat) (sCacheInfo : SCacheInfo)
      (hcached : mgr.m_mapCache[nID]? = some pObject)
      (hgood : (mgr.getDataID szDataName).1 ≠ badDataID)
      (hrecord : (mgr.objects pObject).m_mapCacheInfo[(mgr.getDataID szDataName).1]? =
        some sCacheInfo) :
      DelOutcome mgr nID szDataName
        (true, (mgr.getDataID szDataName).2.store pObject
          ⟨(mgr.objects pObject).m_mapCacheInfo.erase (mgr.getDataID szDataName).1,
            (mgr.objects pObject).m_nDataSize - sCacheInfo.szData.length⟩)

/-- With the cache on `delData` has one of these outcomes. -/
theorem delData_outcome {mgr : CDbCacheMgr} (hdisabled : mgr.isDisabled = false) (nID : Nat)
    (szDataName : String) : DelOutcome mgr nID szDataName (mgr.delData nID szDataName) := by
  unfold delData
  simp only [hdisabled, Bool.false_eq_true, if_false]
  cases hcached : mgr.m_mapCache[nID]? with
  | none => exact .uncached hcached
  | some pObject =>
      simp only
      split
      · rename_i hbad
        exact .badIndex pObject hcached hbad
      · rename_i hgood
        rw [getDataID_objects]
        have houtcome := CDbCache.delData_outcome (mgr.objects pObject) (mgr.getDataID szDataName).1
        generalize (mgr.objects pObject).delData (mgr.getDataID szDataName).1 = result at houtcome ⊢
        cases houtcome with
        | absent habsent => exact .absent pObject hcached hgood habsent
        | deleted sCacheInfo hrecord => exact .deleted pObject sCacheInfo hcached hgood hrecord

/-- The records, their names and the limits are the same in both states; the maps and the
times may differ. -/
structure SameRecords (mgr mgr' : CDbCacheMgr) : Prop where
  objects : mgr'.objects = mgr.objects
  nNextObject : mgr'.nNextObject = mgr.nNextObject
  mapDataIndex : mgr'.m_mapDataIndex = mgr.m_mapDataIndex
  mapDataName : mgr'.m_mapDataName = mgr.m_mapDataName
  nCurIndex : mgr'.m_nCurIndex = mgr.m_nCurIndex
  nMaxCacheSize : mgr'.m_nMaxCacheSize = mgr.m_nMaxCacheSize
  nWritebackTime : mgr'.m_nWritebackTime = mgr.m_nWritebackTime

theorem SameRecords.refl (mgr : CDbCacheMgr) : SameRecords mgr mgr :=
  ⟨rfl, rfl, rfl, rfl, rfl, rfl, rfl⟩

/-- Passes that change no record one after the other change none. -/
theorem SameRecords.trans {mgr₁ mgr₂ mgr₃ : CDbCacheMgr} (h : SameRecords mgr₁ mgr₂)
    (h' : SameRecords mgr₂ mgr₃) : SameRecords mgr₁ mgr₃ :=
  ⟨h'.objects.trans h.objects, h'.nNextObject.trans h.nNextObject,
    h'.mapDataIndex.trans h.mapDataIndex, h'.mapDataName.trans h.mapDataName,
    h'.nCurIndex.trans h.nCurIndex, h'.nMaxCacheSize.trans h.nMaxCacheSize,
    h'.nWritebackTime.trans h.nWritebackTime⟩

theorem SameRecords.isDisabled {mgr mgr' : CDbCacheMgr} (h : SameRecords mgr mgr') :
    mgr'.isDisabled = mgr.isDisabled := by
  simp [CDbCacheMgr.isDisabled, h.nMaxCacheSize]

theorem SameRecords.getDataName {mgr mgr' : CDbCacheMgr} (h : SameRecords mgr mgr')
    (nIndex : Nat) : mgr'.getDataName nIndex = mgr.getDataName nIndex := by
  simp [CDbCacheMgr.getDataName, h.mapDataName]

/-- What an id that leaves both maps leaves behind. -/
def evict (mgr : CDbCacheMgr) (nTime : Int) (nID pObject : Nat) : CDbCacheMgr :=
  { mgr with
    m_nLastCleanCacheTime := nTime
    m_nDataSize := mgr.m_nDataSize - (mgr.objects pObject).getDataSize
    m_mapCache := mgr.m_mapCache.erase nID
    m_mapDirtyCache := mgr.m_mapDirtyCache.erase nID }

/-- The id and the object `cleanCache` evicts: none while the cache is off, within its
interval, below the limit, or when its sampling hits nothing. -/
def evicted (mgr : CDbCacheMgr) (nTime : Nat) (sample : Sample) : Option (Nat × Nat) :=
  if mgr.isDisabled then none
  else if mgr.m_nLastCleanCacheTime ≠ 0 ∧
      mgr.m_nLastCleanCacheTime - nTime < CLEAN_CACHE_TIME then none
  else if mgr.m_nDataSize < mgr.m_nMaxCacheSize then none
  else mgr.chosen sample

/-- **The outcomes of `cleanCache`:** nothing but its time changes, or the sampled id is
evicted and its modified records are written. -/
theorem cleanCache_cases (pb : Runtime) (srv : Server σ) (mgr : CDbCacheMgr) (nTime : Nat)
    (sample : Sample) (conn : CDbConnection σ) :
    (∃ nLast, mgr.evicted nTime sample = none ∧
      mgr.cleanCache pb srv nTime sample conn =
        ({ mgr with m_nLastCleanCacheTime := nLast }, [], conn)) ∨
      ∃ nID pObject, mgr.evicted nTime sample = some (nID, pObject) ∧
        mgr.chosen sample = some (nID, pObject) ∧
        mgr.cleanCache pb srv nTime sample conn =
          (mgr.evict nTime nID pObject,
            (mgr.writebackObject pb srv nID pObject 0 conn).2) := by
  unfold cleanCache evicted
  split
  · exact .inl ⟨mgr.m_nLastCleanCacheTime, rfl, rfl⟩
  · split
    · exact .inl ⟨mgr.m_nLastCleanCacheTime, rfl, rfl⟩
    · split
      · exact .inl ⟨mgr.m_nLastCleanCacheTime, rfl, rfl⟩
      · cases hchosen : mgr.chosen sample with
        | none =>
            refine .inl ⟨nTime, rfl, ?_⟩
            simp only [show ({ mgr with m_nLastCleanCacheTime := (nTime : Int) } :
              CDbCacheMgr).chosen sample = none from hchosen]
        | some element =>
            refine .inr ⟨element.1, element.2, rfl, rfl, ?_⟩
            simp only [show ({ mgr with m_nLastCleanCacheTime := (nTime : Int) } :
              CDbCacheMgr).chosen sample = some element from hchosen]
            rfl

/-- The sampled element is an entry of the cache map. -/
theorem chosen_mem {sample : Sample} {nID pObject : Nat}
    (h : mgr.chosen sample = some (nID, pObject)) : mgr.m_mapCache[nID]? = some pObject := by
  have hmem := List.mem_of_getElem? h
  simp only [List.mem_filterMap, Option.map_eq_some_iff, Prod.mk.injEq] at hmem
  obtain ⟨_, _, _, hget, rfl, rfl⟩ := hmem
  exact hget

/-- **The outcomes of `writeback`:** it is skipped, or it makes a pass over the dirty map. -/
theorem writeback_cases (pb : Runtime) (srv : Server σ) (mgr : CDbCacheMgr) (nTime : Nat)
    (conn : CDbConnection σ) :
    ((mgr.isDisabled = true ∨ mgr.isPaced nTime = true) ∧
        mgr.writeback pb srv nTime conn = (mgr, [], conn)) ∨
      (mgr.isDisabled = false ∧ mgr.isPaced nTime = false ∧
        mgr.writeback pb srv nTime conn =
          let pass := mgr.writebackFrom pb srv nTime mgr.m_mapDirtyCache.toList conn
          ({ mgr with
              m_nLastWritebackTime := nTime
              m_mapDirtyCache :=
                pass.1.foldl (fun map nID => map.erase nID) mgr.m_mapDirtyCache },
            pass.2)) := by
  unfold writeback
  cases hdisabled : mgr.isDisabled with
  | true => simp
  | false =>
      cases hpaced : mgr.isPaced nTime with
      | true => simp
      | false => simp

/-- **The outcomes of `flushCache`:** nothing, one id written and dropped from the cache
map, or a forced pass and an empty cache map. -/
theorem flushCache_cases (pb : Runtime) (srv : Server σ) (mgr : CDbCacheMgr) (nKey : Nat)
    (bDel : Bool)
    (conn : CDbConnection σ) :
    ((mgr.isDisabled = true ∨ nKey ≠ 0 ∧ mgr.m_mapCache[nKey]? = none) ∧
        mgr.flushCache pb srv nKey bDel conn = (mgr, [], conn)) ∨
      (∃ pObject, mgr.isDisabled = false ∧ nKey ≠ 0 ∧ mgr.m_mapCache[nKey]? = some pObject ∧
        mgr.flushCache pb srv nKey bDel conn =
          ({ mgr with m_mapCache := mgr.m_mapCache.erase nKey },
            (mgr.writebackObject pb srv nKey pObject 0 conn).2)) ∨
      (mgr.isDisabled = false ∧ nKey = 0 ∧
        mgr.flushCache pb srv nKey bDel conn =
          ({ (mgr.writeback pb srv 0 conn).1 with m_mapCache := ∅ },
            (mgr.writeback pb srv 0 conn).2)) := by
  unfold flushCache
  cases hdisabled : mgr.isDisabled with
  | true => simp
  | false =>
      by_cases hkey : nKey = 0
      · simp [hkey]
      · cases hcached : mgr.m_mapCache[nKey]? with
        | none => simp [hkey]
        | some pObject => simp [hkey]

/-- An eviction changes no record: the object leaves the maps as it is. -/
theorem cleanCache_sameRecords (pb : Runtime) (srv : Server σ) (mgr : CDbCacheMgr) (nTime : Nat)
    (sample : Sample)
    (conn : CDbConnection σ) :
    SameRecords mgr (mgr.cleanCache pb srv nTime sample conn).1 := by
  rcases cleanCache_cases pb srv mgr nTime sample conn with
    ⟨_, _, heq⟩ | ⟨_, _, _, _, heq⟩
  · rw [heq]; exact ⟨rfl, rfl, rfl, rfl, rfl, rfl, rfl⟩
  · rw [heq]; exact ⟨rfl, rfl, rfl, rfl, rfl, rfl, rfl⟩

/-- A timed pass changes no record either, since `CDbCache::writeback` leaves `nTime` as it is. -/
theorem writeback_sameRecords (pb : Runtime) (srv : Server σ) (mgr : CDbCacheMgr) (nTime : Nat)
    (conn : CDbConnection σ) :
    SameRecords mgr (mgr.writeback pb srv nTime conn).1 := by
  rcases writeback_cases pb srv mgr nTime conn with
    ⟨_, heq⟩ | ⟨_, _, heq⟩
  · rw [heq]; exact .refl mgr
  · rw [heq]; exact ⟨rfl, rfl, rfl, rfl, rfl, rfl, rfl⟩

/-- Nor does a flush. -/
theorem flushCache_sameRecords (pb : Runtime) (srv : Server σ) (mgr : CDbCacheMgr) (nKey : Nat)
    (bDel : Bool)
    (conn : CDbConnection σ) :
    SameRecords mgr (mgr.flushCache pb srv nKey bDel conn).1 := by
  rcases flushCache_cases pb srv mgr nKey bDel conn with
    ⟨_, heq⟩ | ⟨_, _, _, _, heq⟩ | ⟨_, _, heq⟩
  · rw [heq]; exact .refl mgr
  · rw [heq]; exact ⟨rfl, rfl, rfl, rfl, rfl, rfl, rfl⟩
  · rw [heq]
    obtain ⟨h₁, h₂, h₃, h₄, h₅, h₆, h₇⟩ :=
      writeback_sameRecords pb srv mgr 0 conn
    exact ⟨h₁, h₂, h₃, h₄, h₅, h₆, h₇⟩

/-- **A tick changes no record.** -/
theorem update_sameRecords (pb : Runtime) (srv : Server σ) (mgr : CDbCacheMgr) (nCurTime : Nat)
    (sample : Sample)
    (conn : CDbConnection σ) :
    SameRecords mgr (mgr.update pb srv nCurTime sample conn).1 :=
  (cleanCache_sameRecords pb srv mgr nCurTime sample conn).trans
    (writeback_sameRecords pb srv _ nCurTime _)

@[simp] theorem writeback_mapCache (mgr : CDbCacheMgr) (nTime : Nat)
    (conn : CDbConnection σ) :
    (mgr.writeback pb srv nTime conn).1.m_mapCache = mgr.m_mapCache := by
  rcases writeback_cases pb srv mgr nTime conn with
    ⟨_, heq⟩ | ⟨_, _, heq⟩ <;> rw [heq]

/-- `cleanCache` keeps an id in the cache map as it is, or evicts it. -/
theorem cleanCache_mapCache (pb : Runtime) (srv : Server σ) (mgr : CDbCacheMgr) (nTime : Nat)
    (sample : Sample) (conn : CDbConnection σ) (nID : Nat) :
    (mgr.cleanCache pb srv nTime sample conn).1.m_mapCache[nID]? = mgr.m_mapCache[nID]? ∨
      (mgr.cleanCache pb srv nTime sample conn).1.m_mapCache[nID]? = none := by
  rcases cleanCache_cases pb srv mgr nTime sample conn with ⟨_, _, heq⟩ | ⟨nID', _, _, _, heq⟩
  · rw [heq]; exact .inl rfl
  · rw [heq]
    simp only [evict, Std.ExtTreeMap.getElem?_erase]
    split
    · exact .inr rfl
    · exact .inl rfl

/-- A flush keeps an id in the cache map as it is, or takes it out. -/
theorem flushCache_mapCache (pb : Runtime) (srv : Server σ) (mgr : CDbCacheMgr) (nKey : Nat)
    (bDel : Bool) (conn : CDbConnection σ) (nID : Nat) :
    (mgr.flushCache pb srv nKey bDel conn).1.m_mapCache[nID]? = mgr.m_mapCache[nID]? ∨
      (mgr.flushCache pb srv nKey bDel conn).1.m_mapCache[nID]? = none := by
  rcases flushCache_cases pb srv mgr nKey bDel conn with
    ⟨_, heq⟩ | ⟨_, _, _, _, heq⟩ | ⟨_, _, heq⟩
  · rw [heq]
    exact .inl rfl
  · rw [heq]
    simp only [Std.ExtTreeMap.getElem?_erase]
    split
    · exact .inr rfl
    · exact .inl rfl
  · rw [heq]
    exact .inr (by simp)

end Lemmas

end CDbCacheMgr

end Db
