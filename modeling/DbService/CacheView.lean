import DbService.DirtyMap

/-!
# The cache as a map from ids and data names to records

What the manager's operations do to the records, with the objects, the data indices and the
two maps behind it out of sight.  This view needs the names and the indices to agree
(`Named`), which they do as long as the 32-bit index has not run through (`HasIndex`).

* `getData_view`, `addData_view`, `setData_view_absent`, `setData_view_merged`, `delData_view` --
  what an operation does to the records;
* `SameRecords.named` -- a pass keeps the view.
-/

namespace Db

open Reflection ByteText

namespace CDbCacheMgr

variable {pb : Runtime} {mgr : CDbCacheMgr}

/-- The record cached for an id under a data name. -/
def lookup (mgr : CDbCacheMgr) (nID : Nat) (szDataName : String) : Option SCacheInfo :=
  mgr.m_mapDataIndex[szDataName]?.bind (mgr.record nID)

/-- The data name has an index, or there is one left for it. -/
def HasIndex (mgr : CDbCacheMgr) (szDataName : String) : Prop :=
  mgr.m_mapDataIndex[szDataName]? ≠ none ∨ mgr.m_nCurIndex + 1 < 2 ^ 32

/-- The indices given so far name their data names, and no record has another index. -/
structure Named (mgr : CDbCacheMgr) : Prop where
  name : ∀ (szDataName : String) (nDataID : Nat),
    mgr.m_mapDataIndex[szDataName]? = some nDataID →
      mgr.m_mapDataName[nDataID]? = some szDataName ∧ nDataID < mgr.m_nCurIndex
  index : ∀ (pObject nDataID : Nat), (mgr.objects pObject).m_mapCacheInfo[nDataID]? ≠ none →
    ∃ szDataName : String, mgr.m_mapDataIndex[szDataName]? = some nDataID
  bound : mgr.m_nCurIndex < 2 ^ 32

/-- In a new manager there is nothing to disagree. -/
theorem init_named (nMaxCacheSize nWritebackTime : Nat) :
    Named (init nMaxCacheSize nWritebackTime) where
  name := by simp [init]
  index := by simp [init, CDbCache.empty]
  bound := by simp [init]

/-- Two data names have two indices. -/
theorem Named.inj (h : Named mgr) {szDataName szDataName' : String} {nDataID : Nat}
    (hindex : mgr.m_mapDataIndex[szDataName]? = some nDataID)
    (hindex' : mgr.m_mapDataIndex[szDataName']? = some nDataID) : szDataName = szDataName' := by
  have hname := (h.name _ _ hindex).1
  have hname' := (h.name _ _ hindex').1
  rw [hname, Option.some.injEq] at hname'
  exact hname'

/-- A name that has an index has one the code does not take for an error. -/
theorem Named.good (h : Named mgr) {szDataName : String} {nDataID : Nat}
    (hindex : mgr.m_mapDataIndex[szDataName]? = some nDataID) : nDataID ≠ badDataID := by
  have hlt := (h.name _ _ hindex).2
  have hbound := h.bound
  unfold badDataID
  omega

/-- The index that is given next has no record. -/
theorem Named.fresh (h : Named mgr) (pObject : Nat) :
    (mgr.objects pObject).m_mapCacheInfo[mgr.m_nCurIndex]? = none := by
  by_contra hrecord
  obtain ⟨szDataName, hindex⟩ := h.index pObject mgr.m_nCurIndex hrecord
  have hlt := (h.name _ _ hindex).2
  omega

/-- The record of a name is the one under its index. -/
theorem lookup_of_index {szDataName : String} {nDataID : Nat}
    (hindex : mgr.m_mapDataIndex[szDataName]? = some nDataID) (nID : Nat) :
    mgr.lookup nID szDataName = mgr.record nID nDataID := by
  simp [lookup, hindex]

/-- An id that is not cached has no record. -/
theorem lookup_of_uncached {nID : Nat} (huncached : mgr.m_mapCache[nID]? = none)
    (szDataName : String) : mgr.lookup nID szDataName = none := by
  simp only [lookup, Option.bind_eq_none_iff]
  intro nDataID _
  exact record_of_uncached huncached nDataID

/-- A record that is found has an object and an index. -/
theorem exists_of_lookup {nID : Nat} {szDataName : String} {sCacheInfo : SCacheInfo}
    (h : mgr.lookup nID szDataName = some sCacheInfo) :
    ∃ pObject nDataID, mgr.m_mapCache[nID]? = some pObject ∧
      mgr.m_mapDataIndex[szDataName]? = some nDataID ∧
      (mgr.objects pObject).m_mapCacheInfo[nDataID]? = some sCacheInfo := by
  simp only [lookup, record, Option.bind_eq_some_iff] at h
  obtain ⟨nDataID, hindex, pObject, hcached, hrecord⟩ := h
  exact ⟨pObject, nDataID, hcached, hindex, hrecord⟩

/-- The view depends on the records, their names and the cache map. -/
theorem SameRecords.lookup {mgr' : CDbCacheMgr} (hsame : SameRecords mgr mgr') {nID : Nat}
    (hcache : mgr'.m_mapCache[nID]? = mgr.m_mapCache[nID]?) (szDataName : String) :
    mgr'.lookup nID szDataName = mgr.lookup nID szDataName := by
  have hrecord : mgr'.record nID = mgr.record nID := by
    funext nDataID
    simp only [record, hsame.objects, hcache]
  simp only [CDbCacheMgr.lookup, hsame.mapDataIndex, hrecord]

/-- Passes that change no record keep names and indices in agreement. -/
theorem SameRecords.named {mgr' : CDbCacheMgr} (hsame : SameRecords mgr mgr') (h : Named mgr) :
    Named mgr' := by
  obtain ⟨hobjects, _, hindex, hname, hcur, _, _⟩ := hsame
  refine ⟨?_, ?_, ?_⟩
  · rw [hindex, hname, hcur]
    exact h.name
  · rw [hobjects, hindex]
    exact h.index
  · rw [hcur]
    exact h.bound

/-- `mgr'` has `info` as the record of `nID` and the name, and the other records of `mgr`. -/
def LookupSet (mgr mgr' : CDbCacheMgr) (nID : Nat) (szDataName : String)
    (info : Option SCacheInfo) : Prop :=
  ∀ nID' szDataName', mgr'.lookup nID' szDataName' =
    if nID' = nID ∧ szDataName' = szDataName then info else mgr.lookup nID' szDataName'

/-- The record that was set is found, -/
theorem LookupSet.self {mgr' : CDbCacheMgr} {nID : Nat} {szDataName : String}
    {info : Option SCacheInfo} (h : LookupSet mgr mgr' nID szDataName info) :
    mgr'.lookup nID szDataName = info := by
  rw [h nID szDataName, if_pos ⟨rfl, rfl⟩]

/-- and the others as before. -/
theorem LookupSet.of_ne {mgr' : CDbCacheMgr} {nID : Nat} {szDataName : String}
    {info : Option SCacheInfo} (h : LookupSet mgr mgr' nID szDataName info) {nID' : Nat}
    {szDataName' : String} (hne : ¬ (nID' = nID ∧ szDataName' = szDataName)) :
    mgr'.lookup nID' szDataName' = mgr.lookup nID' szDataName' := by
  rw [h nID' szDataName', if_neg hne]

/-- No record changed. -/
theorem LookupSet.of_same {mgr' : CDbCacheMgr} (h : mgr'.lookup = mgr.lookup) {nID : Nat}
    {szDataName : String} :
    LookupSet mgr mgr' nID szDataName (mgr.lookup nID szDataName) := by
  intro nID' szDataName'
  rw [h]
  split
  · rename_i hkey
    rw [hkey.1, hkey.2]
  · rfl

/-- The scheduled ids are still scheduled. -/
def KeepsDirty (mgr mgr' : CDbCacheMgr) : Prop :=
  ∀ nID : Nat, mgr.m_mapDirtyCache[nID]? ≠ none → mgr'.m_mapDirtyCache[nID]? ≠ none

/-! ## The steps of the operations -/

/-- Finding the index of a name makes an index at most. -/
theorem getDataID_named (h : Named mgr) {szDataName : String} (hroom : HasIndex mgr szDataName) :
    Named (mgr.getDataID szDataName).2 := by
  unfold getDataID
  split
  · exact h
  · rename_i hunknown
    have hlt : mgr.m_nCurIndex + 1 < 2 ^ 32 := hroom.resolve_left fun hne => hne hunknown
    have hmod : (mgr.m_nCurIndex + 1) % 2 ^ 32 = mgr.m_nCurIndex + 1 := Nat.mod_eq_of_lt hlt
    refine ⟨?_, ?_, ?_⟩
    · intro szDataName' nDataID hindex
      by_cases heq : szDataName = szDataName'
      · subst heq
        have hnew : mgr.m_nCurIndex = nDataID := by simpa using hindex
        refine ⟨by simp [hnew], ?_⟩
        simp only [hmod]
        omega
      · have hold : mgr.m_mapDataIndex[szDataName']? = some nDataID := by
          simpa [Std.ExtTreeMap.getElem?_insert, heq] using hindex
        obtain ⟨hname, hbelow⟩ := h.name _ _ hold
        have hne : mgr.m_nCurIndex ≠ nDataID := by omega
        refine ⟨by simp [Std.ExtTreeMap.getElem?_insert, hne, hname], ?_⟩
        simp only [hmod]
        omega
    · intro pObject nDataID hrecord
      obtain ⟨szDataName', hindex⟩ := h.index pObject nDataID hrecord
      have hne : szDataName ≠ szDataName' := by
        intro heq
        subst heq
        rw [hunknown] at hindex
        cases hindex
      exact ⟨szDataName', by simp [Std.ExtTreeMap.getElem?_insert, hne, hindex]⟩
    · simp only [hmod]
      exact hlt

/-- A new index has no records. -/
theorem getDataID_lookup (h : Named mgr) (szDataName : String) :
    (mgr.getDataID szDataName).2.lookup = mgr.lookup := by
  funext nID szDataName'
  unfold getDataID
  split
  · rfl
  · rename_i hunknown
    by_cases heq : szDataName = szDataName'
    · subst heq
      have hfresh : mgr.record nID mgr.m_nCurIndex = none := by
        simp [record, h.fresh]
      have hnew : (mgr.m_mapDataIndex.insert szDataName mgr.m_nCurIndex)[szDataName]? =
          some mgr.m_nCurIndex := by
        simp
      simp only [lookup, hunknown, hnew, Option.bind_some, Option.bind_none]
      exact hfresh
    · have hother : (mgr.m_mapDataIndex.insert szDataName mgr.m_nCurIndex)[szDataName']? =
          mgr.m_mapDataIndex[szDataName']? := by
        simp [Std.ExtTreeMap.getElem?_insert, heq]
      simp only [lookup, hother]
      rfl

theorem getDataID_good (h : Named mgr) {szDataName : String} (hroom : HasIndex mgr szDataName) :
    (mgr.getDataID szDataName).1 ≠ badDataID :=
  (getDataID_named h hroom).good (getDataID_index mgr szDataName)

/-- After `getDataID` there is an index. -/
theorem getDataID_hasIndex (mgr : CDbCacheMgr) (szDataName : String) :
    HasIndex (mgr.getDataID szDataName).2 szDataName := by
  refine .inl ?_
  rw [getDataID_index]
  simp

/-- Allocating an object for an id that has none enters no record. -/
theorem allocate_lookup (hwf : WellFormed mgr) {nID : Nat}
    (huncached : mgr.m_mapCache[nID]? = none) : (mgr.allocate nID).lookup = mgr.lookup := by
  funext nID' szDataName
  by_cases heq : nID = nID'
  · subst heq
    rw [lookup_of_uncached huncached]
    simp only [lookup, Option.bind_eq_none_iff]
    intro nDataID _
    simp [record, allocate, CDbCache.empty]
  · have hrecord : (mgr.allocate nID).record nID' = mgr.record nID' :=
      funext fun nDataID => (allocate_sameAt hwf heq).record nDataID
    simp only [lookup, hrecord]
    rfl

/-- A new object has no record that could be misnamed. -/
theorem allocate_named (h : Named mgr) (nID : Nat) : Named (mgr.allocate nID) where
  name := h.name
  index := by
    intro pObject nDataID hrecord
    by_cases heq : pObject = mgr.nNextObject
    · subst heq
      simp [allocate, CDbCache.empty] at hrecord
    · exact h.index pObject nDataID (by simpa [allocate, heq] using hrecord)
  bound := h.bound

/-- Replacing one record of the object cached for an id. -/
theorem store_lookup (hwf : WellFormed mgr) (h : Named mgr) {nID pObject nDataID : Nat}
    {szDataName : String} (hcached : mgr.m_mapCache[nID]? = some pObject)
    (hindex : mgr.m_mapDataIndex[szDataName]? = some nDataID) {pDbCache : CDbCache}
    {info : Option SCacheInfo}
    (hrecords : ∀ nDataID' : Nat, pDbCache.m_mapCacheInfo[nDataID']? =
      if nDataID' = nDataID then info else (mgr.objects pObject).m_mapCacheInfo[nDataID']?) :
    LookupSet mgr (mgr.store pObject pDbCache) nID szDataName info := by
  intro nID' szDataName'
  by_cases hid : nID' = nID
  · subst hid
    have hrecord : ∀ nDataID' : Nat, (mgr.store pObject pDbCache).record nID' nDataID' =
        pDbCache.m_mapCacheInfo[nDataID']? := by
      intro nDataID'
      rw [record_of_cached (by simpa using hcached)]
      simp
    cases hindex' : mgr.m_mapDataIndex[szDataName']? with
    | none =>
        have hne : szDataName' ≠ szDataName := by
          intro heq
          subst heq
          rw [hindex] at hindex'
          cases hindex'
        have hnone : (mgr.store pObject pDbCache).m_mapDataIndex[szDataName']? = none := hindex'
        simp [lookup, hindex', hnone, hne]
    | some nDataID' =>
        have hstored : (mgr.store pObject pDbCache).m_mapDataIndex[szDataName']? =
            some nDataID' := hindex'
        rw [lookup_of_index hstored, hrecord, hrecords, lookup_of_index hindex',
          record_of_cached hcached]
        by_cases hname : szDataName' = szDataName
        · subst hname
          rw [hindex, Option.some.injEq] at hindex'
          simp [hindex']
        · have hne : nDataID' ≠ nDataID := by
            intro heq
            subst heq
            exact hname (h.inj hindex' hindex)
          simp [hne, hname]
  · have hrecord : (mgr.store pObject pDbCache).record nID' = mgr.record nID' :=
      funext fun nDataID' => (store_sameAt hwf (Ne.symm hid) hcached pDbCache).record nDataID'
    simp only [lookup, hrecord, hid, false_and, if_false]
    rfl

/-- An object may be replaced by one with the record of a known name changed. -/
theorem store_named (h : Named mgr) {pObject nDataID : Nat} {szDataName : String}
    (hindex : mgr.m_mapDataIndex[szDataName]? = some nDataID) {pDbCache : CDbCache}
    {info : Option SCacheInfo}
    (hrecords : ∀ nDataID' : Nat, pDbCache.m_mapCacheInfo[nDataID']? =
      if nDataID' = nDataID then info else (mgr.objects pObject).m_mapCacheInfo[nDataID']?) :
    Named (mgr.store pObject pDbCache) where
  name := h.name
  index := by
    intro pObject' nDataID' hrecord
    by_cases heq : pObject' = pObject
    · subst heq
      rw [store_objects, Function.update_self, hrecords] at hrecord
      by_cases hid : nDataID' = nDataID
      · exact ⟨szDataName, hid ▸ hindex⟩
      · rw [if_neg hid] at hrecord
        exact h.index _ _ hrecord
    · rw [store_objects, Function.update_of_ne heq] at hrecord
      exact h.index _ _ hrecord
  bound := h.bound

/-- Replacing a record changes that record only. -/
theorem withRecord_records (pDbCache : CDbCache) (nDataID : Nat) (sCacheInfo : SCacheInfo)
    (nSize : Int) (nDataID' : Nat) :
    (pDbCache.withRecord nDataID sCacheInfo nSize).m_mapCacheInfo[nDataID']? =
      if nDataID' = nDataID then some sCacheInfo else pDbCache.m_mapCacheInfo[nDataID']? := by
  simp only [CDbCache.withRecord, Std.ExtTreeMap.getElem?_insert, compare_eq_iff_eq]
  simp only [eq_comm]

/-! ## The operations -/

/-- `getData` loads the record. -/
theorem getData_view (pb : Runtime) (h : Named mgr) {szDataName : String}
    (hroom : HasIndex mgr szDataName) (nID : Nat) :
    mgr.getData pb nID szDataName =
      ((mgr.lookup nID szDataName).bind fun sCacheInfo =>
          CDbCache.loadRecord pb szDataName sCacheInfo.szData,
        (mgr.getDataID szDataName).2) := by
  have hnamed := getDataID_named h hroom
  have hindex := getDataID_index mgr szDataName
  have hname : (mgr.getDataID szDataName).2.getDataName (mgr.getDataID szDataName).1 =
      szDataName := by
    simp [getDataName, (hnamed.name _ _ hindex).1]
  rw [getData_eq, if_neg (getDataID_good h hroom), hname, ← getDataID_lookup h,
    lookup_of_index hindex, getDataID_record]
  congr 1
  unfold record
  cases mgr.m_mapCache[nID]? with
  | none => rfl
  | some pObject =>
      simp only [Option.bind_some, CDbCache.getData]
      cases (mgr.objects pObject).m_mapCacheInfo[(mgr.getDataID szDataName).1]? with
      | none => rfl
      | some sCacheInfo => rfl

/-- `addData` enters an unmodified record for an id that has no object, or none. -/
theorem AddOutcome.view (hwf : WellFormed mgr) (hdisabled : mgr.isDisabled = false)
    (h : Named mgr) {nID : Nat} {pData : RowMessage} (hroom : HasIndex mgr pData.GetTypeName)
    {result : Bool × CDbCacheMgr} (houtcome : AddOutcome pb mgr nID pData result) :
    Named result.2 ∧ KeepsDirty mgr result.2 ∧
      (result.2.lookup = mgr.lookup ∨
        mgr.m_mapCache[nID]? = none ∧ ∃ szData, pb.SerializeToString (.row pData) = some szData ∧
          LookupSet mgr result.2 nID pData.GetTypeName (some ⟨szData, 0⟩)) := by
  have hnamed := getDataID_named h hroom
  have hlookup := getDataID_lookup h pData.GetTypeName
  have hwf' := getDataID_wellFormed hwf pData.GetTypeName
  have hdirty : KeepsDirty mgr (mgr.getDataID pData.GetTypeName).2 := by
    intro nID' hin
    rwa [getDataID_mapDirtyCache]
  cases houtcome with
  | badIndex => exact ⟨hnamed, hdirty, .inl hlookup⟩
  | present => exact ⟨hnamed, hdirty, .inl hlookup⟩
  | unserialised _ huncached =>
      have hnone : (mgr.getDataID pData.GetTypeName).2.m_mapCache[nID]? = none := by
        simpa using huncached
      exact ⟨allocate_named hnamed nID, hdirty,
        .inl ((allocate_lookup hwf' hnone).trans hlookup)⟩
  | added szData hgood huncached hdata =>
      have hnone : (mgr.getDataID pData.GetTypeName).2.m_mapCache[nID]? = none := by
        simpa using huncached
      have hallocated := allocate_lookup hwf' hnone
      have hindex : ((mgr.getDataID pData.GetTypeName).2.allocate nID).m_mapDataIndex[
          pData.GetTypeName]? = some (mgr.getDataID pData.GetTypeName).1 :=
        getDataID_index mgr pData.GetTypeName
      have hempty : ((mgr.getDataID pData.GetTypeName).2.allocate nID).objects
          mgr.nNextObject = CDbCache.empty := by
        simp [allocate]
      have hrecords : ∀ nDataID' : Nat, (CDbCache.empty.withRecord
          (mgr.getDataID pData.GetTypeName).1 ⟨szData, 0⟩
            (0 + szData.length)).m_mapCacheInfo[nDataID']? =
          if nDataID' = (mgr.getDataID pData.GetTypeName).1 then some ⟨szData, 0⟩
          else (((mgr.getDataID pData.GetTypeName).2.allocate nID).objects
            mgr.nNextObject).m_mapCacheInfo[nDataID']? := by
        intro nDataID'
        rw [withRecord_records, hempty]
      have hset := store_lookup
        (allocate_wellFormed hwf' (by simpa using hdisabled) nID) (allocate_named hnamed nID)
        (getDataID_allocate_cached mgr pData.GetTypeName nID) hindex hrecords
      refine ⟨store_named (allocate_named hnamed nID) hindex hrecords, hdirty,
        .inr ⟨huncached, szData, hdata, ?_⟩⟩
      intro nID' szDataName'
      rw [hset nID' szDataName', hallocated, hlookup]

/-- **`addData`** makes nothing dirty, and adds the record of an id that is not cached, or
nothing. -/
theorem addData_view (pb : Runtime) (hwf : WellFormed mgr) (hdisabled : mgr.isDisabled = false)
    (h : Named mgr) (nID : Nat) {pData : RowMessage} (hroom : HasIndex mgr pData.GetTypeName) :
    Named (mgr.addData pb nID pData).2 ∧ KeepsDirty mgr (mgr.addData pb nID pData).2 ∧
      ((mgr.addData pb nID pData).2.lookup = mgr.lookup ∨
        mgr.m_mapCache[nID]? = none ∧ ∃ szData, pb.SerializeToString (.row pData) = some szData ∧
          LookupSet mgr (mgr.addData pb nID pData).2 nID pData.GetTypeName
            (some ⟨szData, 0⟩)) :=
  (addData_outcome pb hdisabled nID pData).view hwf hdisabled h hroom

/-- `markDirty` schedules its id and changes no record. -/
theorem markDirty_keepsDirty (mgr : CDbCacheMgr) (nID pObject : Nat) :
    KeepsDirty mgr (mgr.markDirty nID pObject) := by
  intro nID' hin
  by_cases heq : nID = nID'
  · simp [heq]
  · simpa [Std.ExtTreeMap.getElem?_insert, heq] using hin

/-- **`setData` where there is no record** keeps the cache as it is, or enters an unmodified
one. -/
theorem setData_view_absent (pb : Runtime) (hwf : WellFormed mgr)
    (hdisabled : mgr.isDisabled = false) (h : Named mgr) {nID : Nat} {pData : RowMessage}
    (hroom : HasIndex mgr pData.GetTypeName) (habsent : mgr.lookup nID pData.GetTypeName = none)
    (nTime : Nat) :
    Named (mgr.setData pb nID pData nTime).2 ∧ KeepsDirty mgr (mgr.setData pb nID pData nTime).2 ∧
      ((mgr.setData pb nID pData nTime).2.lookup = mgr.lookup ∨
        ∃ szData, pb.SerializeToString (.row pData) = some szData ∧
          LookupSet mgr (mgr.setData pb nID pData nTime).2 nID pData.GetTypeName
            (some ⟨szData, 0⟩)) := by
  have houtcome := setData_outcome pb hdisabled nID pData nTime
  generalize mgr.setData pb nID pData nTime = result at houtcome
  have hnamed := getDataID_named h hroom
  have hlookup := getDataID_lookup h pData.GetTypeName
  have hdirty : KeepsDirty mgr (mgr.getDataID pData.GetTypeName).2 := by
    intro nID' hin
    rwa [getDataID_mapDirtyCache]
  cases houtcome with
  | uncached _ huncached hadd =>
      obtain ⟨hnamed', hdirty', hview⟩ := hadd.view hwf hdisabled h hroom
      exact ⟨hnamed', hdirty', hview.imp id And.right⟩
  | badIndex => exact ⟨hnamed, hdirty, .inl hlookup⟩
  | refused => exact ⟨hnamed, hdirty, .inl hlookup⟩
  | stored pObject pDbCache hcached hgood hset =>
      have hindex := getDataID_index mgr pData.GetTypeName
      have hcached' : (mgr.getDataID pData.GetTypeName).2.m_mapCache[nID]? = some pObject := by
        simpa using hcached
      have hnone : (mgr.objects pObject).m_mapCacheInfo[(mgr.getDataID
          pData.GetTypeName).1]? = none := by
        rw [← hlookup, lookup_of_index hindex, record_of_cached hcached'] at habsent
        simpa using habsent
      cases hset with
      | absent _ _ hadd =>
          cases hadd with
          | added szData _ hdata =>
              have hrecords := withRecord_records (mgr.objects pObject)
                (mgr.getDataID pData.GetTypeName).1 ⟨szData, 0⟩
                ((mgr.objects pObject).m_nDataSize + szData.length)
              rw [← getDataID_objects mgr pData.GetTypeName] at hrecords
              have hstored := store_lookup (getDataID_wellFormed hwf _) hnamed hcached' hindex
                hrecords
              have hstored' := store_named hnamed hindex hrecords
              rw [getDataID_objects] at hstored hstored'
              refine ⟨⟨hstored'.name, hstored'.index, hstored'.bound⟩, fun nID' hin =>
                markDirty_keepsDirty _ nID pObject nID' (hdirty nID' hin),
                .inr ⟨szData, hdata, fun nID' szDataName' => ?_⟩⟩
              rw [← hlookup]
              exact hstored nID' szDataName'
      | merged sCacheInfo szData hrecord => rw [hnone] at hrecord; cases hrecord

/-- **`setData` over a record it can merge into** replaces it, marks it as modified and
schedules the id. -/
theorem setData_view_merged (pb : Runtime) (hwf : WellFormed mgr)
    (hdisabled : mgr.isDisabled = false) (h : Named mgr) {nID : Nat} {pData : RowMessage}
    {sCacheInfo : SCacheInfo} {szData : Bytes}
    (hlook : mgr.lookup nID pData.GetTypeName = some sCacheInfo)
    (hmerge : CDbCache.mergeData pb pData.GetTypeName sCacheInfo.szData pData = some szData)
    (nTime : Nat) :
    (mgr.setData pb nID pData nTime).1 = true ∧ Named (mgr.setData pb nID pData nTime).2 ∧
      KeepsDirty mgr (mgr.setData pb nID pData nTime).2 ∧
      (mgr.setData pb nID pData nTime).2.m_mapDirtyCache[nID]? ≠ none ∧
      LookupSet mgr (mgr.setData pb nID pData nTime).2 nID pData.GetTypeName
        (some ⟨szData, nTime⟩) := by
  obtain ⟨pObject, nDataID, hcached, hindex, hrecord⟩ := exists_of_lookup hlook
  have hgood := h.good hindex
  have hset : (mgr.objects pObject).setData pb nDataID pData.GetTypeName pData nTime =
      (true, (mgr.objects pObject).withRecord nDataID ⟨szData, nTime⟩
        ((mgr.objects pObject).m_nDataSize - sCacheInfo.szData.length + szData.length)) := by
    simp only [CDbCache.setData, hrecord, hmerge]
    rfl
  have hrecords := withRecord_records (mgr.objects pObject) nDataID ⟨szData, nTime⟩
    ((mgr.objects pObject).m_nDataSize - sCacheInfo.szData.length + szData.length)
  have hstored := store_lookup hwf h hcached hindex hrecords
  have hnamed := store_named h hindex hrecords
  have hresult : mgr.setData pb nID pData nTime =
      (true, (mgr.store pObject ((mgr.objects pObject).withRecord nDataID ⟨szData, nTime⟩
        ((mgr.objects pObject).m_nDataSize - sCacheInfo.szData.length +
          szData.length))).markDirty nID pObject) := by
    simp only [setData, hdisabled, hcached, getDataID_known hindex, hset, if_neg hgood,
      Bool.false_eq_true, if_false]
  rw [hresult]
  refine ⟨rfl, ⟨hnamed.name, hnamed.index, hnamed.bound⟩, ?_, by simp, hstored⟩
  exact markDirty_keepsDirty _ nID pObject

/-- **`delData`** takes the record out. -/
theorem delData_view (hwf : WellFormed mgr) (hdisabled : mgr.isDisabled = false) (h : Named mgr)
    (nID : Nat) {szDataName : String} (hroom : HasIndex mgr szDataName) :
    Named (mgr.delData nID szDataName).2 ∧ KeepsDirty mgr (mgr.delData nID szDataName).2 ∧
      LookupSet mgr (mgr.delData nID szDataName).2 nID szDataName none := by
  have houtcome := delData_outcome hdisabled nID szDataName
  generalize mgr.delData nID szDataName = result at houtcome
  have hnamed := getDataID_named h hroom
  have hlookup := getDataID_lookup h szDataName
  have hindex := getDataID_index mgr szDataName
  have hdirty : KeepsDirty mgr (mgr.getDataID szDataName).2 := by
    intro nID' hin
    rwa [getDataID_mapDirtyCache]
  have hsame : mgr.lookup nID szDataName = none → ∀ mgr' : CDbCacheMgr,
      mgr'.lookup = mgr.lookup → LookupSet mgr mgr' nID szDataName none := by
    intro hnone mgr' heq
    rw [← hnone]
    exact LookupSet.of_same heq
  cases houtcome with
  | uncached huncached =>
      exact ⟨h, fun _ hin => hin, hsame (lookup_of_uncached huncached _) _ rfl⟩
  | badIndex _ _ hbad => exact absurd hbad (getDataID_good h hroom)
  | absent pObject hcached _ habsent =>
      refine ⟨hnamed, hdirty, hsame ?_ _ hlookup⟩
      rw [← hlookup, lookup_of_index hindex, record_of_cached (by simpa using hcached)]
      simpa using habsent
  | deleted pObject sCacheInfo hcached hgood hrecord =>
      let pDbCache : CDbCache :=
        ⟨(mgr.objects pObject).m_mapCacheInfo.erase (mgr.getDataID szDataName).1,
          (mgr.objects pObject).m_nDataSize - sCacheInfo.szData.length⟩
      have hrecords : ∀ nDataID' : Nat, pDbCache.m_mapCacheInfo[nDataID']? =
          if nDataID' = (mgr.getDataID szDataName).1 then none
          else ((mgr.getDataID szDataName).2.objects pObject).m_mapCacheInfo[nDataID']? := by
        intro nDataID'
        simp only [pDbCache, Std.ExtTreeMap.getElem?_erase, compare_eq_iff_eq,
          getDataID_objects]
        simp only [eq_comm]
      have hstored := store_lookup (getDataID_wellFormed hwf _) hnamed
        (by simpa using hcached) hindex hrecords
      refine ⟨store_named hnamed hindex hrecords, hdirty, fun nID' szDataName' => ?_⟩
      rw [← hlookup]
      exact hstored nID' szDataName'

/-- Commands leave the switch of the cache alone. -/
theorem kept_isDisabled (pb : Runtime) (disabled : Bool) :
    Kept pb (fun _ => True) (fun mgr => mgr.isDisabled = disabled) := by
  apply Kept.of_outcomes
  · intro mgr szDataName h
    rwa [getDataID_isDisabled]
  · intro mgr nID pData result _ h _ houtcome
    have hname := (getDataID_isDisabled mgr pData.GetTypeName).trans h
    cases houtcome <;> exact hname
  · intro mgr nID pData nTime result _ h _ houtcome
    have hname := (getDataID_isDisabled mgr pData.GetTypeName).trans h
    cases houtcome with
    | uncached _ _ hadd => cases hadd <;> exact hname
    | badIndex => exact hname
    | refused => exact hname
    | stored => exact hname
  · intro mgr nID szDataName result _ h _ houtcome
    have hname := (getDataID_isDisabled mgr szDataName).trans h
    cases houtcome with
    | uncached => exact h
    | badIndex => exact hname
    | absent => exact hname
    | deleted => exact hname

end CDbCacheMgr

end Db
