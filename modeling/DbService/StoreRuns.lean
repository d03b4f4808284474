import DbService.Runs
import DbService.DbThread

/-!
# Runs of a worker's store

Commands, ticks and the last flush as actions of one machine, `Store.step`; in
`Store.stepLimit` the limit of the cache may change between any two of them.  `Kept` is the
rule the invariants of the cache manager are proved with: what `getDataID`, `addData`,
`setData` and `delData` keep for the ids in question, a command for such an id keeps.
`WellFormed` is the first of them: an object belongs to one id.  So a command leaves the objects
of the other ids alone (`SameAt`).

* `Kept.onPreCache`, `Kept.onPostCache` -- a command keeps what the four operations keep;
* `run_wellFormed` -- every state of a run is well formed;
* `mem_writebackFrom` -- each write of a pass carries a due record of the object it names;
* `writeback_dirty_le`, `cleanCache_dirty_le`, `flushCache_dirty_le` -- a pass makes nothing dirty.
-/

namespace Db

open Reflection ByteText

/-- What a worker's store goes through. -/
inductive StoreAction
  | command (sDbCommand : SDbCommand) (clock : Clock)
  /-- `update()`, at the start of every round -/
  | tick (nCurTime : Nat) (sample : Sample)
  /-- `flushCache(0, true)`, when the worker leaves -/
  | finish

/-- The id of the command an action processes. -/
def StoreAction.key : StoreAction → Option Nat
  | .command sDbCommand _ => CDbThread.cacheKey sDbCommand.nType sDbCommand.pMessage
  | _ => none

/-- What a worker's store goes through when its limit is changed at run time as well. -/
inductive LimitAction
  | store (action : StoreAction)
  | setMaxCacheSize (nSize : Nat)

/-- A change of the limit is about no id. -/
def LimitAction.key : LimitAction → Option Nat
  | .store action => action.key
  | .setMaxCacheSize _ => none

/-- What an action shows: what became of the command, and the write-back UPDATEs. -/
structure StoreOutput where
  outcome : Option Outcome
  writes : List WriteEvent

namespace Store

variable {σ : Type} (pb : Runtime) (srv : Server σ)

/-- A store whose cache is empty. -/
def init (nMaxCacheSize nWritebackTime : Nat) (conn : CDbConnection σ) : Store σ :=
  ⟨CDbCacheMgr.init nMaxCacheSize nWritebackTime, conn⟩

/-- One action of a worker on its store, with what it shows. -/
def step (st : Store σ) : StoreAction → Store σ × StoreOutput
  | .command sDbCommand clock =>
      let (st, outcome, writes) := st.process pb srv sDbCommand clock
      (st, ⟨some outcome, writes⟩)
  | .tick nCurTime sample =>
      let (st, writes) := st.update pb srv nCurTime sample
      (st, ⟨none, writes⟩)
  | .finish =>
      let (st, writes) := st.flushAll pb srv
      (st, ⟨none, writes⟩)

/-- The machine with changes of the limit.  They write nothing and answer nothing. -/
def stepLimit (st : Store σ) : LimitAction → Store σ × StoreOutput
  | .store action => st.step pb srv action
  | .setMaxCacheSize nSize =>
      (⟨st.m_dbCacheMgr.setMaxCacheSize nSize, st.m_dbConnection⟩, ⟨none, []⟩)

end Store

namespace CDbCacheMgr

variable {σ : Type} {pb : Runtime} {srv : Server σ}

/-! ## Properties that commands keep -/

/-- `p` is kept by the operations of the manager on the ids in `ids`. -/
structure Kept (pb : Runtime) (ids : Nat → Prop) (p : CDbCacheMgr → Prop) : Prop where
  getDataID : ∀ mgr szDataName, p mgr → p (mgr.getDataID szDataName).2
  addData : ∀ mgr nID pData, ids nID → p mgr → p (mgr.addData pb nID pData).2
  setData : ∀ mgr nID pData nTime, ids nID → p mgr → p (mgr.setData pb nID pData nTime).2
  delData : ∀ mgr nID szDataName, ids nID → p mgr → p (mgr.delData nID szDataName).2

variable {ids : Nat → Prop} {p : CDbCacheMgr → Prop} {mgr : CDbCacheMgr}

/-- A cache that is switched off is left as it is, so the outcomes with the cache on decide. -/
theorem Kept.of_outcomes
    (hname : ∀ mgr szDataName, p mgr → p (mgr.getDataID szDataName).2)
    (hadd : ∀ mgr nID pData result, ids nID → p mgr → mgr.isDisabled = false →
      AddOutcome pb mgr nID pData result → p result.2)
    (hset : ∀ mgr nID pData nTime result, ids nID → p mgr → mgr.isDisabled = false →
      SetOutcome pb mgr nID pData nTime result → p result.2)
    (hdel : ∀ mgr nID szDataName result, ids nID → p mgr → mgr.isDisabled = false →
      DelOutcome mgr nID szDataName result → p result.2) : Kept pb ids p where
  getDataID := hname
  addData := by
    intro mgr nID pData hid h
    cases hdisabled : mgr.isDisabled with
    | true => rwa [addData_disabled pb hdisabled]
    | false => exact hadd mgr nID pData _ hid h hdisabled (addData_outcome pb hdisabled nID pData)
  setData := by
    intro mgr nID pData nTime hid h
    cases hdisabled : mgr.isDisabled with
    | true => rwa [setData_disabled pb hdisabled]
    | false =>
        exact hset mgr nID pData nTime _ hid h hdisabled
          (setData_outcome pb hdisabled nID pData nTime)
  delData := by
    intro mgr nID szDataName hid h
    cases hdisabled : mgr.isDisabled with
    | true => rwa [delData_disabled hdisabled]
    | false =>
        exact hdel mgr nID szDataName _ hid h hdisabled (delData_outcome hdisabled nID szDataName)

/-- What the cache does before a command runs keeps a kept property: it is one of the four
operations, on the command's key where it depends on a key at all. -/
theorem Kept.onPreCache (h : Kept pb ids p) {nType : EOperatorType}
    {pRequest : Option Message}
    (hids : ∀ nID, CDbThread.cacheKey nType pRequest = some nID → ids nID) (hmgr : p mgr)
    (nSetTime : Nat) : p (CDbThread.onPreCache pb mgr nType pRequest nSetTime).2.2 := by
  cases hdisabled : mgr.isDisabled with
  | true =>
      rw [CDbThread.onPreCache_disabled hdisabled]
      exact hmgr
  | false =>
      unfold CDbThread.onPreCache
      rw [hdisabled, if_neg Bool.false_ne_true]
      split
      · rename_i id table_name
        have hname := h.getDataID mgr (getMessageNameByTableName table_name) hmgr
        rw [CDbCacheMgr.getData_eq]
        split <;> simp_all
      · rename_i m
        split
        · rename_i nID szData hid _
          exact h.setData _ _ _ _ (hids nID hid) hmgr
        · exact hmgr
      · rename_i m
        split
        · rename_i nID szData hid _
          exact h.addData _ _ _ (hids nID hid) hmgr
        · exact hmgr
      · rename_i id table_name
        exact h.delData _ _ _ (hids id rfl) hmgr
      · exact hmgr

/-- What the cache does after a command keeps it too: the row a SELECT found is set under the id
that was asked for. -/
theorem Kept.onPostCache (h : Kept pb ids p) {nType : EOperatorType}
    {pRequest : Option Message}
    (hids : ∀ nID, CDbThread.cacheKey nType pRequest = some nID → ids nID) (hmgr : p mgr)
    (pResponse : Option Message) (nSetTime : Nat) :
    p (CDbThread.onPostCache pb mgr nType pRequest pResponse nSetTime) := by
  unfold CDbThread.onPostCache
  split
  · exact hmgr
  · split
    · rename_i id _ m
      split
      · exact hmgr
      · exact h.setData _ _ _ _ (hids id rfl) hmgr
    · exact hmgr

/-- **A command keeps what the operations on its id keep.** -/
theorem Kept.executed (h : Kept pb ids p) {st : Store σ} {nType : EOperatorType}
    {pRequest : Option Message} {nSetTime : Nat} {result : Store σ × Outcome}
    (hids : ∀ nID, CDbThread.cacheKey nType pRequest = some nID → ids nID)
    (hexecuted : Store.Executed pb srv st nType pRequest nSetTime result)
    (hmgr : p st.m_dbCacheMgr) : p result.1.m_dbCacheMgr := by
  have hpre := h.onPreCache hids hmgr nSetTime
  cases hexecuted with
  | absorbed pMessage mgr heq =>
      rw [heq] at hpre
      exact h.onPostCache hids hpre pMessage nSetTime
  | lost pMessage pAnswer mgr conn heq hhandle =>
      rw [heq] at hpre
      exact hpre
  | answered pMessage pAnswer mgr nErrorCode conn heq hhandle hcode =>
      rw [heq] at hpre
      exact h.onPostCache hids hpre pAnswer nSetTime

/-- A command on another id. -/
theorem Kept.executed_other {nID : Nat} (h : Kept pb (fun nID' => nID' ≠ nID) p) {st : Store σ}
    {nType : EOperatorType} {pRequest : Option Message} {nSetTime : Nat}
    {result : Store σ × Outcome} (hkey : CDbThread.cacheKey nType pRequest ≠ some nID)
    (hexecuted : Store.Executed pb srv st nType pRequest nSetTime result)
    (hmgr : p st.m_dbCacheMgr) : p result.1.m_dbCacheMgr := by
  refine h.executed ?_ hexecuted hmgr
  intro nID' hkey' heq
  exact hkey (heq ▸ hkey')

/-! ## Objects belong to ids -/

/-- Every cached or scheduled object is an allocated one and belongs to one id; no record
has the error index; a cache that is switched off is empty. -/
structure WellFormed (mgr : CDbCacheMgr) : Prop where
  owner : ∃ owner : Nat → Nat, ∀ nID pObject : Nat,
    (mgr.m_mapCache[nID]? = some pObject ∨ mgr.m_mapDirtyCache[nID]? = some pObject) →
    owner pObject = nID ∧ pObject < mgr.nNextObject
  records : ∀ pObject, (mgr.objects pObject).m_mapCacheInfo[badDataID]? = none
  disabled : mgr.isDisabled = true → mgr.m_mapCache = ∅ ∧ mgr.m_mapDirtyCache = ∅

/-- The empty manager is well formed. -/
theorem init_wellFormed (nMaxCacheSize nWritebackTime : Nat) :
    WellFormed (init nMaxCacheSize nWritebackTime) where
  owner := ⟨fun _ => 0, by simp [init]⟩
  records := by simp [init, CDbCache.empty]
  disabled := fun _ => ⟨rfl, rfl⟩

/-- Objects of two ids are two objects. -/
theorem WellFormed.inj (h : WellFormed mgr) {nID nID' pObject : Nat}
    (hmaps : mgr.m_mapCache[nID]? = some pObject ∨ mgr.m_mapDirtyCache[nID]? = some pObject)
    (hmaps' : mgr.m_mapCache[nID']? = some pObject ∨
      mgr.m_mapDirtyCache[nID']? = some pObject) : nID = nID' := by
  obtain ⟨owner, howner⟩ := h.owner
  exact (howner nID pObject hmaps).1.symm.trans (howner nID' pObject hmaps').1

/-- The objects the maps name have been allocated. -/
theorem WellFormed.lt (h : WellFormed mgr) {nID pObject : Nat}
    (hmaps : mgr.m_mapCache[nID]? = some pObject ∨ mgr.m_mapDirtyCache[nID]? = some pObject) :
    pObject < mgr.nNextObject := by
  obtain ⟨owner, howner⟩ := h.owner
  exact (howner nID pObject hmaps).2

/-- Taking entries out of the maps keeps the manager well formed. -/
theorem WellFormed.shrink (h : WellFormed mgr) {mgr' : CDbCacheMgr}
    (hsame : SameRecords mgr mgr')
    (hcache : ∀ nID pObject : Nat, mgr'.m_mapCache[nID]? = some pObject →
      mgr.m_mapCache[nID]? = some pObject)
    (hdirty : ∀ nID pObject : Nat, mgr'.m_mapDirtyCache[nID]? = some pObject →
      mgr.m_mapDirtyCache[nID]? = some pObject) : WellFormed mgr' where
  owner := by
    obtain ⟨owner, howner⟩ := h.owner
    refine ⟨owner, fun nID pObject hmaps => ?_⟩
    rw [hsame.nNextObject]
    exact howner nID pObject (hmaps.imp (hcache nID pObject) (hdirty nID pObject))
  records := by
    rw [hsame.objects]
    exact h.records
  disabled := by
    intro hdisabled
    obtain ⟨hc, hd⟩ := h.disabled (hsame.isDisabled ▸ hdisabled)
    refine ⟨Std.ExtTreeMap.ext_getElem? fun nID => ?_,
      Std.ExtTreeMap.ext_getElem? fun nID => ?_⟩
    · cases hget : mgr'.m_mapCache[nID]? with
      | none => simp
      | some pObject => simpa [hc] using hcache nID pObject hget
    · cases hget : mgr'.m_mapDirtyCache[nID]? with
      | none => simp
      | some pObject => simpa [hd] using hdirty nID pObject hget

/-- Looking up a table's number touches no object. -/
theorem getDataID_wellFormed (h : WellFormed mgr) (szDataName : String) :
    WellFormed (mgr.getDataID szDataName).2 where
  owner := by simpa using h.owner
  records := by simpa using h.records
  disabled := by simpa using h.disabled

/-- Replacing an object by one without a record under the error index. -/
theorem store_wellFormed (h : WellFormed mgr) (pObject : Nat) {pDbCache : CDbCache}
    (hrecord : pDbCache.m_mapCacheInfo[badDataID]? = none) :
    WellFormed (mgr.store pObject pDbCache) where
  owner := h.owner
  records := by
    intro pObject'
    by_cases heq : pObject' = pObject
    · subst heq
      simpa using hrecord
    · simpa [heq] using h.records pObject'
  disabled := h.disabled

/-- A new object belongs to the id it is allocated for. -/
theorem allocate_wellFormed (h : WellFormed mgr) (hdisabled : mgr.isDisabled = false)
    (nID : Nat) : WellFormed (mgr.allocate nID) where
  owner := by
    obtain ⟨owner, howner⟩ := h.owner
    refine ⟨Function.update owner mgr.nNextObject nID, fun nID' pObject hmaps => ?_⟩
    have hold : (mgr.m_mapCache[nID']? = some pObject ∨
          mgr.m_mapDirtyCache[nID']? = some pObject) →
        Function.update owner mgr.nNextObject nID pObject = nID' ∧
          pObject < mgr.nNextObject + 1 := by
      intro hmaps
      obtain ⟨hown, hlt⟩ := howner nID' pObject hmaps
      rw [Function.update_of_ne (by omega)]
      exact ⟨hown, by omega⟩
    simp only [allocate_mapCache, allocate_mapDirtyCache,
      Std.ExtTreeMap.getElem?_insert, compare_eq_iff_eq] at hmaps
    rcases hmaps with hcache | hdirty
    · by_cases heq : nID = nID'
      · rw [if_pos heq, Option.some.injEq] at hcache
        subst hcache
        exact ⟨by rw [Function.update_self, heq], Nat.lt_succ_self _⟩
      · rw [if_neg heq] at hcache
        exact hold (.inl hcache)
    · exact hold (.inr hdirty)
  records := by
    intro pObject
    by_cases heq : pObject = mgr.nNextObject
    · subst heq
      simp [allocate, CDbCache.empty]
    · simpa [allocate, heq] using h.records pObject
  disabled := by
    intro hdisabled'
    exact absurd (hdisabled.symm.trans hdisabled') Bool.false_ne_true

/-- An object that is cached under an id may become dirty under the same id, and not otherwise. -/
theorem markDirty_wellFormed (h : WellFormed mgr) (hdisabled : mgr.isDisabled = false)
    {nID pObject : Nat} (hcached : mgr.m_mapCache[nID]? = some pObject) :
    WellFormed (mgr.markDirty nID pObject) where
  owner := by
    obtain ⟨owner, howner⟩ := h.owner
    refine ⟨owner, fun nID' pObject' hmaps => howner nID' pObject' ?_⟩
    simp only [markDirty_mapCache, markDirty_mapDirtyCache,
      Std.ExtTreeMap.getElem?_insert, compare_eq_iff_eq] at hmaps
    rcases hmaps with hcache | hdirty
    · exact .inl hcache
    · by_cases heq : nID = nID'
      · rw [if_pos heq, Option.some.injEq] at hdirty
        exact .inl (heq ▸ hdirty ▸ hcached)
      · rw [if_neg heq] at hdirty
        exact .inr hdirty
  records := h.records
  disabled := by
    intro hdisabled'
    exact absurd (hdisabled.symm.trans hdisabled') Bool.false_ne_true

/-- A record entered under a good index leaves the error index free. -/
theorem withRecord_bad {pDbCache : CDbCache}
    (hbad : pDbCache.m_mapCacheInfo[badDataID]? = none) {nDataID : Nat}
    (hgood : nDataID ≠ badDataID) (sCacheInfo : SCacheInfo) (nSize : Int) :
    (pDbCache.withRecord nDataID sCacheInfo nSize).m_mapCacheInfo[badDataID]? = none := by
  simp [CDbCache.withRecord, Std.ExtTreeMap.getElem?_insert, hgood, hbad]

/-- The outcomes of `addData` are well formed. -/
theorem AddOutcome.wellFormed (h : WellFormed mgr) (hdisabled : mgr.isDisabled = false)
    {nID : Nat} {pData : RowMessage} {result : Bool × CDbCacheMgr}
    (houtcome : AddOutcome pb mgr nID pData result) : WellFormed result.2 := by
  have hnamed := getDataID_wellFormed h pData.GetTypeName
  have hallocated := allocate_wellFormed hnamed
    (by simpa using hdisabled) nID
  cases houtcome with
  | badIndex => exact hnamed
  | present => exact hnamed
  | unserialised => exact hallocated
  | added szData hgood =>
      exact store_wellFormed hallocated _ (withRecord_bad (by simp [CDbCache.empty]) hgood _ _)

/-- Setting a record of an object leaves the error index free. -/
theorem setOutcome_bad {pDbCache pDbCache' : CDbCache}
    (hbad : pDbCache.m_mapCacheInfo[badDataID]? = none) {nDataID nTime : Nat}
    (hgood : nDataID ≠ badDataID) {szDataName : String} {pData : RowMessage} {bSet : Bool}
    (hset : CDbCache.SetOutcome pb pDbCache nDataID szDataName pData nTime (bSet, pDbCache')) :
    pDbCache'.m_mapCacheInfo[badDataID]? = none := by
  cases hset with
  | absent _ habsent hadd =>
      cases hadd with
      | present => exact hbad
      | unserialised => exact hbad
      | added => exact withRecord_bad hbad hgood _ _
  | unmerged => exact hbad
  | merged => exact withRecord_bad hbad hgood _ _

/-- Whatever `setData` does, the manager stays well formed, -/
theorem SetOutcome.wellFormed (h : WellFormed mgr) (hdisabled : mgr.isDisabled = false)
    {nID nTime : Nat} {pData : RowMessage} {result : Bool × CDbCacheMgr}
    (houtcome : SetOutcome pb mgr nID pData nTime result) : WellFormed result.2 := by
  have hnamed := getDataID_wellFormed h pData.GetTypeName
  cases houtcome with
  | uncached _ _ hadd => exact hadd.wellFormed h hdisabled
  | badIndex => exact hnamed
  | refused => exact hnamed
  | stored pObject pDbCache hcached hgood hset =>
      refine markDirty_wellFormed
        (store_wellFormed hnamed pObject (setOutcome_bad (h.records pObject) hgood hset)) ?_ ?_
      · exact (getDataID_isDisabled mgr _).trans hdisabled
      · simpa using hcached

/-- and so it does after `delData`. -/
theorem DelOutcome.wellFormed (h : WellFormed mgr) {nID : Nat} {szDataName : String}
    {result : Bool × CDbCacheMgr} (houtcome : DelOutcome mgr nID szDataName result) :
    WellFormed result.2 := by
  have hnamed := getDataID_wellFormed h szDataName
  cases houtcome with
  | uncached => exact h
  | badIndex => exact hnamed
  | absent => exact hnamed
  | deleted pObject sCacheInfo hcached hgood hrecord =>
      apply store_wellFormed hnamed pObject
      simp [Std.ExtTreeMap.getElem?_erase, h.records pObject]

/-- Well-formedness is kept by the four operations, on any ids. -/
theorem kept_wellFormed (pb : Runtime) : Kept pb (fun _ => True) WellFormed := by
  apply Kept.of_outcomes
  · exact fun _ szDataName h => getDataID_wellFormed h szDataName
  · intro mgr nID pData result _ h hdisabled houtcome
    exact houtcome.wellFormed h hdisabled
  · intro mgr nID pData nTime result _ h hdisabled houtcome
    exact houtcome.wellFormed h hdisabled
  · intro mgr nID szDataName result _ h _ houtcome
    exact houtcome.wellFormed h

/-! ## What commands on other ids leave alone -/

/-- Both maps have the same objects under the id, and these the same records. -/
structure SameAt (mgr mgr' : CDbCacheMgr) (nID : Nat) : Prop where
  cache : mgr'.m_mapCache[nID]? = mgr.m_mapCache[nID]?
  dirty : mgr'.m_mapDirtyCache[nID]? = mgr.m_mapDirtyCache[nID]?
  objects : ∀ pObject : Nat,
    mgr.m_mapCache[nID]? = some pObject ∨ mgr.m_mapDirtyCache[nID]? = some pObject →
    mgr'.objects pObject = mgr.objects pObject

/-- What is left alone twice is left alone. -/
theorem SameAt.trans {mgr₁ mgr₂ mgr₃ : CDbCacheMgr} {nID : Nat} (h : SameAt mgr₁ mgr₂ nID)
    (h' : SameAt mgr₂ mgr₃ nID) : SameAt mgr₁ mgr₃ nID where
  cache := h'.cache.trans h.cache
  dirty := h'.dirty.trans h.dirty
  objects := by
    intro pObject hmaps
    refine (h'.objects pObject ?_).trans (h.objects pObject hmaps)
    rwa [h.cache, h.dirty]

/-- Looking up a table's number leaves every id alone. -/
theorem getDataID_sameAt (mgr : CDbCacheMgr) (szDataName : String) (nID : Nat) :
    SameAt mgr (mgr.getDataID szDataName).2 nID where
  cache := by rw [getDataID_mapCache]
  dirty := by rw [getDataID_mapDirtyCache]
  objects := by
    intro pObject _
    rw [getDataID_objects]

/-- Replacing the object of another id. -/
theorem store_sameAt (hwf : WellFormed mgr) {nID nID' pObject : Nat} (hne : nID ≠ nID')
    (hcached : mgr.m_mapCache[nID]? = some pObject) (pDbCache : CDbCache) :
    SameAt mgr (mgr.store pObject pDbCache) nID' where
  cache := rfl
  dirty := rfl
  objects := by
    intro pObject' hmaps
    have hother : pObject' ≠ pObject := by
      intro heq
      subst heq
      exact hne (hwf.inj (.inl hcached) hmaps)
    rw [store_objects, Function.update_of_ne hother]

/-- A new object for one id leaves the others alone: it is none of theirs. -/
theorem allocate_sameAt (hwf : WellFormed mgr) {nID nID' : Nat} (hne : nID ≠ nID') :
    SameAt mgr (mgr.allocate nID) nID' where
  cache := by simp [Std.ExtTreeMap.getElem?_insert, hne]
  dirty := rfl
  objects := by
    intro pObject hmaps
    have hold : pObject ≠ mgr.nNextObject := Nat.ne_of_lt (hwf.lt hmaps)
    simp [allocate, hold]

/-- Marking one id dirty leaves the others alone. -/
theorem markDirty_sameAt {nID nID' : Nat} (hne : nID ≠ nID') (pObject : Nat) :
    SameAt mgr (mgr.markDirty nID pObject) nID' where
  cache := rfl
  dirty := by simp [Std.ExtTreeMap.getElem?_insert, hne]
  objects := fun _ _ => rfl

/-- `addData` leaves the other ids alone. -/
theorem AddOutcome.sameAt (hwf : WellFormed mgr) (hdisabled : mgr.isDisabled = false)
    {nID nID' : Nat} (hne : nID ≠ nID') {pData : RowMessage} {result : Bool × CDbCacheMgr}
    (houtcome : AddOutcome pb mgr nID pData result) : SameAt mgr result.2 nID' := by
  have hnamed := getDataID_sameAt mgr pData.GetTypeName nID'
  have hwf' := getDataID_wellFormed hwf pData.GetTypeName
  have hallocated := hnamed.trans (allocate_sameAt hwf' hne)
  cases houtcome with
  | badIndex => exact hnamed
  | present => exact hnamed
  | unserialised => exact hallocated
  | added szData =>
      exact hallocated.trans (store_sameAt
        (allocate_wellFormed hwf' (by simpa using hdisabled) nID) hne
        (getDataID_allocate_cached mgr pData.GetTypeName nID) _)

/-- `setData` leaves the other ids alone. -/
theorem SetOutcome.sameAt (hwf : WellFormed mgr) (hdisabled : mgr.isDisabled = false)
    {nID nID' nTime : Nat} (hne : nID ≠ nID') {pData : RowMessage}
    {result : Bool × CDbCacheMgr} (houtcome : SetOutcome pb mgr nID pData nTime result) :
    SameAt mgr result.2 nID' := by
  have hnamed := getDataID_sameAt mgr pData.GetTypeName nID'
  cases houtcome with
  | uncached _ _ hadd => exact hadd.sameAt hwf hdisabled hne
  | badIndex => exact hnamed
  | refused => exact hnamed
  | stored pObject pDbCache hcached =>
      have hstored := store_sameAt (getDataID_wellFormed hwf pData.GetTypeName) hne
        (by simpa using hcached) pDbCache
      exact (hnamed.trans hstored).trans (markDirty_sameAt hne pObject)

/-- `delData` leaves the other ids alone. -/
theorem DelOutcome.sameAt (hwf : WellFormed mgr) {nID nID' : Nat} (hne : nID ≠ nID')
    {szDataName : String} {result : Bool × CDbCacheMgr}
    (houtcome : DelOutcome mgr nID szDataName result) : SameAt mgr result.2 nID' := by
  have hnamed := getDataID_sameAt mgr szDataName nID'
  cases houtcome with
  | uncached => exact ⟨rfl, rfl, fun _ _ => rfl⟩
  | badIndex => exact hnamed
  | absent => exact hnamed
  | deleted pObject _ hcached =>
      exact hnamed.trans (store_sameAt (getDataID_wellFormed hwf szDataName) hne
        (by simpa using hcached) _)

/-- **Commands on other ids** keep what depends on the objects of an id alone. -/
theorem kept_of_sameAt (pb : Runtime) (nID : Nat)
    (hp : ∀ mgr mgr', SameAt mgr mgr' nID → p mgr → p mgr') :
    Kept pb (fun nID' => nID' ≠ nID) (fun mgr => WellFormed mgr ∧ p mgr) := by
  apply Kept.of_outcomes
  · intro mgr szDataName h
    exact ⟨getDataID_wellFormed h.1 szDataName,
      hp _ _ (getDataID_sameAt mgr szDataName nID) h.2⟩
  · intro mgr nID' pData result hne h hdisabled houtcome
    exact ⟨houtcome.wellFormed h.1 hdisabled, hp _ _ (houtcome.sameAt h.1 hdisabled hne) h.2⟩
  · intro mgr nID' pData nTime result hne h hdisabled houtcome
    exact ⟨houtcome.wellFormed h.1 hdisabled, hp _ _ (houtcome.sameAt h.1 hdisabled hne) h.2⟩
  · intro mgr nID' szDataName result hne h _ houtcome
    exact ⟨houtcome.wellFormed h.1, hp _ _ (houtcome.sameAt h.1 hne) h.2⟩

/-! ## Passes -/

/-- A pass over the dirty map only takes entries out of it. -/
theorem foldl_erase_mem (erased : List Nat) (map : Std.ExtTreeMap Nat Nat) (nID : Nat) :
    (erased.foldl (fun map nID => map.erase nID) map)[nID]? =
      if nID ∈ erased then none else map[nID]? := by
  induction erased generalizing map with
  | nil => simp
  | cons nID' rest ih =>
      rw [List.foldl_cons, ih]
      by_cases hrest : nID ∈ rest
      · simp [hrest]
      · by_cases heq : nID' = nID
        · simp [hrest, heq]
        · simp [hrest, Std.ExtTreeMap.getElem?_erase, heq, Ne.symm heq]

/-- A timed pass only takes ids out of the dirty map. -/
theorem writeback_dirty_le (mgr : CDbCacheMgr) (nTime : Nat) (conn : CDbConnection σ)
    {nID pObject : Nat}
    (hdirty : (mgr.writeback pb srv nTime conn).1.m_mapDirtyCache[nID]? = some pObject) :
    mgr.m_mapDirtyCache[nID]? = some pObject := by
  rcases writeback_cases pb srv mgr nTime conn with ⟨_, heq⟩ | ⟨_, _, heq⟩
  · rwa [heq] at hdirty
  · rw [heq] at hdirty
    simp only [foldl_erase_mem] at hdirty
    split at hdirty
    · cases hdirty
    · exact hdirty

/-- So does an eviction, and out of the cache map. -/
theorem cleanCache_cache_le (mgr : CDbCacheMgr) (nTime : Nat) (sample : Sample)
    (conn : CDbConnection σ) {nID pObject : Nat}
    (hcached : (mgr.cleanCache pb srv nTime sample conn).1.m_mapCache[nID]? = some pObject) :
    mgr.m_mapCache[nID]? = some pObject := by
  rcases cleanCache_mapCache pb srv mgr nTime sample conn nID with hsame | hnone
  · exact hsame.symm.trans hcached
  · rw [hnone] at hcached
    cases hcached

/-- An eviction takes its id out of the dirty map as well. -/
theorem cleanCache_dirty_le (mgr : CDbCacheMgr) (nTime : Nat) (sample : Sample)
    (conn : CDbConnection σ) {nID pObject : Nat}
    (hdirty : (mgr.cleanCache pb srv nTime sample conn).1.m_mapDirtyCache[nID]? =
      some pObject) : mgr.m_mapDirtyCache[nID]? = some pObject := by
  rcases cleanCache_cases pb srv mgr nTime sample conn with ⟨_, _, heq⟩ | ⟨_, _, _, _, heq⟩
  · rwa [heq] at hdirty
  · rw [heq] at hdirty
    simp only [evict, Std.ExtTreeMap.getElem?_erase] at hdirty
    split at hdirty
    · cases hdirty
    · exact hdirty

/-- So does a flush. -/
theorem flushCache_cache_le (mgr : CDbCacheMgr) (nKey : Nat) (bDel : Bool)
    (conn : CDbConnection σ) {nID pObject : Nat}
    (hcached : (mgr.flushCache pb srv nKey bDel conn).1.m_mapCache[nID]? = some pObject) :
    mgr.m_mapCache[nID]? = some pObject := by
  rcases flushCache_mapCache pb srv mgr nKey bDel conn nID with hsame | hnone
  · exact hsame.symm.trans hcached
  · rw [hnone] at hcached
    cases hcached

/-- A flush makes no id dirty. -/
theorem flushCache_dirty_le (mgr : CDbCacheMgr) (nKey : Nat) (bDel : Bool)
    (conn : CDbConnection σ) {nID pObject : Nat}
    (hdirty : (mgr.flushCache pb srv nKey bDel conn).1.m_mapDirtyCache[nID]? = some pObject) :
    mgr.m_mapDirtyCache[nID]? = some pObject := by
  rcases flushCache_cases pb srv mgr nKey bDel conn with
    ⟨_, heq⟩ | ⟨_, _, _, _, heq⟩ | ⟨_, _, heq⟩
  · rwa [heq] at hdirty
  · rwa [heq] at hdirty
  · rw [heq] at hdirty
    exact writeback_dirty_le mgr 0 conn hdirty

/-- A pass keeps the manager well formed: it only takes ids out of the maps. -/
theorem writeback_wellFormed (pb : Runtime) (srv : Server σ) (h : WellFormed mgr) (nTime : Nat)
    (conn : CDbConnection σ) :
    WellFormed (mgr.writeback pb srv nTime conn).1 :=
  h.shrink (writeback_sameRecords pb srv mgr nTime conn) (by simp)
    (fun _ _ hdirty => writeback_dirty_le mgr nTime conn hdirty)

/-- An eviction keeps the manager well formed. -/
theorem cleanCache_wellFormed (pb : Runtime) (srv : Server σ) (h : WellFormed mgr) (nTime : Nat)
    (sample : Sample) (conn : CDbConnection σ) :
    WellFormed (mgr.cleanCache pb srv nTime sample conn).1 :=
  h.shrink (cleanCache_sameRecords pb srv mgr nTime sample conn)
    (fun _ _ hcached => cleanCache_cache_le mgr nTime sample conn hcached)
    (fun _ _ hdirty => cleanCache_dirty_le mgr nTime sample conn hdirty)

/-- A flush keeps the manager well formed. -/
theorem flushCache_wellFormed (pb : Runtime) (srv : Server σ) (h : WellFormed mgr) (nKey : Nat)
    (bDel : Bool) (conn : CDbConnection σ) :
    WellFormed (mgr.flushCache pb srv nKey bDel conn).1 :=
  h.shrink (flushCache_sameRecords pb srv mgr nKey bDel conn)
    (fun _ _ hcached => flushCache_cache_le mgr nKey bDel conn hcached)
    (fun _ _ hdirty => flushCache_dirty_le mgr nKey bDel conn hdirty)

/-! ## What a pass writes -/

/-- `w` carries a modified record of its object that can be read and that a pass at
`nTime` does not leave for later. -/
def Carries (pb : Runtime) (mgr : CDbCacheMgr) (nTime : Nat) (w : WriteEvent) : Prop :=
  ∃ sCacheInfo, (mgr.objects w.pDbCache).m_mapCacheInfo[w.info.nDataID]? = some sCacheInfo ∧
    sCacheInfo.nTime ≠ 0 ∧ CDbCache.isDue nTime sCacheInfo = true ∧
    w.info.szData = sCacheInfo.szData ∧
    (CDbCache.recordMessage pb mgr.getDataName w.info.nDataID sCacheInfo.szData).isSome

/-- A write of an object is of one of its records that was changed, is due and can be made a
message. -/
theorem mem_writebackRecords {getDataName : Nat → String} {nTime : Nat}
    {records : List (Nat × SCacheInfo)} {conn : CDbConnection σ} {info : WriteInfo}
    (h : info ∈ (CDbCache.writebackFrom pb srv getDataName nTime records conn).1) :
    ∃ sCacheInfo, (info.nDataID, sCacheInfo) ∈ records ∧ sCacheInfo.nTime ≠ 0 ∧
      CDbCache.isDue nTime sCacheInfo = true ∧ info.szData = sCacheInfo.szData ∧
      (CDbCache.recordMessage pb getDataName info.nDataID sCacheInfo.szData).isSome := by
  induction records generalizing conn with
  | nil => simp [CDbCache.writebackFrom] at h
  | cons record rest ih =>
      obtain ⟨nDataID, sCacheInfo⟩ := record
      have hrest : ∀ {conn}, info ∈ (CDbCache.writebackFrom pb srv getDataName nTime rest
            conn).1 → ∃ sCacheInfo', (info.nDataID, sCacheInfo') ∈
              (nDataID, sCacheInfo) :: rest ∧ sCacheInfo'.nTime ≠ 0 ∧
            CDbCache.isDue nTime sCacheInfo' = true ∧ info.szData = sCacheInfo'.szData ∧
            (CDbCache.recordMessage pb getDataName info.nDataID sCacheInfo'.szData).isSome := by
        intro conn hin
        obtain ⟨sCacheInfo', hmem, hwritten⟩ := ih hin
        exact ⟨sCacheInfo', List.mem_cons_of_mem _ hmem, hwritten⟩
      unfold CDbCache.writebackFrom at h
      split at h
      · exact hrest h
      · rename_i hdue
        simp only [not_or, Bool.not_eq_false] at hdue
        split at h
        · exact hrest h
        · rename_i m hm
          rcases List.mem_cons.mp h with rfl | hin
          · exact ⟨sCacheInfo, List.mem_cons_self, hdue.1, hdue.2, rfl, by simp [hm]⟩
          · exact hrest hin

/-- A write of an object for an id names both, and carries what the object holds. -/
theorem mem_writebackObject {nID pObject nTime : Nat} {conn : CDbConnection σ}
    {w : WriteEvent} (h : w ∈ (mgr.writebackObject pb srv nID pObject nTime conn).2.1) :
    w.nID = nID ∧ w.pDbCache = pObject ∧ Carries pb mgr nTime w := by
  obtain ⟨info, hin, rfl⟩ := List.mem_map.mp h
  obtain ⟨sCacheInfo, hmem, hwritten⟩ := mem_writebackRecords hin
  exact ⟨rfl, rfl, sCacheInfo, Std.ExtTreeMap.mem_toList_iff_getElem?_eq_some.mp hmem, hwritten⟩

/-- Each write of a pass over entries is for one of them. -/
theorem mem_writebackFrom {nTime : Nat} {entries : List (Nat × Nat)}
    {conn : CDbConnection σ} {w : WriteEvent}
    (h : w ∈ (mgr.writebackFrom pb srv nTime entries conn).2.1) :
    (w.nID, w.pDbCache) ∈ entries ∧ Carries pb mgr nTime w := by
  induction entries generalizing conn with
  | nil => simp [CDbCacheMgr.writebackFrom] at h
  | cons entry rest ih =>
      obtain ⟨nID, pObject⟩ := entry
      unfold CDbCacheMgr.writebackFrom at h
      rcases List.mem_append.mp h with hin | hin
      · obtain ⟨rfl, rfl, hwritten⟩ := mem_writebackObject hin
        exact ⟨List.mem_cons_self, hwritten⟩
      · obtain ⟨hmem, hwritten⟩ := ih hin
        exact ⟨List.mem_cons_of_mem _ hmem, hwritten⟩

/-- A pass over the dirty map writes scheduled objects. -/
theorem mem_writeback {nTime : Nat} {conn : CDbConnection σ} {w : WriteEvent}
    (h : w ∈ (mgr.writeback pb srv nTime conn).2.1) :
    mgr.m_mapDirtyCache[w.nID]? = some w.pDbCache ∧ Carries pb mgr nTime w := by
  rcases writeback_cases pb srv mgr nTime conn with ⟨_, heq⟩ | ⟨_, _, heq⟩
  · rw [heq] at h
    cases h
  · rw [heq] at h
    obtain ⟨hmem, hwritten⟩ := mem_writebackFrom h
    exact ⟨Std.ExtTreeMap.mem_toList_iff_getElem?_eq_some.mp hmem, hwritten⟩

/-- An eviction writes the cached object. -/
theorem mem_cleanCache {nTime : Nat} {sample : Sample} {conn : CDbConnection σ}
    {w : WriteEvent} (h : w ∈ (mgr.cleanCache pb srv nTime sample conn).2.1) :
    mgr.m_mapCache[w.nID]? = some w.pDbCache ∧ Carries pb mgr 0 w := by
  rcases cleanCache_cases pb srv mgr nTime sample conn with
    ⟨_, _, heq⟩ | ⟨nID, pObject, _, hchosen, heq⟩
  · rw [heq] at h
    cases h
  · rw [heq] at h
    obtain ⟨hid, hobject, hwritten⟩ := mem_writebackObject h
    exact ⟨hid ▸ hobject ▸ chosen_mem hchosen, hwritten⟩

/-- A flush writes the cached object of its id, or scheduled ones. -/
theorem mem_flushCache {nKey : Nat} {bDel : Bool} {conn : CDbConnection σ} {w : WriteEvent}
    (h : w ∈ (mgr.flushCache pb srv nKey bDel conn).2.1) :
    (mgr.m_mapCache[w.nID]? = some w.pDbCache ∨
      mgr.m_mapDirtyCache[w.nID]? = some w.pDbCache) ∧ Carries pb mgr 0 w := by
  rcases flushCache_cases pb srv mgr nKey bDel conn with
    ⟨_, heq⟩ | ⟨pObject, _, _, hcached, heq⟩ | ⟨_, _, heq⟩
  · rw [heq] at h
    cases h
  · rw [heq] at h
    obtain ⟨hid, hobject, hwritten⟩ := mem_writebackObject h
    exact ⟨.inl (hid ▸ hobject ▸ hcached), hwritten⟩
  · rw [heq] at h
    obtain ⟨hdirty, hwritten⟩ := mem_writeback h
    exact ⟨.inr hdirty, hwritten⟩

end CDbCacheMgr

namespace Store

variable {σ : Type} (pb : Runtime) (srv : Server σ)

/-- **Every action keeps the manager well formed.** -/
theorem step_wellFormed {st : Store σ} (h : st.m_dbCacheMgr.WellFormed) (action : StoreAction) :
    (st.step pb srv action).1.m_dbCacheMgr.WellFormed := by
  cases action with
  | command sDbCommand clock =>
      have hprocessed := process_cases pb srv st sDbCommand clock
      simp only [step]
      generalize st.process pb srv sDbCommand clock = result at hprocessed
      cases hprocessed with
      | flush id type _ _ mgr writes conn hflush =>
          have hkept := CDbCacheMgr.flushCache_wellFormed pb srv h id
            (type == EFlushCacheType.kFCT_DEL.code) st.m_dbConnection
          rwa [hflush] at hkept
      | flushNothing => exact h
      | expired => exact h
      | executed _ _ st' outcome hexecuted =>
          exact (CDbCacheMgr.kept_wellFormed pb).executed (fun _ _ => trivial) hexecuted h
  | tick nCurTime sample =>
      exact CDbCacheMgr.writeback_wellFormed pb srv
        (CDbCacheMgr.cleanCache_wellFormed pb srv h nCurTime sample st.m_dbConnection) nCurTime _
  | finish => exact CDbCacheMgr.flushCache_wellFormed pb srv h 0 true st.m_dbConnection

/-- **Every state of a run is well formed,** by induction over the actions. -/
theorem run_wellFormed {st : Store σ} (h : st.m_dbCacheMgr.WellFormed)
    (actions : List StoreAction) :
    (Runs.run (step pb srv) st actions).m_dbCacheMgr.WellFormed :=
  Runs.run_preserves (fun st : Store σ => st.m_dbCacheMgr.WellFormed)
    (fun _ action hwf => step_wellFormed pb srv hwf action) h actions

end Store

end Db
