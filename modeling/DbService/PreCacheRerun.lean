import DbService.WorkerStores
import DbService.CacheView

/-!
# Running the cache pre-step again

A command that comes back lost is put back into the queue after its pre-step ran, so the
pre-step runs again for it.  `Refuses` says, case by case, what a pre-step that did not
answer leaves behind; in such a state it refuses again and changes nothing.

The second run does not follow the first at once: the worker puts the batch back, enters
`onProcess` again and makes one tick before it takes the command (`Returning`).  That tick
changes what the pre-step does only when it evicts the id of the command; then the row of an
INSERT or UPDATE is cached for the id as if it were new (`Rerun`).

* `onPreCache_again` -- at once, the pre-step changes nothing when it runs again;
* `onPreCache_rerun` -- after a tick it changes nothing either, or caches the row anew;
* `rerun_of_lost` -- from a loss to the next run of the pre-step, whatever else happens.
-/

namespace Db

open Reflection ByteText

namespace CDbThread

variable (pb : Runtime)

open CDbCacheMgr

/-- The data name is known under the index, and the index is not the error value, so
that something else has to be why the pre-step refuses. -/
def KnownOr (mgr : CDbCacheMgr) (szDataName : String) (why : Nat → Prop) : Prop :=
  ∃ nDataID, mgr.m_mapDataIndex[szDataName]? = some nDataID ∧
    (nDataID = badDataID ∨ why nDataID)

/-- Why the pre-step of a command does not answer and has nothing to change. -/
def Refuses (mgr : CDbCacheMgr) (nType : EOperatorType) (pRequest : Option Message) : Prop :=
  match nType, pRequest with
  | .kOT_SELECT, some (.select_command id table_name) =>
      KnownOr mgr (getMessageNameByTableName table_name) fun nDataID =>
        ∀ pObject, mgr.m_mapCache[id]? = some pObject →
          (mgr.objects pObject).getData pb nDataID (mgr.getDataName nDataID) = none
  | .kOT_UPDATE, some (.row m) =>
      ∀ nID szData, getPrimaryValue (.row m) = some nID →
        pb.SerializeToString (.row m) = some szData →
        KnownOr mgr m.GetTypeName fun nDataID =>
          ∃ pObject, mgr.m_mapCache[nID]? = some pObject ∧ ∀ nTime,
            ((mgr.objects pObject).setData pb nDataID m.GetTypeName m nTime).1 = false
  | .kOT_INSERT, some (.row m) =>
      ∀ nID szData, getPrimaryValue (.row m) = some nID →
        pb.SerializeToString (.row m) = some szData →
        KnownOr mgr m.GetTypeName fun _ =>
          ∃ pObject, mgr.m_mapCache[nID]? = some pObject
  | .kOT_DELETE, some (.delete_command id table_name) =>
      ∀ pObject, mgr.m_mapCache[id]? = some pObject →
        KnownOr mgr (getMessageNameByTableName table_name) fun nDataID =>
          (mgr.objects pObject).m_mapCacheInfo[nDataID]? = none
  | _, _ => True

variable {pb} {mgr : CDbCacheMgr}

/-- `setData` refuses under the conditions of `Refuses`. -/
theorem setData_of_refuses (hdisabled : mgr.isDisabled = false) {m : RowMessage} {nID : Nat}
    (h : KnownOr mgr m.GetTypeName fun nDataID =>
      ∃ pObject, mgr.m_mapCache[nID]? = some pObject ∧ ∀ nTime,
        ((mgr.objects pObject).setData pb nDataID m.GetTypeName m nTime).1 = false)
    (nSetTime : Nat) : mgr.setData pb nID m nSetTime = (false, mgr) := by
  obtain ⟨nDataID, hknown, hwhy⟩ := h
  simp only [CDbCacheMgr.setData, CDbCacheMgr.addData, hdisabled, Bool.false_eq_true,
    if_false, getDataID_known hknown]
  rcases hwhy with rfl | ⟨pObject, hcached, hrefused⟩
  · cases mgr.m_mapCache[nID]? <;> simp
  · simp only [hcached]
    split
    · rfl
    · have hfst := hrefused nSetTime
      rcases hset : (mgr.objects pObject).setData pb nDataID m.GetTypeName m nSetTime with
        ⟨bSet, pDbCache⟩
      rw [hset] at hfst
      obtain rfl : bSet = false := hfst
      rfl

/-- **In such a state the pre-step refuses and changes nothing.** -/
theorem onPreCache_of_refuses {nType : EOperatorType} {pRequest : Option Message}
    (h : Refuses pb mgr nType pRequest) (nSetTime : Nat) :
    onPreCache pb mgr nType pRequest nSetTime = (false, none, mgr) := by
  cases hdisabled : mgr.isDisabled with
  | true => exact onPreCache_disabled hdisabled _ _ _
  | false =>
      unfold Refuses at h
      split at h
      · rename_i id table_name
        obtain ⟨nDataID, hknown, hwhy⟩ := h
        have hget : mgr.getData pb id (getMessageNameByTableName table_name) = (none, mgr) := by
          simp only [CDbCacheMgr.getData, getDataID_known hknown]
          split
          · rfl
          · rename_i hgood
            split
            · rfl
            · rename_i pObject hcached
              rw [hwhy.resolve_left hgood pObject hcached]
        rw [onPreCache_select hdisabled, hget]
        rfl
      · rename_i m
        cases hid : getPrimaryValue (.row m) with
        | none => exact onPreCache_write_refused (.inl rfl) (.inl hid) _
        | some nID =>
            cases hdata : pb.SerializeToString (.row m) with
            | none => exact onPreCache_write_refused (.inl rfl) (.inr hdata) _
            | some szData =>
                have hset := setData_of_refuses hdisabled (h nID szData hid hdata) nSetTime
                rw [onPreCache_update hdisabled hid hdata, hset]
      · rename_i m
        cases hid : getPrimaryValue (.row m) with
        | none => exact onPreCache_write_refused (.inr rfl) (.inl hid) _
        | some nID =>
            cases hdata : pb.SerializeToString (.row m) with
            | none => exact onPreCache_write_refused (.inr rfl) (.inr hdata) _
            | some szData =>
                obtain ⟨nDataID, hknown, hwhy⟩ := h nID szData hid hdata
                have hadd : mgr.addData pb nID m = (false, mgr) := by
                  simp only [CDbCacheMgr.addData, hdisabled, Bool.false_eq_true, if_false,
                    getDataID_known hknown]
                  rcases hwhy with rfl | ⟨pObject, hcached⟩
                  · simp
                  · simp [hcached]
                rw [onPreCache_insert hdisabled hid hdata, hadd]
      · rename_i id table_name
        have hdel : mgr.delData id (getMessageNameByTableName table_name) = (false, mgr) := by
          simp only [CDbCacheMgr.delData, hdisabled, Bool.false_eq_true, if_false]
          split
          · rfl
          · rename_i pObject hcached
            obtain ⟨nDataID, hknown, hwhy⟩ := h pObject hcached
            simp only [getDataID_known hknown]
            rcases hwhy with rfl | hnone
            · simp
            · simp [CDbCache.delData, hnone]
        rw [onPreCache_delete hdisabled, hdel]
      · unfold onPreCache
        split
        · rfl
        · split <;> first | rfl | simp_all

/-- **A pre-step that did not answer refuses from then on.** -/
theorem refuses_of_onPreCache (hdisabled : mgr.isDisabled = false) {nType : EOperatorType}
    {pRequest : Option Message} {nSetTime : Nat}
    (hfalse : (onPreCache pb mgr nType pRequest nSetTime).1 = false) :
    Refuses pb (onPreCache pb mgr nType pRequest nSetTime).2.2 nType pRequest := by
  unfold Refuses
  split
  · rename_i id table_name
    rw [onPreCache_select hdisabled] at hfalse ⊢
    simp only [getData_eq] at hfalse ⊢
    refine ⟨_, getDataID_index mgr _, ?_⟩
    by_cases hbad : (mgr.getDataID (getMessageNameByTableName table_name)).1 = badDataID
    · exact .inl hbad
    · refine .inr ?_
      intro pObject hcached
      rw [getDataID_mapCache] at hcached
      simpa [hbad, hcached] using hfalse
  · rename_i m
    intro nID szData hid hdata
    rw [onPreCache_update hdisabled hid hdata] at hfalse ⊢
    have houtcome := CDbCacheMgr.setData_outcome pb hdisabled nID m nSetTime
    generalize mgr.setData pb nID m nSetTime = result at hfalse houtcome
    cases houtcome with
    | uncached _ huncached hadd =>
        cases hadd with
        | badIndex hbad => exact ⟨_, getDataID_index mgr _, .inl hbad⟩
        | present _ _ hcached => simp [huncached] at hcached
        | unserialised _ _ hnone => simp [hdata] at hnone
        | added => simp at hfalse
    | badIndex _ _ hbad => exact ⟨_, getDataID_index mgr _, .inl hbad⟩
    | refused pObject hcached _ hrefused =>
        refine ⟨_, getDataID_index mgr _, .inr ⟨pObject, by simpa using hcached, ?_⟩⟩
        intro nTime
        rw [getDataID_objects, CDbCache.setData_fst _ _ _ _ nTime nSetTime]
        exact hrefused
    | stored => simp at hfalse
  · rename_i m
    intro nID szData hid hdata
    rw [onPreCache_insert hdisabled hid hdata]
    have houtcome := CDbCacheMgr.addData_outcome pb hdisabled nID m
    generalize mgr.addData pb nID m = result at houtcome
    cases houtcome with
    | badIndex hbad => exact ⟨_, getDataID_index mgr _, .inl hbad⟩
    | present pObject _ hcached =>
        exact ⟨_, getDataID_index mgr _, .inr ⟨pObject, by simpa using hcached⟩⟩
    | unserialised _ _ hnone => simp [hdata] at hnone
    | added =>
        exact ⟨_, getDataID_index mgr _, .inr ⟨mgr.nNextObject, by simp⟩⟩
  · rename_i id table_name
    rw [onPreCache_delete hdisabled]
    have houtcome := CDbCacheMgr.delData_outcome hdisabled id
      (getMessageNameByTableName table_name)
    generalize mgr.delData id (getMessageNameByTableName table_name) = result at houtcome
    intro pObject hcached
    cases houtcome with
    | uncached huncached => simp [huncached] at hcached
    | badIndex _ _ hbad => exact ⟨_, getDataID_index mgr _, .inl hbad⟩
    | absent pObject' hcached' _ habsent =>
        obtain rfl : pObject' = pObject := by simpa [hcached'] using hcached
        exact ⟨_, getDataID_index mgr _, .inr (by simpa using habsent)⟩
    | deleted pObject' _ hcached' _ _ =>
        obtain rfl : pObject' = pObject := by simpa [hcached'] using hcached
        exact ⟨_, getDataID_index mgr _, .inr (by simp)⟩
  · trivial

/-- So a pre-step that did not answer left the cache switched off, or refuses in it. -/
theorem disabled_or_refuses {mgr₁ : CDbCacheMgr} {nType : EOperatorType}
    {pRequest pMessage : Option Message} {nSetTime : Nat}
    (hpre : onPreCache pb mgr nType pRequest nSetTime = (false, pMessage, mgr₁)) :
    mgr₁.isDisabled = true ∨ Refuses pb mgr₁ nType pRequest := by
  cases hdisabled : mgr.isDisabled with
  | true =>
      rw [onPreCache_disabled hdisabled] at hpre
      obtain rfl : mgr = mgr₁ := congrArg (·.2.2) hpre
      exact .inl hdisabled
  | false =>
      have hrefuses := refuses_of_onPreCache hdisabled (congrArg (·.1) hpre)
      rw [hpre] at hrefuses
      exact .inr hrefuses

/-- **At once, the pre-step changes nothing when it runs again.** -/
theorem onPreCache_again {nType : EOperatorType} {pRequest : Option Message}
    (h : mgr.isDisabled = true ∨ Refuses pb mgr nType pRequest) (nSetTime : Nat) :
    onPreCache pb mgr nType pRequest nSetTime = (false, none, mgr) := by
  rcases h with hdisabled | hrefuses
  · exact onPreCache_disabled hdisabled _ _ _
  · exact onPreCache_of_refuses hrefuses nSetTime

/-- The key of a write is the id of its row. -/
theorem cacheKey_row {nType : EOperatorType} (htype : nType = .kOT_UPDATE ∨ nType = .kOT_INSERT)
    (m : RowMessage) : cacheKey nType (some (.row m)) = getPrimaryValue (.row m) := by
  rcases htype with rfl | rfl <;> rfl

/-- The data name of a row that was refused has an index. -/
theorem Refuses.known {nType : EOperatorType} {m : RowMessage}
    (h : Refuses pb mgr nType (some (.row m)))
    (htype : nType = .kOT_UPDATE ∨ nType = .kOT_INSERT) {nID : Nat} {szData : Bytes}
    (hid : getPrimaryValue (.row m) = some nID)
    (hdata : pb.SerializeToString (.row m) = some szData) :
    ∃ nDataID, mgr.m_mapDataIndex[m.GetTypeName]? = some nDataID ∧
      (nDataID = badDataID ∨ ∃ pObject, mgr.m_mapCache[nID]? = some pObject) := by
  rcases htype with rfl | rfl
  · obtain ⟨nDataID, hknown, hwhy⟩ := h nID szData hid hdata
    refine ⟨nDataID, hknown, hwhy.imp_right ?_⟩
    exact fun ⟨pObject, hcached, _⟩ => ⟨pObject, hcached⟩
  · exact h nID szData hid hdata

/-- The id of the command left the cache between two runs of its pre-step. -/
def Evicted (mgr₁ mgr₂ : CDbCacheMgr) (nType : EOperatorType) (pRequest : Option Message) :
    Prop :=
  ∃ nID, cacheKey nType pRequest = some nID ∧ mgr₁.m_mapCache[nID]? ≠ none ∧
    mgr₂.m_mapCache[nID]? = none

variable (pb mgr) in
/-- What the pre-step puts in for an id that is not cached: the row of an INSERT or UPDATE
that has an id, serialises and whose data name has an index, as id, index and content. -/
def rowToCache (nType : EOperatorType) (pRequest : Option Message) :
    Option (Nat × Nat × Bytes) :=
  match nType, pRequest with
  | .kOT_UPDATE, some (.row m) | .kOT_INSERT, some (.row m) =>
      match getPrimaryValue (.row m), pb.SerializeToString (.row m) with
      | some nID, some szData =>
          if (mgr.getDataID m.GetTypeName).1 = badDataID then none
          else some (nID, (mgr.getDataID m.GetTypeName).1, szData)
      | _, _ => none
  | _, _ => none

/-- **What running the pre-step again leaves,** where the first run left `mgr₁` and a tick
made `mgr₂` of it: nothing changes, unless the tick evicted the id of an INSERT or UPDATE.
Then the row is cached for the id as the only one, unmodified, and the UPDATE is answered. -/
inductive Rerun (pb : Runtime) (mgr₁ mgr₂ : CDbCacheMgr) (nType : EOperatorType)
    (pRequest : Option Message) : Bool × Option Message × CDbCacheMgr → Prop
  | unchanged
      (hkept : ¬ Evicted mgr₁ mgr₂ nType pRequest ∨ rowToCache pb mgr₂ nType pRequest = none) :
      Rerun pb mgr₁ mgr₂ nType pRequest (false, none, mgr₂)
  | recached (nID nDataID : Nat) (szData : Bytes) (mgr₃ : CDbCacheMgr)
      (hevicted : Evicted mgr₁ mgr₂ nType pRequest)
      (hrow : rowToCache pb mgr₂ nType pRequest = some (nID, nDataID, szData))
      (hself : ∀ nDataID', mgr₃.record nID nDataID' =
        if nDataID' = nDataID then some ⟨szData, 0⟩ else none)
      (hothers : ∀ nID', nID ≠ nID' → SameAt mgr₂ mgr₃ nID')
      (hdirty : mgr₃.m_mapDirtyCache = mgr₂.m_mapDirtyCache) :
      Rerun pb mgr₁ mgr₂ nType pRequest (nType == .kOT_UPDATE, none, mgr₃)

/-- The row to be cached is that of the command, whose key is its id. -/
theorem exists_row_of_rowToCache {nType : EOperatorType} {pRequest : Option Message}
    {nID nDataID : Nat} {szData : Bytes}
    (h : rowToCache pb mgr nType pRequest = some (nID, nDataID, szData)) :
    ∃ m, (nType = .kOT_UPDATE ∨ nType = .kOT_INSERT) ∧ pRequest = some (.row m) ∧
      getPrimaryValue (.row m) = some nID ∧ pb.SerializeToString (.row m) = some szData ∧
      (mgr.getDataID m.GetTypeName).1 = nDataID ∧ nDataID ≠ badDataID := by
  have hwrite : ∀ m : RowMessage,
      (match getPrimaryValue (.row m), pb.SerializeToString (.row m) with
        | some nID, some szData =>
            if (mgr.getDataID m.GetTypeName).1 = badDataID then none
            else some (nID, (mgr.getDataID m.GetTypeName).1, szData)
        | _, _ => none) = some (nID, nDataID, szData) →
      getPrimaryValue (.row m) = some nID ∧ pb.SerializeToString (.row m) = some szData ∧
        (mgr.getDataID m.GetTypeName).1 = nDataID ∧ nDataID ≠ badDataID := by
    intro m hm
    split at hm
    · rename_i hid hdata
      split at hm
      · cases hm
      · rename_i hgood
        simp only [Option.some.injEq, Prod.mk.injEq] at hm
        obtain ⟨rfl, rfl, rfl⟩ := hm
        exact ⟨hid, hdata, rfl, hgood⟩
    · cases hm
  unfold rowToCache at h
  split at h
  · rename_i m
    exact ⟨m, .inl rfl, rfl, hwrite m h⟩
  · rename_i m
    exact ⟨m, .inr rfl, rfl, hwrite m h⟩
  · cases h

/-- After a tick the data name is known as before, so that only the reason has to be carried
over, under an index that is not the error value. -/
theorem KnownOr.of_tick {mgr' : CDbCacheMgr} {szDataName : String} {why why' : Nat → Prop}
    (h : KnownOr mgr szDataName why) (hsame : SameRecords mgr mgr')
    (himp : ∀ nDataID : Nat, mgr'.m_mapDataIndex[szDataName]? = some nDataID →
      nDataID ≠ badDataID → why nDataID → why' nDataID) : KnownOr mgr' szDataName why' := by
  obtain ⟨nDataID, hknown, hwhy⟩ := h
  rw [← hsame.mapDataIndex] at hknown
  refine ⟨nDataID, hknown, ?_⟩
  by_cases hbad : nDataID = badDataID
  · exact .inl hbad
  · exact .inr (himp nDataID hknown hbad (hwhy.resolve_left hbad))

/-- The entry of a row that can be cached is still there after a tick that does not evict it. -/
theorem cached_of_tick {mgr' : CDbCacheMgr} {nType : EOperatorType} {m : RowMessage}
    {nID nDataID pObject : Nat} {szData : Bytes}
    (htype : nType = .kOT_UPDATE ∨ nType = .kOT_INSERT)
    (hkey : ∀ nID : Nat, mgr'.m_mapCache[nID]? = mgr.m_mapCache[nID]? ∨
      mgr'.m_mapCache[nID]? = none)
    (hkept : ¬ Evicted mgr mgr' nType (some (.row m)) ∨
      rowToCache pb mgr' nType (some (.row m)) = none)
    (hid : getPrimaryValue (.row m) = some nID)
    (hdata : pb.SerializeToString (.row m) = some szData)
    (hknown : mgr'.m_mapDataIndex[m.GetTypeName]? = some nDataID) (hgood : nDataID ≠ badDataID)
    (hcached : mgr.m_mapCache[nID]? = some pObject) : mgr'.m_mapCache[nID]? = some pObject := by
  have hrow : rowToCache pb mgr' nType (some (.row m)) = some (nID, nDataID, szData) := by
    rcases htype with rfl | rfl <;> simp [rowToCache, hid, hdata, getDataID_known hknown, hgood]
  have hpresent : ¬ Evicted mgr mgr' nType (some (.row m)) :=
    hkept.resolve_right (by simp [hrow])
  rcases hkey nID with heq | hnone
  · rw [heq, hcached]
  · have hkeyed : cacheKey nType (some (.row m)) = some nID := by rw [cacheKey_row htype, hid]
    exact absurd ⟨nID, hkeyed, by simp [hcached], hnone⟩ hpresent

/-- **A tick keeps the refusal,** unless it evicts the id of a row that can be cached. -/
theorem Refuses.of_tick {mgr' : CDbCacheMgr} {nType : EOperatorType}
    {pRequest : Option Message} (h : Refuses pb mgr nType pRequest)
    (hsame : SameRecords mgr mgr')
    (hkey : ∀ nID : Nat, mgr'.m_mapCache[nID]? = mgr.m_mapCache[nID]? ∨
      mgr'.m_mapCache[nID]? = none)
    (hkept : ¬ Evicted mgr mgr' nType pRequest ∨ rowToCache pb mgr' nType pRequest = none) :
    Refuses pb mgr' nType pRequest := by
  -- An entry that is still there is the one that was there.
  have hold : ∀ {nID pObject : Nat}, mgr'.m_mapCache[nID]? = some pObject →
      mgr.m_mapCache[nID]? = some pObject := by
    intro nID pObject hcached
    rcases hkey nID with heq | hnone
    · rw [← heq, hcached]
    · rw [hnone] at hcached
      cases hcached
  unfold Refuses at h ⊢
  split
  · refine h.of_tick hsame ?_
    intro nDataID _ _ hunread pObject hcached
    rw [hsame.objects, hsame.getDataName]
    exact hunread pObject (hold hcached)
  · intro nID szData hid hdata
    refine (h nID szData hid hdata).of_tick hsame ?_
    intro nDataID hknown hgood ⟨pObject, hcached, hrefused⟩
    rw [hsame.objects]
    exact ⟨pObject, cached_of_tick (.inl rfl) hkey hkept hid hdata hknown hgood hcached, hrefused⟩
  · intro nID szData hid hdata
    refine (h nID szData hid hdata).of_tick hsame ?_
    intro nDataID hknown hgood ⟨pObject, hcached⟩
    exact ⟨pObject, cached_of_tick (.inr rfl) hkey hkept hid hdata hknown hgood hcached⟩
  · intro pObject hcached
    refine (h pObject (hold hcached)).of_tick hsame ?_
    intro nDataID _ _ hnone
    rw [hsame.objects]
    exact hnone
  · trivial

/-- **A row put in for an id that is not cached** is its only record, and nothing else
changes. -/
theorem addData_uncached (hwf : WellFormed mgr) (hdisabled : mgr.isDisabled = false)
    {m : RowMessage} {nID nDataID : Nat} {szData : Bytes}
    (hknown : mgr.m_mapDataIndex[m.GetTypeName]? = some nDataID) (hgood : nDataID ≠ badDataID)
    (hdata : pb.SerializeToString (.row m) = some szData)
    (huncached : mgr.m_mapCache[nID]? = none) :
    (mgr.addData pb nID m).1 = true ∧
      (∀ nDataID', (mgr.addData pb nID m).2.record nID nDataID' =
        if nDataID' = nDataID then some ⟨szData, 0⟩ else none) ∧
      (∀ nID', nID ≠ nID' → SameAt mgr (mgr.addData pb nID m).2 nID') ∧
      (mgr.addData pb nID m).2.m_mapDirtyCache = mgr.m_mapDirtyCache := by
  have hindex := getDataID_known hknown
  have houtcome := addData_outcome pb hdisabled nID m
  have hframe : ∀ nID', nID ≠ nID' → SameAt mgr (mgr.addData pb nID m).2 nID' :=
    fun nID' hne => AddOutcome.sameAt hwf hdisabled hne houtcome
  generalize mgr.addData pb nID m = result at houtcome hframe
  cases houtcome with
  | badIndex hbad => rw [hindex] at hbad; exact absurd hbad hgood
  | present _ _ hcached => rw [huncached] at hcached; cases hcached
  | unserialised _ _ hnone => rw [hdata] at hnone; cases hnone
  | added szData' _ _ hdata' =>
      obtain rfl : szData' = szData := Option.some.inj (hdata'.symm.trans hdata)
      refine ⟨rfl, ?_, hframe, by simp [hindex]⟩
      rw [hindex]
      intro nDataID'
      have hcached : ((mgr.allocate nID).store mgr.nNextObject
          (CDbCache.empty.withRecord nDataID ⟨szData', 0⟩ (0 + szData'.length))).m_mapCache[nID]? =
            some mgr.nNextObject := by
        simp
      rw [record_of_cached hcached, store_objects, Function.update_self, withRecord_records]
      rfl

/-- **Running the pre-step again.**  Between the two runs for a command that came back lost
there is one tick, and the second run changes nothing unless the tick evicted the id of an
INSERT or UPDATE. -/
theorem onPreCache_rerun {σ : Type} (srv : Server σ) {mgr₁ : CDbCacheMgr}
    (hwf : WellFormed mgr₁) {nType : EOperatorType} {pRequest : Option Message}
    (hagain : mgr₁.isDisabled = true ∨ Refuses pb mgr₁ nType pRequest) (nCurTime : Nat)
    (sample : Sample) (conn : CDbConnection σ) (nSetTime : Nat) :
    let mgr₂ := (mgr₁.update pb srv nCurTime sample conn).1
    Rerun pb mgr₁ mgr₂ nType pRequest (onPreCache pb mgr₂ nType pRequest nSetTime) := by
  intro mgr₂
  have hsame : SameRecords mgr₁ mgr₂ := update_sameRecords pb srv mgr₁ nCurTime sample conn
  have hwf₂ : WellFormed mgr₂ :=
    writeback_wellFormed pb srv (cleanCache_wellFormed pb srv hwf nCurTime sample conn) nCurTime _
  have hkey : ∀ nID : Nat, mgr₂.m_mapCache[nID]? = mgr₁.m_mapCache[nID]? ∨
      mgr₂.m_mapCache[nID]? = none := by
    intro nID
    simpa [mgr₂, CDbCacheMgr.update] using cleanCache_mapCache pb srv mgr₁ nCurTime sample conn nID
  cases hdisabled : mgr₁.isDisabled with
  | true =>
      rw [onPreCache_disabled (hsame.isDisabled.trans hdisabled)]
      refine .unchanged (.inl ?_)
      rintro ⟨nID, _, hcached, _⟩
      simp [(hwf.disabled hdisabled).1] at hcached
  | false =>
      have hrefuses : Refuses pb mgr₁ nType pRequest := hagain.resolve_left (by simp [hdisabled])
      by_cases hkept : ¬ Evicted mgr₁ mgr₂ nType pRequest ∨
          rowToCache pb mgr₂ nType pRequest = none
      · rw [onPreCache_of_refuses (hrefuses.of_tick hsame hkey hkept)]
        exact .unchanged hkept
      · obtain ⟨hnot, hsome⟩ := not_or.mp hkept
        have hevicted : Evicted mgr₁ mgr₂ nType pRequest := not_not.mp hnot
        obtain ⟨⟨nID, nDataID, szData⟩, hrow⟩ := Option.ne_none_iff_exists'.mp hsome
        obtain ⟨m, htype, rfl, hid, hdata, hindex, hgood⟩ := exists_row_of_rowToCache hrow
        have hknown : mgr₂.m_mapDataIndex[m.GetTypeName]? = some nDataID := by
          obtain ⟨nDataID', hknown, _⟩ := hrefuses.known htype hid hdata
          rw [← hsame.mapDataIndex] at hknown
          rw [getDataID_known hknown] at hindex
          exact hindex ▸ hknown
        have huncached : mgr₂.m_mapCache[nID]? = none := by
          obtain ⟨nID', hkeyed, _, hnone⟩ := hevicted
          rw [cacheKey_row htype, hid, Option.some.injEq] at hkeyed
          rw [hkeyed]
          exact hnone
        have hdisabled₂ : mgr₂.isDisabled = false := hsame.isDisabled.trans hdisabled
        obtain ⟨hadded, hself, hothers, hdirty⟩ :=
          addData_uncached hwf₂ hdisabled₂ hknown hgood hdata huncached
        have hresult : onPreCache pb mgr₂ nType (some (.row m)) nSetTime =
            (nType == .kOT_UPDATE, none, (mgr₂.addData pb nID m).2) := by
          rcases htype with rfl | rfl
          · have hset : mgr₂.setData pb nID m nSetTime = mgr₂.addData pb nID m := by
              simp [CDbCacheMgr.setData, hdisabled₂, huncached]
            rw [onPreCache_update hdisabled₂ hid hdata, hset, hadded]
            rfl
          · rw [onPreCache_insert hdisabled₂ hid hdata]
            rfl
        rw [hresult]
        exact .recached nID nDataID szData _ hevicted hrow hself hothers hdirty

/-! ## The way back into the batch loop -/

section Returning

variable {σ : Type} {srv : Server σ} {sDbCommand : SDbCommand} {mgr₁ : CDbCacheMgr}
  {th : CDbThread σ}

/-- A tick makes `mgr₂` of `mgr₁`. -/
def Ticked (pb : Runtime) (srv : Server σ) (mgr₁ mgr₂ : CDbCacheMgr) : Prop :=
  ∃ nCurTime sample conn, mgr₂ = (mgr₁.update pb srv nCurTime sample conn).1

/-- **The way back of a command that came back lost:** it stays in front, and the cache stays
what the pre-step left, `mgr₁`, up to the one tick before the worker waits for commands. -/
def Returning (pb : Runtime) (srv : Server σ) (sDbCommand : SDbCommand) (mgr₁ : CDbCacheMgr)
    (th : CDbThread σ) : Prop :=
  match th.phase with
  | .requeue =>
      (∃ rest, th.listCommand = sDbCommand :: rest) ∧ th.store.m_dbCacheMgr = mgr₁
  | .check | .top =>
      (∃ rest, th.m_listCommand = sDbCommand :: rest) ∧ th.store.m_dbCacheMgr = mgr₁
  | .waiting =>
      (∃ rest, th.m_listCommand = sDbCommand :: rest) ∧
        Ticked pb srv mgr₁ th.store.m_dbCacheMgr
  | .batch =>
      (∃ rest, th.listCommand = sDbCommand :: rest) ∧ Ticked pb srv mgr₁ th.store.m_dbCacheMgr
  | .leaving | .closed => False

/-- A round of the batch loop that loses the connection leaves the batch as it is, and the
cache as the pre-step left it when it did not answer. -/
theorem advance_lost {rest : List SDbCommand} {input : Input} (hphase : th.phase = .batch)
    (hhead : th.listCommand = sDbCommand :: rest)
    (hlost : (th.advance pb srv input).1.phase = .requeue) :
    (th.advance pb srv input).1.listCommand = sDbCommand :: rest ∧
      ∃ pMessage, onPreCache pb th.store.m_dbCacheMgr sDbCommand.nType sDbCommand.pMessage
          input.clock.nSetTime =
        (false, pMessage, (th.advance pb srv input).1.store.m_dbCacheMgr) := by
  simp only [advance, hphase, hhead, processHead] at hlost ⊢
  have hprocessed := Store.process_cases pb srv th.store sDbCommand input.clock
  rcases hprocess : th.store.process pb srv sDbCommand input.clock with
    ⟨store, outcome, writes⟩
  rw [hprocess] at hprocessed hlost
  cases outcome with
  | flushed => cases hlost
  | expired => cases hlost
  | handled => cases hlost
  | lost =>
      refine ⟨rfl, ?_⟩
      cases hprocessed with
      | executed _ _ st' outcome hexecuted =>
          cases hexecuted with
          | lost pMessage _ _ _ hpre => exact ⟨pMessage, hpre⟩

/-- A push leaves what is in front there. -/
theorem query_returning (h : Returning pb srv sDbCommand mgr₁ th) (pushed : SDbCommand) :
    Returning pb srv sDbCommand mgr₁ (th.query pushed) := by
  have hfront : ∀ {p : Prop}, (∃ rest, th.m_listCommand = sDbCommand :: rest) ∧ p →
      (∃ rest, (th.query pushed).m_listCommand = sDbCommand :: rest) ∧ p := by
    rintro p ⟨⟨rest, hrest⟩, hp⟩
    exact ⟨⟨rest ++ [pushed], by simp [query, hrest]⟩, hp⟩
  unfold Returning at h ⊢
  have hsame : (th.query pushed).phase = th.phase := rfl
  rw [hsame]
  cases hphase : th.phase with
  | requeue => rw [hphase] at h; exact h
  | check => rw [hphase] at h; exact hfront h
  | top => rw [hphase] at h; exact hfront h
  | waiting => rw [hphase] at h; exact hfront h
  | batch => rw [hphase] at h; exact h
  | leaving => rw [hphase] at h; exact h
  | closed => rw [hphase] at h; exact h

/-- **One step on the way back.**  The batch is put back in front, the loop is entered again
because the queue is not empty, the tick is made, and the queue is taken as the next batch. -/
theorem advance_returning (h : Returning pb srv sDbCommand mgr₁ th) (hbatch : th.phase ≠ .batch)
    (input : Input) : Returning pb srv sDbCommand mgr₁ (th.advance pb srv input).1 := by
  unfold Returning at h
  unfold advance
  cases hphase : th.phase with
  | requeue =>
      rw [hphase] at h
      obtain ⟨⟨rest, hrest⟩, hcache⟩ := h
      exact ⟨⟨rest ++ th.m_listCommand, by simp [hrest]⟩, hcache⟩
  | check =>
      rw [hphase] at h
      obtain ⟨⟨rest, hrest⟩, hcache⟩ := h
      simp only [hrest, List.isEmpty_cons, Bool.and_false, Bool.false_eq_true, if_false]
      exact ⟨⟨rest, rfl⟩, hcache⟩
  | top =>
      rw [hphase] at h
      obtain ⟨⟨rest, hrest⟩, hcache⟩ := h
      simp only
      split
      · refine ⟨⟨rest, hrest⟩, ?_⟩
        exact ⟨input.clock.nCurTime, input.sample, th.store.m_dbConnection, by rw [← hcache]; rfl⟩
      · exact ⟨⟨rest, hrest⟩, hcache⟩
  | waiting =>
      rw [hphase] at h
      obtain ⟨⟨rest, hrest⟩, hticked⟩ := h
      simp only [hrest, List.isEmpty_cons, Bool.false_eq_true, if_false]
      exact ⟨⟨rest, rfl⟩, hticked⟩
  | batch => exact absurd hphase hbatch
  | leaving =>
      rw [hphase] at h
      exact h.elim
  | closed =>
      rw [hphase] at h
      exact h.elim

end Returning

end CDbThread

namespace CDbThreadMgr

variable {n : Nat} {σ : Type} {pb : Runtime} {srv : Fin n → Server σ}

/-- Nothing that happens in the instance brings a worker off the way. -/
theorem step_returning {mgr : CDbThreadMgr n σ} {i : Fin n} {sDbCommand : SDbCommand}
    {mgr₁ : CDbCacheMgr}
    (h : CDbThread.Returning pb (srv i) sDbCommand mgr₁ (mgr.m_vecDbThread i))
    (hbatch : (mgr.m_vecDbThread i).phase ≠ .batch) (action : MgrAction n) :
    CDbThread.Returning pb (srv i) sDbCommand mgr₁
      ((mgr.step pb srv action).1.m_vecDbThread i) := by
  have hmoves := step_worker pb srv mgr action i
  generalize (mgr.step pb srv action).1.m_vecDbThread i = th at hmoves
  cases hmoves with
  | same => exact h
  | pushed p => exact CDbThread.query_returning h p.call.sDbCommand
  | joined => exact h
  | advanced input => exact CDbThread.advance_returning h hbatch input

/-- The cache of every worker stays well formed. -/
theorem run_wellFormed (pb : Runtime) (srv : Fin n → Server σ) (nMaxCacheSize nWritebackTime : Nat)
    (conn : Fin n → CDbConnection σ) (actions : List (MgrAction n)) (i : Fin n) :
    ((Runs.run (step pb srv) (init nMaxCacheSize nWritebackTime conn)
      actions).m_vecDbThread i).store.m_dbCacheMgr.WellFormed :=
  run_stores (p := fun _ st => st.m_dbCacheMgr.WellFormed)
    (fun i _ action h => Store.step_wellFormed pb (srv i) h action) (fun _ _ h => h)
    (fun _ _ h => h) (fun _ => CDbCacheMgr.init_wellFormed _ _) actions i

/-- **From a loss to the next run of the pre-step.**  Whatever happens in the instance until
the worker is in its batch loop again: it has the same command in front, its cache is what the
first run of the pre-step left after one tick, and the second run leaves what `Rerun` says. -/
theorem rerun_of_lost (nMaxCacheSize nWritebackTime : Nat) (conn : Fin n → CDbConnection σ)
    (actions later : List (MgrAction n)) (i : Fin n) (input : Input) (sDbCommand : SDbCommand)
    (rest : List SDbCommand) :
    let mgr := Runs.run (step pb srv) (init nMaxCacheSize nWritebackTime conn) actions
    let lost := mgr.advance pb srv i input
    let back := Runs.run (step pb srv) lost later
    let mgr₁ := (lost.m_vecDbThread i).store.m_dbCacheMgr
    let mgr₂ := (back.m_vecDbThread i).store.m_dbCacheMgr
    (mgr.m_vecDbThread i).phase = .batch →
    (mgr.m_vecDbThread i).listCommand = sDbCommand :: rest →
    (lost.m_vecDbThread i).phase = .requeue →
    Runs.Guarded (step pb srv) (fun mgr _ => (mgr.m_vecDbThread i).phase ≠ .batch) lost later →
    (back.m_vecDbThread i).phase = .batch →
      (∃ pMessage, CDbThread.onPreCache pb (mgr.m_vecDbThread i).store.m_dbCacheMgr
        sDbCommand.nType sDbCommand.pMessage input.clock.nSetTime = (false, pMessage, mgr₁)) ∧
      (∀ nSetTime, CDbThread.onPreCache pb mgr₁ sDbCommand.nType sDbCommand.pMessage nSetTime =
        (false, none, mgr₁)) ∧
      (∃ rest', (back.m_vecDbThread i).listCommand = sDbCommand :: rest') ∧
      CDbThread.Ticked pb (srv i) mgr₁ mgr₂ ∧
      ∀ nSetTime, CDbThread.Rerun pb mgr₁ mgr₂ sDbCommand.nType sDbCommand.pMessage
        (CDbThread.onPreCache pb mgr₂ sDbCommand.nType sDbCommand.pMessage nSetTime) := by
  intro mgr lost back mgr₁ mgr₂ hphase hhead hlost hguard hback
  have hwf : mgr₁.WellFormed := by
    have h := run_wellFormed pb srv nMaxCacheSize nWritebackTime conn
      (actions ++ [.advance i input]) i
    rwa [Runs.run_append] at h
  have hworker : lost.m_vecDbThread i =
      ((mgr.m_vecDbThread i).advance pb (srv i) input).1 := by
    simp only [lost, (advance_parts pb srv mgr i input).1, Function.update_self]
  obtain ⟨hlist, pMessage, hpre⟩ := CDbThread.advance_lost hphase hhead (hworker ▸ hlost)
  rw [← hworker] at hlist hpre
  have hstart : CDbThread.Returning pb (srv i) sDbCommand mgr₁ (lost.m_vecDbThread i) := by
    unfold CDbThread.Returning
    rw [hlost]
    exact ⟨⟨rest, hlist⟩, rfl⟩
  have hreturned : CDbThread.Returning pb (srv i) sDbCommand mgr₁ (back.m_vecDbThread i) :=
    Runs.run_invariant
      (fun mgr => CDbThread.Returning pb (srv i) sDbCommand mgr₁ (mgr.m_vecDbThread i))
      (fun _ action h hbatch => step_returning h hbatch action) hstart hguard
  unfold CDbThread.Returning at hreturned
  rw [hback] at hreturned
  obtain ⟨hfront, hticked⟩ := hreturned
  have hagain : mgr₁.isDisabled = true ∨
      CDbThread.Refuses pb mgr₁ sDbCommand.nType sDbCommand.pMessage :=
    CDbThread.disabled_or_refuses hpre
  refine ⟨⟨pMessage, hpre⟩, CDbThread.onPreCache_again hagain, hfront, hticked, ?_⟩
  intro nSetTime
  obtain ⟨nCurTime, sample, conn', hmgr₂⟩ := hticked
  have hrerun := CDbThread.onPreCache_rerun (srv i) hwf hagain nCurTime sample conn' nSetTime
  rw [← hmgr₂] at hrerun
  exact hrerun

end CDbThreadMgr

end Db
