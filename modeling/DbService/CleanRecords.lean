import DbService.Modifications
import DbService.TickPacing

/-!
# One write for each modification

A written record keeps its time, and so is written again by the next pass that visits its
object.  What keeps clean records from being written is that their object is in no pass:
it has left the dirty map, and nothing brings it back.  `VisitsOnce` says when an action
leaves it at that; then every record that is scheduled was modified since its last write
(`OnceWritten`), from one action to the next.

* `cleanCache_onceWritten`, `writeback_onceWritten`, `flushCache_onceWritten` -- the passes;
* `log_onceWritten` -- one action;
* `one_write_per_modification` -- in a run, a write for each modification and no other;
* `clean_player_written_again` -- a run in which a record is written twice.
-/

namespace Db

open Reflection ByteText

namespace CDbCacheMgr

variable {σ : Type} {pb : Runtime} {srv : Server σ} {mgr mgr' : CDbCacheMgr}
  {events : List (Ledger.Event (Nat × Nat))}

/-- Every write so far followed a modification, and so will a write of what is scheduled. -/
structure OnceWritten (mgr : CDbCacheMgr) (events : List (Ledger.Event (Nat × Nat))) : Prop where
  wellFormed : WellFormed mgr
  once : Ledger.OncePerChange events
  scheduled : ∀ nID pObject nDataID sCacheInfo, Scheduled mgr nID pObject nDataID sCacheInfo →
    Ledger.Unwritten events (nID, nDataID)

/-! ## The records of a pass are different ones -/

/-- A pass over the records of an object writes each at most once, in their order. -/
theorem writebackRecords_sublist (pb : Runtime) (srv : Server σ) (getDataName : Nat → String)
    (nTime : Nat) (records : List (Nat × SCacheInfo)) (conn : CDbConnection σ) :
    ((CDbCache.writebackFrom pb srv getDataName nTime records conn).1.map
      WriteInfo.nDataID).Sublist (records.map Prod.fst) := by
  induction records generalizing conn with
  | nil => exact List.Sublist.slnil
  | cons record rest ih =>
      unfold CDbCache.writebackFrom
      split
      · exact (ih conn).cons _
      · split
        · exact (ih conn).cons _
        · exact (ih _).cons_cons _

theorem keys_nodup {β : Type} (map : Std.ExtTreeMap Nat β) : (map.toList.map Prod.fst).Nodup := by
  rw [Std.ExtTreeMap.map_fst_toList_eq_keys]
  exact Std.ExtTreeMap.nodup_keys

/-- So an object is written without repeating a record, -/
theorem writebackObject_nodup (pb : Runtime) (srv : Server σ) (mgr : CDbCacheMgr)
    (nID pObject nTime : Nat) (conn : CDbConnection σ) :
    (Store.writtenRecords (mgr.writebackObject pb srv nID pObject nTime conn).2.1).Nodup := by
  have hnodup := (keys_nodup (mgr.objects pObject).m_mapCacheInfo).sublist
    (writebackRecords_sublist pb srv mgr.getDataName nTime _ conn)
  have hinj : Function.Injective fun nDataID : Nat => (nID, nDataID) :=
    fun _ _ heq => (Prod.mk.inj heq).2
  have hrecords := hnodup.map hinj
  simpa [Store.writtenRecords, writebackObject, CDbCache.writeback, Function.comp_def]
    using hrecords

/-- entries with different ids are, -/
theorem writebackFrom_nodup (pb : Runtime) (srv : Server σ) (mgr : CDbCacheMgr) (nTime : Nat)
    {entries : List (Nat × Nat)} (hkeys : (entries.map Prod.fst).Nodup)
    (conn : CDbConnection σ) :
    (Store.writtenRecords (mgr.writebackFrom pb srv nTime entries conn).2.1).Nodup := by
  induction entries generalizing conn with
  | nil => exact List.nodup_nil
  | cons entry rest ih =>
      obtain ⟨nID, pObject⟩ := entry
      obtain ⟨hnotin, hrest⟩ := List.nodup_cons.mp hkeys
      unfold CDbCacheMgr.writebackFrom
      simp only [Store.writtenRecords, List.map_append]
      refine (writebackObject_nodup pb srv mgr nID pObject nTime conn).append (ih hrest _) ?_
      -- The entries are of different ids.
      intro record hfirst hlater
      obtain ⟨w, hw, rfl⟩ := List.mem_map.mp hfirst
      obtain ⟨w', hw', heq⟩ := List.mem_map.mp hlater
      obtain ⟨hid, _⟩ := mem_writebackObject hw
      obtain ⟨hin, _⟩ := mem_writebackFrom hw'
      have hid' : w'.nID = nID := (Prod.mk.inj heq).1.trans hid
      exact hnotin (List.mem_map.mpr ⟨_, hin, hid'⟩)

/-- and the pass over the dirty map is. -/
theorem writeback_nodup (pb : Runtime) (srv : Server σ) (mgr : CDbCacheMgr) (nTime : Nat)
    (conn : CDbConnection σ) :
    (Store.writtenRecords (mgr.writeback pb srv nTime conn).2.1).Nodup := by
  rcases writeback_cases pb srv mgr nTime conn with ⟨_, heq⟩ | ⟨_, _, heq⟩
  · rw [heq]
    exact List.nodup_nil
  · rw [heq]
    exact writebackFrom_nodup pb srv mgr nTime (keys_nodup mgr.m_mapDirtyCache) conn

/-! ## Passes -/

/-- What is scheduled afterwards was scheduled before. -/
theorem Scheduled.of_shrink (hsame : SameRecords mgr mgr')
    (hdirty : ∀ nID pObject : Nat, mgr'.m_mapDirtyCache[nID]? = some pObject →
      mgr.m_mapDirtyCache[nID]? = some pObject)
    {nID pObject nDataID : Nat} {sCacheInfo : SCacheInfo}
    (h : Scheduled mgr' nID pObject nDataID sCacheInfo) :
    Scheduled mgr nID pObject nDataID sCacheInfo :=
  ⟨hdirty nID pObject h.1, hsame.objects ▸ h.2.1, h.2.2⟩

/-- Writes of different unwritten records, after which what is scheduled is unwritten still. -/
theorem OnceWritten.pass (h : OnceWritten mgr events) (hwf : WellFormed mgr')
    {writes : List WriteEvent} (hnodup : (Store.writtenRecords writes).Nodup)
    (hunwritten : ∀ w ∈ writes, Ledger.Unwritten events (w.nID, w.info.nDataID))
    (hscheduled : ∀ nID pObject nDataID sCacheInfo,
      Scheduled mgr' nID pObject nDataID sCacheInfo →
      Scheduled mgr nID pObject nDataID sCacheInfo ∧
        ∀ w ∈ writes, (w.nID, w.info.nDataID) ≠ (nID, nDataID)) :
    OnceWritten mgr' (events ++ (Store.writtenRecords writes).map .written) where
  wellFormed := hwf
  once := by
    refine h.once.writes hnodup fun record hin => ?_
    obtain ⟨w, hw, rfl⟩ := List.mem_map.mp hin
    exact hunwritten w hw
  scheduled := by
    intro nID pObject nDataID sCacheInfo hlater
    obtain ⟨hearlier, hother⟩ := hscheduled nID pObject nDataID sCacheInfo hlater
    refine (Ledger.unwritten_writes _).mpr ⟨?_, h.scheduled _ _ _ _ hearlier⟩
    intro hin
    obtain ⟨w, hw, heq⟩ := List.mem_map.mp hin
    exact hother w hw heq

/-- **An eviction** of an object that is scheduled, or has nothing to write: the modified records
it writes are scheduled ones, and it drops the object from both maps. -/
theorem cleanCache_onceWritten (pb : Runtime) (srv : Server σ) (h : OnceWritten mgr events)
    {nTime : Nat} {sample : Sample}
    (hevicted : ∀ nID pObject, mgr.evicted nTime sample = some (nID, pObject) →
      mgr.m_mapDirtyCache[nID]? = some pObject ∨ mgr.Unmodified pObject) (conn : CDbConnection σ) :
    OnceWritten (mgr.cleanCache pb srv nTime sample conn).1
      (events ++ (Store.writtenRecords (mgr.cleanCache pb srv nTime sample conn).2.1).map
        .written) := by
  have hwf := cleanCache_wellFormed pb srv h.wellFormed nTime sample conn
  have hsame := cleanCache_sameRecords pb srv mgr nTime sample conn
  have hdirty : ∀ nID pObject : Nat,
      (mgr.cleanCache pb srv nTime sample conn).1.m_mapDirtyCache[nID]? = some pObject →
      mgr.m_mapDirtyCache[nID]? = some pObject :=
    fun _ _ hentry => cleanCache_dirty_le mgr nTime sample conn hentry
  rcases cleanCache_cases pb srv mgr nTime sample conn with
    ⟨_, _, heq⟩ | ⟨nID, pObject, hsome, _, heq⟩
  · rw [heq] at hwf ⊢
    exact h.pass hwf List.nodup_nil (by simp) fun _ _ _ _ hlater => ⟨hlater, by simp⟩
  · rw [heq] at hwf hsame hdirty ⊢
    apply h.pass hwf (writebackObject_nodup pb srv mgr nID pObject 0 conn)
    · intro w hw
      obtain ⟨rfl, rfl, sCacheInfo, hrecord, hmodified, _⟩ := mem_writebackObject hw
      rcases hevicted _ _ hsome with hscheduled | hclean
      · exact h.scheduled _ _ _ _ ⟨hscheduled, hrecord, hmodified⟩
      · exact absurd (hclean _ _ hrecord) hmodified
    · intro nID' pObject' nDataID sCacheInfo hlater
      refine ⟨hlater.of_shrink hsame hdirty, fun w hw heq => ?_⟩
      -- The evicted id is out of the dirty map.
      obtain ⟨hid, _⟩ := mem_writebackObject hw
      have hentry := hlater.1
      rw [← (Prod.mk.inj heq).1, hid] at hentry
      simp [evict] at hentry

/-- An id that is in the dirty map after an eviction is not the evicted one. -/
theorem not_evicted_of_dirty {nTime : Nat} {sample : Sample} {conn : CDbConnection σ}
    {nID pObject : Nat}
    (hdirty : (mgr.cleanCache pb srv nTime sample conn).1.m_mapDirtyCache[nID]? = some pObject)
    (pEvicted : Nat) : mgr.evicted nTime sample ≠ some (nID, pEvicted) := by
  intro hevicted
  rcases cleanCache_cases pb srv mgr nTime sample conn with
    ⟨_, hnone, _⟩ | ⟨nID', _, hsome, _, heq⟩
  · rw [hnone] at hevicted
    cases hevicted
  · obtain ⟨rfl, _⟩ := Prod.mk.inj (Option.some.inj (hsome.symm.trans hevicted))
    rw [heq] at hdirty
    simp [evict] at hdirty

/-- Nothing waits in a forced pass. -/
theorem not_waits_forced (pObject : Nat) : ¬ Waits mgr pObject 0 := by
  intro h
  obtain ⟨_, _, _, hwaits⟩ := h
  simp [CDbCache.isWaiting, CDbCache.isDue] at hwaits

/-- No scheduled object has both a record that is due at the time and one that waits. -/
def WritesWhole (mgr : CDbCacheMgr) (pObject nTime : Nat) : Prop :=
  Waits mgr pObject nTime → ∀ (nDataID : Nat) (sCacheInfo : SCacheInfo),
    (mgr.objects pObject).m_mapCacheInfo[nDataID]? = some sCacheInfo → sCacheInfo.nTime ≠ 0 →
    CDbCache.isDue nTime sCacheInfo = false

/-- **A pass** that writes its objects as a whole: nothing it has written stays scheduled, since
an object whose records are all written leaves the dirty map. -/
theorem writeback_onceWritten (pb : Runtime) (srv : Server σ) (h : OnceWritten mgr events)
    {nTime : Nat} (hwhole : mgr.makesPass nTime = true → ∀ nID pObject : Nat,
      mgr.m_mapDirtyCache[nID]? = some pObject → mgr.WritesWhole pObject nTime)
    (conn : CDbConnection σ) :
    OnceWritten (mgr.writeback pb srv nTime conn).1
      (events ++ (Store.writtenRecords (mgr.writeback pb srv nTime conn).2.1).map .written) := by
  apply h.pass (writeback_wellFormed pb srv h.wellFormed nTime conn)
    (writeback_nodup pb srv mgr nTime conn)
  · intro w hw
    obtain ⟨hdirty, sCacheInfo, hrecord, hmodified, _⟩ := mem_writeback hw
    exact h.scheduled _ _ _ _ ⟨hdirty, hrecord, hmodified⟩
  · intro nID pObject nDataID sCacheInfo hlater
    have hearlier := hlater.of_shrink (writeback_sameRecords pb srv mgr nTime conn)
      (fun _ _ hentry => writeback_dirty_le mgr nTime conn hentry)
    refine ⟨hearlier, fun w hw heq => ?_⟩
    obtain ⟨rfl, rfl⟩ := Prod.mk.inj heq
    obtain ⟨hdirty, sCacheInfo', hrecord, hmodified, hdue, _⟩ := mem_writeback hw
    obtain rfl := Option.some.inj (hearlier.1.symm.trans hdirty)
    rcases writeback_cases pb srv mgr nTime conn with ⟨_, heq'⟩ | ⟨hon, hpaced, _⟩
    · rw [heq'] at hw
      cases hw
    · -- An entry is left only for what waits, and then nothing of it was due.
      have hwaits := ((writeback_dirty_iff pb srv hon hpaced conn _ _).mp hlater.1).2
      have hpass : mgr.makesPass nTime = true := by simp [makesPass, hon, hpaced]
      have hnotDue := hwhole hpass _ _ hdirty hwaits _ _ hrecord hmodified
      exact absurd (hdue.symm.trans hnotDue) (by decide)

/-- **A flush** of an id with nothing to write, or of all ids.  The flush of one id would leave a
written object in the dirty map, so that the next pass wrote it again. -/
theorem flushCache_onceWritten (pb : Runtime) (srv : Server σ) (h : OnceWritten mgr events)
    {nKey : Nat} (hclean : nKey ≠ 0 → mgr.isDisabled = false →
      ∀ pObject : Nat, mgr.m_mapCache[nKey]? = some pObject → mgr.Unmodified pObject) (bDel : Bool)
    (conn : CDbConnection σ) :
    OnceWritten (mgr.flushCache pb srv nKey bDel conn).1
      (events ++ (Store.writtenRecords (mgr.flushCache pb srv nKey bDel conn).2.1).map
        .written) := by
  have hwf := flushCache_wellFormed pb srv h.wellFormed nKey bDel conn
  rcases flushCache_cases pb srv mgr nKey bDel conn with
    ⟨_, heq⟩ | ⟨pObject, hon, hkey, hcached, heq⟩ | ⟨_, hkey, heq⟩
  · rw [heq] at hwf ⊢
    exact h.pass hwf List.nodup_nil (by simp) fun _ _ _ _ hlater => ⟨hlater, by simp⟩
  · rw [heq] at hwf ⊢
    have hnone : ∀ w ∈ (mgr.writebackObject pb srv nKey pObject 0 conn).2.1, False := by
      intro w hw
      obtain ⟨_, rfl, sCacheInfo, hrecord, hmodified, _⟩ := mem_writebackObject hw
      exact hmodified (hclean hkey hon _ hcached _ _ hrecord)
    apply h.pass hwf (writebackObject_nodup pb srv mgr nKey pObject 0 conn)
    · exact fun w hw => absurd hw (hnone w)
    · exact fun _ _ _ _ hlater => ⟨hlater, fun w hw => absurd hw (hnone w)⟩
  · rw [heq] at hwf ⊢
    have hwhole : mgr.makesPass 0 = true → ∀ nID pObject : Nat,
        mgr.m_mapDirtyCache[nID]? = some pObject → mgr.WritesWhole pObject 0 :=
      fun _ _ pObject _ hwaits => absurd hwaits (not_waits_forced pObject)
    have hpass := writeback_onceWritten pb srv h hwhole conn
    exact ⟨hwf, hpass.once, hpass.scheduled⟩

/-! ## Commands -/

/-- A change is no write, and more records may be written after it than before. -/
theorem OnceWritten.changed (h : OnceWritten mgr events) (record : Nat × Nat) :
    OnceWritten mgr (events ++ [.changed record]) where
  wellFormed := h.wellFormed
  once := (Ledger.oncePerChange_concat _).mpr ⟨h.once, fun _ heq => by cases heq⟩
  scheduled := fun nID pObject nDataID sCacheInfo hscheduled =>
    Ledger.unwritten_changed.mpr (.inr (h.scheduled nID pObject nDataID sCacheInfo hscheduled))

/-- Nothing new is scheduled. -/
theorem OnceWritten.of_scheduled (h : OnceWritten mgr events) (hwf : WellFormed mgr')
    (hscheduled : ∀ nID pObject nDataID sCacheInfo,
      Scheduled mgr' nID pObject nDataID sCacheInfo →
      Scheduled mgr nID pObject nDataID sCacheInfo) : OnceWritten mgr' events :=
  ⟨hwf, h.once, fun _ _ _ _ hlater => h.scheduled _ _ _ _ (hscheduled _ _ _ _ hlater)⟩

/-- Looking up a name changes nothing that is scheduled. -/
theorem getDataID_onceWritten (h : OnceWritten mgr events) (szDataName : String) :
    OnceWritten (mgr.getDataID szDataName).2 events :=
  h.of_scheduled (getDataID_wellFormed h.wellFormed szDataName) fun nID _ _ _ hlater =>
    ((getDataID_sameAt mgr szDataName nID).scheduled_iff ..).mp hlater

/-- A new object is not scheduled. -/
theorem AddOutcome.onceWritten (h : OnceWritten mgr events) (hdisabled : mgr.isDisabled = false)
    {nID : Nat} {pData : RowMessage} {result : Bool × CDbCacheMgr}
    (houtcome : AddOutcome pb mgr nID pData result) : OnceWritten result.2 events := by
  refine h.of_scheduled (houtcome.wellFormed h.wellFormed hdisabled) ?_
  intro nID' pObject nDataID sCacheInfo hlater
  have hnamed := ((getDataID_sameAt mgr pData.GetTypeName nID').scheduled_iff pObject nDataID
    sCacheInfo).mp
  cases houtcome with
  | badIndex => exact hnamed hlater
  | present => exact hnamed hlater
  | unserialised =>
      have hdirty : mgr.m_mapDirtyCache[nID']? = some pObject := by simpa using hlater.1
      have hold : pObject ≠ mgr.nNextObject := Nat.ne_of_lt (h.wellFormed.lt (.inr hdirty))
      simpa [Scheduled, allocate, hold] using hlater
  | added szData =>
      have hdirty : mgr.m_mapDirtyCache[nID']? = some pObject := by simpa using hlater.1
      have hold : pObject ≠ mgr.nNextObject := Nat.ne_of_lt (h.wellFormed.lt (.inr hdirty))
      simpa [Scheduled, allocate, hold] using hlater

/-- A record that was deleted is scheduled no longer. -/
theorem DelOutcome.onceWritten (h : OnceWritten mgr events) {nID : Nat} {szDataName : String}
    {result : Bool × CDbCacheMgr} (houtcome : DelOutcome mgr nID szDataName result) :
    OnceWritten result.2 events := by
  refine h.of_scheduled (houtcome.wellFormed h.wellFormed) ?_
  intro nID' pObject nDataID sCacheInfo hlater
  have hnamed := ((getDataID_sameAt mgr szDataName nID').scheduled_iff pObject nDataID
    sCacheInfo).mp
  cases houtcome with
  | uncached => exact hlater
  | badIndex => exact hnamed hlater
  | absent => exact hnamed hlater
  | deleted pObject' sErased =>
      obtain ⟨hdirty, hrecord, hmodified⟩ := hlater
      refine ⟨by simpa using hdirty, ?_, hmodified⟩
      by_cases heq : pObject = pObject'
      · subst heq
        rw [store_objects, Function.update_self, Std.ExtTreeMap.getElem?_erase] at hrecord
        split at hrecord
        · cases hrecord
        · exact hrecord
      · rw [store_objects, Function.update_of_ne heq, getDataID_objects] at hrecord
        exact hrecord

/-- The records that a `setData` for the id brings back into the dirty map are in it already, or
are not modified, or are the one that is set. -/
def BringsBackNone (mgr : CDbCacheMgr) (nID : Nat) (pData : RowMessage) : Prop :=
  ∀ pObject : Nat, mgr.m_mapCache[nID]? = some pObject →
    mgr.m_mapDirtyCache[nID]? = some pObject ∨
      ∀ (nDataID : Nat) (sCacheInfo : SCacheInfo),
        (mgr.objects pObject).m_mapCacheInfo[nDataID]? = some sCacheInfo →
        sCacheInfo.nTime ≠ 0 → nDataID = (mgr.getDataID pData.GetTypeName).1

/-- The object with one record replaced, scheduled. -/
theorem stored_onceWritten {events' : List (Ledger.Event (Nat × Nat))}
    (h : OnceWritten mgr events) {nID pObject : Nat} {pData : RowMessage}
    (hcached : mgr.m_mapCache[nID]? = some pObject) (hnone : mgr.BringsBackNone nID pData)
    {sCacheInfo : SCacheInfo} {nSize : Int} (hwf : WellFormed
      (((mgr.getDataID pData.GetTypeName).2.store pObject ((mgr.objects pObject).withRecord
        (mgr.getDataID pData.GetTypeName).1 sCacheInfo nSize)).markDirty nID pObject))
    (honce : Ledger.OncePerChange events')
    (hevents : ∀ record, Ledger.Unwritten events record → Ledger.Unwritten events' record)
    (hset : sCacheInfo.nTime ≠ 0 →
      Ledger.Unwritten events' (nID, (mgr.getDataID pData.GetTypeName).1)) :
    OnceWritten (((mgr.getDataID pData.GetTypeName).2.store pObject
      ((mgr.objects pObject).withRecord (mgr.getDataID pData.GetTypeName).1 sCacheInfo
        nSize)).markDirty nID pObject) events' where
  wellFormed := hwf
  once := honce
  scheduled := by
    intro nID' pObject' nDataID sCacheInfo' hlater
    obtain ⟨hdirty, hrecord, hmodified⟩ := hlater
    rw [markDirty_objects, store_objects] at hrecord
    rw [markDirty_mapDirtyCache, Std.ExtTreeMap.getElem?_insert] at hdirty
    by_cases hid : nID = nID'
    · subst hid
      simp only [compare_eq_iff_eq, if_true, Option.some.injEq] at hdirty
      subst hdirty
      rw [Function.update_self, withRecord_records] at hrecord
      split at hrecord
      · rename_i heq
        obtain rfl := Option.some.inj hrecord
        exact heq ▸ hset hmodified
      · rename_i hne
        rcases hnone _ hcached with hscheduled | hothers
        · exact hevents _ (h.scheduled _ _ _ _ ⟨hscheduled, hrecord, hmodified⟩)
        · exact absurd (hothers _ _ hrecord hmodified) hne
    · simp only [compare_eq_iff_eq, if_neg hid, store_mapDirtyCache,
        getDataID_mapDirtyCache] at hdirty
      have hother : pObject' ≠ pObject := by
        rintro rfl
        exact hid (h.wellFormed.inj (.inl hcached) (.inr hdirty))
      rw [Function.update_of_ne hother, getDataID_objects] at hrecord
      exact hevents _ (h.scheduled _ _ _ _ ⟨hdirty, hrecord, hmodified⟩)

/-- **`setData`** schedules the record that it modifies, and otherwise brings none back. -/
theorem setData_onceWritten (h : OnceWritten mgr events) {nID : Nat} {pData : RowMessage}
    (hnone : mgr.BringsBackNone nID pData) (nTime : Nat) :
    OnceWritten (mgr.setData pb nID pData nTime).2
      (events ++ (((mgr.changes pb nID pData).map fun nDataID => (nID, nDataID)).map
        .changed).toList) := by
  have hevents : ∀ {mgr'}, OnceWritten mgr' events → OnceWritten mgr'
      (events ++ (((mgr.changes pb nID pData).map fun nDataID => (nID, nDataID)).map
        Ledger.Event.changed).toList) := by
    intro mgr' h'
    cases mgr.changes pb nID pData with
    | none => simpa using h'
    | some nDataID => exact h'.changed (nID, nDataID)
  have hwf := (kept_wellFormed pb).setData mgr nID pData nTime trivial h.wellFormed
  have hnamed := getDataID_onceWritten h pData.GetTypeName
  cases hdisabled : mgr.isDisabled with
  | true =>
      rw [setData_disabled pb hdisabled]
      exact hevents h
  | false =>
      have houtcome := setData_outcome pb hdisabled nID pData nTime
      generalize mgr.setData pb nID pData nTime = result at houtcome hwf
      cases houtcome with
      | uncached _ _ hadd => exact hevents (hadd.onceWritten h hdisabled)
      | badIndex => exact hevents hnamed
      | refused => exact hevents hnamed
      | stored pObject pDbCache hcached hgood hset =>
          cases hset with
          | absent _ habsent hadd =>
              cases hadd with
              | added szData =>
                  exact hevents (stored_onceWritten h hcached hnone hwf h.once
                    (fun _ hunwritten => hunwritten) (fun htime => absurd rfl htime))
          | merged sOld szData hrecord hmerge =>
              have hchanges : mgr.changes pb nID pData =
                  some (mgr.getDataID pData.GetTypeName).1 := by
                simp [changes, hdisabled, hcached, hgood, hrecord, hmerge]
              rw [hchanges]
              have hchanged := h.changed (nID, (mgr.getDataID pData.GetTypeName).1)
              exact stored_onceWritten h hcached hnone hwf hchanged.once
                (fun _ hunwritten => Ledger.unwritten_changed.mpr (.inr hunwritten))
                (fun _ => Ledger.unwritten_changed.mpr (.inl rfl))

end CDbCacheMgr

namespace Store

open CDbCacheMgr

variable {σ : Type} (pb : Runtime) (srv : Server σ)

/-- When an action leaves clean records alone.  A FLUSH of one id finds nothing modified in the
object, since it leaves the dirty map as it is.  An eviction finds its object scheduled, or
nothing modified in it.  A timed pass writes all modified records of an object or none.  A
`setData` does not bring an object back for the sake of another of its records. -/
def VisitsOnce (st : Store σ) : StoreAction → Prop
  | .command sDbCommand clock =>
      (∀ id type, sDbCommand.nType = .kOT_FLUSH →
          sDbCommand.pMessage = some (.flush_command id type) → id ≠ 0 →
          st.m_dbCacheMgr.isDisabled = false →
          ∀ pObject : Nat, st.m_dbCacheMgr.m_mapCache[id]? = some pObject →
            st.m_dbCacheMgr.Unmodified pObject) ∧
        ∀ called nID pData,
          st.setCall pb srv (.command sDbCommand clock) = some (called, nID, pData) →
          called.BringsBackNone nID pData
  | .tick nCurTime sample =>
      let mgr := st.m_dbCacheMgr
      (∀ nID pObject, mgr.evicted nCurTime sample = some (nID, pObject) →
          mgr.m_mapDirtyCache[nID]? = some pObject ∨ mgr.Unmodified pObject) ∧
        (mgr.makesPass nCurTime = true → ∀ nID pObject : Nat,
          mgr.m_mapDirtyCache[nID]? = some pObject →
          (∀ pEvicted, mgr.evicted nCurTime sample ≠ some (nID, pEvicted)) →
          mgr.WritesWhole pObject nCurTime)
  | .finish => True

variable {pb srv}

/-- What a command does to the records keeps one write for each modification, if it brings no
object with clean records back into a pass. -/
theorem touched_onceWritten {mgr mgr' : CDbCacheMgr} {events : List (Ledger.Event (Nat × Nat))}
    (h : mgr.OnceWritten events) {nSetTime : Nat}
    {call : Option (CDbCacheMgr × Nat × RowMessage)}
    (hnone : ∀ called nID pData, call = some (called, nID, pData) →
      called.BringsBackNone nID pData)
    (htouched : Touched pb mgr nSetTime call mgr') :
    mgr'.OnceWritten (events ++ ((call.bind fun call =>
      (call.1.changes pb call.2.1 call.2.2).map fun nDataID => (call.2.1, nDataID)).map
        .changed).toList) := by
  cases htouched with
  | same => simpa using h
  | named szDataName => simpa using getDataID_onceWritten h szDataName
  | added nID pData =>
      cases hdisabled : mgr.isDisabled with
      | true => simpa [addData_disabled pb hdisabled] using h
      | false =>
          simpa using (addData_outcome pb hdisabled nID pData).onceWritten h hdisabled
  | deleted nID szDataName =>
      cases hdisabled : mgr.isDisabled with
      | true => simpa [delData_disabled hdisabled] using h
      | false => simpa using (delData_outcome hdisabled nID szDataName).onceWritten h
  | set called nID pData hcalled =>
      have hcall : called.OnceWritten events := by
        rcases hcalled with rfl | ⟨szDataName, rfl⟩
        · exact h
        · exact getDataID_onceWritten h szDataName
      exact setData_onceWritten hcall (hnone called nID pData rfl) nSetTime

/-- **The step lemma.**  An action that leaves clean records alone writes only records with an
unwritten change, each at most once, and what it leaves scheduled has an unwritten change again.
-/
theorem log_onceWritten {l : Logged σ} (h : l.store.m_dbCacheMgr.OnceWritten l.events)
    {action : StoreAction} (hvisits : l.store.VisitsOnce pb srv action) :
    (log pb srv l action).1.store.m_dbCacheMgr.OnceWritten (log pb srv l action).1.events := by
  have hlogs := log_cases pb srv l action
  generalize (log pb srv l action).1.store.m_dbCacheMgr = mgr' at hlogs ⊢
  generalize (log pb srv l action).1.events = events' at hlogs ⊢
  cases hlogs with
  | nothing => exact h
  | flushed _ _ id type htype hmessage bDel =>
      exact flushCache_onceWritten pb srv h (hvisits.1 id type htype hmessage) bDel _
  | touched _ _ _ htouched => exact touched_onceWritten h hvisits.2 htouched
  | ticked nCurTime sample mgr conn writes hclean =>
      obtain ⟨hevicted, hwhole⟩ := hvisits
      have hcleaned := cleanCache_onceWritten pb srv h hevicted l.store.m_dbConnection
      have hsame := cleanCache_sameRecords pb srv l.store.m_dbCacheMgr nCurTime sample
        l.store.m_dbConnection
      have hpasses := makesPass_tick pb srv l.store nCurTime sample
      simp only [makesPass, hclean] at hpasses
      rw [hclean] at hcleaned hsame
      have hobjects : mgr.objects = l.store.m_dbCacheMgr.objects := hsame.objects
      refine writeback_onceWritten pb srv hcleaned (fun hpass nID pObject hdirty => ?_) conn
      have hdirty' : (l.store.m_dbCacheMgr.cleanCache pb srv nCurTime sample
          l.store.m_dbConnection).1.m_mapDirtyCache[nID]? = some pObject := by rwa [hclean]
      have hwrites := hwhole (hpasses.symm.trans hpass) nID pObject
        (cleanCache_dirty_le _ _ _ _ hdirty') (not_evicted_of_dirty hdirty')
      simpa only [WritesWhole, Waits, hobjects] using hwrites
  | finished =>
      exact flushCache_onceWritten pb srv h (fun hkey => absurd rfl hkey) true _

end Store

/-- **One write for each modification.**  In a run whose actions leave clean records alone, every
UPDATE that write-back issues for a record comes after a modification of it, and no other such
UPDATE for it lies in between. -/
theorem one_write_per_modification {σ : Type} (pb : Runtime) (srv : Server σ)
    (nMaxCacheSize nWritebackTime : Nat) (conn : CDbConnection σ) (actions : List StoreAction)
    (hvisits : Runs.Guarded (Store.log pb srv) (fun l => l.store.VisitsOnce pb srv)
      (Store.logFrom (Store.init nMaxCacheSize nWritebackTime conn)) actions) :
    Ledger.OncePerChange (Runs.run (Store.log pb srv)
      (Store.logFrom (Store.init nMaxCacheSize nWritebackTime conn)) actions).events := by
  have hstart : (Store.init nMaxCacheSize nWritebackTime conn).m_dbCacheMgr.OnceWritten [] :=
    { wellFormed := CDbCacheMgr.init_wellFormed nMaxCacheSize nWritebackTime
      once := Ledger.oncePerChange_nil
      scheduled := fun nID pObject _ _ hscheduled => by
        simp [CDbCacheMgr.Scheduled, Store.init, CDbCacheMgr.init] at hscheduled }
  exact (Runs.run_invariant (fun l : Store.Logged σ => l.store.m_dbCacheMgr.OnceWritten l.events)
    (fun _ _ h hvisits => Store.log_onceWritten h hvisits) hstart hvisits).once

/-- Player 5, updated in the cache, is written back by the tick. -/
theorem one_write_per_modification_tickedPlayer :
    Ledger.OncePerChange (Runs.run (Store.log PlayerBase.runtime (.constant (.done 0 1)))
      (Store.logFrom (Store.init 1000 60 ⟨true, (), 0, []⟩)) tickedPlayer).events := by
  apply one_write_per_modification
  refine ⟨⟨by simp, ?_⟩, ⟨by simp, ?_⟩, ⟨?_, ?_⟩, trivial⟩
  · rintro _ _ _ ⟨⟩
  · -- The object of player 5 has one record, and it is not modified yet.
    intro called nID pData hcall pObject hcached
    refine .inr fun nDataID sCacheInfo hrecord hmodified => ?_
    obtain ⟨rfl, hargs⟩ := Prod.mk.inj (Option.some.inj hcall)
    obtain ⟨rfl, rfl⟩ := Prod.mk.inj hargs
    obtain rfl := Option.some.inj hcached
    have hmem := Std.ExtTreeMap.mem_toList_iff_getElem?_eq_some.mpr hrecord
    obtain ⟨_, rfl⟩ := Prod.mk.inj (List.mem_singleton.mp hmem)
    exact absurd rfl hmodified
  · rintro nID pObject ⟨⟩
  · -- A minute later nothing waits.
    intro _ nID pObject hdirty _ hwaits
    have hentry := Std.ExtTreeMap.mem_toList_iff_getElem?_eq_some.mpr hdirty
    obtain ⟨_, rfl⟩ := Prod.mk.inj (List.mem_singleton.mp hentry)
    obtain ⟨nDataID, sCacheInfo, hrecord, hwaiting⟩ := hwaits
    have hmem := Std.ExtTreeMap.mem_toList_iff_getElem?_eq_some.mpr hrecord
    obtain ⟨_, rfl⟩ := Prod.mk.inj (List.mem_singleton.mp hmem)
    exact absurd hwaiting (by decide)

/-- The next flush writes it again. -/
theorem clean_player_written_again :
    ¬ ∀ (σ : Type) (pb : Runtime) (srv : Server σ) (nMaxCacheSize nWritebackTime : Nat)
        (conn : CDbConnection σ) (actions : List StoreAction),
      let l := Runs.run (Store.log pb srv)
        (Store.logFrom (Store.init nMaxCacheSize nWritebackTime conn)) actions
      l.store.m_dbCacheMgr.isDisabled = false → l.store.m_dbConnection.Succeeded →
      Ledger.OncePerChange l.events := by
  intro h
  have honce := h Unit PlayerBase.runtime (.constant (.done 0 1)) 1000 60 ⟨true, (), 0, []⟩
    (tickedPlayer ++ [.command ⟨0, .kOT_FLUSH, 0, 0,
      some (.flush_command 5 EFlushCacheType.kFCT_DEL.code)⟩ ⟨61, 61⟩]) (by decide) (by decide)
  have hunwritten := honce ([.changed (5, 1)] ++ [.written (5, 1)]) (5, 1) [] (by decide)
  exact (Ledger.unwritten_written.mp hunwritten).1 rfl

end Db
