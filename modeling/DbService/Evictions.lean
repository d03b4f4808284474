import DbService.TickPacing

/-!
# Evictions

At the size limit a tick is to evict one id a second.  The guard of `cleanCache` subtracts the
time of the tick from the time of the last eviction, so that once that time is set no tick
gets past it (`evicted_eq`), and the first eviction is the last.

* `evicted_eq`, `update_evictsOne_iff` -- the guard of `cleanCache`, and what an eviction does;
* `evictions_when_due_iff` -- in a run, evictions come when they are due exactly as far as each
  finds the time of the last one at 0;
* `second_eviction_never` -- a second eviction, which does not come.
-/

namespace Db

open Reflection ByteText

namespace CDbCacheMgr

variable {σ : Type} {pb : Runtime} {srv : Server σ} {mgr : CDbCacheMgr}

/-- What a tick that evicts the object of one id owes: the id leaves both maps and the object's
size the total, every dirty record of the id is written, and for the other ids the tick is the
write-back pass it would be without the eviction. -/
structure EvictsOne (mgr mgr' passed : CDbCacheMgr) (writes : List WriteEvent)
    (nID pObject : Nat) : Prop where
  cache : mgr'.m_mapCache = mgr.m_mapCache.erase nID
  dirty : mgr'.m_mapDirtyCache[nID]? = none
  nDataSize : mgr'.m_nDataSize = mgr.m_nDataSize - (mgr.objects pObject).getDataSize
  written : ∀ pObject' nDataID sCacheInfo, Scheduled mgr nID pObject' nDataID sCacheInfo →
    ∃ w ∈ writes, w.nID = nID ∧ w.info.nDataID = nDataID ∧ w.info.szData = sCacheInfo.szData
  objects : mgr'.objects = mgr.objects
  others : ∀ nID' : Nat, nID' ≠ nID →
    mgr'.m_mapDirtyCache[nID']? = passed.m_mapDirtyCache[nID']?

/-- The object has every dirty record of the id as a modified one that can be read back. -/
def HoldsDirty (pb : Runtime) (mgr : CDbCacheMgr) (nID pObject : Nat) : Prop :=
  ∀ pObject' nDataID sCacheInfo, Scheduled mgr nID pObject' nDataID sCacheInfo →
    ∃ sHeld, (mgr.objects pObject).m_mapCacheInfo[nDataID]? = some sHeld ∧ sHeld.nTime ≠ 0 ∧
      sHeld.szData = sCacheInfo.szData ∧ Readable pb mgr nDataID sHeld

/-- **The guard of `cleanCache`** on a clock that does not go back: at the limit an id is evicted
only while the time of the last eviction is 0. -/
theorem evicted_eq {nTime : Nat} (hon : mgr.isDisabled = false)
    (hfull : mgr.m_nMaxCacheSize ≤ mgr.m_nDataSize) (hle : mgr.m_nLastCleanCacheTime ≤ nTime)
    (sample : Sample) :
    mgr.evicted nTime sample =
      if mgr.m_nLastCleanCacheTime = 0 then mgr.chosen sample else none := by
  have hlate : mgr.m_nLastCleanCacheTime - nTime < CLEAN_CACHE_TIME := by
    unfold CLEAN_CACHE_TIME
    omega
  have hguard : (mgr.m_nLastCleanCacheTime ≠ 0 ∧
      mgr.m_nLastCleanCacheTime - nTime < CLEAN_CACHE_TIME) ↔ ¬ mgr.m_nLastCleanCacheTime = 0 :=
    and_iff_left hlate
  unfold evicted
  rw [hon, if_neg Bool.false_ne_true, if_neg (not_lt.mpr hfull)]
  simp only [hguard, ite_not]

/-- What a pass leaves of the dirty map depends on the objects and on the entry alone. -/
theorem writeback_dirty_congr (pb : Runtime) (srv : Server σ) {mgr' : CDbCacheMgr}
    (hsame : SameRecords mgr mgr')
    (hlast : mgr'.m_nLastWritebackTime = mgr.m_nLastWritebackTime) {nID : Nat}
    (hentry : mgr'.m_mapDirtyCache[nID]? = mgr.m_mapDirtyCache[nID]?) (nTime : Nat)
    (conn conn' : CDbConnection σ) :
    (mgr'.writeback pb srv nTime conn').1.m_mapDirtyCache[nID]? =
      (mgr.writeback pb srv nTime conn).1.m_mapDirtyCache[nID]? := by
  have hpaced : mgr'.isPaced nTime = mgr.isPaced nTime := by
    simp only [isPaced, hlast, hsame.nWritebackTime]
  rcases writeback_cases pb srv mgr nTime conn with ⟨hskip, heq⟩ | ⟨hon, hpass, _⟩
  · rcases writeback_cases pb srv mgr' nTime conn' with ⟨_, heq'⟩ | ⟨hon', hpass', _⟩
    · rw [heq, heq', hentry]
    · rw [hsame.isDisabled] at hon'
      rw [hpaced] at hpass'
      simp [hon', hpass'] at hskip
  · apply Option.ext
    intro pObject
    rw [writeback_dirty_iff pb srv (hsame.isDisabled.trans hon) (hpaced.trans hpass) conn',
      writeback_dirty_iff pb srv hon hpass conn, hentry]
    simp only [Waits, hsame.objects]

@[simp] theorem writeback_nDataSize (mgr : CDbCacheMgr) (nTime : Nat) (conn : CDbConnection σ) :
    (mgr.writeback pb srv nTime conn).1.m_nDataSize = mgr.m_nDataSize := by
  rcases writeback_cases pb srv mgr nTime conn with ⟨_, heq⟩ | ⟨_, _, heq⟩ <;> rw [heq]

/-- A tick that evicts nothing leaves the cache map and the total. -/
theorem update_unevicted (pb : Runtime) (srv : Server σ) {nTime : Nat} {sample : Sample}
    (hnone : mgr.evicted nTime sample = none) (conn : CDbConnection σ) :
    (mgr.update pb srv nTime sample conn).1.m_mapCache = mgr.m_mapCache ∧
      (mgr.update pb srv nTime sample conn).1.m_nDataSize = mgr.m_nDataSize := by
  unfold update
  rcases cleanCache_cases pb srv mgr nTime sample conn with
    ⟨_, _, heq⟩ | ⟨_, _, hevicted, _, _⟩
  · simp [heq]
  · rw [hnone] at hevicted
    cases hevicted

/-- An evicted id was cached, so a tick that evicts changes the cache map. -/
theorem erase_ne {nID pObject : Nat} (hcached : mgr.m_mapCache[nID]? = some pObject) :
    mgr.m_mapCache.erase nID ≠ mgr.m_mapCache := by
  intro heq
  have herased : (mgr.m_mapCache.erase nID)[nID]? = none := Std.ExtTreeMap.getElem?_erase_self
  rw [heq, hcached] at herased
  cases herased

/-- What a tick takes out of the cache map is the evicted id, since its timed pass takes out none.
-/
theorem update_evicted_mapCache (pb : Runtime) (srv : Server σ) {nTime nID pObject : Nat}
    {sample : Sample} (hevicted : mgr.evicted nTime sample = some (nID, pObject))
    (conn : CDbConnection σ) :
    (mgr.update pb srv nTime sample conn).1.m_mapCache = mgr.m_mapCache.erase nID := by
  unfold update
  rcases cleanCache_cases pb srv mgr nTime sample conn with
    ⟨_, hnone, _⟩ | ⟨nID', pObject', hevicted', _, heq⟩
  · rw [hnone] at hevicted
    cases hevicted
  · obtain ⟨rfl, rfl⟩ := Prod.mk.inj (Option.some.inj (hevicted.symm.trans hevicted'))
    rw [heq]
    exact writeback_mapCache ..

/-- **An eviction, exactly.**  A tick that evicts the object of an id does what it owes if and
only if that object holds the dirty records of the id. -/
theorem update_evictsOne_iff (pb : Runtime) (srv : Server σ) {nTime nID pObject : Nat}
    {sample : Sample} (hevicted : mgr.evicted nTime sample = some (nID, pObject))
    (conn : CDbConnection σ) :
    EvictsOne mgr (mgr.update pb srv nTime sample conn).1 (mgr.writeback pb srv nTime conn).1
        (mgr.update pb srv nTime sample conn).2.1 nID pObject ↔
      HoldsDirty pb mgr nID pObject := by
  unfold update
  rcases cleanCache_cases pb srv mgr nTime sample conn with
    ⟨_, hnone, _⟩ | ⟨nID', pObject', hevicted', _, heq⟩
  · rw [hnone] at hevicted
    cases hevicted
  obtain ⟨rfl, rfl⟩ := Prod.mk.inj (Option.some.inj (hevicted.symm.trans hevicted'))
  rw [heq]
  have hevict : SameRecords mgr (mgr.evict nTime nID pObject) := ⟨rfl, rfl, rfl, rfl, rfl, rfl, rfl⟩
  have hgone : (mgr.evict nTime nID pObject).m_mapDirtyCache[nID]? = none := by simp [evict]
  have hpass := writeback_sameRecords pb srv (mgr.evict nTime nID pObject) nTime
    (mgr.writebackObject pb srv nID pObject 0 conn).2.2
  constructor
  · intro hevicts pObject' nDataID sCacheInfo hscheduled
    obtain ⟨w, hw, hid, rfl, hbytes⟩ := hevicts.written pObject' nDataID sCacheInfo hscheduled
    rcases List.mem_append.mp hw with hin | hin
    · obtain ⟨_, rfl, sHeld, hrecord, hmodified, _, hdata, hreadable⟩ := mem_writebackObject hin
      exact ⟨sHeld, hrecord, hmodified, hdata.symm.trans hbytes, hreadable⟩
    · obtain ⟨hdirty, _⟩ := mem_writeback hin
      rw [hid, hgone] at hdirty
      cases hdirty
  · intro hheld
    constructor
    · exact writeback_mapCache ..
    · cases hdirty : ((mgr.evict nTime nID pObject).writeback pb srv nTime
          (mgr.writebackObject pb srv nID pObject 0 conn).2.2).1.m_mapDirtyCache[nID]? with
      | none => rfl
      | some _ =>
          have hstill := writeback_dirty_le _ nTime _ hdirty
          rw [hgone] at hstill
          cases hstill
    · exact writeback_nDataSize ..
    · intro pObject' nDataID sCacheInfo hscheduled
      obtain ⟨sHeld, hrecord, hmodified, hdata, hreadable⟩ :=
        hheld pObject' nDataID sCacheInfo hscheduled
      have hdue : CDbCache.isDue 0 sHeld = true := by simp [CDbCache.isDue]
      obtain ⟨w, hw, hid, _, hname, hbytes⟩ :=
        writebackObject_complete srv hrecord hmodified hdue hreadable conn
      exact ⟨w, List.mem_append_left _ hw, hid, hname, hbytes.trans hdata⟩
    · exact hpass.objects
    · intro nID' hne
      have hentry : (mgr.evict nTime nID pObject).m_mapDirtyCache[nID']? =
          mgr.m_mapDirtyCache[nID']? := by
        simp [evict, Std.ExtTreeMap.getElem?_erase, Ne.symm hne]
      exact writeback_dirty_congr pb srv hevict rfl hentry nTime conn _

/-- A flush is no eviction. -/
@[simp] theorem flushCache_lastCleanCacheTime (mgr : CDbCacheMgr) (nKey : Nat) (bDel : Bool)
    (conn : CDbConnection σ) :
    (mgr.flushCache pb srv nKey bDel conn).1.m_nLastCleanCacheTime =
      mgr.m_nLastCleanCacheTime := by
  rcases flushCache_cases pb srv mgr nKey bDel conn with
    ⟨_, heq⟩ | ⟨_, _, _, _, heq⟩ | ⟨_, _, heq⟩
  · rw [heq]
  · rw [heq]
  · rw [heq]
    exact writeback_lastCleanCacheTime pb srv mgr 0 conn

end CDbCacheMgr

namespace Store

open CDbCacheMgr

variable {σ : Type} (pb : Runtime) (srv : Server σ)

/-- The tick evicts an id. -/
def evicts (st : Store σ) : StoreAction → Bool
  | .tick nCurTime sample => (st.m_dbCacheMgr.evicted nCurTime sample).isSome
  | _ => false

/-- A store with the record of its evictions. -/
abbrev recordEvictions : Pacing.Recorded (Store σ) → StoreAction →
    Pacing.Recorded (Store σ) × StoreOutput :=
  Pacing.record (step pb srv) StoreAction.time evicts

/-- **Eviction works** at a tick at the size limit: a second after the last eviction the element
that the sampling hits is evicted, and nothing else; before that nothing is. -/
def EvictsWhenDue (r : Pacing.Recorded (Store σ)) : StoreAction → Prop
  | .tick nCurTime sample =>
      let mgr := r.state.m_dbCacheMgr
      let ticked := mgr.update pb srv nCurTime sample r.state.m_dbConnection
      let passed := mgr.writeback pb srv nCurTime r.state.m_dbConnection
      mgr.isDisabled = false → mgr.m_nMaxCacheSize ≤ mgr.m_nDataSize →
        (Pacing.Due 1 r.fired.head? nCurTime →
            ∀ nID pObject, mgr.chosen sample = some (nID, pObject) →
              EvictsOne mgr ticked.1 passed.1 ticked.2.1 nID pObject) ∧
          (¬ Pacing.Due 1 r.fired.head? nCurTime →
            ticked.1.m_mapCache = mgr.m_mapCache ∧ ticked.1.m_nDataSize = mgr.m_nDataSize)
  | _ => True

/-- At the limit, where the sampling hits an element, the tick finds the time of the last eviction
at 0 and the dirty records of the id in the sampled object; if no second has passed since the
last eviction, its own time is not 0. -/
def FindsEvictionTime (r : Pacing.Recorded (Store σ)) : StoreAction → Prop
  | .tick nCurTime sample =>
      let mgr := r.state.m_dbCacheMgr
      mgr.isDisabled = false → mgr.m_nMaxCacheSize ≤ mgr.m_nDataSize →
        ∀ nID pObject, mgr.chosen sample = some (nID, pObject) →
          if Pacing.Due 1 r.fired.head? nCurTime then
            mgr.m_nLastCleanCacheTime = 0 ∧ HoldsDirty pb mgr nID pObject
          else nCurTime ≠ 0
  | _ => True

/-- The time of the last eviction lies between the last eviction and the clock. -/
structure EvictionTime (r : Pacing.Recorded (Store σ)) : Prop where
  fired : ∀ t ∈ r.fired.head?, (t : Int) ≤ r.state.m_dbCacheMgr.m_nLastCleanCacheTime
  nonneg : 0 ≤ r.state.m_dbCacheMgr.m_nLastCleanCacheTime
  le : r.state.m_dbCacheMgr.m_nLastCleanCacheTime ≤ r.clock

variable {pb srv}

/-- Commands and the last flush leave the time of the last eviction. -/
theorem step_lastCleanCacheTime (pb : Runtime) (srv : Server σ) (st : Store σ)
    {action : StoreAction} (htime : action.time = none) :
    (st.step pb srv action).1.m_dbCacheMgr.m_nLastCleanCacheTime =
      st.m_dbCacheMgr.m_nLastCleanCacheTime := by
  cases action with
  | command sDbCommand clock =>
      by_cases hflush : sDbCommand.nType = .kOT_FLUSH
      · simp only [step, process, if_pos hflush]
        split
        · exact flushCache_lastCleanCacheTime ..
        · rfl
      · exact (step_sameTimers pb srv st hflush clock).nLastCleanCacheTime
  | tick => cases htime
  | finish => exact flushCache_lastCleanCacheTime st.m_dbCacheMgr 0 true st.m_dbConnection

/-- A tick that evicts leaves its time. -/
theorem step_tick_lastCleanCacheTime (pb : Runtime) (srv : Server σ) (st : Store σ) (nCurTime : Nat)
    (sample : Sample) :
    let nLast := (st.step pb srv (.tick nCurTime sample)).1.m_dbCacheMgr.m_nLastCleanCacheTime
    nLast = nCurTime ∨ evicts st (.tick nCurTime sample) = false ∧
      nLast = st.m_dbCacheMgr.m_nLastCleanCacheTime := by
  have hlast : (st.step pb srv (.tick nCurTime sample)).1.m_dbCacheMgr.m_nLastCleanCacheTime =
      (st.m_dbCacheMgr.cleanCache pb srv nCurTime sample
        st.m_dbConnection).1.m_nLastCleanCacheTime :=
    writeback_lastCleanCacheTime pb srv _ nCurTime _
  simp only [hlast, evicts]
  rcases cleanCache_lastCleanCacheTime pb srv st.m_dbCacheMgr nCurTime sample
    st.m_dbConnection with hnow | ⟨hnone, hsame⟩
  · exact .inl hnow
  · exact .inr ⟨by rw [hnone]; rfl, hsame⟩

/-- **The step lemma.**  A tick that evicts sets the time of the last eviction to its own, any
other tick leaves it, and the clock does not go back; commands and flushes touch neither. -/
theorem step_evictionTime {r : Pacing.Recorded (Store σ)} (h : EvictionTime r)
    {action : StoreAction} (horder : Pacing.InOrder StoreAction.time r action) :
    EvictionTime (recordEvictions pb srv r action).1 := by
  cases htime : action.time with
  | none =>
      have hlast := step_lastCleanCacheTime pb srv r.state htime
      rw [recordEvictions, Pacing.record_none htime]
      exact ⟨fun t ht => hlast.symm ▸ h.fired t ht, hlast.symm ▸ h.nonneg, hlast.symm ▸ h.le⟩
  | some nCurTime =>
      cases action with
      | command => cases htime
      | finish => cases htime
      | tick nTime sample =>
          obtain rfl := Option.some.inj htime
          have hle : r.clock ≤ nTime := horder nTime rfl
          have hlast := step_tick_lastCleanCacheTime pb srv r.state nTime sample
          obtain ⟨hfired, hnonneg, hclock⟩ := h
          rw [recordEvictions, Pacing.record_some htime]
          simp only at hlast
          generalize (r.state.step pb srv (.tick nTime sample)).1 = st' at hlast
          rcases hlast with hnow | ⟨hnone, hsame⟩
          · refine ⟨?_, hnow ▸ Int.natCast_nonneg nTime, hnow.le⟩
            intro t ht
            rw [hnow]
            simp only at ht
            split at ht
            · obtain rfl := Option.some.inj ht
              exact le_rfl
            · have holder := hfired t ht
              omega
          · simp only [hnone, Bool.false_eq_true, if_false]
            have hlater : r.state.m_dbCacheMgr.m_nLastCleanCacheTime ≤ nTime := by omega
            exact ⟨hsame.symm ▸ hfired, hsame.symm ▸ hnonneg, hsame.le.trans hlater⟩

/-- **A tick evicts when it is due** exactly when it finds the time of the last eviction so. -/
theorem evictsWhenDue_iff {r : Pacing.Recorded (Store σ)} (h : EvictionTime r)
    {action : StoreAction} (horder : Pacing.InOrder StoreAction.time r action) :
    EvictsWhenDue pb srv r action ↔ FindsEvictionTime pb r action := by
  cases action with
  | command => exact Iff.rfl
  | finish => exact Iff.rfl
  | tick nCurTime sample =>
      have hle : r.clock ≤ nCurTime := horder nCurTime rfl
      obtain ⟨hfired, hnonneg, hclock⟩ := h
      refine forall_congr' fun hon => forall_congr' fun hfull => ?_
      have hevicted : r.state.m_dbCacheMgr.evicted nCurTime sample = _ :=
        evicted_eq hon hfull (by omega) sample
      by_cases hdue : Pacing.Due 1 r.fired.head? nCurTime
      · simp only [hdue, forall_const, not_true_eq_false, false_imp_iff, and_true, if_true]
        refine forall_congr' fun nID => forall_congr' fun pObject => forall_congr' fun hchosen => ?_
        by_cases hfirst : r.state.m_dbCacheMgr.m_nLastCleanCacheTime = 0
        · rw [if_pos hfirst, hchosen] at hevicted
          rw [update_evictsOne_iff pb srv hevicted]
          exact (and_iff_right hfirst).symm
        · -- The guard never lets a tick pass again.
          rw [if_neg hfirst] at hevicted
          refine ⟨fun hevicts => ?_, fun hcase => absurd hcase.1 hfirst⟩
          have hsame := (update_unevicted pb srv hevicted r.state.m_dbConnection).1
          exact absurd (hevicts.cache.symm.trans hsame) (erase_ne (chosen_mem hchosen))
      · simp only [hdue, false_imp_iff, true_and, not_false_eq_true, forall_const, if_false]
        -- The last eviction was at the time of this tick.
        have hnow : r.state.m_dbCacheMgr.m_nLastCleanCacheTime = nCurTime := by
          simp only [Pacing.Due, not_forall] at hdue
          obtain ⟨t, ht, hlate⟩ := hdue
          have hlast := hfired t ht
          omega
        simp only [hnow, Int.natCast_eq_zero] at hevicted
        by_cases hzero : nCurTime = 0
        · rw [if_pos hzero] at hevicted
          cases hchosen : r.state.m_dbCacheMgr.chosen sample with
          | none => simp [update_unevicted pb srv (hevicted.trans hchosen)]
          | some element =>
              have hcached : r.state.m_dbCacheMgr.m_mapCache[element.1]? = some element.2 :=
                chosen_mem hchosen
              have hmap := update_evicted_mapCache pb srv (hevicted.trans hchosen)
                r.state.m_dbConnection
              simp only [hmap, erase_ne hcached, false_and, false_iff]
              exact fun hall => hall _ _ rfl hzero
        · rw [if_neg hzero] at hevicted
          exact ⟨fun _ _ _ _ => hzero, fun _ => update_unevicted pb srv hevicted _⟩

end Store

/-- **Eviction keeps working**, in a run of commands and ticks at times in order: at every tick at
the size limit the sampled id is evicted if a second has passed since the last eviction, and
nothing is if not, if and only if each such tick that is due finds the time of the last eviction
at 0 and the dirty records of its id in the sampled object, and none that is not due comes at
time 0. -/
theorem evictions_when_due_iff {σ : Type} (pb : Runtime) (srv : Server σ)
    (nMaxCacheSize nWritebackTime : Nat) (conn : CDbConnection σ) (actions : List StoreAction)
    (horder : Runs.Guarded (Store.recordEvictions pb srv) (Pacing.InOrder StoreAction.time)
      (Pacing.start (Store.init nMaxCacheSize nWritebackTime conn)) actions) :
    Runs.Guarded (Store.recordEvictions pb srv) (Store.EvictsWhenDue pb srv)
        (Pacing.start (Store.init nMaxCacheSize nWritebackTime conn)) actions ↔
      Runs.Guarded (Store.recordEvictions pb srv) (Store.FindsEvictionTime pb)
        (Pacing.start (Store.init nMaxCacheSize nWritebackTime conn)) actions := by
  have hstart : Store.EvictionTime
      (Pacing.start (Store.init nMaxCacheSize nWritebackTime conn)) :=
    ⟨by simp [Pacing.start], Int.le_refl 0, Int.le_refl 0⟩
  exact Runs.guarded_iff_within Store.EvictionTime
    (fun _ _ h horder => Store.step_evictionTime h horder)
    (fun _ _ h horder => Store.evictsWhenDue_iff h horder) hstart horder

/-- Players 5 and 6 are inserted into a cache of one byte, which drops the first at time 10. -/
def fullCache : List StoreAction :=
  [.command ⟨0, .kOT_INSERT, 0, 0, some (.row (PlayerBase.player 5 [97]))⟩ ⟨1, 1⟩,
    .command ⟨0, .kOT_INSERT, 0, 0, some (.row (PlayerBase.player 6 [98]))⟩ ⟨1, 1⟩,
    .tick 10 ⟨[5], 0⟩]

/-- The readings of the run do not go back. -/
theorem fullCache_inOrder :
    Runs.Guarded (Store.recordEvictions PlayerBase.runtime (.constant (.done 0 1)))
      (Pacing.InOrder StoreAction.time) (Pacing.start (Store.init 1 60 ⟨true, (), 0, []⟩))
      fullCache :=
  ⟨fun _ hnone => absurd hnone (by simp [StoreAction.time]),
    fun _ hnone => absurd hnone (by simp [StoreAction.time]), fun _ _ => Nat.zero_le _, trivial⟩

/-- A cache of one byte that is filled, and two ticks. -/
theorem evictions_when_due_fullCache :
    Runs.Guarded (Store.recordEvictions PlayerBase.runtime (.constant (.done 0 1)))
      (Store.EvictsWhenDue PlayerBase.runtime (.constant (.done 0 1)))
      (Pacing.start (Store.init 1 60 ⟨true, (), 0, []⟩)) fullCache := by
  refine (evictions_when_due_iff PlayerBase.runtime (.constant (.done 0 1)) 1 60
    ⟨true, (), 0, []⟩ fullCache fullCache_inOrder).mpr ⟨trivial, trivial, ?_, trivial⟩
  intro _ _ nID pObject _
  rw [if_pos (by decide)]
  refine ⟨by decide, fun pObject' nDataID sCacheInfo hscheduled => ?_⟩
  have hdirty : (∅ : Std.ExtTreeMap Nat Nat)[nID]? = some pObject' := hscheduled.1
  simp at hdirty

/-- Ten seconds later the second player is not dropped. -/
theorem second_eviction_never :
    ¬ ∀ (σ : Type) (pb : Runtime) (srv : Server σ) (nMaxCacheSize nWritebackTime : Nat)
        (conn : CDbConnection σ) (actions : List StoreAction),
      Runs.Guarded (Store.recordEvictions pb srv) (Pacing.InOrder StoreAction.time)
        (Pacing.start (Store.init nMaxCacheSize nWritebackTime conn)) actions →
      Runs.Guarded (Store.recordEvictions pb srv) (Store.EvictsWhenDue pb srv)
        (Pacing.start (Store.init nMaxCacheSize nWritebackTime conn)) actions := by
  intro h
  have horder : Pacing.InOrder StoreAction.time (Runs.run
      (Store.recordEvictions PlayerBase.runtime (.constant (.done 0 1)))
      (Pacing.start (Store.init 1 60 ⟨true, (), 0, []⟩)) fullCache) (.tick 20 ⟨[6], 0⟩) := by
    intro _ htime
    obtain rfl := Option.some.inj htime
    decide
  have hevicts := (Runs.guarded_append.mp (h Unit PlayerBase.runtime (.constant (.done 0 1)) 1 60
    ⟨true, (), 0, []⟩ (fullCache ++ [.tick 20 ⟨[6], 0⟩])
    (Runs.guarded_append.mpr ⟨fullCache_inOrder, horder, trivial⟩))).2.1
  have hone := (hevicts (by decide) (by decide)).1 (by decide) 6 1 (by decide)
  have hgone := congrArg (fun map => map[(6 : Nat)]?) hone.cache
  revert hgone
  decide

end Db
