import DbService.AwaitingRecords
import DbService.TickPacing

/-!
# What a flush promises

A flush is to write every modification that is not written yet, of one id or of all, and
then, by its type, to keep the records or to drop them.  The code writes what it finds: the
cached object of the one id, or, for all ids, what is in the dirty map, unless the pacing of
the timed passes holds the pass back.  It never looks at the type.  A flush of a cache that is
off does nothing, and the maps of such a cache need not be empty: its limit may have been lowered
while records were dirty.

* `full_flush_complete_iff` -- when a flush of all is complete;
* `flushFindsAll_iff_paced` -- with the cache on, pacing alone decides;
* `flush_means_type_iff` -- when a FLUSH does what its type says;
* `last_flush_held_back`, `normal_flush_drops` -- where they do not.
-/

namespace Db

open Reflection ByteText

namespace CDbCacheMgr

variable {σ : Type} {pb : Runtime} {srv : Server σ} {mgr : CDbCacheMgr} {nID nDataID : Nat}

/-- The object has the record, modified and readable, with the bytes. -/
def HoldsBytes (pb : Runtime) (mgr : CDbCacheMgr) (pObject nDataID : Nat) (szData : Bytes) :
    Prop :=
  ∃ sHeld, (mgr.objects pObject).m_mapCacheInfo[nDataID]? = some sHeld ∧ sHeld.nTime ≠ 0 ∧
    sHeld.szData = szData ∧ Readable pb mgr nDataID sHeld

/-- One of the UPDATEs carries the record with the bytes. -/
def Wrote (writes : List WriteEvent) (nID nDataID : Nat) (szData : Bytes) : Prop :=
  ∃ w ∈ writes, w.nID = nID ∧ w.info.nDataID = nDataID ∧ w.info.szData = szData

/-! ## What the passes of a flush write -/

/-- The forced pass writes what the dirty map holds. -/
theorem writeback_wrote_iff (pb : Runtime) (srv : Server σ) (hpass : mgr.makesPass 0 = true)
    (szData : Bytes) (conn : CDbConnection σ) :
    Wrote (mgr.writeback pb srv 0 conn).2.1 nID nDataID szData ↔
      ∃ pObject, mgr.m_mapDirtyCache[nID]? = some pObject ∧
        HoldsBytes pb mgr pObject nDataID szData := by
  simp only [makesPass, Bool.and_eq_true, Bool.not_eq_true'] at hpass
  constructor
  · rintro ⟨w, hw, rfl, rfl, rfl⟩
    obtain ⟨hdirty, sHeld, hrecord, hmodified, _, hdata, hreadable⟩ := mem_writeback hw
    exact ⟨w.pDbCache, hdirty, sHeld, hrecord, hmodified, hdata.symm, hreadable⟩
  · rintro ⟨pObject, hdirty, sHeld, hrecord, hmodified, rfl, hreadable⟩
    have hdue : CDbCache.isDue 0 sHeld = true := by simp [CDbCache.isDue]
    obtain ⟨w, hw, hid, _, hname, hdata⟩ := writeback_complete srv hpass.1 hpass.2
      ⟨hdirty, hrecord, hmodified⟩ hdue hreadable conn
    exact ⟨w, hw, hid, hname, hdata⟩

/-- The pass over one object writes what that holds. -/
theorem writebackObject_wrote_iff (pb : Runtime) (srv : Server σ) (mgr : CDbCacheMgr)
    (nID pObject nDataID : Nat) (szData : Bytes) (conn : CDbConnection σ) :
    Wrote (mgr.writebackObject pb srv nID pObject 0 conn).2.1 nID nDataID szData ↔
      HoldsBytes pb mgr pObject nDataID szData := by
  constructor
  · rintro ⟨w, hw, _, rfl, rfl⟩
    obtain ⟨_, rfl, sHeld, hrecord, hmodified, _, hdata, hreadable⟩ := mem_writebackObject hw
    exact ⟨sHeld, hrecord, hmodified, hdata.symm, hreadable⟩
  · rintro ⟨sHeld, hrecord, hmodified, rfl, hreadable⟩
    have hdue : CDbCache.isDue 0 sHeld = true := by simp [CDbCache.isDue]
    obtain ⟨w, hw, hid, _, hname, hdata⟩ :=
      writebackObject_complete srv hrecord hmodified hdue hreadable conn
    exact ⟨w, hw, hid, hname, hdata⟩

/-- A pass that is held back writes nothing. -/
theorem writeback_held_back (hpass : mgr.makesPass 0 = false) (conn : CDbConnection σ) :
    mgr.writeback pb srv 0 conn = (mgr, [], conn) := by
  rcases writeback_cases pb srv mgr 0 conn with ⟨_, heq⟩ | ⟨hon, hpaced, _⟩
  · exact heq
  · simp [makesPass, hon, hpaced] at hpass

theorem flushCache_disabled (hoff : mgr.isDisabled = true) (nKey : Nat) (bDel : Bool)
    (conn : CDbConnection σ) : mgr.flushCache pb srv nKey bDel conn = (mgr, [], conn) := by
  simp [flushCache, hoff]

theorem flushCache_all (hon : mgr.isDisabled = false) (bDel : Bool) (conn : CDbConnection σ) :
    mgr.flushCache pb srv 0 bDel conn =
      ({ (mgr.writeback pb srv 0 conn).1 with m_mapCache := ∅ },
        (mgr.writeback pb srv 0 conn).2) := by
  simp [flushCache, hon]

/-- The guard of a forced pass: the last pass was no less than the interval after the epoch. -/
theorem makesPass_forced (mgr : CDbCacheMgr) :
    mgr.makesPass 0 = true ↔ mgr.isDisabled = false ∧ (mgr.m_nLastWritebackTime = 0 ∨
      mgr.m_nWritebackTime ≤ mgr.m_nLastWritebackTime % 2 ^ 64) := by
  have hguard : subUInt64 mgr.m_nLastWritebackTime 0 = mgr.m_nLastWritebackTime % 2 ^ 64 := by
    simp [subUInt64]
  simp only [makesPass, isPaced, hguard, Bool.and_eq_true, Bool.not_eq_true',
    Bool.and_eq_false_iff, bne_eq_false_iff_eq, decide_eq_false_iff_not, not_lt]

end CDbCacheMgr

namespace Store

open CDbCacheMgr

variable {σ : Type} (pb : Runtime) (srv : Server σ)

/-- **A flush of all is complete,** which leaves `flushed` and has issued `writes`: every record
with an unwritten modification is written as it is now, no record that needs writing is left in
the dirty map, and the pass is not held back. -/
structure FlushComplete (l : Logged σ) (flushed : CDbCacheMgr) (writes : List WriteEvent) :
    Prop where
  written : ∀ nID pObject nDataID sCacheInfo, Awaits l nID pObject nDataID sCacheInfo →
    Wrote writes nID nDataID sCacheInfo.szData
  clean : ∀ nID pObject nDataID sCacheInfo, Scheduled flushed nID pObject nDataID sCacheInfo →
    ¬ Ledger.Unwritten (l.events ++ (writtenRecords writes).map .written) (nID, nDataID)
  forced : l.store.m_dbCacheMgr.isDisabled = false → l.store.m_dbCacheMgr.makesPass 0 = true

/-- With the cache on the last pass was at time 0 or no less than the interval after it, and the
dirty map holds every record with an unwritten modification as it is now; with the cache off there
is no such record. -/
def FlushFindsAll (l : Logged σ) : Prop :=
  if l.store.m_dbCacheMgr.isDisabled then
    ∀ nID pObject nDataID sCacheInfo, ¬ Awaits l nID pObject nDataID sCacheInfo
  else
    (l.store.m_dbCacheMgr.m_nLastWritebackTime = 0 ∨
        l.store.m_dbCacheMgr.m_nWritebackTime ≤
          l.store.m_dbCacheMgr.m_nLastWritebackTime % 2 ^ 64) ∧
      ∀ nID pObject nDataID sCacheInfo, Awaits l nID pObject nDataID sCacheInfo →
        ∃ pFlushed, l.store.m_dbCacheMgr.m_mapDirtyCache[nID]? = some pFlushed ∧
          HoldsBytes pb l.store.m_dbCacheMgr pFlushed nDataID sCacheInfo.szData

/-- The command for a FLUSH of a key, with 0 for all. -/
def flushRequest (sDbCommand : SDbCommand) (nKey : Nat) (type : EFlushCacheType) : SDbCommand :=
  { sDbCommand with nType := .kOT_FLUSH, pMessage := some (.flush_command nKey type.code) }

/-- The ids that a FLUSH of a key is about. -/
def InScope (nKey nID : Nat) : Prop := nKey = 0 ∨ nID = nKey

/-- **What a FLUSH of a type promises,** which leaves `flushed` and has issued `writes`: the
unwritten modifications in scope are written; of the ids in scope the records stay cached with
their bytes, or the ids leave both maps; the other ids are left alone. -/
structure FlushMeans (l : Logged σ) (flushed : CDbCacheMgr) (writes : List WriteEvent) (nKey : Nat)
    (type : EFlushCacheType) : Prop where
  written : ∀ nID pObject nDataID sCacheInfo, InScope nKey nID →
    Awaits l nID pObject nDataID sCacheInfo → Wrote writes nID nDataID sCacheInfo.szData
  normal : type = .kFCT_NORMAL → ∀ nID nDataID, InScope nKey nID →
    (flushed.record nID nDataID).map SCacheInfo.szData =
      (l.store.m_dbCacheMgr.record nID nDataID).map SCacheInfo.szData
  deleted : type = .kFCT_DEL → ∀ nID, InScope nKey nID →
    flushed.m_mapCache[nID]? = none ∧ flushed.m_mapDirtyCache[nID]? = none
  others : ∀ nID, ¬ InScope nKey nID → SameAt l.store.m_dbCacheMgr flushed nID

/-- The object in which a FLUSH of a key looks for the modifications of an id. -/
def flushedObject (mgr : CDbCacheMgr) (nKey nID : Nat) : Option Nat :=
  if mgr.isDisabled then none
  else if nKey ≠ 0 then mgr.m_mapCache[nID]?
  else if mgr.makesPass 0 then mgr.m_mapDirtyCache[nID]?
  else none

/-- No id in scope is in one of the maps after a FLUSH: with the cache off none was; otherwise the
id was not scheduled, or, for all ids, the pass is made or nothing was scheduled. -/
def Leaves (mgr : CDbCacheMgr) (nKey : Nat) : Prop :=
  if mgr.isDisabled then
    ∀ nID : Nat, InScope nKey nID → mgr.m_mapCache[nID]? = none ∧ mgr.m_mapDirtyCache[nID]? = none
  else if nKey = 0 then mgr.makesPass 0 = true ∨ ∀ nID : Nat, mgr.m_mapDirtyCache[nID]? = none
  else mgr.m_mapDirtyCache[nKey]? = none

/-- When a FLUSH does what its type says: the unwritten modifications in scope are in the object
in which it looks for them; a FLUSH that is to keep the records finds none in scope, unless the
cache is off; and one that is to drop the ids in scope leaves none of them. -/
structure FlushFits (l : Logged σ) (nKey : Nat) (type : EFlushCacheType) : Prop where
  found : ∀ nID pObject nDataID sCacheInfo, InScope nKey nID →
    Awaits l nID pObject nDataID sCacheInfo →
    ∃ pFlushed, flushedObject l.store.m_dbCacheMgr nKey nID = some pFlushed ∧
      HoldsBytes pb l.store.m_dbCacheMgr pFlushed nDataID sCacheInfo.szData
  normal : type = .kFCT_NORMAL → l.store.m_dbCacheMgr.isDisabled = false →
    ∀ nID nDataID, InScope nKey nID → l.store.m_dbCacheMgr.record nID nDataID = none
  deleted : type = .kFCT_DEL → Leaves l.store.m_dbCacheMgr nKey

variable {pb srv}

theorem flushComplete_iff (l : Logged σ) (bDel : Bool) :
    FlushComplete l (l.store.m_dbCacheMgr.flushCache pb srv 0 bDel l.store.m_dbConnection).1
        (l.store.m_dbCacheMgr.flushCache pb srv 0 bDel l.store.m_dbConnection).2.1 ↔
      FlushFindsAll pb l := by
  cases hdisabled : l.store.m_dbCacheMgr.isDisabled with
  | true =>
      rw [flushCache_disabled hdisabled, FlushFindsAll, if_pos hdisabled]
      constructor
      · intro hcomplete nID pObject nDataID sCacheInfo hawaits
        obtain ⟨w, hw, _⟩ := hcomplete.written _ _ _ _ hawaits
        exact absurd hw List.not_mem_nil
      · intro hnone
        refine ⟨fun _ _ _ _ hawaits => absurd hawaits (hnone _ _ _ _), ?_,
          fun hon => absurd (hdisabled.symm.trans hon) (by decide)⟩
        -- what needs writing and is scheduled awaits its write
        intro nID pObject nDataID sCacheInfo hscheduled hunwritten
        rw [writtenRecords, List.map_nil, List.map_nil, List.append_nil] at hunwritten
        exact hnone nID pObject nDataID sCacheInfo
          ⟨.inr hscheduled.1, hscheduled.2.1, hscheduled.2.2, hunwritten⟩
  | false =>
      have hforced := makesPass_forced l.store.m_dbCacheMgr
      simp only [hdisabled, true_and] at hforced
      simp only [FlushFindsAll, hdisabled, Bool.false_eq_true, if_false, ← hforced]
      rw [flushCache_all hdisabled]
      constructor
      · intro hcomplete
        have hpass := hcomplete.forced hdisabled
        refine ⟨hpass, fun _ _ _ _ hawaits => ?_⟩
        exact (writeback_wrote_iff pb srv hpass _ _).mp (hcomplete.written _ _ _ _ hawaits)
      · intro hcase
        obtain ⟨hpass, hfinds⟩ := hcase
        have hpaced : l.store.m_dbCacheMgr.isPaced 0 = false := by
          simpa [CDbCacheMgr.makesPass, hdisabled] using hpass
        constructor
        · exact fun _ _ _ _ hawaits =>
            (writeback_wrote_iff pb srv hpass _ _).mpr (hfinds _ _ _ _ hawaits)
        · intro nID pObject nDataID sCacheInfo hscheduled
          have hdirty := hscheduled.1
          rw [writeback_forced_dirty hdisabled hpaced] at hdirty
          simp at hdirty
        · exact fun _ => hpass

/-- **The last pass decides** while the cache is on, in a run whose messages are of known types and
whose data names have room: everything else is found. -/
theorem flushFindsAll_iff_paced (hpb : pb.Lawful) {nMaxCacheSize nWritebackTime : Nat}
    {conn : CDbConnection σ} {actions : List LimitAction}
    (henters : Runs.Guarded (logLimit pb srv)
      (fun l => l.store.EntersLimit pb srv fun _ _ => True)
      (logFrom (init nMaxCacheSize nWritebackTime conn)) actions) :
    let l := Runs.run (logLimit pb srv)
      (logFrom (init nMaxCacheSize nWritebackTime conn)) actions
    l.store.m_dbCacheMgr.isDisabled = false →
      (FlushFindsAll pb l ↔
        l.store.m_dbCacheMgr.m_nLastWritebackTime = 0 ∨
          l.store.m_dbCacheMgr.m_nWritebackTime ≤
            l.store.m_dbCacheMgr.m_nLastWritebackTime % 2 ^ 64) := by
  intro l hon
  simp only [FlushFindsAll, hon, Bool.false_eq_true, if_false]
  refine ⟨And.left, fun hpaced => ⟨hpaced, fun nID pObject nDataID sCacheInfo hawaits => ?_⟩⟩
  obtain ⟨hdirty, hreadable⟩ := run_awaits_scheduled hpb henters hawaits
  exact ⟨pObject, hdirty, sCacheInfo, hawaits.record, hawaits.modified, rfl, hreadable⟩

/-- A FLUSH with its message is a call of `flushCache`. -/
theorem process_flushRequest (pb : Runtime) (srv : Server σ) (st : Store σ)
    (sDbCommand : SDbCommand) (clock : Clock) (nKey : Nat) (type : EFlushCacheType) :
    st.process pb srv (flushRequest sDbCommand nKey type) clock =
      let flushed := st.m_dbCacheMgr.flushCache pb srv nKey
        (type.code == EFlushCacheType.kFCT_DEL.code) st.m_dbConnection
      (⟨flushed.1, flushed.2.2⟩, .flushed, flushed.2.1) := rfl

/-- The parts of a promise. -/
theorem flushMeans_iff_of {l : Logged σ} {flushed : CDbCacheMgr} {writes : List WriteEvent}
    {nKey : Nat} (type : EFlushCacheType)
    (hwritten : ∀ nID nDataID szData, InScope nKey nID → (Wrote writes nID nDataID szData ↔
      ∃ pObject, flushedObject l.store.m_dbCacheMgr nKey nID = some pObject ∧
        HoldsBytes pb l.store.m_dbCacheMgr pObject nDataID szData))
    (hnormal : ∀ nID nDataID, InScope nKey nID →
      ((flushed.record nID nDataID).map SCacheInfo.szData =
          (l.store.m_dbCacheMgr.record nID nDataID).map SCacheInfo.szData ↔
        (l.store.m_dbCacheMgr.isDisabled = false →
          l.store.m_dbCacheMgr.record nID nDataID = none)))
    (hdeleted : (∀ nID, InScope nKey nID →
        flushed.m_mapCache[nID]? = none ∧ flushed.m_mapDirtyCache[nID]? = none) ↔
      Leaves l.store.m_dbCacheMgr nKey)
    (hothers : ∀ nID, ¬ InScope nKey nID → SameAt l.store.m_dbCacheMgr flushed nID) :
    FlushMeans l flushed writes nKey type ↔ FlushFits pb l nKey type := by
  constructor
  · intro hmeans
    exact ⟨fun nID pObject nDataID s hscope hawaits => (hwritten nID nDataID s.szData hscope).mp
        (hmeans.written nID pObject nDataID s hscope hawaits),
      fun htype hon nID nDataID hscope =>
        (hnormal nID nDataID hscope).mp (hmeans.normal htype nID nDataID hscope) hon,
      fun htype => hdeleted.mp (hmeans.deleted htype)⟩
  · intro hfits
    exact ⟨fun nID pObject nDataID s hscope hawaits => (hwritten nID nDataID s.szData hscope).mpr
        (hfits.found nID pObject nDataID s hscope hawaits),
      fun htype nID nDataID hscope => (hnormal nID nDataID hscope).mpr
        fun hon => hfits.normal htype hon nID nDataID hscope,
      fun htype => hdeleted.mpr (hfits.deleted htype), hothers⟩

/-- A FLUSH of a cache that is off. -/
theorem flushMeans_off {l : Logged σ} (hoff : l.store.m_dbCacheMgr.isDisabled = true) (nKey : Nat)
    (type : EFlushCacheType) :
    FlushMeans l l.store.m_dbCacheMgr [] nKey type ↔ FlushFits pb l nKey type := by
  apply flushMeans_iff_of
  · intro nID nDataID szData _
    simp [Wrote, flushedObject, hoff]
  · intro nID nDataID _
    simp [hoff]
  · simp [Leaves, hoff]
  · exact fun nID _ => ⟨rfl, rfl, fun _ _ => rfl⟩

/-- A FLUSH of an id that is not cached. -/
theorem flushMeans_uncached {l : Logged σ} (hon : l.store.m_dbCacheMgr.isDisabled = false)
    {nKey : Nat} (hkey : nKey ≠ 0) (huncached : l.store.m_dbCacheMgr.m_mapCache[nKey]? = none)
    (type : EFlushCacheType) :
    FlushMeans l l.store.m_dbCacheMgr [] nKey type ↔ FlushFits pb l nKey type := by
  have hcache : ∀ nID, InScope nKey nID → l.store.m_dbCacheMgr.m_mapCache[nID]? = none :=
    fun nID hscope => (hscope.resolve_left hkey) ▸ huncached
  apply flushMeans_iff_of
  · intro nID nDataID szData hscope
    simp [Wrote, flushedObject, hon, hkey, hcache nID hscope]
  · exact fun nID nDataID hscope =>
      iff_of_true rfl fun _ => record_of_uncached (hcache nID hscope) nDataID
  · rw [Leaves, hon, if_neg Bool.false_ne_true, if_neg hkey]
    constructor
    · exact fun hgone => (hgone nKey (.inr rfl)).2
    · intro hdirty nID hscope
      have hid : nID = nKey := hscope.resolve_left hkey
      exact ⟨hcache nID hscope, hid ▸ hdirty⟩
  · exact fun nID _ => ⟨rfl, rfl, fun _ _ => rfl⟩

/-- A FLUSH of a cached id. -/
theorem flushMeans_one {l : Logged σ} (hon : l.store.m_dbCacheMgr.isDisabled = false)
    {nKey pObject : Nat} (hkey : nKey ≠ 0)
    (hcached : l.store.m_dbCacheMgr.m_mapCache[nKey]? = some pObject) (type : EFlushCacheType) :
    FlushMeans l
        { l.store.m_dbCacheMgr with m_mapCache := l.store.m_dbCacheMgr.m_mapCache.erase nKey }
        (l.store.m_dbCacheMgr.writebackObject pb srv nKey pObject 0 l.store.m_dbConnection).2.1
        nKey type ↔
      FlushFits pb l nKey type := by
  apply flushMeans_iff_of
  · intro nID nDataID szData hscope
    have hid : nID = nKey := hscope.resolve_left hkey
    subst hid
    simp [writebackObject_wrote_iff, flushedObject, hon, hkey, hcached]
  · intro nID nDataID hscope
    have hid : nID = nKey := hscope.resolve_left hkey
    subst hid
    rw [record_of_uncached (by simp), Option.map_none, eq_comm, Option.map_eq_none_iff]
    exact ⟨fun hnone _ => hnone, fun h => h hon⟩
  · rw [Leaves, hon, if_neg Bool.false_ne_true, if_neg hkey]
    constructor
    · exact fun hgone => (hgone nKey (.inr rfl)).2
    · intro hdirty nID hscope
      have hid : nID = nKey := hscope.resolve_left hkey
      subst hid
      exact ⟨by simp, hdirty⟩
  · intro nID hscope
    have hne : nKey ≠ nID := fun heq => hscope (.inr heq.symm)
    exact ⟨by simp [Std.ExtTreeMap.getElem?_erase, hne], rfl, fun _ _ => rfl⟩

/-- A FLUSH of all ids. -/
theorem flushMeans_all {l : Logged σ} (hon : l.store.m_dbCacheMgr.isDisabled = false)
    (type : EFlushCacheType) :
    FlushMeans l
        { (l.store.m_dbCacheMgr.writeback pb srv 0 l.store.m_dbConnection).1 with
          m_mapCache := ∅ }
        (l.store.m_dbCacheMgr.writeback pb srv 0 l.store.m_dbConnection).2.1 0 type ↔
      FlushFits pb l 0 type := by
  apply flushMeans_iff_of
  · intro nID nDataID szData _
    cases hpass : l.store.m_dbCacheMgr.makesPass 0 with
    | true => simp [writeback_wrote_iff pb srv hpass, flushedObject, hon, hpass]
    | false => simp [writeback_held_back hpass, Wrote, flushedObject, hon, hpass]
  · intro nID nDataID _
    rw [record_of_uncached (by simp), Option.map_none, eq_comm, Option.map_eq_none_iff]
    exact ⟨fun hnone _ => hnone, fun h => h hon⟩
  · rw [Leaves, hon, if_neg Bool.false_ne_true, if_pos rfl]
    cases hpass : l.store.m_dbCacheMgr.makesPass 0 with
    | true =>
        have hpaced : l.store.m_dbCacheMgr.isPaced 0 = false := by
          simpa [CDbCacheMgr.makesPass, hon] using hpass
        refine iff_of_true (fun nID _ => ⟨by simp, ?_⟩) (.inl rfl)
        simp [writeback_forced_dirty hon hpaced]
    | false =>
        rw [writeback_held_back hpass]
        simp [InScope]
  · exact fun nID hscope => absurd (.inl rfl) hscope

/-- **A FLUSH does what its type says** exactly if it fits. -/
theorem flushMeans_iff (l : Logged σ) (nKey : Nat) (bDel : Bool) (type : EFlushCacheType) :
    FlushMeans l (l.store.m_dbCacheMgr.flushCache pb srv nKey bDel l.store.m_dbConnection).1
        (l.store.m_dbCacheMgr.flushCache pb srv nKey bDel l.store.m_dbConnection).2.1 nKey type ↔
      FlushFits pb l nKey type := by
  cases hdisabled : l.store.m_dbCacheMgr.isDisabled with
  | true =>
      rw [flushCache_disabled hdisabled]
      exact flushMeans_off hdisabled nKey type
  | false =>
      rcases flushCache_cases pb srv l.store.m_dbCacheMgr nKey bDel l.store.m_dbConnection with
        ⟨hnothing, heq⟩ | ⟨pObject, _, hkey, hcached, heq⟩ | ⟨_, rfl, heq⟩
      · obtain ⟨hkey, huncached⟩ :=
          hnothing.resolve_left fun hoff => Bool.false_ne_true (hdisabled.symm.trans hoff)
        rw [heq]
        exact flushMeans_uncached hdisabled hkey huncached type
      · rw [heq]
        exact flushMeans_one hdisabled hkey hcached type
      · rw [heq]
        exact flushMeans_all hdisabled type

end Store

/-- **The flush of all, exactly.**  In every state that a run reaches, changes of the limit among
its steps, the flush is complete if and only if its pass is not held back by the time of the last
one and the dirty map holds every record that is to be written, or the cache is off and there is
no such record. -/
theorem full_flush_complete_iff {σ : Type} (pb : Runtime) (srv : Server σ)
    (nMaxCacheSize nWritebackTime : Nat) (conn : CDbConnection σ) (actions : List LimitAction)
    (bDel : Bool) :
    let l := Runs.run (Store.logLimit pb srv)
      (Store.logFrom (Store.init nMaxCacheSize nWritebackTime conn)) actions
    let flushed := l.store.m_dbCacheMgr.flushCache pb srv 0 bDel l.store.m_dbConnection
    Store.FlushComplete l flushed.1 flushed.2.1 ↔ Store.FlushFindsAll pb l :=
  Store.flushComplete_iff _ bDel

/-- The interval is the longest one, a pass was made at 1700000000, and then player 5 is inserted
and updated in the cache. -/
def updatedAfterPass : List LimitAction :=
  let m : Message := .row (PlayerBase.player 5 [97])
  [.store (.tick 1700000000 ⟨[], 0⟩),
    .store (.command ⟨0, .kOT_INSERT, 0, 0, some m⟩ ⟨1700000001, 1700000001⟩),
    .store (.command ⟨0, .kOT_UPDATE, 0, 0, some m⟩ ⟨1700000001, 1700000001⟩)]

/-- The last flush is held back, and the update is lost. -/
theorem last_flush_held_back :
    ¬ ∀ (σ : Type) (pb : Runtime) (srv : Server σ) (nMaxCacheSize nWritebackTime : Nat)
        (conn : CDbConnection σ) (actions : List LimitAction) (bDel : Bool),
      let l := Runs.run (Store.logLimit pb srv)
        (Store.logFrom (Store.init nMaxCacheSize nWritebackTime conn)) actions
      let flushed := l.store.m_dbCacheMgr.flushCache pb srv 0 bDel l.store.m_dbConnection
      flushed.2.2.Succeeded → Store.FlushComplete l flushed.1 flushed.2.1 := by
  intro h
  have hcomplete := h Unit PlayerBase.runtime (.constant (.done 0 1)) 1000 (2 ^ 32 - 1)
    ⟨true, (), 0, []⟩ updatedAfterPass true (by decide)
  obtain ⟨sCacheInfo, hrecord, hmodified⟩ : ∃ sCacheInfo, ((Runs.run
      (Store.logLimit PlayerBase.runtime (.constant (.done 0 1)))
      (Store.logFrom (Store.init 1000 (2 ^ 32 - 1) ⟨true, (), 0, []⟩))
      updatedAfterPass).store.m_dbCacheMgr.objects 0).m_mapCacheInfo[1]? = some sCacheInfo ∧
        sCacheInfo.nTime ≠ 0 := ⟨_, rfl, by decide⟩
  obtain ⟨w, hw, _⟩ := hcomplete.written 5 0 1 sCacheInfo
    ⟨.inl (by decide), hrecord, hmodified, ⟨[], [], by decide, List.not_mem_nil⟩⟩
  exact absurd hw List.not_mem_nil

/-- **What a FLUSH does, exactly.**  In every state that a run reaches, changes of the limit among
its steps, a FLUSH of one id or of all does what its type says if and only if it fits: it finds the
unwritten modifications, there is no record that it is to keep but drops, and none of the ids that
it is to drop is left. -/
theorem flush_means_type_iff {σ : Type} (pb : Runtime) (srv : Server σ)
    (nMaxCacheSize nWritebackTime : Nat) (conn : CDbConnection σ) (actions : List LimitAction)
    (sDbCommand : SDbCommand) (clock : Clock) (nKey : Nat) (type : EFlushCacheType) :
    let l := Runs.run (Store.logLimit pb srv)
      (Store.logFrom (Store.init nMaxCacheSize nWritebackTime conn)) actions
    let flushed := l.store.process pb srv (Store.flushRequest sDbCommand nKey type) clock
    Store.FlushMeans l flushed.1.m_dbCacheMgr flushed.2.2 nKey type ↔
      Store.FlushFits pb l nKey type := by
  intro l flushed
  simp only [flushed, Store.process_flushRequest]
  exact Store.flushMeans_iff l nKey _ type

/-- Player 5 is inserted. -/
def insertedPlayer : List LimitAction :=
  [.store (.command ⟨0, .kOT_INSERT, 0, 0, some (.row (PlayerBase.player 5 [97]))⟩ ⟨1, 1⟩)]

/-- A FLUSH of player 5 that is to keep it in the cache drops it. -/
theorem normal_flush_drops :
    ¬ ∀ (σ : Type) (pb : Runtime) (srv : Server σ) (nMaxCacheSize nWritebackTime : Nat)
        (conn : CDbConnection σ) (actions : List LimitAction) (sDbCommand : SDbCommand)
        (clock : Clock) (nKey : Nat) (type : EFlushCacheType),
      let l := Runs.run (Store.logLimit pb srv)
        (Store.logFrom (Store.init nMaxCacheSize nWritebackTime conn)) actions
      let flushed := l.store.process pb srv (Store.flushRequest sDbCommand nKey type) clock
      flushed.1.m_dbConnection.Succeeded →
        Store.FlushMeans l flushed.1.m_dbCacheMgr flushed.2.2 nKey type := by
  intro h
  have hmeans := h Unit PlayerBase.runtime (.constant (.done 0 1)) 1000 60 ⟨true, (), 0, []⟩
    insertedPlayer ⟨0, .kOT_FLUSH, 0, 0, none⟩ ⟨2, 2⟩ 5 .kFCT_NORMAL (by decide)
  have hkept := hmeans.normal rfl 5 1 (.inr rfl)
  obtain ⟨sCacheInfo, hcached⟩ : ∃ sCacheInfo, (Runs.run
      (Store.logLimit PlayerBase.runtime (.constant (.done 0 1)))
      (Store.logFrom (Store.init 1000 60 ⟨true, (), 0, []⟩))
      insertedPlayer).store.m_dbCacheMgr.record 5 1 = some sCacheInfo := ⟨_, rfl⟩
  rw [hcached] at hkept
  have hgone : none = some sCacheInfo.szData := hkept
  cases hgone

end Db
