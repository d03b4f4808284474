import DbService.StoreRuns
import DbService.PlayerBase

/-!
# Failed write-backs

A record waits for a later pass while it is modified and its object is in the dirty map
(`Scheduled`).  `KeepsFailures` is what a pass owes its records: one whose UPDATE failed is
still scheduled, and none leaves the dirty map without an UPDATE that was accepted.  Whether
a pass does so depends on what it does with the dirty entry of the object it writes: a timed
pass keeps it only while another record of the object is not due yet, a flush of one id
leaves it as it is, and an eviction and a flush of all ids always drop it.

* `writeback_keeps_iff`, `cleanCache_keeps_iff`, `flushCache_keeps_iff` -- the three passes,
  exactly;
* `step_scheduled` -- one action;
* `failed_writebacks_kept_iff` -- whole runs;
* `failed_writeback_forgotten` -- a record whose UPDATE failed and is not tried again.
-/

namespace Db

open Reflection ByteText

namespace CDbCacheMgr

variable {σ : Type} {pb : Runtime} {srv : Server σ} {mgr : CDbCacheMgr}

/-- A modified record of an object that is in the dirty map under `nID`. -/
def Scheduled (mgr : CDbCacheMgr) (nID pObject nDataID : Nat) (sCacheInfo : SCacheInfo) : Prop :=
  mgr.m_mapDirtyCache[nID]? = some pObject ∧
    (mgr.objects pObject).m_mapCacheInfo[nDataID]? = some sCacheInfo ∧ sCacheInfo.nTime ≠ 0

/-- **What a pass owes its records.**  A record whose UPDATE failed is scheduled afterwards,
and a scheduled record stays so unless an UPDATE with its bytes was accepted. -/
structure KeepsFailures (mgr mgr' : CDbCacheMgr) (writes : List WriteEvent) : Prop where
  failed : ∀ w ∈ writes, w.info.nErrorCode ≠ .kRC_OK →
    ∃ sCacheInfo, sCacheInfo.szData = w.info.szData ∧
      Scheduled mgr' w.nID w.pDbCache w.info.nDataID sCacheInfo
  accepted : ∀ nID pObject nDataID sCacheInfo,
    Scheduled mgr nID pObject nDataID sCacheInfo →
    Scheduled mgr' nID pObject nDataID sCacheInfo ∨
      ∃ w ∈ writes, w.nID = nID ∧ w.pDbCache = pObject ∧ w.info.nDataID = nDataID ∧
        w.info.szData = sCacheInfo.szData ∧ w.info.nErrorCode = .kRC_OK

/-- The data name and the bytes of a record can be read back. -/
def Readable (pb : Runtime) (mgr : CDbCacheMgr) (nDataID : Nat) (sCacheInfo : SCacheInfo) :
    Prop :=
  (CDbCache.recordMessage pb mgr.getDataName nDataID sCacheInfo.szData).isSome

/-- Every modified record of the object can be read back. -/
def AllReadable (pb : Runtime) (mgr : CDbCacheMgr) (pObject : Nat) : Prop :=
  ∀ (nDataID : Nat) sCacheInfo,
    (mgr.objects pObject).m_mapCacheInfo[nDataID]? = some sCacheInfo → sCacheInfo.nTime ≠ 0 →
    Readable pb mgr nDataID sCacheInfo

/-- Some modified record of the object is left by a pass at `nTime` for later. -/
def Waits (mgr : CDbCacheMgr) (pObject nTime : Nat) : Prop :=
  ∃ (nDataID : Nat) (sCacheInfo : SCacheInfo),
    (mgr.objects pObject).m_mapCacheInfo[nDataID]? = some sCacheInfo ∧
      CDbCache.isWaiting nTime sCacheInfo = true

/-- The messages a pass at `nTime` has to send for the records of an object. -/
def recordUpdates (pb : Runtime) (getDataName : Nat → String) (nTime : Nat)
    (records : List (Nat × SCacheInfo)) : List RowMessage :=
  records.filterMap fun record =>
    if record.2.nTime = 0 ∨ CDbCache.isDue nTime record.2 = false then none
    else CDbCache.recordMessage pb getDataName record.1 record.2.szData

/-- The messages a pass at `nTime` has to send for a list of entries, with their ids. -/
def updates (pb : Runtime) (mgr : CDbCacheMgr) (nTime : Nat) (entries : List (Nat × Nat)) :
    List (Nat × RowMessage) :=
  entries.flatMap fun entry =>
    (recordUpdates pb mgr.getDataName nTime
      (mgr.objects entry.2).m_mapCacheInfo.toList).map fun m => (entry.1, m)

/-- What UPDATEs that are sent one after the other are answered. -/
def answers (pb : Runtime) (srv : Server σ) :
    List (Nat × RowMessage) → CDbConnection σ → List (Nat × EResultCode) × CDbConnection σ
  | [], conn => ([], conn)
  | (nID, m) :: rest, conn =>
      let (nErrorCode, _, conn') :=
        CDbCommandHandlerProxy.onDbCommand pb srv .kOT_UPDATE (.row m) conn
      let (codes, conn'') := answers pb srv rest conn'
      ((nID, nErrorCode) :: codes, conn'')

/-- The database accepts every UPDATE for `nID` when these are sent to it. -/
def Accepts (pb : Runtime) (srv : Server σ) (conn : CDbConnection σ)
    (messages : List (Nat × RowMessage)) (nID : Nat) : Prop :=
  ∀ answer ∈ (answers pb srv messages conn).1, answer.1 = nID → answer.2 = .kRC_OK

/-! ## Every due record is written -/

/-- A record that was modified, is due and can be read is written in a pass over the records. -/
theorem writebackRecords_complete (srv : Server σ) {getDataName : Nat → String}
    {nTime nDataID : Nat} {sCacheInfo : SCacheInfo} {records : List (Nat × SCacheInfo)}
    (hin : (nDataID, sCacheInfo) ∈ records) (hmodified : sCacheInfo.nTime ≠ 0)
    (hdue : CDbCache.isDue nTime sCacheInfo = true)
    (hreadable : (CDbCache.recordMessage pb getDataName nDataID sCacheInfo.szData).isSome)
    (conn : CDbConnection σ) :
    ∃ info ∈ (CDbCache.writebackFrom pb srv getDataName nTime records conn).1,
      info.nDataID = nDataID ∧ info.szData = sCacheInfo.szData := by
  induction records generalizing conn with
  | nil => simp at hin
  | cons record rest ih =>
      obtain ⟨nDataID', sCacheInfo'⟩ := record
      unfold CDbCache.writebackFrom
      rcases List.mem_cons.mp hin with heq | hrest
      · cases heq
        obtain ⟨m, hm⟩ := Option.isSome_iff_exists.mp hreadable
        rw [if_neg (by simp [hmodified, hdue]), hm]
        exact ⟨_, List.mem_cons_self, rfl, rfl⟩
      · split
        · exact ih hrest conn
        · split
          · exact ih hrest conn
          · obtain ⟨info, hmem, heq⟩ := ih hrest _
            exact ⟨info, List.mem_cons_of_mem _ hmem, heq⟩

/-- A due record that can be read is written with the object it belongs to. -/
theorem writebackObject_complete (srv : Server σ) {nID pObject nTime nDataID : Nat}
    {sCacheInfo : SCacheInfo}
    (hrecord : (mgr.objects pObject).m_mapCacheInfo[nDataID]? = some sCacheInfo)
    (hmodified : sCacheInfo.nTime ≠ 0) (hdue : CDbCache.isDue nTime sCacheInfo = true)
    (hreadable : Readable pb mgr nDataID sCacheInfo) (conn : CDbConnection σ) :
    ∃ w ∈ (mgr.writebackObject pb srv nID pObject nTime conn).2.1,
      w.nID = nID ∧ w.pDbCache = pObject ∧ w.info.nDataID = nDataID ∧
        w.info.szData = sCacheInfo.szData := by
  obtain ⟨info, hmem, hid, hdata⟩ := writebackRecords_complete srv
    (Std.ExtTreeMap.mem_toList_iff_getElem?_eq_some.mpr hrecord) hmodified hdue hreadable conn
  exact ⟨⟨nID, pObject, info⟩, List.mem_map_of_mem hmem, rfl, rfl, hid, hdata⟩

/-- Such a record is written in a pass over entries with its object. -/
theorem writebackFrom_complete {nID pObject nTime nDataID : Nat} {sCacheInfo : SCacheInfo}
    {entries : List (Nat × Nat)} (hentry : (nID, pObject) ∈ entries)
    (hrecord : (mgr.objects pObject).m_mapCacheInfo[nDataID]? = some sCacheInfo)
    (hmodified : sCacheInfo.nTime ≠ 0) (hdue : CDbCache.isDue nTime sCacheInfo = true)
    (hreadable : Readable pb mgr nDataID sCacheInfo) (conn : CDbConnection σ) :
    ∃ w ∈ (mgr.writebackFrom pb srv nTime entries conn).2.1,
      w.nID = nID ∧ w.pDbCache = pObject ∧ w.info.nDataID = nDataID ∧
        w.info.szData = sCacheInfo.szData := by
  induction entries generalizing conn with
  | nil => simp at hentry
  | cons entry rest ih =>
      unfold CDbCacheMgr.writebackFrom
      rcases List.mem_cons.mp hentry with rfl | hrest
      · obtain ⟨w, hmem, heq⟩ := writebackObject_complete srv hrecord hmodified hdue hreadable
          conn
        exact ⟨w, List.mem_append_left _ hmem, heq⟩
      · obtain ⟨w, hmem, heq⟩ := ih hrest _
        exact ⟨w, List.mem_append_right _ hmem, heq⟩

/-- A record that does not wait is due. -/
theorem isDue_of_not_waits {pObject nTime nDataID : Nat} {sCacheInfo : SCacheInfo}
    (hwaits : ¬ Waits mgr pObject nTime)
    (hrecord : (mgr.objects pObject).m_mapCacheInfo[nDataID]? = some sCacheInfo)
    (hmodified : sCacheInfo.nTime ≠ 0) : CDbCache.isDue nTime sCacheInfo = true := by
  cases hdue : CDbCache.isDue nTime sCacheInfo with
  | true => rfl
  | false =>
      refine absurd ⟨nDataID, sCacheInfo, hrecord, ?_⟩ hwaits
      simp [CDbCache.isWaiting, hmodified, hdue]

/-! ## The result codes are what the database answers -/

/-- The answers of two lists of statements follow one another. -/
theorem answers_append (pb : Runtime) (srv : Server σ) (left right : List (Nat × RowMessage))
    (conn : CDbConnection σ) :
    answers pb srv (left ++ right) conn =
      ((answers pb srv left conn).1 ++ (answers pb srv right (answers pb srv left conn).2).1,
        (answers pb srv right (answers pb srv left conn).2).2) := by
  induction left generalizing conn with
  | nil => rfl
  | cons message rest ih => simp only [List.cons_append, answers, ih]

/-- The writes of an object are answered as its statements are, -/
theorem writebackRecords_answers (pb : Runtime) (srv : Server σ) (getDataName : Nat → String)
    (nTime nID : Nat) (records : List (Nat × SCacheInfo)) (conn : CDbConnection σ) :
    answers pb srv ((recordUpdates pb getDataName nTime records).map fun m => (nID, m)) conn =
      ((CDbCache.writebackFrom pb srv getDataName nTime records conn).1.map
          fun info => (nID, info.nErrorCode),
        (CDbCache.writebackFrom pb srv getDataName nTime records conn).2) := by
  induction records generalizing conn with
  | nil => rfl
  | cons record rest ih =>
      obtain ⟨nDataID, sCacheInfo⟩ := record
      unfold CDbCache.writebackFrom recordUpdates
      rw [List.filterMap_cons]
      by_cases hskip : sCacheInfo.nTime = 0 ∨ CDbCache.isDue nTime sCacheInfo = false
      · simp only [if_pos hskip]
        exact ih conn
      · simp only [if_neg hskip]
        cases hm : CDbCache.recordMessage pb getDataName nDataID sCacheInfo.szData with
        | none => exact ih conn
        | some m =>
            simp only [List.map_cons, answers]
            have htail := ih (CDbCommandHandlerProxy.onDbCommand pb srv .kOT_UPDATE (.row m)
              conn).2.2
            unfold recordUpdates at htail
            rw [htail]

/-- under the id it is cached for, -/
theorem writebackObject_answers (pb : Runtime) (srv : Server σ) (mgr : CDbCacheMgr)
    (nID pObject nTime : Nat) (conn : CDbConnection σ) :
    answers pb srv (mgr.updates pb nTime [(nID, pObject)]) conn =
      ((mgr.writebackObject pb srv nID pObject nTime conn).2.1.map
          fun w => (w.nID, w.info.nErrorCode),
        (mgr.writebackObject pb srv nID pObject nTime conn).2.2) := by
  have hrecords := writebackRecords_answers pb srv mgr.getDataName nTime nID
    (mgr.objects pObject).m_mapCacheInfo.toList conn
  simpa [updates, writebackObject, CDbCache.writeback, List.map_map, Function.comp_def]
    using hrecords

/-- and so are those of a pass over entries. -/
theorem writebackFrom_answers (pb : Runtime) (srv : Server σ) (mgr : CDbCacheMgr)
    (nTime : Nat) (entries : List (Nat × Nat)) (conn : CDbConnection σ) :
    answers pb srv (mgr.updates pb nTime entries) conn =
      ((mgr.writebackFrom pb srv nTime entries conn).2.1.map
          fun w => (w.nID, w.info.nErrorCode),
        (mgr.writebackFrom pb srv nTime entries conn).2.2) := by
  induction entries generalizing conn with
  | nil => rfl
  | cons entry rest ih =>
      obtain ⟨nID, pObject⟩ := entry
      have hsplit : mgr.updates pb nTime ((nID, pObject) :: rest) =
          mgr.updates pb nTime [(nID, pObject)] ++ mgr.updates pb nTime rest := by
        simp [updates]
      rw [hsplit, answers_append, writebackObject_answers, ih]
      simp only [writebackFrom, List.map_append]

/-- Whether all UPDATEs a pass issued for an id were accepted. -/
theorem accepts_iff {messages : List (Nat × RowMessage)} {conn conn' : CDbConnection σ}
    {writes : List WriteEvent} (hanswers : answers pb srv messages conn =
      (writes.map fun w => (w.nID, w.info.nErrorCode), conn')) (nID : Nat) :
    Accepts pb srv conn messages nID ↔
      ∀ w ∈ writes, w.nID = nID → w.info.nErrorCode = .kRC_OK := by
  simp [Accepts, hanswers]

/-! ## What a pass leaves scheduled -/

/-- Whether an object waits is what `CDbCache::writeback` returns. -/
theorem writebackObject_fst (pb : Runtime) (srv : Server σ) (mgr : CDbCacheMgr)
    (nID pObject nTime : Nat) (conn : CDbConnection σ) :
    (mgr.writebackObject pb srv nID pObject nTime conn).1 = true ↔ Waits mgr pObject nTime := by
  simp only [writebackObject, CDbCache.writeback, List.any_eq_true, Waits]
  constructor
  · intro hcase
    obtain ⟨⟨nDataID, sCacheInfo⟩, hmem, hwaits⟩ := hcase
    exact ⟨nDataID, sCacheInfo, Std.ExtTreeMap.mem_toList_iff_getElem?_eq_some.mp hmem, hwaits⟩
  · intro hcase
    obtain ⟨nDataID, sCacheInfo, hrecord, hwaits⟩ := hcase
    exact ⟨(nDataID, sCacheInfo),
      Std.ExtTreeMap.mem_toList_iff_getElem?_eq_some.mpr hrecord, hwaits⟩

/-- The entries a pass erases are those whose object does not wait. -/
theorem mem_erased_iff (pb : Runtime) (srv : Server σ) (mgr : CDbCacheMgr) (nTime nID : Nat)
    (entries : List (Nat × Nat)) (conn : CDbConnection σ) :
    nID ∈ (mgr.writebackFrom pb srv nTime entries conn).1 ↔
      ∃ pObject, (nID, pObject) ∈ entries ∧ ¬ Waits mgr pObject nTime := by
  induction entries generalizing conn with
  | nil => simp [CDbCacheMgr.writebackFrom]
  | cons entry rest ih =>
      obtain ⟨nID', pObject'⟩ := entry
      have hwaits := writebackObject_fst pb srv mgr nID' pObject' nTime conn
      unfold CDbCacheMgr.writebackFrom
      simp only
      by_cases hdirty : (mgr.writebackObject pb srv nID' pObject' nTime conn).1 = true
      · rw [if_pos hdirty, ih]
        have hkept := hwaits.mp hdirty
        constructor
        · intro hcase
          obtain ⟨pObject, hmem, hnot⟩ := hcase
          exact ⟨pObject, List.mem_cons_of_mem _ hmem, hnot⟩
        · intro hcase
          obtain ⟨pObject, hmem, hnot⟩ := hcase
          rcases List.mem_cons.mp hmem with heq | hrest
          · cases heq
            exact absurd hkept hnot
          · exact ⟨pObject, hrest, hnot⟩
      · rw [if_neg hdirty, List.mem_cons, ih]
        have hgone : ¬ Waits mgr pObject' nTime := fun h => hdirty (hwaits.mpr h)
        constructor
        · intro hcase
          rcases hcase with rfl | ⟨pObject, hmem, hnot⟩
          · exact ⟨pObject', List.mem_cons_self, hgone⟩
          · exact ⟨pObject, List.mem_cons_of_mem _ hmem, hnot⟩
        · intro hcase
          obtain ⟨pObject, hmem, hnot⟩ := hcase
          rcases List.mem_cons.mp hmem with heq | hrest
          · cases heq
            exact .inl rfl
          · exact .inr ⟨pObject, hrest, hnot⟩

/-! ## The passes -/

/-- When a pass over the dirty map forgets nothing: it is skipped, or each object it visits
waits, or has all its modified records read back and accepted. -/
def WritebackRetries (pb : Runtime) (srv : Server σ) (mgr : CDbCacheMgr) (nTime : Nat)
    (conn : CDbConnection σ) : Prop :=
  mgr.isDisabled = true ∨ mgr.isPaced nTime = true ∨
    ∀ nID pObject : Nat, mgr.m_mapDirtyCache[nID]? = some pObject →
      Waits mgr pObject nTime ∨ AllReadable pb mgr pObject ∧
        Accepts pb srv conn (mgr.updates pb nTime mgr.m_mapDirtyCache.toList) nID

/-- A pass that does nothing. -/
theorem KeepsFailures.idle {mgr' : CDbCacheMgr} (hobjects : mgr'.objects = mgr.objects)
    (hdirty : mgr'.m_mapDirtyCache = mgr.m_mapDirtyCache) : KeepsFailures mgr mgr' [] where
  failed := by simp
  accepted := by
    intro nID pObject nDataID sCacheInfo hscheduled
    refine .inl ?_
    unfold Scheduled at *
    rw [hdirty, hobjects]
    exact hscheduled

/-- The entries a pass over the dirty map leaves. -/
theorem writeback_dirty_iff (pb : Runtime) (srv : Server σ) (hdisabled : mgr.isDisabled = false)
    {nTime : Nat}
    (hpaced : mgr.isPaced nTime = false) (conn : CDbConnection σ) (nID pObject : Nat) :
    (mgr.writeback pb srv nTime conn).1.m_mapDirtyCache[nID]? = some pObject ↔
      mgr.m_mapDirtyCache[nID]? = some pObject ∧ Waits mgr pObject nTime := by
  rcases writeback_cases pb srv mgr nTime conn with ⟨hskip, _⟩ | ⟨_, _, heq⟩
  · rw [hdisabled, hpaced] at hskip
    simp at hskip
  · have herased := mem_erased_iff pb srv mgr nTime nID mgr.m_mapDirtyCache.toList conn
    rw [heq]
    simp only [foldl_erase_mem]
    constructor
    · intro hget
      split at hget
      · cases hget
      · rename_i hnot
        refine ⟨hget, ?_⟩
        by_contra hwaits
        exact hnot (herased.mpr
          ⟨pObject, Std.ExtTreeMap.mem_toList_iff_getElem?_eq_some.mpr hget, hwaits⟩)
    · intro hcase
      obtain ⟨hget, hwaits⟩ := hcase
      rw [if_neg ?_]
      · exact hget
      · intro hin
        obtain ⟨pObject', hmem, hnot⟩ := herased.mp hin
        have hget' := Std.ExtTreeMap.mem_toList_iff_getElem?_eq_some.mp hmem
        rw [hget, Option.some.injEq] at hget'
        exact hnot (hget' ▸ hwaits)

/-- The UPDATEs of a pass, complete: each scheduled record that is due and can be read. -/
theorem writeback_complete (srv : Server σ) (hdisabled : mgr.isDisabled = false) {nTime : Nat}
    (hpaced : mgr.isPaced nTime = false) {nID pObject nDataID : Nat} {sCacheInfo : SCacheInfo}
    (hscheduled : Scheduled mgr nID pObject nDataID sCacheInfo)
    (hdue : CDbCache.isDue nTime sCacheInfo = true)
    (hreadable : Readable pb mgr nDataID sCacheInfo) (conn : CDbConnection σ) :
    ∃ w ∈ (mgr.writeback pb srv nTime conn).2.1,
      w.nID = nID ∧ w.pDbCache = pObject ∧ w.info.nDataID = nDataID ∧
        w.info.szData = sCacheInfo.szData := by
  rcases writeback_cases pb srv mgr nTime conn with ⟨hskip, _⟩ | ⟨_, _, heq⟩
  · rw [hdisabled, hpaced] at hskip
    simp at hskip
  · rw [heq]
    exact writebackFrom_complete
      (Std.ExtTreeMap.mem_toList_iff_getElem?_eq_some.mpr hscheduled.1) hscheduled.2.1
      hscheduled.2.2 hdue hreadable conn

/-- **A pass over the dirty map, exactly.**  It forgets nothing if and only if it is skipped, or
every object it visits either waits or has its modified records read back and accepted: a visited
object is erased whatever the server has answered. -/
theorem writeback_keeps_iff (pb : Runtime) (srv : Server σ) (mgr : CDbCacheMgr) (nTime : Nat)
    (conn : CDbConnection σ) :
    KeepsFailures mgr (mgr.writeback pb srv nTime conn).1
        (mgr.writeback pb srv nTime conn).2.1 ↔
      WritebackRetries pb srv mgr nTime conn := by
  rcases writeback_cases pb srv mgr nTime conn with ⟨hskip, heq⟩ | ⟨hdisabled, hpaced, heq⟩
  · rw [heq]
    exact ⟨fun _ => hskip.elim .inl fun h => .inr (.inl h), fun _ => .idle rfl rfl⟩
  have hleft := writeback_dirty_iff pb srv hdisabled hpaced conn
  have hobjects := (writeback_sameRecords pb srv mgr nTime conn).objects
  have haccepts : ∀ nID, Accepts pb srv conn
        (mgr.updates pb nTime mgr.m_mapDirtyCache.toList) nID ↔
      ∀ w ∈ (mgr.writeback pb srv nTime conn).2.1, w.nID = nID →
        w.info.nErrorCode = .kRC_OK := by
    intro nID
    rw [heq]
    exact accepts_iff (writebackFrom_answers pb srv mgr nTime _ conn) nID
  constructor
  · intro hkeeps
    refine .inr (.inr fun nID pObject hdirty => ?_)
    by_cases hwaits : Waits mgr pObject nTime
    · exact .inl hwaits
    refine .inr ⟨?_, (haccepts nID).mpr ?_⟩
    · intro nDataID sCacheInfo hrecord hmodified
      rcases hkeeps.accepted nID pObject nDataID sCacheInfo ⟨hdirty, hrecord, hmodified⟩ with
        ⟨hstill, _⟩ | ⟨w, hmem, rfl, rfl, rfl, hdata, _⟩
      · exact absurd ((hleft nID pObject).mp hstill).2 hwaits
      · obtain ⟨_, sCacheInfo', hrecord', _, _, _, hreadable⟩ := mem_writeback hmem
        rw [hrecord, Option.some.injEq] at hrecord'
        exact hrecord' ▸ hreadable
    · intro w hmem heq
      subst heq
      by_contra hcode
      obtain ⟨sCacheInfo, _, hstill, _⟩ := hkeeps.failed w hmem hcode
      obtain ⟨hold, hwaits'⟩ := (hleft _ _).mp hstill
      rw [hdirty, Option.some.injEq] at hold
      exact hwaits (hold ▸ hwaits')
  · intro hcase
    rcases hcase with hoff | hskipped | hentries
    · exact absurd (hdisabled.symm.trans hoff) Bool.false_ne_true
    · exact absurd (hpaced.symm.trans hskipped) Bool.false_ne_true
    · constructor
      · intro w hmem hcode
        obtain ⟨hdirty, sCacheInfo, hrecord, hmodified, _, hdata, _⟩ := mem_writeback hmem
        rcases hentries w.nID w.pDbCache hdirty with hwaits | ⟨_, haccepted⟩
        · exact ⟨sCacheInfo, hdata.symm, (hleft _ _).mpr ⟨hdirty, hwaits⟩,
            hobjects ▸ hrecord, hmodified⟩
        · exact absurd ((haccepts _).mp haccepted w hmem rfl) hcode
      · intro nID pObject nDataID sCacheInfo hcase
        obtain ⟨hdirty, hrecord, hmodified⟩ := hcase
        by_cases hwaits : Waits mgr pObject nTime
        · exact .inl ⟨(hleft _ _).mpr ⟨hdirty, hwaits⟩, hobjects ▸ hrecord, hmodified⟩
        · obtain ⟨hreadable, haccepted⟩ := (hentries nID pObject hdirty).resolve_left hwaits
          obtain ⟨w, hmem, hid, hobject, hdata, hbytes⟩ := writeback_complete srv
            hdisabled hpaced ⟨hdirty, hrecord, hmodified⟩
            (isDue_of_not_waits hwaits hrecord hmodified)
            (hreadable nDataID sCacheInfo hrecord hmodified) conn
          exact .inr ⟨w, hmem, hid, hobject, hdata, hbytes,
            (haccepts nID).mp haccepted w hmem hid⟩

/-- When an eviction forgets nothing: the id it evicts is not scheduled with another object
that has modified records, and the records it writes are read back and accepted. -/
def EvictionRetries (pb : Runtime) (srv : Server σ) (mgr : CDbCacheMgr) (nTime : Nat)
    (sample : Sample) (conn : CDbConnection σ) : Prop :=
  ∀ nID pObject : Nat, mgr.evicted nTime sample = some (nID, pObject) →
    Accepts pb srv conn (mgr.updates pb 0 [(nID, pObject)]) nID ∧
      ∀ pObject' nDataID sCacheInfo, Scheduled mgr nID pObject' nDataID sCacheInfo →
        pObject' = pObject ∧ Readable pb mgr nDataID sCacheInfo

/-- **An eviction, exactly.**  The evicted object leaves both maps, so that it forgets nothing
only if all that was scheduled under the id was written by it, and accepted. -/
theorem cleanCache_keeps_iff (pb : Runtime) (srv : Server σ) (mgr : CDbCacheMgr) (nTime : Nat)
    (sample : Sample) (conn : CDbConnection σ) :
    KeepsFailures mgr (mgr.cleanCache pb srv nTime sample conn).1
        (mgr.cleanCache pb srv nTime sample conn).2.1 ↔
      EvictionRetries pb srv mgr nTime sample conn := by
  unfold EvictionRetries
  rcases cleanCache_cases pb srv mgr nTime sample conn with
    ⟨_, hnone, heq⟩ | ⟨nID, pObject, hevicted, _, heq⟩
  · rw [heq, hnone]
    refine ⟨fun _ nID pObject hsome => ?_, fun _ => .idle rfl rfl⟩
    cases hsome
  rw [heq, hevicted]
  have haccepts := accepts_iff (writebackObject_answers pb srv mgr nID pObject 0 conn) nID
  have hgone : ∀ pObject', (mgr.evict nTime nID pObject).m_mapDirtyCache[nID]? ≠
      some pObject' := by
    simp [evict]
  have hother : ∀ nID', nID' ≠ nID → (mgr.evict nTime nID pObject).m_mapDirtyCache[nID']? =
      mgr.m_mapDirtyCache[nID']? := by
    intro nID' hne
    simp [evict, Std.ExtTreeMap.getElem?_erase, Ne.symm hne]
  constructor
  · intro hkeeps _ _ hcase
    obtain ⟨⟩ := hcase
    refine ⟨haccepts.mpr ?_, ?_⟩
    · intro w hmem hid
      by_contra hcode
      obtain ⟨_, _, hstill, _⟩ := hkeeps.failed w hmem hcode
      rw [hid] at hstill
      exact hgone _ hstill
    · intro pObject' nDataID sCacheInfo hscheduled
      rcases hkeeps.accepted nID pObject' nDataID sCacheInfo hscheduled with
        ⟨hstill, _⟩ | ⟨w, hmem, _, hobject, rfl, _, _⟩
      · exact absurd hstill (hgone _)
      · obtain ⟨_, hobject', sCacheInfo', hrecord', _, _, _, hreadable⟩ :=
          mem_writebackObject hmem
        have hsame : pObject' = pObject := hobject.symm.trans hobject'
        have hrecord := hscheduled.2.1
        rw [← hobject, hrecord', Option.some.injEq] at hrecord
        exact ⟨hsame, hrecord ▸ hreadable⟩
  · intro hretries
    obtain ⟨haccepted, hscheduled⟩ := hretries nID pObject rfl
    constructor
    · intro w hmem hcode
      exact absurd (haccepts.mp haccepted w hmem (mem_writebackObject hmem).1) hcode
    · intro nID' pObject' nDataID sCacheInfo hsched
      by_cases hid : nID' = nID
      · subst hid
        obtain ⟨rfl, hreadable⟩ := hscheduled pObject' nDataID sCacheInfo hsched
        have hdue : CDbCache.isDue 0 sCacheInfo = true := by simp [CDbCache.isDue]
        obtain ⟨w, hmem, hw, hobject, hdata, hbytes⟩ :=
          writebackObject_complete srv hsched.2.1 hsched.2.2 hdue hreadable conn
        exact .inr ⟨w, hmem, hw, hobject, hdata, hbytes, haccepts.mp haccepted w hmem hw⟩
      · refine .inl ⟨?_, hsched.2⟩
        rw [hother nID' hid]
        exact hsched.1

/-- When a flush forgets nothing.  For one id it leaves the dirty map as it is, so that the
written object must be in it or be accepted. -/
def FlushRetries (pb : Runtime) (srv : Server σ) (mgr : CDbCacheMgr) (nKey : Nat)
    (conn : CDbConnection σ) : Prop :=
  if nKey = 0 then WritebackRetries pb srv mgr 0 conn
  else
    mgr.isDisabled = true ∨ ∀ pObject : Nat, mgr.m_mapCache[nKey]? = some pObject →
      mgr.m_mapDirtyCache[nKey]? = some pObject ∨
        Accepts pb srv conn (mgr.updates pb 0 [(nKey, pObject)]) nKey

/-- **A flush, exactly.**  That of all ids is a pass that ignores the times.  That of one id
forgets nothing if the cache is off, the id is not cached, or its object stays scheduled or has
its records accepted. -/
theorem flushCache_keeps_iff (pb : Runtime) (srv : Server σ) (mgr : CDbCacheMgr) (nKey : Nat)
    (bDel : Bool) (conn : CDbConnection σ) :
    KeepsFailures mgr (mgr.flushCache pb srv nKey bDel conn).1
        (mgr.flushCache pb srv nKey bDel conn).2.1 ↔ FlushRetries pb srv mgr nKey conn := by
  unfold FlushRetries
  rcases flushCache_cases pb srv mgr nKey bDel conn with
    ⟨hnothing, heq⟩ | ⟨pObject, hdisabled, hkey, hcached, heq⟩ | ⟨hdisabled, hkey, heq⟩
  · rw [heq]
    refine ⟨fun _ => ?_, fun _ => .idle rfl rfl⟩
    rcases hnothing with hdisabled | ⟨hkey, huncached⟩
    · split
      · exact .inl hdisabled
      · exact .inl hdisabled
    · rw [if_neg hkey, huncached]
      exact .inr (by simp)
  · rw [heq, if_neg hkey, hdisabled, hcached]
    have haccepts := accepts_iff (writebackObject_answers pb srv mgr nKey pObject 0 conn) nKey
    constructor
    · intro hkeeps
      refine .inr fun pObject' hsome => ?_
      cases hsome
      by_cases hdirty : mgr.m_mapDirtyCache[nKey]? = some pObject
      · exact .inl hdirty
      refine .inr (haccepts.mpr fun w hmem hid => ?_)
      by_contra hcode
      obtain ⟨_, _, hstill, _⟩ := hkeeps.failed w hmem hcode
      obtain ⟨_, hobject, _⟩ := mem_writebackObject hmem
      rw [hid, hobject] at hstill
      exact hdirty hstill
    · intro hretries
      have hwritten := (hretries.resolve_left Bool.false_ne_true) pObject rfl
      constructor
      · intro w hmem hcode
        obtain ⟨hid, hobject, sCacheInfo, hrecord, hmodified, _, hdata, _⟩ :=
          mem_writebackObject hmem
        rcases hwritten with hdirty | haccepted
        · refine ⟨sCacheInfo, hdata.symm, ?_, hrecord, hmodified⟩
          rw [hid, hobject]
          exact hdirty
        · exact absurd (haccepts.mp haccepted w hmem hid) hcode
      · intro _ _ _ _ hscheduled
        exact .inl hscheduled
  · rw [heq, if_pos hkey, ← writeback_keeps_iff]
    exact ⟨fun h => ⟨h.failed, h.accepted⟩, fun h => ⟨h.failed, h.accepted⟩⟩

/-! ## Commands leave what is scheduled for other ids alone -/

/-- What leaves an id alone leaves scheduled what is scheduled for it. -/
theorem SameAt.scheduled_iff {mgr' : CDbCacheMgr} {nID : Nat} (h : SameAt mgr mgr' nID)
    (pObject nDataID : Nat) (sCacheInfo : SCacheInfo) :
    Scheduled mgr' nID pObject nDataID sCacheInfo ↔
      Scheduled mgr nID pObject nDataID sCacheInfo := by
  unfold Scheduled
  rw [h.dirty]
  refine and_congr_right fun hdirty => ?_
  rw [h.objects pObject (.inr hdirty)]

/-- **Commands on other ids leave a scheduled record alone.** -/
theorem kept_scheduled (pb : Runtime) (nID pObject nDataID : Nat) (sCacheInfo : SCacheInfo) :
    Kept pb (fun nID' => nID' ≠ nID)
      (fun mgr => WellFormed mgr ∧ Scheduled mgr nID pObject nDataID sCacheInfo) :=
  kept_of_sameAt pb nID fun _ _ hsame => (hsame.scheduled_iff pObject nDataID sCacheInfo).mpr

end CDbCacheMgr

open CDbCacheMgr

namespace Store

variable {σ : Type} (pb : Runtime) (srv : Server σ)

/-- Every pass of write-back the action makes keeps its failures: a FLUSH is one, a tick is
an eviction and a pass over the dirty map, the last flush is one. -/
def KeepsFailures (st : Store σ) : StoreAction → Prop
  | .command sDbCommand _ =>
      ∀ id type, sDbCommand.nType = .kOT_FLUSH →
        sDbCommand.pMessage = some (.flush_command id type) →
        let flushed := st.m_dbCacheMgr.flushCache pb srv id
          (type == EFlushCacheType.kFCT_DEL.code) st.m_dbConnection
        st.m_dbCacheMgr.KeepsFailures flushed.1 flushed.2.1
  | .tick nCurTime sample =>
      let cleaned := st.m_dbCacheMgr.cleanCache pb srv nCurTime sample st.m_dbConnection
      let written := cleaned.1.writeback pb srv nCurTime cleaned.2.2
      st.m_dbCacheMgr.KeepsFailures cleaned.1 cleaned.2.1 ∧
        cleaned.1.KeepsFailures written.1 written.2.1
  | .finish =>
      let flushed := st.m_dbCacheMgr.flushCache pb srv 0 true st.m_dbConnection
      st.m_dbCacheMgr.KeepsFailures flushed.1 flushed.2.1

/-- The condition of each pass the action makes. -/
def RetriesFailures (st : Store σ) : StoreAction → Prop
  | .command sDbCommand _ =>
      ∀ id type, sDbCommand.nType = .kOT_FLUSH →
        sDbCommand.pMessage = some (.flush_command id type) →
        FlushRetries pb srv st.m_dbCacheMgr id st.m_dbConnection
  | .tick nCurTime sample =>
      let cleaned := st.m_dbCacheMgr.cleanCache pb srv nCurTime sample st.m_dbConnection
      EvictionRetries pb srv st.m_dbCacheMgr nCurTime sample st.m_dbConnection ∧
        WritebackRetries pb srv cleaned.1 nCurTime cleaned.2.2
  | .finish => FlushRetries pb srv st.m_dbCacheMgr 0 st.m_dbConnection

/-- A step keeps what failed exactly if it is written again at every later chance. -/
theorem keepsFailures_iff (st : Store σ) (action : StoreAction) :
    KeepsFailures pb srv st action ↔ RetriesFailures pb srv st action := by
  cases action with
  | command sDbCommand clock =>
      simp only [KeepsFailures, RetriesFailures, flushCache_keeps_iff]
  | tick nCurTime sample =>
      simp only [KeepsFailures, RetriesFailures, cleanCache_keeps_iff, writeback_keeps_iff]
  | finish => exact flushCache_keeps_iff pb srv st.m_dbCacheMgr 0 true st.m_dbConnection

/-- The action's write-back had an UPDATE with the record accepted. -/
def Writes (st : Store σ) (action : StoreAction) (nID pObject nDataID : Nat)
    (sCacheInfo : SCacheInfo) : Prop :=
  ∃ w ∈ (st.step pb srv action).2.writes, w.nID = nID ∧ w.pDbCache = pObject ∧
    w.info.nDataID = nDataID ∧ w.info.szData = sCacheInfo.szData ∧
    w.info.nErrorCode = .kRC_OK

/-- From `st` on the record stays scheduled until an UPDATE with it is accepted, or a command
on its id comes. -/
def ScheduledUntilWritten (nID pObject nDataID : Nat) (sCacheInfo : SCacheInfo) (st : Store σ) :
    List StoreAction → Prop
  | [] => Scheduled st.m_dbCacheMgr nID pObject nDataID sCacheInfo
  | action :: rest =>
      Scheduled st.m_dbCacheMgr nID pObject nDataID sCacheInfo ∧
        (action.key = some nID ∨ Writes pb srv st action nID pObject nDataID sCacheInfo ∨
          ScheduledUntilWritten nID pObject nDataID sCacheInfo (st.step pb srv action).1 rest)

/-- **Nothing is forgotten** in a run: every record it schedules is retried. -/
def ForgetsNothing (st : Store σ) (actions : List StoreAction) : Prop :=
  ∀ before after, actions = before ++ after → ∀ nID pObject nDataID sCacheInfo,
    Scheduled (Runs.run (step pb srv) st before).m_dbCacheMgr nID pObject nDataID sCacheInfo →
    ScheduledUntilWritten pb srv nID pObject nDataID sCacheInfo
      (Runs.run (step pb srv) st before) after

variable {pb srv}

/-- **One action:** a scheduled record stays so, is written, or gets a command. -/
theorem step_scheduled {st : Store σ} (hwf : st.m_dbCacheMgr.WellFormed) {action : StoreAction}
    (hkeeps : KeepsFailures pb srv st action) {nID pObject nDataID : Nat}
    {sCacheInfo : SCacheInfo}
    (h : Scheduled st.m_dbCacheMgr nID pObject nDataID sCacheInfo) :
    action.key = some nID ∨ Writes pb srv st action nID pObject nDataID sCacheInfo ∨
      Scheduled (st.step pb srv action).1.m_dbCacheMgr nID pObject nDataID sCacheInfo := by
  cases action with
  | command sDbCommand clock =>
      have hprocessed := process_cases pb srv st sDbCommand clock
      simp only [KeepsFailures] at hkeeps
      simp only [Writes, step, StoreAction.key]
      generalize st.process pb srv sDbCommand clock = result at hprocessed
      cases hprocessed with
      | flush id type htype hmessage mgr writes conn hflush =>
          have hflushed := (hkeeps id type htype hmessage).accepted _ _ _ _ h
          rw [hflush] at hflushed
          exact .inr hflushed.symm
      | flushNothing => exact .inr (.inr h)
      | expired => exact .inr (.inr h)
      | executed _ _ st' outcome hexecuted =>
          by_cases hkey : CDbThread.cacheKey sDbCommand.nType sDbCommand.pMessage = some nID
          · exact .inl hkey
          · exact .inr (.inr ((kept_scheduled pb nID pObject nDataID sCacheInfo).executed_other hkey
              hexecuted ⟨hwf, h⟩).2)
  | tick nCurTime sample =>
      obtain ⟨hcleaned, hwritten⟩ := hkeeps
      rcases hcleaned.accepted _ _ _ _ h with hstill | ⟨w, hmem, hw⟩
      · rcases hwritten.accepted _ _ _ _ hstill with hstill' | ⟨w, hmem, hw⟩
        · exact .inr (.inr hstill')
        · exact .inr (.inl ⟨w, List.mem_append_right _ hmem, hw⟩)
      · exact .inr (.inl ⟨w, List.mem_append_left _ hmem, hw⟩)
  | finish => exact .inr (hkeeps.accepted _ _ _ _ h).symm

/-- A run whose passes keep their failures retries what is scheduled. -/
theorem scheduledUntilWritten {st : Store σ} (hwf : st.m_dbCacheMgr.WellFormed)
    {actions : List StoreAction}
    (hkeeps : Runs.Guarded (step pb srv) (KeepsFailures pb srv) st actions)
    {nID pObject nDataID : Nat} {sCacheInfo : SCacheInfo}
    (h : Scheduled st.m_dbCacheMgr nID pObject nDataID sCacheInfo) :
    ScheduledUntilWritten pb srv nID pObject nDataID sCacheInfo st actions := by
  induction actions generalizing st with
  | nil => exact h
  | cons action rest ih =>
      refine ⟨h, ?_⟩
      rcases step_scheduled hwf hkeeps.1 h with hkey | hwrites | hstill
      · exact .inl hkey
      · exact .inr (.inl hwrites)
      · exact .inr (.inr (ih (step_wellFormed pb srv hwf action) hkeeps.2 hstill))

/-- Where every step keeps what failed, the run forgets nothing. -/
theorem forgetsNothing_of_guarded {st : Store σ} (hwf : st.m_dbCacheMgr.WellFormed)
    {actions : List StoreAction}
    (hkeeps : Runs.Guarded (step pb srv) (KeepsFailures pb srv) st actions) :
    ForgetsNothing pb srv st actions := by
  intro before after heq nID pObject nDataID sCacheInfo hscheduled
  subst heq
  have hbefore := run_wellFormed pb srv hwf before
  exact scheduledUntilWritten hbefore (Runs.guarded_append.mp hkeeps).2 hscheduled

end Store

/-- **Failed write-backs, exactly.**  In a run of a worker's store every pass keeps the
records whose UPDATE failed scheduled, and every scheduled record stays so until an UPDATE
with it is accepted or its id gets a command, if and only if each pass meets its
condition. -/
theorem failed_writebacks_kept_iff {σ : Type} (pb : Runtime) (srv : Server σ)
    (nMaxCacheSize nWritebackTime : Nat) (conn : CDbConnection σ)
    (actions : List StoreAction) :
    (Runs.Guarded (Store.step pb srv) (Store.KeepsFailures pb srv)
        (Store.init nMaxCacheSize nWritebackTime conn) actions ∧
      Store.ForgetsNothing pb srv (Store.init nMaxCacheSize nWritebackTime conn) actions) ↔
    Runs.Guarded (Store.step pb srv) (Store.RetriesFailures pb srv)
      (Store.init nMaxCacheSize nWritebackTime conn) actions := by
  have hwf : (Store.init nMaxCacheSize nWritebackTime conn).m_dbCacheMgr.WellFormed :=
    init_wellFormed nMaxCacheSize nWritebackTime
  constructor
  · intro hcase
    obtain ⟨hkeeps, _⟩ := hcase
    exact hkeeps.imp fun st action => (Store.keepsFailures_iff pb srv st action).mp
  · intro hretries
    have hkeeps := hretries.imp fun st action => (Store.keepsFailures_iff pb srv st action).mpr
    exact ⟨hkeeps, Store.forgetsNothing_of_guarded hwf hkeeps⟩

/-- A server on which every upsert runs into a lock wait timeout. -/
def lockedServer : Server Unit where
  query := fun _ stmt =>
    match stmt with
    | .upsertRow _ _ => (.failed 1205, ())
    | _ => (.done 0 1, ())
  connect := fun _ => (true, ())
  escape := fun szSQL => szSQL

/-- Player 5 is inserted and updated in the cache, and the worker ticks a minute later. -/
def tickedPlayer : List StoreAction :=
  let m : Message := .row (PlayerBase.player 5 [97])
  [.command ⟨0, .kOT_INSERT, 0, 0, some m⟩ ⟨1, 1⟩,
    .command ⟨0, .kOT_UPDATE, 0, 0, some m⟩ ⟨1, 1⟩, .tick 61 ⟨[], 0⟩]

/-- The tick's UPDATE fails and the player is not scheduled any more. -/
theorem failed_writeback_forgotten :
    ¬ ∀ (σ : Type) (pb : Runtime) (srv : Server σ) (nMaxCacheSize nWritebackTime : Nat)
        (conn : CDbConnection σ) (actions : List StoreAction),
      Runs.Guarded (Store.step pb srv) (Store.KeepsFailures pb srv)
          (Store.init nMaxCacheSize nWritebackTime conn) actions ∧
        Store.ForgetsNothing pb srv (Store.init nMaxCacheSize nWritebackTime conn) actions := by
  intro h
  let st := Runs.run (Store.step PlayerBase.runtime lockedServer)
    (Store.init 1000 60 ⟨true, (), 0, []⟩) (tickedPlayer.take 2)
  let cleaned := st.m_dbCacheMgr.cleanCache PlayerBase.runtime lockedServer 61 ⟨[], 0⟩
    st.m_dbConnection
  let written := cleaned.1.writeback PlayerBase.runtime lockedServer 61 cleaned.2.2
  have hkeeps : cleaned.1.KeepsFailures written.1 written.2.1 :=
    (h Unit PlayerBase.runtime lockedServer 1000 60 ⟨true, (), 0, []⟩
      tickedPlayer).1.2.2.1.2
  have hfailed : ∃ w ∈ written.2.1, w.info.nErrorCode ≠ .kRC_OK := by decide
  have hempty : written.1.m_mapDirtyCache.toList = [] := by decide
  obtain ⟨w, hmem, hcode⟩ := hfailed
  obtain ⟨_, _, hstill, _⟩ := hkeeps.failed w hmem hcode
  have hentry := Std.ExtTreeMap.mem_toList_iff_getElem?_eq_some.mpr hstill
  rw [hempty] at hentry
  cases hentry

end Db
