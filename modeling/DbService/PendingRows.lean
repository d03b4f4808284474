import DbService.MergedRecords
import DbService.WriteBack
import DbService.WritebackFailures

/-!
# The writes the cache owes the database

A modified record is a write that its row still waits for, so the cache and the database are
a write-back store: `pending` are its writes, `meantRows` what it is meant to hold.  Every
pass of write-back settles the ids it is done with (`writeback_settles`, `evict_settles`).

* `writeback_settles` -- a pass over the dirty map settles what it takes off it;
* `writeback_covered`, `cleanCache_covered` -- passes keep what the database is meant to hold;
* `flushAll_meant` -- the last flush makes every pending write.
-/

namespace Db

open Reflection ByteText

/-- Table names and message names are in one-to-one correspondence. -/
theorem getMessageNameByTableName_inj {szTableName szTableName' : String}
    (h : getMessageNameByTableName szTableName = getMessageNameByTableName szTableName') :
    szTableName = szTableName' := by
  have hback := getTableNameByMessageName_getMessageNameByTableName szTableName
  rw [h, getTableNameByMessageName_getMessageNameByTableName, Option.some.injEq] at hback
  exact hback.symm

/-- The name of a message type is not empty, whatever the table is called. -/
theorem getMessageNameByTableName_ne_empty (szTableName : String) :
    getMessageNameByTableName szTableName ≠ "" := by
  intro h
  have hlist := congrArg String.toList h
  simp [getMessageNameByTableName, DB_NAMESPACE] at hlist

namespace CDbCacheMgr

/-- The write a record owes its row: none for an unmodified record. -/
def owedWrite (pb : Runtime) (tables : Tables) (szTableName : String)
    (sCacheInfo : SCacheInfo) : Option (Option Row → Option Row) :=
  if sCacheInfo.nTime = 0 then none
  else
    ((CDbCache.loadRecord pb (getMessageNameByTableName szTableName) sCacheInfo.szData).bind
      fun m => getMessageFieldInfos pb (.row m)).map (tables.upsert szTableName)

/-- The writes the cache owes, by table and primary key. -/
def pending (pb : Runtime) (tables : Tables) (mgr : CDbCacheMgr) (key : String × Nat) :
    Option (Option Row → Option Row) :=
  (mgr.lookup key.2 (getMessageNameByTableName key.1)).bind (owedWrite pb tables key.1)

/-- A record of the cache: the bytes of a known message, and when it is modified, of one with
all fields set that can be stored as its row. -/
def Recorded (pb : Runtime) (nID : Nat) (szDataName : String) (sCacheInfo : SCacheInfo) : Prop :=
  ∃ m, Holds pb szDataName sCacheInfo.szData m ∧
    (sCacheInfo.nTime ≠ 0 → m.Full ∧ ∃ szTableName vecFieldInfo,
      szDataName = getMessageNameByTableName szTableName ∧
        Storable pb m szTableName nID vecFieldInfo)

/-- A cache that is on and in order. -/
structure Caches (pb : Runtime) (mgr : CDbCacheMgr) : Prop where
  enabled : mgr.isDisabled = false
  wellFormed : WellFormed mgr
  aligned : Aligned mgr
  named : Named mgr
  records : ∀ nID szDataName sCacheInfo, mgr.lookup nID szDataName = some sCacheInfo →
    Recorded pb nID szDataName sCacheInfo

variable {σ : Type} {pb : Runtime} {srv : Server σ} {tables : Tables} {rows : σ → Rows}
  {mgr mgr' : CDbCacheMgr}

/-- A manager with a limit is switched on, and has no record that could be unreadable. -/
theorem init_caches (pb : Runtime) {nMaxCacheSize : Nat} (hlimit : 0 < toInt64 nMaxCacheSize)
    (nWritebackTime : Nat) : Caches pb (init nMaxCacheSize nWritebackTime) where
  enabled := by
    have hpos : ¬ toInt64 nMaxCacheSize ≤ 0 := by omega
    simp [isDisabled, init, hpos]
  wellFormed := init_wellFormed nMaxCacheSize nWritebackTime
  aligned := by simp [Aligned, init]
  named := init_named nMaxCacheSize nWritebackTime
  records := by
    intro nID szDataName sCacheInfo h
    simp [lookup, init] at h

/-- A modified record that holds a storable message owes its columns. -/
theorem owedWrite_eq (hpb : pb.Lawful) {m : RowMessage} {szTableName : String} {nID : Nat}
    {vecFieldInfo : List SFieldInfo} (hm : Storable pb m szTableName nID vecFieldInfo)
    {sCacheInfo : SCacheInfo}
    (hholds : Holds pb (getMessageNameByTableName szTableName) sCacheInfo.szData m)
    (hmodified : sCacheInfo.nTime ≠ 0) :
    owedWrite pb tables szTableName sCacheInfo = some (tables.upsert szTableName vecFieldInfo) := by
  simp [owedWrite, hmodified, hholds.load hpb, hm.infos]

theorem owedWrite_of_unmodified {sCacheInfo : SCacheInfo} (h : sCacheInfo.nTime = 0)
    (szTableName : String) : owedWrite pb tables szTableName sCacheInfo = none := by
  simp [owedWrite, h]

/-- **A pending write** is that of a modified record with all fields set. -/
theorem Caches.pending_cases (hpb : pb.Lawful) (h : Caches pb mgr) (tables : Tables)
    (szTableName : String) (nID : Nat) :
    mgr.pending pb tables (szTableName, nID) = none ∨
      ∃ sCacheInfo m vecFieldInfo,
        mgr.lookup nID (getMessageNameByTableName szTableName) = some sCacheInfo ∧
        sCacheInfo.nTime ≠ 0 ∧ m.Full ∧
        Holds pb (getMessageNameByTableName szTableName) sCacheInfo.szData m ∧
        Storable pb m szTableName nID vecFieldInfo ∧
        mgr.pending pb tables (szTableName, nID) =
          some (tables.upsert szTableName vecFieldInfo) := by
  unfold pending
  cases hlook : mgr.lookup nID (getMessageNameByTableName szTableName) with
  | none => exact .inl rfl
  | some sCacheInfo =>
      by_cases hmodified : sCacheInfo.nTime = 0
      · exact .inl (owedWrite_of_unmodified hmodified szTableName)
      · obtain ⟨m, hholds, hstorable⟩ := h.records _ _ _ hlook
        obtain ⟨hfull, szTableName', vecFieldInfo, hname, hm⟩ := hstorable hmodified
        obtain rfl := getMessageNameByTableName_inj hname
        exact .inr ⟨sCacheInfo, m, vecFieldInfo, rfl, hmodified, hfull, hholds, hm,
          owedWrite_eq hpb hm hholds hmodified⟩

/-- No write is pending for a table without a type. -/
theorem Caches.pending_untyped (hpb : pb.Lawful) (h : Caches pb mgr) (tables : Tables)
    {szTableName : String} (htype : pb.rowType szTableName = none) (nID : Nat) :
    mgr.pending pb tables (szTableName, nID) = none := by
  rcases h.pending_cases hpb tables szTableName nID with hnone | ⟨_, _, _, _, _, _, _, hm, _⟩
  · exact hnone
  · have hrow := hm.rowType
    rw [htype] at hrow
    cases hrow

/-- The writes owed when one record changed. -/
theorem LookupSet.pending (pb : Runtime) (tables : Tables) {szTableName : String} {nID : Nat}
    {info : Option SCacheInfo}
    (h : LookupSet mgr mgr' nID (getMessageNameByTableName szTableName) info) :
    (∀ key, key ≠ (szTableName, nID) →
      mgr'.pending pb tables key = mgr.pending pb tables key) ∧
    mgr'.pending pb tables (szTableName, nID) = info.bind (owedWrite pb tables szTableName) := by
  refine ⟨?_, ?_⟩
  · intro key hne
    obtain ⟨szTableName', nID'⟩ := key
    have hkey : ¬ (nID' = nID ∧ getMessageNameByTableName szTableName' =
        getMessageNameByTableName szTableName) := by
      intro hcase
      obtain ⟨rfl, hname⟩ := hcase
      exact hne (by rw [getMessageNameByTableName_inj hname])
    simp only [CDbCacheMgr.pending, h.of_ne hkey]
  · simp only [CDbCacheMgr.pending, h.self]

/-- A record that owes what was owed in its place changes none of them. -/
theorem LookupSet.pending_same {pb : Runtime} {tables : Tables} {szTableName : String} {nID : Nat}
    {info : Option SCacheInfo}
    (h : LookupSet mgr mgr' nID (getMessageNameByTableName szTableName) info)
    (howed : info.bind (owedWrite pb tables szTableName) =
      mgr.pending pb tables (szTableName, nID)) :
    mgr'.pending pb tables = mgr.pending pb tables := by
  obtain ⟨hother, hself⟩ := h.pending pb tables
  funext key
  by_cases heq : key = (szTableName, nID)
  · rw [heq, hself, howed]
  · exact hother key heq

/-- The writes owed are the same when the records are. -/
theorem pending_congr (h : mgr'.lookup = mgr.lookup) :
    mgr'.pending pb tables = mgr.pending pb tables := by
  unfold pending
  rw [h]

/-! ## What a pass of write-back does to the rows -/

section Passes

variable (hpb : pb.Lawful) (hsrv : srv.Keeps pb tables rows) (h : Caches pb mgr)

include hpb h in
/-- A modified record with an index is the one an UPDATE is made of. -/
theorem Caches.recordMessage (tables : Tables) {nID nDataID : Nat} {sCacheInfo : SCacheInfo}
    (hrecord : mgr.record nID nDataID = some sCacheInfo) (hmodified : sCacheInfo.nTime ≠ 0) :
    ∃ m szTableName vecFieldInfo,
      CDbCache.recordMessage pb mgr.getDataName nDataID sCacheInfo.szData = some m ∧
      Storable pb m szTableName nID vecFieldInfo ∧
      mgr.m_mapDataIndex[getMessageNameByTableName szTableName]? = some nDataID ∧
      mgr.pending pb tables (szTableName, nID) =
        some (tables.upsert szTableName vecFieldInfo) := by
  have hobject : ∃ pObject, (mgr.objects pObject).m_mapCacheInfo[nDataID]? ≠ none := by
    simp only [record, Option.bind_eq_some_iff] at hrecord
    obtain ⟨pObject, _, hget⟩ := hrecord
    exact ⟨pObject, by rw [hget]; simp⟩
  obtain ⟨pObject, hne⟩ := hobject
  obtain ⟨szDataName, hindex⟩ := h.named.index pObject nDataID hne
  have hlook : mgr.lookup nID szDataName = some sCacheInfo :=
    (lookup_of_index hindex nID).trans hrecord
  obtain ⟨m, hholds, hstorable⟩ := h.records _ _ _ hlook
  obtain ⟨_, szTableName, vecFieldInfo, rfl, hm⟩ := hstorable hmodified
  have hname : mgr.getDataName nDataID = getMessageNameByTableName szTableName := by
    simp [getDataName, (h.named.name _ _ hindex).1]
  refine ⟨m, szTableName, vecFieldInfo, ?_, hm, hindex, ?_⟩
  · rw [CDbCache.recordMessage, hname, if_neg (getMessageNameByTableName_ne_empty szTableName)]
    exact hholds.load hpb
  · simp only [pending, hlook, Option.bind_some]
    exact owedWrite_eq hpb hm hholds hmodified

include hpb hsrv h

/-- **The records of one object:** each due one is written, and settled by that. -/
theorem writebackRecords_settles {nID nTime : Nat} {records : List (Nat × SCacheInfo)}
    (hrecords : ∀ record ∈ records, mgr.record nID record.1 = some record.2)
    {conn : CDbConnection σ} (hopen : conn.isConnect = true)
    (hsucceeded : (CDbCache.writebackFrom pb srv mgr.getDataName nTime records
      conn).2.Succeeded) :
    WriteBack.Settles (mgr.pending pb tables) (rows conn.server)
      (rows (CDbCache.writebackFrom pb srv mgr.getDataName nTime records conn).2.server)
      (fun key => key.2 = nID ∧ ∃ (nDataID : Nat) (sCacheInfo : SCacheInfo),
        (nDataID, sCacheInfo) ∈ records ∧ sCacheInfo.nTime ≠ 0 ∧
        CDbCache.isDue nTime sCacheInfo = true ∧
        mgr.m_mapDataIndex[getMessageNameByTableName key.1]? = some nDataID) := by
  induction records generalizing conn with
  | nil =>
      apply (WriteBack.Settles.refl _ _).mono
      intro key hcase
      obtain ⟨_, _, _, hin, _⟩ := hcase
      cases hin
  | cons record rest ih =>
      obtain ⟨nDataID, sCacheInfo⟩ := record
      have hrest : ∀ record ∈ rest, mgr.record nID record.1 = some record.2 :=
        fun record hin => hrecords record (List.mem_cons_of_mem _ hin)
      have hhead : mgr.record nID nDataID = some sCacheInfo := hrecords _ List.mem_cons_self
      unfold CDbCache.writebackFrom at hsucceeded ⊢
      by_cases hskip : sCacheInfo.nTime = 0 ∨ CDbCache.isDue nTime sCacheInfo = false
      · rw [if_pos hskip] at hsucceeded ⊢
        apply (ih hrest hopen hsucceeded).mono
        intro key hcase
        obtain ⟨hid, nDataID', sCacheInfo', hin, hmodified, hdue, hindex⟩ := hcase
        rcases List.mem_cons.mp hin with heq | hin'
        · cases heq
          rcases hskip with hzero | hnot
          · exact absurd hzero hmodified
          · exact absurd (hdue.symm.trans hnot) (by simp)
        · exact .inl ⟨hid, nDataID', sCacheInfo', hin', hmodified, hdue, hindex⟩
      · rw [if_neg hskip] at hsucceeded ⊢
        rw [not_or, Bool.not_eq_false] at hskip
        obtain ⟨m, szTableName, vecFieldInfo, hmessage, hm, hindex, hpending⟩ :=
          h.recordMessage hpb tables hhead hskip.1
        simp only [hmessage] at hsucceeded ⊢
        have hgrows := (trace_keptBySent srv (CDbThread.handle pb srv .kOT_UPDATE
          (some (.row m)) conn).2.2.trace).writebackRecords pb mgr.getDataName nTime rest
            (List.prefix_refl _)
        have hsent : (CDbThread.handle pb srv .kOT_UPDATE (some (.row m)) conn).2.2.Succeeded :=
          hsucceeded.of_prefix hgrows
        have hrows := (handle_update hsrv hopen hm hsent).2
        have hstays := (isConnect_keptBySent srv true).handle pb hopen .kOT_UPDATE (some (.row m))
        have hmake := WriteBack.Settles.make (rows conn.server) hpending
          (upsert_upsert_self tables szTableName vecFieldInfo)
        rw [← hrows] at hmake
        apply (hmake.trans (ih hrest hstays hsucceeded)).mono
        intro key hcase
        obtain ⟨szTableName', nID'⟩ := key
        obtain ⟨hid, nDataID', sCacheInfo', hin, hmodified, hdue, hindex'⟩ := hcase
        rcases List.mem_cons.mp hin with heq | hin'
        · cases heq
          have hname := getMessageNameByTableName_inj (h.named.inj hindex' hindex)
          exact .inl (.inl (Prod.ext hname hid))
        · exact .inl (.inr ⟨hid, nDataID', sCacheInfo', hin', hmodified, hdue, hindex'⟩)

/-- **One object:** its id is settled unless a record waits. -/
theorem writebackObject_settles {nID pObject nTime : Nat}
    (hcached : mgr.m_mapCache[nID]? = some pObject) {conn : CDbConnection σ}
    (hopen : conn.isConnect = true)
    (hsucceeded : (mgr.writebackObject pb srv nID pObject nTime conn).2.2.Succeeded) :
    WriteBack.Settles (mgr.pending pb tables) (rows conn.server)
      (rows (mgr.writebackObject pb srv nID pObject nTime conn).2.2.server)
      (fun key => key.2 = nID ∧ ¬ Waits mgr pObject nTime) := by
  have hrecords : ∀ record ∈ (mgr.objects pObject).m_mapCacheInfo.toList,
      mgr.record nID record.1 = some record.2 := by
    intro record hin
    obtain ⟨nDataID, sCacheInfo⟩ := record
    rw [record_of_cached hcached]
    exact Std.ExtTreeMap.mem_toList_iff_getElem?_eq_some.mp hin
  apply (writebackRecords_settles hpb hsrv h hrecords hopen hsucceeded).mono
  intro key hcase
  obtain ⟨szTableName, nID'⟩ := key
  obtain ⟨hid, hwaits⟩ := hcase
  obtain rfl : nID' = nID := hid
  rcases h.pending_cases hpb tables szTableName nID' with
    hnone | ⟨sCacheInfo, m, vecFieldInfo, hlook, hmodified, _, _, _, _⟩
  · exact .inr (WriteBack.settled_of_none hnone)
  · obtain ⟨pObject', nDataID, hcached', hindex, hrecord⟩ := exists_of_lookup hlook
    rw [hcached, Option.some.injEq] at hcached'
    rw [← hcached'] at hrecord
    exact .inl ⟨rfl, nDataID, sCacheInfo,
      Std.ExtTreeMap.mem_toList_iff_getElem?_eq_some.mpr hrecord, hmodified,
      isDue_of_not_waits hwaits hrecord hmodified, hindex⟩

/-- **A list of entries** that belong to cached objects. -/
theorem writebackFrom_settles {nTime : Nat} {entries : List (Nat × Nat)}
    (hentries : ∀ entry ∈ entries, mgr.m_mapCache[entry.1]? = some entry.2)
    {conn : CDbConnection σ} (hopen : conn.isConnect = true)
    (hsucceeded : (mgr.writebackFrom pb srv nTime entries conn).2.2.Succeeded) :
    WriteBack.Settles (mgr.pending pb tables) (rows conn.server)
      (rows (mgr.writebackFrom pb srv nTime entries conn).2.2.server)
      (fun key => ∃ pObject, (key.2, pObject) ∈ entries ∧ ¬ Waits mgr pObject nTime) := by
  induction entries generalizing conn with
  | nil =>
      apply (WriteBack.Settles.refl _ _).mono
      intro key hcase
      obtain ⟨_, hin, _⟩ := hcase
      cases hin
  | cons entry rest ih =>
      obtain ⟨nID, pObject⟩ := entry
      unfold CDbCacheMgr.writebackFrom at hsucceeded ⊢
      simp only at hsucceeded ⊢
      have hgrows := (trace_keptBySent srv (mgr.writebackObject pb srv nID pObject nTime
        conn).2.2.trace).writebackFrom pb mgr nTime rest (List.prefix_refl _)
      have hstays := (isConnect_keptBySent srv true).writebackObject pb mgr nID pObject nTime
        hopen
      have hhead := writebackObject_settles hpb hsrv h (hentries _ List.mem_cons_self) hopen
        (hsucceeded.of_prefix hgrows)
      have htail := ih (fun entry hin => hentries entry (List.mem_cons_of_mem _ hin)) hstays
        hsucceeded
      apply (hhead.trans htail).mono
      intro key hcase
      obtain ⟨pObject', hin, hwaits⟩ := hcase
      rcases List.mem_cons.mp hin with heq | hin'
      · cases heq
        exact .inl (.inl ⟨rfl, hwaits⟩)
      · exact .inl (.inr ⟨pObject', hin', hwaits⟩)

end Passes

/-! ## What a pass leaves behind -/

/-- Where nothing is scheduled the database holds what it is meant to hold. -/
def Covered (pb : Runtime) (tables : Tables) (mgr : CDbCacheMgr) (stored : Rows) : Prop :=
  ∀ key : String × Nat, mgr.m_mapDirtyCache[key.2]? = none →
    WriteBack.Settled (mgr.pending pb tables) stored key

/-- Entries that leave the maps leave the cache in order. -/
theorem Caches.shrink (h : Caches pb mgr) (hsame : SameRecords mgr mgr')
    (hwf : WellFormed mgr') (haligned : Aligned mgr')
    (hcache : ∀ nID : Nat, mgr'.m_mapCache[nID]? = mgr.m_mapCache[nID]? ∨
      mgr'.m_mapCache[nID]? = none) : Caches pb mgr' where
  enabled := hsame.isDisabled.trans h.enabled
  wellFormed := hwf
  aligned := haligned
  named := hsame.named h.named
  records := by
    intro nID szDataName sCacheInfo hlook
    rcases hcache nID with heq | hnone
    · rw [hsame.lookup heq] at hlook
      exact h.records _ _ _ hlook
    · rw [lookup_of_uncached hnone] at hlook
      cases hlook

/-- A timed pass changes no record, -/
theorem writeback_caches (pb : Runtime) (srv : Server σ) (h : Caches pb mgr) (nTime : Nat)
    (conn : CDbConnection σ) : Caches pb (mgr.writeback pb srv nTime conn).1 :=
  h.shrink (writeback_sameRecords pb srv mgr nTime conn)
    (writeback_wellFormed pb srv h.wellFormed nTime conn)
    (writeback_aligned h.aligned nTime conn) (fun nID => .inl (by rw [writeback_mapCache]))

/-- and neither does an eviction. -/
theorem cleanCache_caches (pb : Runtime) (srv : Server σ) (h : Caches pb mgr) (nTime : Nat)
    (sample : Sample) (conn : CDbConnection σ) :
    Caches pb (mgr.cleanCache pb srv nTime sample conn).1 :=
  h.shrink (cleanCache_sameRecords pb srv mgr nTime sample conn)
    (cleanCache_wellFormed pb srv h.wellFormed nTime sample conn)
    (cleanCache_aligned pb srv h.aligned nTime sample conn)
    (cleanCache_mapCache pb srv mgr nTime sample conn)

/-- A pass over the dirty map changes no record. -/
theorem writeback_pending (pb : Runtime) (srv : Server σ) (tables : Tables) (mgr : CDbCacheMgr)
    (nTime : Nat) (conn : CDbConnection σ) :
    (mgr.writeback pb srv nTime conn).1.pending pb tables = mgr.pending pb tables := by
  apply pending_congr
  funext nID szDataName
  exact (writeback_sameRecords pb srv mgr nTime conn).lookup (by rw [writeback_mapCache]) _

section Passes

variable (hpb : pb.Lawful) (hsrv : srv.Keeps pb tables rows) (h : Caches pb mgr)
  {conn : CDbConnection σ} (hopen : conn.isConnect = true)
  (hcovered : Covered pb tables mgr (rows conn.server))

include hpb hsrv h hopen in
/-- **A pass over the dirty map settles what it takes off it.** -/
theorem writeback_settles {nTime : Nat} (hpaced : mgr.isPaced nTime = false)
    (hsucceeded : (mgr.writeback pb srv nTime conn).2.2.Succeeded) :
    WriteBack.Settles (mgr.pending pb tables) (rows conn.server)
      (rows (mgr.writeback pb srv nTime conn).2.2.server)
      (fun key => ∃ pObject, mgr.m_mapDirtyCache[key.2]? = some pObject ∧
        ¬ Waits mgr pObject nTime) := by
  rcases writeback_cases pb srv mgr nTime conn with ⟨hskip, _⟩ | ⟨_, _, heq⟩
  · rw [h.enabled, hpaced] at hskip
    simp at hskip
  · have hconn : (mgr.writeback pb srv nTime conn).2.2 =
        (mgr.writebackFrom pb srv nTime mgr.m_mapDirtyCache.toList conn).2.2 := by
      rw [heq]
    rw [hconn] at hsucceeded ⊢
    have hentries : ∀ entry ∈ mgr.m_mapDirtyCache.toList,
        mgr.m_mapCache[entry.1]? = some entry.2 := fun entry hin =>
      h.aligned _ _ (Std.ExtTreeMap.mem_toList_iff_getElem?_eq_some.mp hin)
    apply (writebackFrom_settles hpb hsrv h hentries hopen hsucceeded).mono
    intro key hcase
    obtain ⟨pObject, hdirty, hwaits⟩ := hcase
    exact .inl ⟨pObject, Std.ExtTreeMap.mem_toList_iff_getElem?_eq_some.mpr hdirty, hwaits⟩

include hpb hsrv h hopen hcovered

/-- **A timed pass keeps what the database is meant to hold,** and what it does not leave
scheduled is settled. -/
theorem writeback_covered (nTime : Nat)
    (hsucceeded : (mgr.writeback pb srv nTime conn).2.2.Succeeded) :
    WriteBack.meant ((mgr.writeback pb srv nTime conn).1.pending pb tables)
        (rows (mgr.writeback pb srv nTime conn).2.2.server) =
      WriteBack.meant (mgr.pending pb tables) (rows conn.server) ∧
    Covered pb tables (mgr.writeback pb srv nTime conn).1
      (rows (mgr.writeback pb srv nTime conn).2.2.server) := by
  cases hpaced : mgr.isPaced nTime with
  | true =>
      rcases writeback_cases pb srv mgr nTime conn with ⟨_, heq⟩ | ⟨_, hrun, _⟩
      · rw [heq]
        exact ⟨rfl, hcovered⟩
      · exact absurd (hpaced.symm.trans hrun) (by simp)
  | false =>
      have hsettles := writeback_settles hpb hsrv h hopen hpaced hsucceeded
      unfold Covered
      rw [writeback_pending]
      refine ⟨hsettles.meant, fun key hnone => ?_⟩
      have hleft := writeback_dirty_iff pb srv h.enabled hpaced conn key.2
      cases hdirty : mgr.m_mapDirtyCache[key.2]? with
      | none => exact hsettles.kept key (hcovered key hdirty)
      | some pObject =>
          refine hsettles.done key ⟨pObject, hdirty, fun hwaits => ?_⟩
          have hstill := (hleft pObject).mpr ⟨hdirty, hwaits⟩
          rw [hnone] at hstill
          cases hstill

/-- **So does an eviction.** -/
theorem cleanCache_covered (nTime : Nat) (sample : Sample)
    (hsucceeded : (mgr.cleanCache pb srv nTime sample conn).2.2.Succeeded) :
    WriteBack.meant ((mgr.cleanCache pb srv nTime sample conn).1.pending pb tables)
        (rows (mgr.cleanCache pb srv nTime sample conn).2.2.server) =
      WriteBack.meant (mgr.pending pb tables) (rows conn.server) ∧
    Covered pb tables (mgr.cleanCache pb srv nTime sample conn).1
      (rows (mgr.cleanCache pb srv nTime sample conn).2.2.server) := by
  rcases cleanCache_cases pb srv mgr nTime sample conn with
    ⟨nLast, _, heq⟩ | ⟨nID, pObject, _, hchosen, heq⟩
  · rw [heq]
    exact ⟨rfl, hcovered⟩
  · rw [heq] at hsucceeded ⊢
    have hnotWaits : ¬ Waits mgr pObject 0 := by
      intro hcase
      obtain ⟨_, _, _, hwaits⟩ := hcase
      simp [CDbCache.isWaiting, CDbCache.isDue] at hwaits
    have hsettles := (writebackObject_settles hpb hsrv h (chosen_mem hchosen) hopen
      hsucceeded).mono (fun key (hid : key.2 = nID) => .inl ⟨hid, hnotWaits⟩)
    have hgone : ∀ szTableName, (mgr.evict nTime nID pObject).pending pb tables
        (szTableName, nID) = none := by
      intro szTableName
      have huncached : (mgr.evict nTime nID pObject).m_mapCache[nID]? = none := by
        simp [evict]
      simp only [pending, lookup_of_uncached huncached, Option.bind_none]
    have hother : ∀ key : String × Nat, key.2 ≠ nID →
        (mgr.evict nTime nID pObject).pending pb tables key = mgr.pending pb tables key := by
      intro key hne
      have hsame : SameRecords mgr (mgr.evict nTime nID pObject) :=
        ⟨rfl, rfl, rfl, rfl, rfl, rfl, rfl⟩
      have hcache : (mgr.evict nTime nID pObject).m_mapCache[key.2]? =
          mgr.m_mapCache[key.2]? := by
        simp [evict, Std.ExtTreeMap.getElem?_erase, Ne.symm hne]
      simp only [pending, hsame.lookup hcache]
    constructor
    · rw [← hsettles.meant]
      refine WriteBack.meant_forget fun key => ?_
      by_cases hid : key.2 = nID
      · obtain ⟨szTableName, nID'⟩ := key
        obtain rfl : nID' = nID := hid
        exact .inr ⟨hgone szTableName, hsettles.done _ rfl⟩
      · exact .inl (hother key hid)
    · intro key hnone
      by_cases hid : key.2 = nID
      · obtain ⟨szTableName, nID'⟩ := key
        obtain rfl : nID' = nID := hid
        exact WriteBack.settled_of_none (hgone szTableName)
      · have hdirty : mgr.m_mapDirtyCache[key.2]? = none := by
          simpa [evict, Std.ExtTreeMap.getElem?_erase, Ne.symm hid] using hnone
        have hkept := hsettles.kept key (hcovered key hdirty)
        unfold WriteBack.Settled at *
        rw [← hkept]
        exact WriteBack.meant_congr (hother key hid) rfl

/-- **The last flush** makes every pending write, unless it is skipped while something is
scheduled. -/
theorem flushAll_meant (hflush : FlushClean mgr 0) (bDel : Bool)
    (hsucceeded : (mgr.flushCache pb srv 0 bDel conn).2.2.Succeeded) :
    rows (mgr.flushCache pb srv 0 bDel conn).2.2.server =
      WriteBack.meant (mgr.pending pb tables) (rows conn.server) := by
  have hconn : (mgr.flushCache pb srv 0 bDel conn).2.2 = (mgr.writeback pb srv 0 conn).2.2 := by
    rcases flushCache_cases pb srv mgr 0 bDel conn with
      ⟨hnothing, _⟩ | ⟨_, _, hkey, _⟩ | ⟨_, _, heq⟩
    · rw [h.enabled] at hnothing
      simp at hnothing
    · exact absurd rfl hkey
    · rw [heq]
  rw [hconn] at hsucceeded ⊢
  obtain ⟨hmeant, hcovered'⟩ := writeback_covered hpb hsrv h hopen hcovered 0 hsucceeded
  rw [← hmeant]
  refine (WriteBack.meant_of_settled fun key => hcovered' key ?_).symm
  have hclean : mgr.isPaced 0 = false ∨ mgr.m_mapDirtyCache = ∅ := by
    simpa [FlushClean] using hflush
  rcases hclean with hpaced | hempty
  · rw [writeback_forced_dirty h.enabled hpaced]
    simp
  · by_contra hne
    obtain ⟨pObject, hsome⟩ := Option.ne_none_iff_exists'.mp hne
    have hdirty := writeback_dirty_le mgr 0 conn hsome
    rw [hempty] at hdirty
    simp at hdirty

end Passes

end CDbCacheMgr

end Db
