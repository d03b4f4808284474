import DbService.ReadCoherence
import DbService.EachRecord

/-!
# Records under their own key

A record comes into the cache under the key of a message or under the id of a SELECT.  The
message of a row that exists carries that id; the message that SELECT makes of no row carries
none.  As long as every SELECT finds its row, each record carries the key it is cached under
(`Keyed`), and each UPDATE of a write-back names its own row (`OwnRow`).

* `Keyed.ownRow` -- an UPDATE of a keyed record names its own row;
* `step_keyedCache` -- a step keeps the records keyed, if its SELECT finds its row;
* `write_backs_hit_own_row` -- whole runs;
* `missing_player_written_as_zero` -- a SELECT that finds none.
-/

namespace Db

open Reflection ByteText

/-- The message sets its primary key, and to `nID`. -/
structure CarriesKey (nID : Nat) (m : RowMessage) : Prop where
  sets : SetsKey m
  value : getPrimaryValue (.row m) = some nID

/-- Whatever the bytes of a record are read as is of the type the data name names and carries
the key. -/
def KeyedRecord (pb : Runtime) (nID : Nat) (szDataName : String) (szData : Bytes) : Prop :=
  ∀ m, CDbCache.loadRecord pb szDataName szData = some m →
    pb.FindMessageTypeByName szDataName = some m.descriptor ∧ CarriesKey nID m

/-- Every record of the object carries the key. -/
def KeyedRecords (pb : Runtime) (getDataName : Nat → String) (nID : Nat)
    (pDbCache : CDbCache) : Prop :=
  ∀ (nDataID : Nat) (sCacheInfo : SCacheInfo),
    pDbCache.m_mapCacheInfo[nDataID]? = some sCacheInfo →
    KeyedRecord pb nID (getDataName nDataID) sCacheInfo.szData

section Messages

variable {pb : Runtime} {nID : Nat} {szDataName : String} {m : RowMessage}

/-- The bytes of a message that carries the key make such a record. -/
theorem keyedRecord_of_holds (hpb : pb.Lawful) {szData : Bytes}
    (hholds : Holds pb szDataName szData m) (hkey : CarriesKey nID m) :
    KeyedRecord pb nID szDataName szData := by
  intro m' hload
  obtain rfl := Option.some.inj ((hholds.load hpb).symm.trans hload)
  exact ⟨hholds.known, hkey⟩

/-- Filling in defaults changes no key that is set. -/
theorem CarriesKey.filled (h : CarriesKey nID m) : CarriesKey nID m.filled := by
  obtain ⟨hne, f, hfind, hinteger, hvalue⟩ := getPrimaryValue_eq_some.mp h.value
  obtain ⟨hf, hname⟩ := FindFieldByName_name hfind
  have hset := filled_value_of_mem m hf
  refine ⟨?_, ?_⟩
  · unfold SetsKey
    rw [filled_descriptor, ← hname, hset]
    rfl
  · refine getPrimaryValue_eq_some.mpr ⟨hne, f, hfind, hinteger, ?_⟩
    rw [RowMessage.Get, hset, Option.getD_some]
    exact hvalue

/-- **A merge keeps the key:** over a record of the same type it leaves the filled message. -/
theorem keyedRecord_of_merge (hpb : pb.Lawful) (hkey : CarriesKey nID m)
    (hknown : pb.FindMessageTypeByName szDataName = some m.descriptor) {szOld szData : Bytes}
    (hold : KeyedRecord pb nID szDataName szOld)
    (hmerge : CDbCache.mergeData pb szDataName szOld m = some szData) :
    KeyedRecord pb nID szDataName szData := by
  refine keyedRecord_of_holds hpb (holds_of_merge hknown ?_ hmerge) hkey.filled
  intro m' hload
  exact Option.some.inj ((hold m' hload).1.symm.trans hknown)

/-- So carrying the key is a property of records. -/
theorem keyedRecord_rule (hpb : pb.Lawful) : RecordRule pb (KeyedRecord pb) CarriesKey where
  added := fun _ _ _ hkey hholds => keyedRecord_of_holds hpb hholds hkey
  merged := fun _ _ _ _ hkey hknown hold hmerge =>
    keyedRecord_of_merge hpb hkey hknown hold hmerge

end Messages

namespace CDbCacheMgr

variable {pb : Runtime} {mgr : CDbCacheMgr}

/-- Every record cached or scheduled under an id carries it. -/
def Keyed (pb : Runtime) (mgr : CDbCacheMgr) : Prop :=
  ∀ nID pObject : Nat,
    mgr.m_mapCache[nID]? = some pObject ∨ mgr.m_mapDirtyCache[nID]? = some pObject →
    KeyedRecords pb mgr.getDataName nID (mgr.objects pObject)

/-- What the invariant is carried by: objects belong to ids, indices to data names. -/
structure KeyedCache (pb : Runtime) (mgr : CDbCacheMgr) : Prop where
  wellFormed : WellFormed mgr
  named : Named mgr
  keyed : Keyed pb mgr

theorem keyedCache_iff : KeyedCache pb mgr ↔ EachRecord (KeyedRecord pb) mgr :=
  ⟨fun h => ⟨h.wellFormed, h.named, h.keyed⟩, fun h => ⟨h.wellFormed, h.named, h.records⟩⟩

theorem init_keyedCache (pb : Runtime) (nMaxCacheSize nWritebackTime : Nat) :
    KeyedCache pb (init nMaxCacheSize nWritebackTime) :=
  keyedCache_iff.mpr (init_eachRecord (KeyedRecord pb) nMaxCacheSize nWritebackTime)

/-- The UPDATE of a write-back carries a message with the key its record is cached under, and
the text of this key in the key's column. -/
def OwnRow (pb : Runtime) (mgr : CDbCacheMgr) (w : WriteEvent) : Prop :=
  ∃ m, CDbCache.recordMessage pb mgr.getDataName w.info.nDataID w.info.szData = some m ∧
    CarriesKey w.nID m ∧
    ∀ vecFieldInfo, getMessageFieldInfos pb (.row m) = some vecFieldInfo →
      ∃ z : Int, (z % 2 ^ 64).toNat = w.nID ∧
        vecFieldInfo.find? (fun sFieldInfo => sFieldInfo.szName == m.descriptor.primary_key) =
          some ⟨m.descriptor.primary_key, decimal z, false⟩

end CDbCacheMgr

/-- The key's column of a message that carries a key. -/
theorem CarriesKey.column {pb : Runtime} {nID : Nat} {m : RowMessage} (h : CarriesKey nID m)
    {vecFieldInfo : List SFieldInfo}
    (hinfos : getMessageFieldInfos pb (.row m) = some vecFieldInfo) :
    ∃ z : Int, (z % 2 ^ 64).toNat = nID ∧
      vecFieldInfo.find? (fun sFieldInfo => sFieldInfo.szName == m.descriptor.primary_key) =
        some ⟨m.descriptor.primary_key, decimal z, false⟩ := by
  obtain ⟨_, f, hfind, hinteger, hvalue⟩ := getPrimaryValue_eq_some.mp h.value
  have hname := (FindFieldByName_name hfind).2
  obtain ⟨v, hv⟩ := Option.isSome_iff_exists.mp h.sets
  have hfits : v.fits f.type = true := by
    have haccepts := m.accepted _ _ hv
    rwa [Descriptor.accepts, hfind] at haccepts
  obtain ⟨z, rfl, _⟩ := fits_integer hinteger hfits
  refine ⟨z, ?_, ?_⟩
  · rw [RowMessage.Get, hname, hv] at hvalue
    exact hvalue
  · rw [find_infos hinfos, columnInfo, hfind, Option.bind_some, hname, hv, Option.bind_some,
      getFieldInfo_integer pb hinteger, hname]

namespace CDbCacheMgr

variable {σ : Type} {pb : Runtime} {srv : Server σ} {mgr : CDbCacheMgr}

/-- **An UPDATE of a keyed object** names its own row. -/
theorem Keyed.ownRow (h : Keyed pb mgr) {w : WriteEvent} {nTime : Nat}
    (hin : mgr.m_mapCache[w.nID]? = some w.pDbCache ∨
      mgr.m_mapDirtyCache[w.nID]? = some w.pDbCache)
    (hcarries : Carries pb mgr nTime w) : OwnRow pb mgr w := by
  obtain ⟨sCacheInfo, hrecord, _, _, hdata, hsome⟩ := hcarries
  obtain ⟨m, hm⟩ := Option.isSome_iff_exists.mp hsome
  have hload : CDbCache.loadRecord pb (mgr.getDataName w.info.nDataID) sCacheInfo.szData =
      some m := by
    unfold CDbCache.recordMessage at hm
    split at hm
    · cases hm
    · exact hm
  have hkey := (h w.nID w.pDbCache hin w.info.nDataID sCacheInfo hrecord m hload).2
  exact ⟨m, by rw [hdata, hm], hkey, fun _ hinfos => hkey.column hinfos⟩

theorem flushCache_ownRow (h : Keyed pb mgr) {nKey : Nat} {bDel : Bool} {conn : CDbConnection σ}
    {w : WriteEvent} (hw : w ∈ (mgr.flushCache pb srv nKey bDel conn).2.1) : OwnRow pb mgr w := by
  obtain ⟨hin, hcarries⟩ := mem_flushCache hw
  exact h.ownRow hin hcarries

/-- So do the UPDATEs of a tick. -/
theorem update_ownRow (h : KeyedCache pb mgr) {nCurTime : Nat} {sample : Sample}
    {conn : CDbConnection σ} {w : WriteEvent}
    (hw : w ∈ (mgr.update pb srv nCurTime sample conn).2.1) : OwnRow pb mgr w := by
  rcases List.mem_append.mp hw with hclean | hpass
  · obtain ⟨hcached, hcarries⟩ := mem_cleanCache hclean
    exact h.keyed.ownRow (.inl hcached) hcarries
  · have hsame := cleanCache_sameRecords pb srv mgr nCurTime sample conn
    have hcleaned := keyedCache_iff.mpr
      (cleanCache_eachRecord pb srv (keyedCache_iff.mp h) nCurTime sample conn)
    obtain ⟨hdirty, hcarries⟩ := mem_writeback hpass
    have hown := hcleaned.keyed.ownRow (.inr hdirty) hcarries
    unfold OwnRow at hown ⊢
    rwa [funext hsame.getDataName] at hown

end CDbCacheMgr

/-- The requests a client builds: an INSERT or UPDATE sets the primary key of a message of a
known type. -/
def StoreAction.WritesKeys (pb : Runtime) : StoreAction → Prop
  | .command sDbCommand _ =>
      ∀ m, sDbCommand.nType = .kOT_INSERT ∨ sDbCommand.nType = .kOT_UPDATE →
        sDbCommand.pMessage = some (.row m) → pb.Knows (.row m) ∧ SetsKey m
  | _ => True

namespace Store

open CDbCacheMgr

variable {σ : Type} (pb : Runtime) (srv : Server σ)

/-- The database has a row to answer a SELECT with, and it reads as one of the id. -/
def ReadsOwnRow (st : Store σ) (id : Nat) (table_name : String) : Prop :=
  ∀ d rs m, pb.rowType table_name = some d →
    (srv.query st.m_dbConnection.server (.selectRow table_name d.primary_key id)).1 = .rows rs →
    fillNormalMessage pb rs (.New d) = some m → CarriesKey id m

/-- When a command keeps the records keyed.  The cache is off; or there is an index for the data
name, and a SELECT that the cache cannot answer reads its own row. -/
def FindsRow (st : Store σ) (nType : EOperatorType) (pRequest : Option Message) : Prop :=
  st.m_dbCacheMgr.isDisabled = false →
    match nType, pRequest with
    | .kOT_SELECT, some (.select_command id table_name) =>
        st.m_dbCacheMgr.HasIndex (getMessageNameByTableName table_name) ∧
          ((st.m_dbCacheMgr.getData pb id (getMessageNameByTableName table_name)).1 = none →
            st.ReadsOwnRow pb srv id table_name)
    | .kOT_UPDATE, some (.row m) => st.m_dbCacheMgr.HasIndex m.GetTypeName
    | .kOT_INSERT, some (.row m) => st.m_dbCacheMgr.HasIndex m.GetTypeName
    | .kOT_DELETE, some (.delete_command _ table_name) =>
        st.m_dbCacheMgr.HasIndex (getMessageNameByTableName table_name)
    | _, _ => True

/-- An action keeps the records keyed: a command does, or its deadline is past. -/
def FindsRows (st : Store σ) : StoreAction → Prop
  | .command sDbCommand clock =>
      sDbCommand.isExpired clock.nCurTime = true ∨
        st.FindsRow pb srv sDbCommand.nType sDbCommand.pMessage
  | _ => True

variable {pb srv} {st : Store σ}

/-- **What a SELECT answers** carries its id. -/
theorem selected_carriesKey (h : KeyedCache pb st.m_dbCacheMgr) {id : Nat}
    {table_name : String} (hdisabled : st.m_dbCacheMgr.isDisabled = false)
    (hfinds : st.FindsRow pb srv .kOT_SELECT (some (.select_command id table_name)))
    {m : RowMessage} (hselected : st.selected pb srv id table_name = some m) :
    pb.FindMessageTypeByName (getMessageNameByTableName table_name) = some m.descriptor ∧
      CarriesKey id m := by
  obtain ⟨hroom, hfound⟩ := hfinds hdisabled
  rcases selected_cases hselected with hcache | ⟨hmissed, d, rs, htype, hreply, hfill⟩
  · obtain ⟨szData, hkeyed, hload⟩ := (keyedCache_iff.mp h).of_getData hroom hcache
    exact hkeyed m hload
  · have hd : m.descriptor = d := fillNormalMessage_descriptor hfill
    exact ⟨hd ▸ (rowType_eq_some.mp htype).1, hfound hmissed d rs m htype hreply hfill⟩

/-- What a command enters carries its key. -/
theorem enters_of_findsRow (h : KeyedCache pb st.m_dbCacheMgr) {nType : EOperatorType}
    {pRequest : Option Message}
    (hkeys : ∀ m, nType = .kOT_INSERT ∨ nType = .kOT_UPDATE → pRequest = some (.row m) →
      pb.Knows (.row m) ∧ SetsKey m)
    (hfinds : st.FindsRow pb srv nType pRequest) : st.Enters pb srv CarriesKey nType pRequest := by
  intro hdisabled
  have hfound := hfinds hdisabled
  split
  · exact ⟨hfound.1, fun m hselected => selected_carriesKey h hdisabled hfinds hselected⟩
  · rename_i m
    obtain ⟨hknown, hsets⟩ := hkeys m (.inr rfl) rfl
    exact ⟨hfound, fun nID hid => ⟨hknown, hsets, hid⟩⟩
  · rename_i m
    obtain ⟨hknown, hsets⟩ := hkeys m (.inl rfl) rfl
    exact ⟨hfound, fun nID hid => ⟨hknown, hsets, hid⟩⟩
  · exact hfound
  · trivial

/-- **Step.**  A command that names the key of the row it writes, and a SELECT that finds the row
it asks for, put only records with their own key into the cache. -/
theorem step_keyedCache (hpb : pb.Lawful) (h : KeyedCache pb st.m_dbCacheMgr)
    {action : StoreAction} (hkeys : action.WritesKeys pb) (hfinds : st.FindsRows pb srv action) :
    KeyedCache pb (st.step pb srv action).1.m_dbCacheMgr := by
  refine keyedCache_iff.mpr
    (step_eachRecord hpb (keyedRecord_rule hpb) (keyedCache_iff.mp h) ?_)
  cases action with
  | command sDbCommand clock =>
      exact hfinds.imp_right fun hcommand => enters_of_findsRow h hkeys hcommand
  | tick nCurTime sample => trivial
  | finish => trivial

/-- The UPDATEs of any action name their own rows. -/
theorem step_ownRow (h : KeyedCache pb st.m_dbCacheMgr) (action : StoreAction) {w : WriteEvent}
    (hw : w ∈ (st.step pb srv action).2.writes) : OwnRow pb st.m_dbCacheMgr w := by
  cases action with
  | command sDbCommand clock =>
      have hprocessed := process_cases pb srv st sDbCommand clock
      simp only [step] at hw
      generalize st.process pb srv sDbCommand clock = result at hprocessed hw
      cases hprocessed with
      | flush id type _ _ mgr writes conn hflush =>
          have hwrites : writes = (st.m_dbCacheMgr.flushCache pb srv id
              (type == EFlushCacheType.kFCT_DEL.code) st.m_dbConnection).2.1 := by
            rw [hflush]
          exact flushCache_ownRow h.keyed (hwrites ▸ hw)
      | flushNothing => cases hw
      | expired => cases hw
      | executed => cases hw
  | tick nCurTime sample => exact update_ownRow h hw
  | finish =>
      have hpass : w ∈ (st.m_dbCacheMgr.flushCache pb srv 0 true st.m_dbConnection).2.1 := hw
      exact flushCache_ownRow h.keyed hpass

end Store

/-- **Write-backs hit their own rows.**  In every run in which each SELECT that the cache cannot
answer reads its row, every record carries the key it is cached under in every state reached,
and whatever happens next, every UPDATE of a write-back names the row of its record. -/
theorem write_backs_hit_own_row {σ : Type} {pb : Runtime} (hpb : pb.Lawful) (srv : Server σ)
    (nMaxCacheSize nWritebackTime : Nat) (conn : CDbConnection σ) {actions : List StoreAction}
    (hkeys : ∀ action ∈ actions, action.WritesKeys pb)
    (hfinds : Runs.Guarded (Store.step pb srv) (Store.FindsRows pb srv)
      (Store.init nMaxCacheSize nWritebackTime conn) actions) :
    Runs.Always (Store.step pb srv)
      (fun st => st.m_dbCacheMgr.Keyed pb ∧ ∀ action, ∀ w ∈ (st.step pb srv action).2.writes,
        st.m_dbCacheMgr.OwnRow pb w)
      (Store.init nMaxCacheSize nWritebackTime conn) actions := by
  have halways := Runs.always_of_guarded
    (fun st : Store σ => CDbCacheMgr.KeyedCache pb st.m_dbCacheMgr)
    (fun _ _ h hok => Store.step_keyedCache hpb h hok.1 hok.2)
    (CDbCacheMgr.init_keyedCache pb nMaxCacheSize nWritebackTime) (hfinds.and_forall hkeys)
  exact halways.imp fun st h => ⟨h.keyed, fun action _ hw => Store.step_ownRow h action hw⟩

/-- Player 5 is read from its row and from the cache. -/
theorem found_player_keyed :
    Runs.Always (Store.step PlayerBase.runtime onePlayerServer)
      (fun st => st.m_dbCacheMgr.Keyed PlayerBase.runtime ∧
        ∀ action, ∀ w ∈ (st.step PlayerBase.runtime onePlayerServer action).2.writes,
          st.m_dbCacheMgr.OwnRow PlayerBase.runtime w)
      (Store.init 1000 60 ⟨true, (), 0, []⟩)
      [.command selectFive ⟨1, 1⟩, .command selectFive ⟨2, 2⟩] := by
  have hreads : ∀ st : Store Unit,
      st.ReadsOwnRow PlayerBase.runtime onePlayerServer 5 "player_base" := by
    intro st d rs m htype hreply hfill
    obtain rfl : PlayerBase.player_base = d := Option.some.inj htype
    cases hreply
    have hplayer : fillNormalMessage PlayerBase.runtime ⟨["id", "name"], [[some [53], some [97]]]⟩
        (.New PlayerBase.player_base) = some (PlayerBase.player 5 [97]) := rfl
    obtain rfl := Option.some.inj (hplayer.symm.trans hfill)
    exact ⟨rfl, rfl⟩
  refine write_backs_hit_own_row PlayerBase.runtime_lawful onePlayerServer 1000 60
    ⟨true, (), 0, []⟩ ?_ ?_
  · intro action hin
    simp only [List.mem_cons, List.not_mem_nil, or_false] at hin
    rcases hin with rfl | rfl
    · intro m htype
      rcases htype with htype | htype <;> cases htype
    · intro m htype
      rcases htype with htype | htype <;> cases htype
  · exact ⟨.inr fun _ => ⟨.inr (by decide), fun _ => hreads _⟩,
      .inr fun _ => ⟨.inl (by decide), fun _ => hreads _⟩, trivial⟩

/-- A player that has no row is read twice, and the last flush writes row 0. -/
theorem missing_player_written_as_zero :
    ¬ ∀ (σ : Type) (pb : Runtime) (srv : Server σ) (nMaxCacheSize nWritebackTime : Nat)
        (conn : CDbConnection σ) (actions : List StoreAction),
      pb.Lawful → (∀ action ∈ actions, action.WritesKeys pb) →
      Runs.Always (Store.step pb srv)
        (fun st => st.m_dbCacheMgr.Keyed pb ∧ ∀ action, ∀ w ∈ (st.step pb srv action).2.writes,
          st.m_dbCacheMgr.OwnRow pb w)
        (Store.init nMaxCacheSize nWritebackTime conn) actions := by
  intro h
  let noPlayerServer : Server Unit := .constant (.rows ⟨["id", "name"], []⟩)
  let reads : List StoreAction := [.command selectFive ⟨1, 1⟩, .command selectFive ⟨2, 2⟩]
  let st := Runs.run (Store.step PlayerBase.runtime noPlayerServer)
    (Store.init 1000 60 ⟨true, (), 0, []⟩) reads
  have hreads : ∀ action ∈ reads, action.WritesKeys PlayerBase.runtime := by
    intro action hin
    simp only [reads, List.mem_cons, List.not_mem_nil, or_false] at hin
    rcases hin with rfl | rfl
    · intro m htype
      rcases htype with htype | htype <;> cases htype
    · intro m htype
      rcases htype with htype | htype <;> cases htype
  have hown := (h Unit PlayerBase.runtime noPlayerServer 1000 60 ⟨true, (), 0, []⟩ reads
    PlayerBase.runtime_lawful hreads).last.2 .finish
  -- The key of the row that each UPDATE writes would be the id of its record.
  have hkeys : ∀ w ∈ (st.step PlayerBase.runtime noPlayerServer .finish).2.writes,
      (CDbCache.recordMessage PlayerBase.runtime st.m_dbCacheMgr.getDataName w.info.nDataID
        w.info.szData).bind (fun m => getPrimaryValue (.row m)) = some w.nID := by
    intro w hw
    obtain ⟨m, hm, hkey, _⟩ := hown w hw
    rw [hm]
    exact hkey.value
  revert hkeys
  decide

end Db
