import DbService.RowCommands
import DbService.TableServer
import DbService.PlayerBase

/-!
# Durability

After the last flush the database of a store with a cache holds the rows it would hold
without the cache, as long as no command loses a write (`Lossless`).  Two commands can.  An
UPDATE that finds no record is taken into the cache as an unmodified one and never written.
A SELECT that finds a record makes it a modified one, so that a record which is not the row
it was read from, such as the empty message of a missing row, is written over the row.

* `step_follows` -- a step that loses no write keeps the two runs together;
* `finish_rows` -- the last flush leaves the rows of the run without a cache;
* `rows_after_last_flush` -- so the rows are the same after the last flush;
* `absorbed_update_lost` -- an UPDATE of a row that is not cached.
-/

namespace Db

open Reflection ByteText CDbCacheMgr

namespace Store

variable {σ : Type}

/-- The commands on one row.  What INSERT and UPDATE carry can be stored as a row, and sets
the fields that `sets` asks for. -/
inductive RowCommand (pb : Runtime) (sets : RowMessage → Prop) :
    EOperatorType → Option Message → Prop
  | select (id : Nat) (table_name : String) :
      RowCommand pb sets .kOT_SELECT (some (.select_command id table_name))
  | update (m : RowMessage) (szTableName : String) (nID : Nat) (vecFieldInfo : List SFieldInfo)
      (hm : Storable pb m szTableName nID vecFieldInfo) (hsets : sets m) :
      RowCommand pb sets .kOT_UPDATE (some (.row m))
  | insert (m : RowMessage) (szTableName : String) (nID : Nat) (vecFieldInfo : List SFieldInfo)
      (hm : Storable pb m szTableName nID vecFieldInfo) (hsets : sets m) :
      RowCommand pb sets .kOT_INSERT (some (.row m))
  | delete (id : Nat) (table_name : String) :
      RowCommand pb sets .kOT_DELETE (some (.delete_command id table_name))

/-- Commands on rows, not at time zero, and ticks. -/
def OnRows (pb : Runtime) (sets : RowMessage → Prop) : StoreAction → Prop
  | .command sDbCommand clock =>
      clock.nSetTime ≠ 0 ∧ RowCommand pb sets sDbCommand.nType sDbCommand.pMessage
  | .tick _ _ => True
  | .finish => False

/-- When a command loses nothing.  There is an index for its data name.  An UPDATE finds a
record.  A SELECT that finds one finds one that, with all fields set, can be stored under the
id and changes nothing in the row it is meant for. -/
def Lossless (pb : Runtime) (tables : Tables) (rows : σ → Rows) (st : Store σ) :
    EOperatorType → Option Message → Prop
  | .kOT_SELECT, some (.select_command id table_name) =>
      st.m_dbCacheMgr.HasIndex (getMessageNameByTableName table_name) ∧
        ∀ sCacheInfo m,
          st.m_dbCacheMgr.lookup id (getMessageNameByTableName table_name) = some sCacheInfo →
          CDbCache.loadRecord pb (getMessageNameByTableName table_name) sCacheInfo.szData =
            some m →
          ∃ vecFieldInfo, Storable pb m.filled table_name id vecFieldInfo ∧
            tables.upsert table_name vecFieldInfo
                (st.meantRows pb tables rows (table_name, id)) =
              st.meantRows pb tables rows (table_name, id)
  | .kOT_UPDATE, some (.row m) =>
      ∀ nID, getPrimaryValue (.row m) = some nID →
        st.m_dbCacheMgr.lookup nID m.GetTypeName ≠ none
  | .kOT_INSERT, some (.row m) => st.m_dbCacheMgr.HasIndex m.GetTypeName
  | .kOT_DELETE, some (.delete_command _ table_name) =>
      st.m_dbCacheMgr.HasIndex (getMessageNameByTableName table_name)
  | _, _ => True

/-- An action loses nothing: a command does not, or its deadline is past. -/
def LosesNothing (pb : Runtime) (tables : Tables) (rows : σ → Rows) (st : Store σ) :
    StoreAction → Prop
  | .command sDbCommand clock =>
      sDbCommand.isExpired clock.nCurTime = true ∨
        Lossless pb tables rows st sDbCommand.nType sDbCommand.pMessage
  | _ => True

variable {pb : Runtime} {srv : Server σ} {tables : Tables} {rows : σ → Rows}
  {plain st : Store σ}

/-! ## Ticks and the last flush -/

/-- A tick of a cache that is switched off does nothing. -/
theorem update_disabled (hdisabled : plain.m_dbCacheMgr.isDisabled = true) (nCurTime : Nat)
    (sample : Sample) : plain.step pb srv (.tick nCurTime sample) = (plain, ⟨none, []⟩) := by
  simp only [step, update, CDbCacheMgr.update, cleanCache, writeback, hdisabled, if_true,
    List.append_nil]

/-- **A tick** writes pending writes, and may forget records. -/
theorem tick_ready (hpb : pb.Lawful) (hsrv : srv.Keeps pb tables rows)
    (hready : Ready pb tables rows st) (nCurTime : Nat) (sample : Sample)
    (hsucceeded : (st.step pb srv (.tick nCurTime sample)).1.m_dbConnection.Succeeded) :
    Ready pb tables rows (st.step pb srv (.tick nCurTime sample)).1 ∧
      (st.step pb srv (.tick nCurTime sample)).1.meantRows pb tables rows =
        st.meantRows pb tables rows := by
  let cleaned := st.m_dbCacheMgr.cleanCache pb srv nCurTime sample st.m_dbConnection
  have hconn : (st.step pb srv (.tick nCurTime sample)).1.m_dbConnection =
      (cleaned.1.writeback pb srv nCurTime cleaned.2.2).2.2 := rfl
  rw [hconn] at hsucceeded
  have hgrows := (trace_keptBySent srv cleaned.2.2.trace).writeback pb cleaned.1 nCurTime
    (List.prefix_refl _)
  have hopen : cleaned.2.2.isConnect = true :=
    (isConnect_keptBySent srv true).cleanCache pb st.m_dbCacheMgr nCurTime sample
      hready.opened
  have hcaches : Caches pb cleaned.1 :=
    cleanCache_caches pb srv hready.caches nCurTime sample st.m_dbConnection
  obtain ⟨hmeant, hcovered⟩ := cleanCache_covered hpb hsrv hready.caches hready.opened
    hready.covered nCurTime sample (hsucceeded.of_prefix hgrows)
  obtain ⟨hmeant', hcovered'⟩ := writeback_covered hpb hsrv hcaches hopen hcovered nCurTime
    hsucceeded
  exact ⟨⟨writeback_caches pb srv hcaches nCurTime cleaned.2.2,
    (isConnect_keptBySent srv true).writeback pb cleaned.1 nCurTime hopen, hcovered'⟩,
    hmeant'.trans hmeant⟩

/-- A tick whose writes succeed keeps the two runs in step: it writes what was owed, and changes
no record. -/
theorem tick_follows (hpb : pb.Lawful) (hsrv : srv.Keeps pb tables rows)
    (hfollows : Follows pb tables rows plain st) (nCurTime : Nat) (sample : Sample)
    (hsucceeded : (st.step pb srv (.tick nCurTime sample)).1.m_dbConnection.Succeeded) :
    Follows pb tables rows (plain.step pb srv (.tick nCurTime sample)).1
      (st.step pb srv (.tick nCurTime sample)).1 := by
  rw [update_disabled hfollows.disabled]
  obtain ⟨hready, hmeant⟩ := tick_ready hpb hsrv hfollows.ready nCurTime sample hsucceeded
  exact ⟨hfollows.disabled, hfollows.plainOpen, hready.caches, hready.opened, hready.covered,
    hmeant.trans hfollows.meant⟩

/-- **The last flush** leaves the rows of the store that was followed. -/
theorem finish_rows (hpb : pb.Lawful) (hsrv : srv.Keeps pb tables rows)
    (hfollows : Follows pb tables rows plain st) (hflush : st.m_dbCacheMgr.FlushClean 0)
    (hsucceeded : (st.step pb srv .finish).1.m_dbConnection.Succeeded) :
    rows (st.step pb srv .finish).1.m_dbConnection.server =
      rows plain.m_dbConnection.server :=
  (flushAll_meant hpb hsrv hfollows.caches hfollows.opened hfollows.covered hflush true
    hsucceeded).trans hfollows.meant

/-! ## Commands -/

theorem RowCommand.ne_flush {sets : RowMessage → Prop} {nType : EOperatorType}
    {pMessage : Option Message} (h : RowCommand pb sets nType pMessage) : nType ≠ .kOT_FLUSH := by
  cases h <;> simp

/-- **A command on a row that loses nothing.** -/
theorem execute_follows (hpb : pb.Lawful) (hsrv : srv.Keeps pb tables rows)
    (hfollows : Follows pb tables rows plain st) {nType : EOperatorType}
    {pMessage : Option Message} (hcommand : RowCommand pb RowMessage.Full nType pMessage)
    (hlossless : Lossless pb tables rows st nType pMessage) {nSetTime : Nat}
    (htime : nSetTime ≠ 0)
    (hsucceeded : (plain.execute pb srv nType pMessage nSetTime).1.m_dbConnection.Succeeded)
    (hsucceeded' : (st.execute pb srv nType pMessage nSetTime).1.m_dbConnection.Succeeded) :
    Follows pb tables rows (plain.execute pb srv nType pMessage nSetTime).1
      (st.execute pb srv nType pMessage nSetTime).1 := by
  cases hcommand with
  | select id table_name =>
      obtain ⟨hindex, hhit⟩ := hlossless
      cases hlook : st.m_dbCacheMgr.lookup id (getMessageNameByTableName table_name) with
      | none =>
          obtain ⟨_, _, _, _, hmoves⟩ := select_miss_follows hpb hsrv hfollows hindex hlook
            hsucceeded hsucceeded'
          exact hmoves.follows
      | some sCacheInfo =>
          obtain ⟨m, hholds, _⟩ := hfollows.caches.records _ _ _ hlook
          obtain ⟨vecFieldInfo, hfilled, hsame⟩ := hhit sCacheInfo m hlook (hholds.load hpb)
          obtain ⟨_, _, _, _, hmoves⟩ := select_hit_follows hpb hsrv hfollows htime hindex hlook
            hholds hfilled hsame hsucceeded
          exact hmoves.follows
  | update m szTableName nID vecFieldInfo hm hfull =>
      have hcached := hlossless nID hm.id
      have hfilled : Storable pb m.filled szTableName nID vecFieldInfo := by
        rw [filled_of_full hfull]
        exact hm
      obtain ⟨_, _, hmoves⟩ := update_follows hpb hsrv hfollows htime hm hfilled hcached rfl
        hsucceeded
      exact hmoves.follows
  | insert m szTableName nID vecFieldInfo hm _ =>
      obtain ⟨_, _, hmoves⟩ := insert_follows hpb hsrv hfollows hm hlossless hsucceeded
        hsucceeded'
      exact hmoves.follows
  | delete id table_name =>
      exact (delete_follows hpb hsrv hfollows hlossless hsucceeded hsucceeded').follows

/-- **A step that loses nothing.** -/
theorem step_follows (hpb : pb.Lawful) (hsrv : srv.Keeps pb tables rows)
    (hfollows : Follows pb tables rows plain st) {action : StoreAction}
    (hrows : OnRows pb RowMessage.Full action) (hlossless : LosesNothing pb tables rows st action)
    (hsucceeded : (plain.step pb srv action).1.m_dbConnection.Succeeded)
    (hsucceeded' : (st.step pb srv action).1.m_dbConnection.Succeeded) :
    Follows pb tables rows (plain.step pb srv action).1 (st.step pb srv action).1 := by
  cases action with
  | command sDbCommand clock =>
      obtain ⟨htime, hcommand⟩ := hrows
      have htype := hcommand.ne_flush
      cases hexpired : sDbCommand.isExpired clock.nCurTime with
      | true =>
          simp only [step, process_expired pb srv htype hexpired]
          exact hfollows
      | false =>
          have hcommandLossless := hlossless.resolve_left (by simp [hexpired])
          simp only [step, process_executed pb srv htype hexpired] at hsucceeded hsucceeded' ⊢
          exact execute_follows hpb hsrv hfollows hcommand hcommandLossless htime hsucceeded
            hsucceeded'
  | tick nCurTime sample => exact tick_follows hpb hsrv hfollows nCurTime sample hsucceeded'
  | finish => exact hrows.elim

/-! ## Runs -/

/-- **The simulation rule for statements that succeed.**  Two stores stay related, and their
outputs are related one by one, when every step keeps them so whose statements succeed in
both. -/
theorem simulation_of_succeeded {rel : Store σ → Store σ → Prop}
    {ok : Store σ → StoreAction → Prop} (out : StoreAction → StoreOutput → StoreOutput → Prop)
    (hstep : ∀ plain st action, rel plain st → ok st action →
      (plain.step pb srv action).1.m_dbConnection.Succeeded →
      (st.step pb srv action).1.m_dbConnection.Succeeded →
      rel (plain.step pb srv action).1 (st.step pb srv action).1 ∧
        out action (plain.step pb srv action).2 (st.step pb srv action).2)
    (hrel : rel plain st) {actions : List StoreAction}
    (hok : Runs.Guarded (step pb srv) ok st actions)
    (hsucceeded : (Runs.run (step pb srv) plain actions).m_dbConnection.Succeeded)
    (hsucceeded' : (Runs.run (step pb srv) st actions).m_dbConnection.Succeeded) :
    rel (Runs.run (step pb srv) plain actions) (Runs.run (step pb srv) st actions) ∧
      ∀ i (hi : i < actions.length), ∃ output output',
        (Runs.outputs (step pb srv) plain actions)[i]? = some output ∧
        (Runs.outputs (step pb srv) st actions)[i]? = some output' ∧
        out actions[i] output output' := by
  induction actions generalizing plain st with
  | nil => exact ⟨hrel, by simp⟩
  | cons action rest ih =>
      have hgrows : ∀ st : Store σ, (st.step pb srv action).1.m_dbConnection.trace <+:
          (Runs.run (step pb srv) st (action :: rest)).m_dbConnection.trace := fun st =>
        (trace_keptBySent srv (st.step pb srv action).1.m_dbConnection.trace).run pb
          (List.prefix_refl _) rest
      obtain ⟨hnext, hout⟩ := hstep plain st action hrel hok.1
        (hsucceeded.of_prefix (hgrows plain)) (hsucceeded'.of_prefix (hgrows st))
      obtain ⟨hfinal, houts⟩ := ih hnext hok.2 hsucceeded hsucceeded'
      refine ⟨hfinal, ?_⟩
      intro i hi
      cases i with
      | zero => exact ⟨_, _, rfl, rfl, hout⟩
      | succ i =>
          obtain ⟨output, output', houtput, houtput', hboth⟩ := houts i (by simpa using hi)
          exact ⟨output, output', by simpa [Runs.outputs] using houtput,
            by simpa [Runs.outputs] using houtput', hboth⟩

/-- A store with an empty cache follows one whose cache is switched off. -/
theorem init_follows (pb : Runtime) (tables : Tables) (rows : σ → Rows) {nMaxCacheSize : Nat}
    (hlimit : 0 < toInt64 nMaxCacheSize) (nWritebackTime : Nat) {conn : CDbConnection σ}
    (hopen : conn.isConnect = true) :
    Follows pb tables rows (init 0 nWritebackTime conn)
      (init nMaxCacheSize nWritebackTime conn) := by
  have hnone : ∀ key, (CDbCacheMgr.init nMaxCacheSize nWritebackTime).pending pb tables key =
      none := by
    intro key
    simp [pending, lookup, CDbCacheMgr.init]
  refine ⟨rfl, hopen, init_caches pb hlimit nWritebackTime, hopen, ?_, ?_⟩
  · exact fun key _ => WriteBack.settled_of_none (hnone key)
  · exact WriteBack.meant_of_settled fun key => WriteBack.settled_of_none (hnone key)

end Store

/-- **Durability.**  When every statement succeeds, no action loses a write and the last flush
is not skipped, the database holds after the last flush the rows it holds when the same
commands run with the cache switched off. -/
theorem rows_after_last_flush {σ : Type} {pb : Runtime} {srv : Server σ} {tables : Tables}
    {rows : σ → Rows} (hpb : pb.Lawful) (hsrv : srv.Keeps pb tables rows)
    {nMaxCacheSize : Nat} (hlimit : 0 < toInt64 nMaxCacheSize) (nWritebackTime : Nat)
    {conn : CDbConnection σ} (hopen : conn.isConnect = true) {actions : List StoreAction}
    (hrows : ∀ action ∈ actions, Store.OnRows pb RowMessage.Full action)
    (hlossless : Runs.Guarded (Store.step pb srv) (Store.LosesNothing pb tables rows)
      (Store.init nMaxCacheSize nWritebackTime conn) actions)
    (hflush : (Runs.run (Store.step pb srv) (Store.init nMaxCacheSize nWritebackTime conn)
      actions).m_dbCacheMgr.FlushClean 0)
    (hplain : (Runs.run (Store.step pb srv) (Store.init 0 nWritebackTime conn)
      actions).m_dbConnection.Succeeded)
    (hcached : (Runs.run (Store.step pb srv) (Store.init nMaxCacheSize nWritebackTime conn)
      (actions ++ [.finish])).m_dbConnection.Succeeded) :
    rows (Runs.run (Store.step pb srv) (Store.init nMaxCacheSize nWritebackTime conn)
        (actions ++ [.finish])).m_dbConnection.server =
      rows (Runs.run (Store.step pb srv) (Store.init 0 nWritebackTime conn)
        actions).m_dbConnection.server := by
  rw [Runs.run_append] at hcached ⊢
  let last := Runs.run (Store.step pb srv) (Store.init nMaxCacheSize nWritebackTime conn) actions
  have hgrows : last.m_dbConnection.trace <+:
      (last.step pb srv .finish).1.m_dbConnection.trace :=
    (trace_keptBySent srv last.m_dbConnection.trace).step pb (List.prefix_refl _) .finish
  have hfollows := (Store.simulation_of_succeeded (fun _ _ _ => True)
    (fun _ _ _ hfollows hok hs hs' =>
      ⟨Store.step_follows hpb hsrv hfollows hok.1 hok.2 hs hs', trivial⟩)
    (Store.init_follows pb tables rows hlimit nWritebackTime hopen)
    (hlossless.and_forall hrows) hplain (hcached.of_prefix hgrows)).1
  exact Store.finish_rows hpb hsrv hfollows hflush hcached

/-! ## Player 5 -/

/-- The table of the test program: two columns, stored as their texts. -/
def playerTables : Tables where
  columns := fun _ => ["id", "name"]
  blank := fun _ _ => none
  cell := fun _ sFieldInfo => some sFieldInfo.szValue

/-- The columns of player 5. -/
def playerInfos (szName : Bytes) : List SFieldInfo :=
  [⟨"id", decimalNat 5, false⟩, ⟨"name", szName, true⟩]

/-- A server with the table of the test program. -/
def playerServer : Server TableServer.State :=
  TableServer.server PlayerBase.runtime playerTables

/-- A connection to a database without players, and one to a database with player 5. -/
def noPlayers : CDbConnection TableServer.State :=
  ⟨true, fun _ _ => none, 0, []⟩

/-- A connection to it, with player 5 in the table. -/
def storedPlayer (szName : Bytes) : CDbConnection TableServer.State :=
  ⟨true, TableServer.put (fun _ _ => none) "player_base" (decimalNat 5)
    (playerTables.upsert "player_base" (playerInfos szName) none), 0, []⟩

/-- INSERT or UPDATE of player 5. -/
def writePlayer (nType : EOperatorType) (szName : Bytes) : StoreAction :=
  .command ⟨0, nType, 0, 0, some (.row (PlayerBase.player 5 szName))⟩ ⟨1, 1⟩

/-- A player with a short name can be stored. -/
theorem player_storable {szName : Bytes} (hlen : szName.length < 128) :
    Storable PlayerBase.runtime (PlayerBase.player 5 szName) "player_base" 5
      (playerInfos szName) where
  rowType := rfl
  typeName := rfl
  data := by
    have hname : PlayerBase.encodeName (some (.bytes szName)) =
        some (18 :: .ofNat szName.length :: szName) := by
      simp [PlayerBase.encodeName, hlen]
    have hdata : PlayerBase.runtime.SerializeToString (.row (PlayerBase.player 5 szName)) =
        (PlayerBase.encodeName (some (.bytes szName))).map
          (PlayerBase.encodeId (some (.int 5)) ++ ·) := rfl
    rw [hdata, hname]
    rfl
  infos := rfl
  id := rfl
  names := rfl

/-- A player with both fields has all of them. -/
theorem player_full (szName : Bytes) : (PlayerBase.player 5 szName).Full := by
  intro f hf
  have hfields : f = PlayerBase.id ∨ f = PlayerBase.name := by
    simpa [PlayerBase.player, PlayerBase.row_descriptor, PlayerBase.player_base] using hf
  rcases hfields with rfl | rfl
  · rfl
  · rfl

/-- Writing player 5 is a command on a row. -/
theorem writePlayer_onRows {sets : RowMessage → Prop} {nType : EOperatorType}
    (htype : nType = .kOT_INSERT ∨ nType = .kOT_UPDATE) {szName : Bytes}
    (hlen : szName.length < 128) (hsets : sets (PlayerBase.player 5 szName)) :
    Store.OnRows PlayerBase.runtime sets (writePlayer nType szName) := by
  refine ⟨by decide, ?_⟩
  rcases htype with rfl | rfl
  · exact .insert _ _ _ _ (player_storable hlen) hsets
  · exact .update _ _ _ _ (player_storable hlen) hsets

/-- Player 5 is inserted as 97 and updated to 98 in the cache; the last flush writes 98. -/
theorem rows_after_player_update :
    let actions := [writePlayer .kOT_INSERT [97], writePlayer .kOT_UPDATE [98]]
    TableServer.rows (Runs.run (Store.step PlayerBase.runtime playerServer)
        (Store.init 1000 60 noPlayers) (actions ++ [.finish])).m_dbConnection.server =
      TableServer.rows (Runs.run (Store.step PlayerBase.runtime playerServer)
        (Store.init 0 60 noPlayers) actions).m_dbConnection.server := by
  refine rows_after_last_flush PlayerBase.runtime_lawful
    (TableServer.server_keeps PlayerBase.runtime playerTables) (by decide) 60 rfl ?_ ?_
    (.inl (by decide)) (by decide) (by decide)
  · intro action hin
    simp only [List.mem_cons, List.not_mem_nil, or_false] at hin
    rcases hin with rfl | rfl
    · exact writePlayer_onRows (.inl rfl) (by decide) (player_full _)
    · exact writePlayer_onRows (.inr rfl) (by decide) (player_full _)
  · refine ⟨.inr (.inr (by decide)), .inr ?_, trivial⟩
    intro nID hid
    obtain rfl : 5 = nID := Option.some.inj ((player_storable (by decide)).id.symm.trans hid)
    decide

/-- Player 5 is in the database but not in the cache: its UPDATE is never written. -/
theorem absorbed_update_lost :
    ¬ ∀ (σ : Type) (pb : Runtime) (srv : Server σ) (tables : Tables) (rows : σ → Rows)
        (nMaxCacheSize nWritebackTime : Nat) (conn : CDbConnection σ)
        (actions : List StoreAction),
      pb.Lawful → srv.Keeps pb tables rows → 0 < toInt64 nMaxCacheSize →
      conn.isConnect = true → (∀ action ∈ actions, Store.OnRows pb RowMessage.Full action) →
      (Runs.run (Store.step pb srv) (Store.init 0 nWritebackTime conn)
        actions).m_dbConnection.Succeeded →
      (Runs.run (Store.step pb srv) (Store.init nMaxCacheSize nWritebackTime conn)
        (actions ++ [.finish])).m_dbConnection.Succeeded →
      rows (Runs.run (Store.step pb srv) (Store.init nMaxCacheSize nWritebackTime conn)
          (actions ++ [.finish])).m_dbConnection.server =
        rows (Runs.run (Store.step pb srv) (Store.init 0 nWritebackTime conn)
          actions).m_dbConnection.server := by
  intro h
  have hrows := h TableServer.State PlayerBase.runtime playerServer playerTables
    TableServer.rows 1000 60 (storedPlayer [97]) [writePlayer .kOT_UPDATE [98]]
    PlayerBase.runtime_lawful (TableServer.server_keeps PlayerBase.runtime playerTables)
    (by decide) rfl
    (by
      intro action hin
      rw [List.mem_singleton] at hin
      exact hin ▸ writePlayer_onRows (.inr rfl) (by decide) (player_full _))
    (by decide) (by decide)
  have hname := congrArg (fun row : Option Row => row.map fun row => row "name")
    (congrFun hrows ("player_base", 5))
  revert hname
  decide

end Db
