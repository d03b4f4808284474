import DbService.CacheHomes
import DbService.GeneratedMessages
import DbService.ReadCoherence

/-!
# One database behind the workers

The connections of an instance lead to one database, and each worker holds back writes that the
others cannot see.  They do not have to: an id has one worker, so a worker's cache hides from the
others only rows that they never ask for.  What the workers finish, in the order they finish it,
is therefore a history of one table in memory (`one_table`): every SELECT is answered with the row
the earlier commands left, and once the workers have left the database holds that table.

A step of a worker is one command or one pass of write-back, as in the model of a worker.

* `advance_serves` -- a step of a worker is what the table does at the command it finishes;
* `step_servesTable` -- every step keeps the workers together at one table;
* `one_table` -- so what they finish is a history of it.
-/

namespace Db

open Reflection ByteText CDbCacheMgr

/-- What became of a finished command: its answer, or nothing if its deadline was past. -/
abbrev Answer := Option (EResultCode × Option Message)

/-! ## The table and its histories -/

section Table

variable (pb : Runtime) (tables : Tables)

/-- What a finished command makes of the table. -/
def tableStep (table : Rows) (sDbCommand : SDbCommand) : Answer → Rows
  | none => table
  | some _ => tableAfter pb tables table sDbCommand.nType sDbCommand.pMessage

/-- What the table answers.  Only a command with a deadline can go without an answer. -/
def tableAnswers (table : Rows) (sDbCommand : SDbCommand) : Answer → Prop
  | none => sDbCommand.nTimeout ≠ 0
  | some answer => Answers pb tables table sDbCommand.nType sDbCommand.pMessage answer

variable {pb tables} {table table' : Rows} {nType : EOperatorType} {pRequest : Option Message}

/-- A command writes the row of its own id. -/
theorem rowWrite_key {key : String × Nat} {w : Option Row → Option Row}
    (h : rowWrite pb tables nType pRequest = some (key, w)) :
    CDbThread.cacheKey nType pRequest = some key.2 := by
  have hrow : ∀ {m : RowMessage} {f : String × Nat × List SFieldInfo → Option Row → Option Row},
      (rowOf pb m).map (fun row => ((row.1, row.2.1), f row)) = some (key, w) →
      getPrimaryValue (.row m) = some key.2 := by
    intro m f hmap
    obtain ⟨row, hrowOf, heq⟩ := Option.map_eq_some_iff.mp hmap
    cases heq
    unfold rowOf at hrowOf
    split at hrowOf
    · rename_i hvalue _
      cases hrowOf
      exact hvalue
    · cases hrowOf
  unfold rowWrite at h
  split at h
  · exact hrow h
  · exact hrow h
  · split at h
    · cases h
      rfl
    · cases h
  · cases h

/-- It leaves the rows of other ids alone. -/
theorem tableAfter_of_ne {szTableName : String} {nID : Nat}
    (hne : CDbThread.cacheKey nType pRequest ≠ some nID) :
    tableAfter pb tables table nType pRequest (szTableName, nID) = table (szTableName, nID) := by
  unfold tableAfter
  cases hwrite : rowWrite pb tables nType pRequest with
  | none => rfl
  | some write =>
      refine Function.update_of_ne (fun heq => hne ?_) _ _
      rw [rowWrite_key hwrite, ← heq]

/-- What it makes of a row depends on the row. -/
theorem tableAfter_congr {key : String × Nat} (h : table key = table' key) :
    tableAfter pb tables table nType pRequest key =
      tableAfter pb tables table' nType pRequest key := by
  unfold tableAfter
  cases rowWrite pb tables nType pRequest with
  | none => exact h
  | some write =>
      by_cases heq : key = write.1
      · subst heq
        simp only [Function.update_self, h]
      · simp only [Function.update_of_ne heq, h]

variable {sDbCommand : SDbCommand} (answer : Answer)

/-- A command leaves the rows of other ids alone, answered or not. -/
theorem tableStep_of_ne {szTableName : String} {nID : Nat}
    (hne : CDbThread.cacheKey sDbCommand.nType sDbCommand.pMessage ≠ some nID) :
    tableStep pb tables table sDbCommand answer (szTableName, nID) = table (szTableName, nID) := by
  cases answer with
  | none => rfl
  | some => exact tableAfter_of_ne hne

/-- What it makes of a row depends on the row and on whether it was answered. -/
theorem tableStep_congr {key : String × Nat} (h : table key = table' key) :
    tableStep pb tables table sDbCommand answer key =
      tableStep pb tables table' sDbCommand answer key := by
  cases answer with
  | none => exact h
  | some => exact tableAfter_congr h

/-- **A row is what the commands of its id made of it.** -/
theorem stateAfter_own {szTableName : String} {nID : Nat} (ops : List (SDbCommand × Answer))
    (h : table (szTableName, nID) = table' (szTableName, nID)) :
    Runs.stateAfter (tableStep pb tables) table ops (szTableName, nID) =
      Runs.stateAfter (tableStep pb tables) table' (ops.filter fun op =>
        CDbThread.cacheKey op.1.nType op.1.pMessage = some nID) (szTableName, nID) := by
  induction ops generalizing table table' with
  | nil => exact h
  | cons op rest ih =>
      by_cases hkey : CDbThread.cacheKey op.1.nType op.1.pMessage = some nID
      · rw [List.filter_cons_of_pos (by simpa using hkey)]
        exact ih (tableStep_congr op.2 h)
      · rw [List.filter_cons_of_neg (by simpa using hkey)]
        exact ih ((tableStep_of_ne op.2 hkey).trans h)

/-- What it is answered depends on the rows of its id. -/
theorem tableAnswers_congr {answer : Answer}
    (h : ∀ szTableName nID, CDbThread.cacheKey sDbCommand.nType sDbCommand.pMessage = some nID →
      table (szTableName, nID) = table' (szTableName, nID))
    (hanswers : tableAnswers pb tables table sDbCommand answer) :
    tableAnswers pb tables table' sDbCommand answer := by
  cases answer with
  | none => exact hanswers
  | some answer =>
      intro hselect id table_name hmessage
      have hkey : CDbThread.cacheKey sDbCommand.nType sDbCommand.pMessage = some id := by
        rw [hselect, hmessage]
        rfl
      rw [← h table_name id hkey]
      exact hanswers hselect id table_name hmessage

end Table

/-! ## One worker -/

namespace CDbThread

variable {σ : Type} (pb : Runtime) (srv : Server σ) (tables : Tables) (rows : σ → Rows)

/-- What the next step of a worker finishes. -/
def finishing (th : CDbThread σ) (input : Input) : List (SDbCommand × Answer) :=
  match th.phase, th.listCommand with
  | .batch, sDbCommand :: _ =>
      match (th.store.process pb srv sDbCommand input.clock).2.1 with
      | .handled nErrorCode pMessage => [(sDbCommand, some (nErrorCode, pMessage))]
      | .expired | .flushed => [(sDbCommand, none)]
      | .lost => []
  | _, _ => []

variable {pb srv} in
/-- It is the command at the head of the batch, or nothing. -/
theorem finishing_cases (th : CDbThread σ) (input : Input) :
    th.finishing pb srv input = [] ∨ ∃ sDbCommand ∈ th.listCommand, ∃ answer,
      th.finishing pb srv input = [(sDbCommand, answer)] := by
  unfold finishing
  split
  · rename_i sDbCommand rest _ hlist
    have hin : sDbCommand ∈ th.listCommand := hlist ▸ List.mem_cons_self
    split
    · exact .inr ⟨sDbCommand, hin, _, rfl⟩
    · exact .inr ⟨sDbCommand, hin, _, rfl⟩
    · exact .inr ⟨sDbCommand, hin, _, rfl⟩
    · exact .inl rfl
  · exact .inl rfl

/-- What is asked of the next step of a worker.  A command it runs is on a row, reads back and
inserts no row that is there, unless its deadline is past; the last flush is not skipped. -/
structure Orderly (th : CDbThread σ) (input : Input) : Prop where
  command : ∀ sDbCommand rest, th.phase = .batch → th.listCommand = sDbCommand :: rest →
    Store.OnRows pb (fun _ => True) (.command sDbCommand input.clock) ∧
      (sDbCommand.isExpired input.clock.nCurTime = true ∨
        Store.ReadsBack pb tables rows th.store sDbCommand.nType sDbCommand.pMessage ∧
        InsertsNew pb (th.store.meantRows pb tables rows) sDbCommand.nType sDbCommand.pMessage)
  leaving : th.phase = .leaving → th.store.m_dbCacheMgr.FlushClean 0

/-- The store of the worker serves the table, or the worker has left it to the database. -/
structure Serves (th : CDbThread σ) (table : Rows) : Prop where
  running : th.phase ≠ .closed → th.store.Serves pb tables rows table
  left : th.phase = .closed → rows th.store.m_dbConnection.server = table

variable {pb srv tables rows} {th : CDbThread σ} {table : Rows}

/-- A step of its own thread that leaves the store alone. -/
theorem Serves.same (h : th.Serves pb tables rows table) (hphase : th.phase ≠ .closed)
    {th' : CDbThread σ} (hstore : th'.store = th.store) (hphase' : th'.phase ≠ .closed) :
    th'.Serves pb tables rows table where
  running := fun _ => hstore ▸ h.running hphase
  left := fun hclosed => absurd hclosed hphase'

theorem close_server (conn : CDbConnection σ) : conn.close.server = conn.server := by
  unfold CDbConnection.close
  split <;> rfl

/-- Closing a connection adds to the history. -/
theorem close_trace (conn : CDbConnection σ) : conn.trace <+: conn.close.trace := by
  unfold CDbConnection.close
  split
  · exact List.prefix_append _ _
  · exact List.prefix_rfl

variable (srv) in
/-- Connecting adds to the history. -/
theorem connect_trace (conn : CDbConnection σ) : conn.trace <+: (conn.connect srv).trace := by
  simp only [CDbConnection.connect]
  split
  · refine KeptBySent.execute (trace_keptBySent srv conn.trace) ?_ (.setAutocommit true) false
    exact List.prefix_append _ _
  · exact List.prefix_append _ _

variable (pb srv) in
/-- What happened on its connection stays on record. -/
theorem advance_trace (th : CDbThread σ) (input : Input) : th.store.m_dbConnection.trace <+:
    (th.advance pb srv input).1.store.m_dbConnection.trace := by
  have hkept := trace_keptBySent srv th.store.m_dbConnection.trace
  have hstore := advance_store pb srv th input
  generalize (th.advance pb srv input).1.store = st at hstore
  cases hstore with
  | same => exact List.prefix_rfl
  | command sDbCommand => exact hkept.step pb List.prefix_rfl (.command sDbCommand input.clock)
  | tick => exact hkept.step pb List.prefix_rfl _
  | reconnected => exact (close_trace _).trans (connect_trace srv _)
  | finished => exact (hkept.step pb List.prefix_rfl .finish).trans (close_trace _)

/-- **A step of a worker** is what the table does at the command it finishes, if any. -/
theorem advance_serves (hpb : pb.Lawful) (hsrv : srv.Keeps pb tables rows)
    (h : th.Serves pb tables rows table) {input : Input}
    (horderly : th.Orderly pb tables rows input)
    (hsucceeded : (th.advance pb srv input).1.store.m_dbConnection.Succeeded) :
    (th.advance pb srv input).1.Serves pb tables rows
        (Runs.stateAfter (tableStep pb tables) table (th.finishing pb srv input)) ∧
      Runs.Legal (tableStep pb tables) (tableAnswers pb tables) table
        (th.finishing pb srv input) ∧
      (th.advance pb srv input).1.finished =
        th.finished ++ (th.finishing pb srv input).map Prod.fst := by
  have hidle : th.phase ≠ .batch → th.finishing pb srv input = [] := by
    intro hphase
    unfold finishing
    split
    · exact absurd ‹_› hphase
    · rfl
  cases hphase : th.phase with
  | top =>
      have hrunning := h.running (by simp [hphase])
      rw [hidle (by simp [hphase])]
      simp only [advance, hphase, hrunning.opened, if_true] at hsucceeded ⊢
      refine ⟨⟨fun _ => ?_, fun hclosed => by cases hclosed⟩, trivial, by simp⟩
      exact Store.tick_serves hpb hsrv hrunning input.clock.nCurTime input.sample hsucceeded
  | waiting =>
      rw [hidle (by simp [hphase])]
      simp only [advance, hphase]
      split <;> exact ⟨h.same (by simp [hphase]) rfl (by simp), trivial, by simp⟩
  | batch =>
      have hrunning := h.running (by simp [hphase])
      cases hlist : th.listCommand with
      | nil =>
          simp only [advance, finishing, hphase, hlist]
          exact ⟨h.same (by simp [hphase]) rfl (by simp), trivial, by simp⟩
      | cons sDbCommand rest =>
          obtain ⟨⟨htime, hcommand⟩, hok⟩ := horderly.command sDbCommand rest hphase hlist
          have htype := hcommand.ne_flush
          simp only [advance, finishing, hphase, hlist] at hsucceeded ⊢
          rw [processHead_store] at hsucceeded
          cases hexpired : sDbCommand.isExpired input.clock.nCurTime with
          | true =>
              simp only [processHead, Store.process_expired pb srv htype hexpired]
              refine ⟨h.same (by simp [hphase]) rfl (by simp [hphase]), ⟨?_, trivial⟩, rfl⟩
              intro hzero
              have hnever : sDbCommand.nTimeout = 0 := hzero
              simp [SDbCommand.isExpired, hnever] at hexpired
          | false =>
              obtain ⟨hback, hnew⟩ := hok.resolve_left (by simp [hexpired])
              rw [Store.process_executed pb srv htype hexpired] at hsucceeded
              rw [hrunning.meant] at hnew
              obtain ⟨hserves, answer, hanswer, hanswers⟩ := Store.execute_serves hpb hsrv hrunning
                htime hcommand hback hnew hsucceeded
              simp only [processHead, Store.process_executed pb srv htype hexpired, hanswer]
              exact ⟨⟨fun _ => hserves, fun hclosed => by simp [hphase] at hclosed⟩,
                ⟨hanswers, trivial⟩, rfl⟩
  | requeue =>
      rw [hidle (by simp [hphase])]
      simp only [advance, hphase]
      exact ⟨h.same (by simp [hphase]) rfl (by simp), trivial, by simp⟩
  | check =>
      rw [hidle (by simp [hphase])]
      simp only [advance, hphase]
      split <;> exact ⟨h.same (by simp [hphase]) rfl (by simp), trivial, by simp⟩
  | leaving =>
      have hrunning := h.running (by simp [hphase])
      rw [hidle (by simp [hphase])]
      simp only [advance, hphase, Store.flushAll] at hsucceeded ⊢
      have hflushed := flushAll_meant hpb hsrv hrunning.caches hrunning.opened hrunning.covered
        (horderly.leaving hphase) true (hsucceeded.of_prefix (close_trace _))
      refine ⟨⟨fun hopen => absurd rfl hopen, fun _ => ?_⟩, trivial, by simp⟩
      rw [close_server]
      exact hflushed.trans hrunning.meant
  | closed =>
      rw [hidle (by simp [hphase])]
      simp only [advance, hphase]
      exact ⟨h, trivial, by simp⟩

end CDbThread

/-! ## The database changes under a worker -/

namespace Store

variable {σ : Type} {pb : Runtime} {tables : Tables} {rows : σ → Rows} {st : Store σ}

/-- The store with its database in another state. -/
def withServer (st : Store σ) (server : σ) : Store σ :=
  { st with m_dbConnection := { st.m_dbConnection with server := server } }

/-- What the cache has no object for is as the database holds it. -/
theorem Serves.row_of_absent {table : Rows} (h : st.Serves pb tables rows table) {nID : Nat}
    (habsent : st.m_dbCacheMgr.Absent nID) (szTableName : String) :
    table (szTableName, nID) = rows st.m_dbConnection.server (szTableName, nID) := by
  rw [← h.meant]
  refine WriteBack.meant_of_none ?_
  simp only [pending, lookup_of_uncached habsent.cache, Option.bind_none]

/-- **Rows that the cache has no object for may change.** -/
theorem Serves.withServer {table : Rows} (h : st.Serves pb tables rows table) {server : σ}
    (hsame : ∀ szTableName (nID : Nat), st.m_dbCacheMgr.m_mapCache[nID]? ≠ none →
      rows server (szTableName, nID) = rows st.m_dbConnection.server (szTableName, nID)) :
    ∃ table', (st.withServer server).Serves pb tables rows table' ∧
      ∀ szTableName nID, rows server (szTableName, nID) =
          rows st.m_dbConnection.server (szTableName, nID) →
        table' (szTableName, nID) = table (szTableName, nID) := by
  have hrow : ∀ szTableName nID, rows server (szTableName, nID) =
        rows st.m_dbConnection.server (szTableName, nID) →
      (st.withServer server).meantRows pb tables rows (szTableName, nID) =
        table (szTableName, nID) := by
    intro szTableName nID hkept
    rw [← h.meant]
    exact WriteBack.meant_congr rfl hkept
  refine ⟨_, ⟨⟨h.caches, h.opened, ?_⟩, ?_, rfl⟩, hrow⟩
  · intro key hclean
    obtain ⟨szTableName, nID⟩ := key
    by_cases hcached : st.m_dbCacheMgr.m_mapCache[nID]? = none
    · refine WriteBack.settled_of_none ?_
      simp only [Store.withServer, pending, lookup_of_uncached hcached, Option.bind_none]
    · have hkept := hsame szTableName nID hcached
      have hsettled := h.covered (szTableName, nID) hclean
      unfold WriteBack.Settled at *
      exact (WriteBack.meant_congr rfl hkept).trans (hsettled.trans hkept.symm)
  · intro szTableName nID sCacheInfo hlook
    have hcached : st.m_dbCacheMgr.m_mapCache[nID]? ≠ none := by
      intro hnone
      have habsent : st.m_dbCacheMgr.lookup nID (getMessageNameByTableName szTableName) = none :=
        lookup_of_uncached hnone _
      exact absurd (hlook.symm.trans habsent) (by simp)
    rw [hrow szTableName nID (hsame szTableName nID hcached), ← h.meant]
    exact h.coherent szTableName nID sCacheInfo hlook

end Store

namespace CDbThread

variable {σ : Type} {pb : Runtime} {tables : Tables} {rows : σ → Rows} {th : CDbThread σ}
  {table : Rows}

/-- The worker with its database in another state. -/
def withServer (th : CDbThread σ) (server : σ) : CDbThread σ :=
  { th with store := th.store.withServer server }

/-- Of an id it does not cache a worker serves the row of the database. -/
theorem Serves.row_of_absent (h : th.Serves pb tables rows table) {nID : Nat}
    (habsent : th.store.m_dbCacheMgr.Absent nID) (szTableName : String) :
    table (szTableName, nID) = rows th.store.m_dbConnection.server (szTableName, nID) := by
  by_cases hphase : th.phase = .closed
  · rw [h.left hphase]
  · exact (h.running hphase).row_of_absent habsent szTableName

/-- A worker goes on serving its table when others change rows it does not cache; those rows it
then serves as they are. -/
theorem Serves.withServer (h : th.Serves pb tables rows table) {server : σ}
    (hsame : ∀ szTableName (nID : Nat), th.store.m_dbCacheMgr.m_mapCache[nID]? ≠ none →
      rows server (szTableName, nID) = rows th.store.m_dbConnection.server (szTableName, nID)) :
    ∃ table', (th.withServer server).Serves pb tables rows table' ∧
      ∀ szTableName nID, rows server (szTableName, nID) =
          rows th.store.m_dbConnection.server (szTableName, nID) →
        table' (szTableName, nID) = table (szTableName, nID) := by
  by_cases hphase : th.phase = .closed
  · refine ⟨rows server, ⟨fun hopen => absurd hphase hopen, fun _ => rfl⟩, ?_⟩
    intro szTableName nID hkept
    rw [hkept, h.left hphase]
  · obtain ⟨table', hserves, hrow⟩ := (h.running hphase).withServer hsame
    exact ⟨table', ⟨fun _ => hserves, fun hclosed => absurd hclosed hphase⟩, hrow⟩

end CDbThread

/-! ## The instance -/

/-- The workers of an instance on one database. -/
structure SharedDb (n : Nat) (σ : Type) where
  mgr : CDbThreadMgr n σ
  /-- The commands finished so far, with their workers and answers, for the record. -/
  history : List (Fin n × SDbCommand × Answer)

/-- The instance with its database in another state. -/
def CDbThreadMgr.withServer {n : Nat} {σ : Type} (mgr : CDbThreadMgr n σ) (server : σ) :
    CDbThreadMgr n σ :=
  { mgr with m_vecDbThread := fun i => (mgr.m_vecDbThread i).withServer server }

/-- The order of the commands is no matter of the servers. -/
theorem CDbThreadMgr.Ordered.withServer {n : Nat} {σ : Type} {mgr : CDbThreadMgr n σ}
    (h : mgr.Ordered) (server : σ) : (mgr.withServer server).Ordered where
  workers := by
    intro i
    obtain ⟨q, htracks, hpushed⟩ := h.workers i
    exact ⟨q, ⟨htracks.queue, htracks.batch, htracks.pushed, htracks.finished, htracks.idle⟩,
      hpushed⟩
  callers := h.callers

/-- Who caches what does not change. -/
theorem CDbThreadMgr.Homed.withServer {n : Nat} {σ : Type} {mgr : CDbThreadMgr n σ}
    (h : mgr.Homed) (server : σ) : (mgr.withServer server).Homed where
  ordered := h.ordered.withServer server
  placed := h.placed
  stores := h.stores

namespace SharedDb

variable {n : Nat} {σ : Type} (pb : Runtime) (srv : Server σ)

/-- All workers are connected to the database. -/
def init (nMaxCacheSize nWritebackTime : Nat) (server : σ) : SharedDb n σ where
  mgr := CDbThreadMgr.init nMaxCacheSize nWritebackTime fun _ => ⟨true, server, 0, []⟩
  history := []

/-- A step of a worker leaves the database in a state that the others find. -/
def step (db : SharedDb n σ) : MgrAction n → SharedDb n σ × Unit
  | .advance i input =>
      let mgr := db.mgr.advance pb (fun _ => srv) i input
      ({ mgr := mgr.withServer (mgr.m_vecDbThread i).store.m_dbConnection.server
         history := db.history ++
           ((db.mgr.m_vecDbThread i).finishing pb srv input).map fun op => (i, op) }, ())
  | action => ({ db with mgr := (db.mgr.step pb (fun _ => srv) action).1 }, ())

/-- Requests are made by proxies, and the workers' steps are orderly. -/
def Orderly (tables : Tables) (rows : σ → Rows) (generated_pool : String → Option Descriptor)
    (db : SharedDb n σ) : MgrAction n → Prop
  | .query _ _ pRequest _ => pRequest.Issued pb generated_pool
  | .advance i input => (db.mgr.m_vecDbThread i).Orderly pb tables rows input
  | _ => True

/-- No statement failed. -/
def Succeeded (db : SharedDb n σ) : Prop :=
  ∀ i, (db.mgr.m_vecDbThread i).store.m_dbConnection.Succeeded

instance (db : SharedDb n σ) : Decidable db.Succeeded :=
  inferInstanceAs (Decidable (∀ i, (db.mgr.m_vecDbThread i).store.m_dbConnection.Succeeded))

/-- The table after what was finished so far. -/
def table (tables : Tables) (initial : Rows) (db : SharedDb n σ) : Rows :=
  Runs.stateAfter (tableStep pb tables) initial (db.history.map Prod.snd)

/-- **Together the workers serve one table.** -/
structure ServesTable (tables : Tables) (rows : σ → Rows) (initial : Rows) (db : SharedDb n σ) :
    Prop where
  homed : db.mgr.Homed
  server : ∀ i j, (db.mgr.m_vecDbThread i).store.m_dbConnection.server =
    (db.mgr.m_vecDbThread j).store.m_dbConnection.server
  workers : ∀ i, ∃ served, (db.mgr.m_vecDbThread i).Serves pb tables rows served ∧
    ∀ szTableName nID, i.val = nID % 2 ^ 32 % n →
      served (szTableName, nID) = db.table pb tables initial (szTableName, nID)
  legal : Runs.Legal (tableStep pb tables) (tableAnswers pb tables) initial
    (db.history.map Prod.snd)
  finished : ∀ i, (db.history.filter fun op => op.1 = i).map (fun op => op.2.1) =
    (db.mgr.m_vecDbThread i).finished

variable {pb srv} {tables : Tables} {rows : σ → Rows} {initial : Rows} {db : SharedDb n σ}

/-- Calls, pushes and joins do not touch the stores. -/
theorem ServesTable.same (h : db.ServesTable pb tables rows initial) {mgr : CDbThreadMgr n σ}
    (hhomed : mgr.Homed)
    (hsame : ∀ i, (mgr.m_vecDbThread i).store = (db.mgr.m_vecDbThread i).store ∧
      (mgr.m_vecDbThread i).phase = (db.mgr.m_vecDbThread i).phase ∧
      (mgr.m_vecDbThread i).finished = (db.mgr.m_vecDbThread i).finished) :
    ServesTable pb tables rows initial { db with mgr := mgr } where
  homed := hhomed
  server := by
    intro i j
    rw [(hsame i).1, (hsame j).1]
    exact h.server i j
  workers := by
    intro i
    obtain ⟨hstore, hphase, _⟩ := hsame i
    obtain ⟨served, hserves, hrow⟩ := h.workers i
    refine ⟨served, ⟨?_, ?_⟩, hrow⟩
    · rw [hphase, hstore]
      exact hserves.running
    · rw [hphase, hstore]
      exact hserves.left
  legal := h.legal
  finished := by
    intro i
    rw [(hsame i).2.2]
    exact h.finished i

variable (pb srv) in
/-- The worker makes its step, the others find the database it left. -/
theorem step_threads (db : SharedDb n σ) (i : Fin n) (input : Input) :
    let th := ((db.mgr.m_vecDbThread i).advance pb srv input).1
    (db.step pb srv (.advance i input)).1.mgr.m_vecDbThread i = th ∧
      ∀ j, j ≠ i → (db.step pb srv (.advance i input)).1.mgr.m_vecDbThread j =
        (db.mgr.m_vecDbThread j).withServer th.store.m_dbConnection.server := by
  have hthreads := (CDbThreadMgr.advance_parts pb (fun _ => srv) db.mgr i input).1
  simp only [step, CDbThreadMgr.withServer, hthreads, Function.update_self]
  refine ⟨rfl, fun j hne => ?_⟩
  rw [Function.update_of_ne hne]

variable (srv) in
/-- What a worker finishes changes and answers rows of its own ids. -/
theorem ServesTable.finishing (h : db.ServesTable pb tables rows initial) (i : Fin n)
    (input : Input) (table : Rows) :
    let ops := (db.mgr.m_vecDbThread i).finishing pb srv input
    (∀ szTableName nID, i.val ≠ nID % 2 ^ 32 % n →
      Runs.stateAfter (tableStep pb tables) table ops (szTableName, nID) =
        table (szTableName, nID)) ∧
    ∀ served : Rows, (∀ szTableName nID, i.val = nID % 2 ^ 32 % n →
        served (szTableName, nID) = table (szTableName, nID)) →
      (∀ szTableName nID, i.val = nID % 2 ^ 32 % n →
        Runs.stateAfter (tableStep pb tables) served ops (szTableName, nID) =
          Runs.stateAfter (tableStep pb tables) table ops (szTableName, nID)) ∧
      (Runs.Legal (tableStep pb tables) (tableAnswers pb tables) served ops →
        Runs.Legal (tableStep pb tables) (tableAnswers pb tables) table ops) := by
  intro ops
  rcases CDbThread.finishing_cases (db.mgr.m_vecDbThread i) input with
    hnone | ⟨sDbCommand, hin, answer, hops⟩
  · have hops : ops = [] := hnone
    rw [hops]
    exact ⟨fun _ _ _ => rfl, fun served hagrees => ⟨hagrees, id⟩⟩
  · have hops' : ops = [(sDbCommand, answer)] := hops
    rw [hops']
    refine ⟨fun szTableName nID hne => ?_, fun served hagrees => ⟨fun szTableName nID hi => ?_, ?_⟩⟩
    · refine tableStep_of_ne answer fun hkey => hne ?_
      exact h.homed.key_of_batch hin hkey
    · exact tableStep_congr answer (hagrees szTableName nID hi)
    · intro hlegal
      refine ⟨tableAnswers_congr (fun szTableName nID hkey => ?_) hlegal.1, trivial⟩
      exact hagrees szTableName nID (h.homed.key_of_batch hin hkey)

/-- **A step of worker `i`:** the rows of its ids become those of the table, and no other rows
change. -/
theorem ServesTable.advanced (hpb : pb.Lawful) (hsrv : srv.Keeps pb tables rows)
    (h : db.ServesTable pb tables rows initial) {i : Fin n} {input : Input}
    (horderly : (db.mgr.m_vecDbThread i).Orderly pb tables rows input)
    (hhomed : (db.mgr.advance pb (fun _ => srv) i input).Homed)
    (hsucceeded : ((db.step pb srv (.advance i input)).1.mgr.m_vecDbThread
      i).store.m_dbConnection.Succeeded) :
    (db.step pb srv (.advance i input)).1.ServesTable pb tables rows initial := by
  obtain ⟨hself, hother⟩ := step_threads pb srv db i input
  rw [hself] at hsucceeded
  obtain ⟨served, hserves, hagrees⟩ := h.workers i
  obtain ⟨hserves', hlegal, hfinished⟩ := CDbThread.advance_serves hpb hsrv hserves horderly
    hsucceeded
  obtain ⟨hforeign, hown⟩ := h.finishing srv i input (db.table pb tables initial)
  obtain ⟨hagrees', hlegal'⟩ := hown served hagrees
  have htable : (db.step pb srv (.advance i input)).1.table pb tables initial =
      Runs.stateAfter (tableStep pb tables) (db.table pb tables initial)
        ((db.mgr.m_vecDbThread i).finishing pb srv input) := by
    simp [step, table, Function.comp_def, Runs.stateAfter_append]
  -- The rows of other ids are not in the worker's cache, so they are as the database has them.
  have hframe : ∀ szTableName nID, i.val ≠ nID % 2 ^ 32 % n →
      rows ((db.mgr.m_vecDbThread i).advance pb srv input).1.store.m_dbConnection.server
          (szTableName, nID) =
        rows (db.mgr.m_vecDbThread i).store.m_dbConnection.server (szTableName, nID) := by
    intro szTableName nID hne
    have habsent' := (hhomed.stores i nID hne).2
    rw [(CDbThreadMgr.advance_parts pb (fun _ => srv) db.mgr i input).1,
      Function.update_self] at habsent'
    rw [← hserves'.row_of_absent habsent' szTableName,
      ← hserves.row_of_absent (h.homed.stores i nID hne).2 szTableName]
    exact (h.finishing srv i input served).1 szTableName nID hne
  refine ⟨hhomed.withServer _, fun _ _ => rfl, fun j => ?_, ?_, fun j => ?_⟩
  · by_cases heq : j = i
    · subst heq
      rw [hself, htable]
      exact ⟨_, hserves', hagrees'⟩
    · rw [hother j heq, htable]
      obtain ⟨served', hserved, hrows⟩ := h.workers j
      have hforeign' : ∀ szTableName nID, j.val = nID % 2 ^ 32 % n → rows
          ((db.mgr.m_vecDbThread i).advance pb srv input).1.store.m_dbConnection.server
            (szTableName, nID) =
          rows (db.mgr.m_vecDbThread j).store.m_dbConnection.server (szTableName, nID) := by
        intro szTableName nID hj
        rw [h.server j i]
        exact hframe szTableName nID fun hi => heq (Fin.ext (hj.trans hi.symm))
      obtain ⟨served'', hserved', hkept⟩ := hserved.withServer fun szTableName nID hcached => by
        refine hforeign' szTableName nID ?_
        by_contra hne
        exact hcached (h.homed.stores j nID hne).2.cache
      refine ⟨served'', hserved', fun szTableName nID hj => ?_⟩
      have hi : i.val ≠ nID % 2 ^ 32 % n := fun hi => heq (Fin.ext (hj.trans hi.symm))
      rw [hkept szTableName nID (hforeign' szTableName nID hj), hrows szTableName nID hj,
        hforeign szTableName nID hi]
  · have hhistory : (db.step pb srv (.advance i input)).1.history.map Prod.snd =
        db.history.map Prod.snd ++ (db.mgr.m_vecDbThread i).finishing pb srv input := by
      simp [step, Function.comp_def]
    rw [hhistory]
    exact Runs.legal_append.mpr ⟨h.legal, hlegal' hlegal⟩
  · have hhistory : (db.step pb srv (.advance i input)).1.history = db.history ++
        ((db.mgr.m_vecDbThread i).finishing pb srv input).map fun op => (i, op) := rfl
    rw [hhistory, List.filter_append, List.map_append]
    by_cases heq : j = i
    · subst heq
      have hall : (((db.mgr.m_vecDbThread j).finishing pb srv input).map fun op => (j, op)).filter
          (fun op => op.1 = j) =
          ((db.mgr.m_vecDbThread j).finishing pb srv input).map fun op => (j, op) := by
        refine List.filter_eq_self.mpr fun op hop => ?_
        obtain ⟨_, _, rfl⟩ := List.mem_map.mp hop
        exact decide_eq_true rfl
      rw [hself, hfinished, h.finished j, hall, List.map_map]
      rfl
    · rw [hother j heq]
      have hnone : (((db.mgr.m_vecDbThread i).finishing pb srv input).map fun op => (i, op)).filter
          (fun op => op.1 = j) = [] := by
        simp [List.filter_map, Function.comp_def, Ne.symm heq]
      rw [hnone, List.map_nil, List.append_nil]
      exact h.finished j

/-- **Every step** of any worker keeps the one table: only the worker with the home of the id
moves its own rows, the step is added to the history where it takes effect, and the rows of the
others are framed. -/
theorem step_servesTable (hpb : pb.Lawful) (hsrv : srv.Keeps pb tables rows)
    (h : db.ServesTable pb tables rows initial) {generated_pool : String → Option Descriptor}
    {action : MgrAction n} (horderly : db.Orderly pb tables rows generated_pool action)
    (hsucceeded : (db.step pb srv action).1.Succeeded) :
    (db.step pb srv action).1.ServesTable pb tables rows initial := by
  have hissued : ∀ caller nServiceID pRequest nTime,
      action = .query caller nServiceID pRequest nTime → pRequest.Issued pb generated_pool := by
    rintro _ _ _ _ rfl
    exact horderly
  have hhomed : (db.mgr.step pb (fun _ => srv) action).1.Homed :=
    CDbThreadMgr.step_homed h.homed hissued
  have hsame : (∀ i input, action ≠ .advance i input) →
      ServesTable pb tables rows initial
        { db with mgr := (db.mgr.step pb (fun _ => srv) action).1 } := by
    intro hother
    refine h.same hhomed fun i => ?_
    have hmoves := CDbThreadMgr.step_worker pb (fun _ => srv) db.mgr action i
    generalize (db.mgr.step pb (fun _ => srv) action).1.m_vecDbThread i = th at hmoves
    cases hmoves with
    | same => exact ⟨rfl, rfl, rfl⟩
    | pushed => exact ⟨rfl, rfl, rfl⟩
    | joined => exact ⟨rfl, rfl, rfl⟩
    | advanced input haction => exact absurd haction (hother i input)
  cases action with
  | advance i input => exact h.advanced hpb hsrv horderly hhomed (hsucceeded i)
  | query => exact hsame (by simp)
  | flushCache => exact hsame (by simp)
  | push => exact hsame (by simp)
  | join => exact hsame (by simp)
  | getResultInfo => exact hsame (by simp)

/-- A statement that failed stays on record. -/
theorem succeeded_of_step (action : MgrAction n)
    (h : (db.step pb srv action).1.Succeeded) : db.Succeeded := by
  intro i
  refine CDbConnection.Succeeded.of_prefix (h i) ?_
  have hother : ∀ action', (∀ j input, action' ≠ .advance j input) →
      (db.mgr.m_vecDbThread i).store.m_dbConnection.trace <+:
      ((db.mgr.step pb (fun _ => srv) action').1.m_vecDbThread i).store.m_dbConnection.trace := by
    intro action' hne
    have hmoves := CDbThreadMgr.step_worker pb (fun _ => srv) db.mgr action' i
    generalize (db.mgr.step pb (fun _ => srv) action').1.m_vecDbThread i = th at hmoves
    cases hmoves with
    | same => exact List.prefix_rfl
    | pushed => exact List.prefix_rfl
    | joined => exact List.prefix_rfl
    | advanced input haction => exact absurd haction (hne i input)
  cases action with
  | advance j input =>
      obtain ⟨hself, hother'⟩ := step_threads pb srv db j input
      by_cases heq : i = j
      · subst heq
        rw [hself]
        exact CDbThread.advance_trace pb srv _ input
      · exact hother' i heq ▸ List.prefix_rfl
  | query => exact hother _ (by simp)
  | flushCache => exact hother _ (by simp)
  | push => exact hother _ (by simp)
  | join => exact hother _ (by simp)
  | getResultInfo => exact hother _ (by simp)

/-- At first the table is the database. -/
theorem init_servesTable {nMaxCacheSize : Nat} (hlimit : 0 < toInt64 (nMaxCacheSize / n))
    (nWritebackTime : Nat) (server : σ) :
    (init nMaxCacheSize nWritebackTime server : SharedDb n σ).ServesTable pb tables rows
      (rows server) where
  homed := CDbThreadMgr.init_homed nMaxCacheSize nWritebackTime _
  server := fun _ _ => rfl
  workers := by
    intro i
    refine ⟨rows server, ⟨fun _ => ?_, fun _ => rfl⟩, fun _ _ _ => rfl⟩
    exact Store.init_serves pb tables rows hlimit nWritebackTime rfl
  legal := trivial
  finished := fun _ => rfl

end SharedDb

/-- **One table.**  In a run of an instance whose workers share a database, where every step is
orderly and every statement succeeds, the commands that the workers finish make a legal history
of the table that the database held at first: each SELECT is answered with the row that the
commands finished before it left, by whatever worker.  Once all workers have left, the database
holds the table. -/
theorem one_table {n : Nat} {σ : Type} {pb : Runtime} {srv : Server σ} {tables : Tables}
    {rows : σ → Rows} (hpb : pb.Lawful) (hsrv : srv.Keeps pb tables rows)
    (generated_pool : String → Option Descriptor) {nMaxCacheSize : Nat}
    (hlimit : 0 < toInt64 (nMaxCacheSize / n)) (nWritebackTime : Nat) (server : σ)
    {actions : List (MgrAction n)}
    (horderly : Runs.Guarded (SharedDb.step pb srv)
      (SharedDb.Orderly pb tables rows generated_pool)
      (SharedDb.init nMaxCacheSize nWritebackTime server) actions)
    (hsucceeded : (Runs.run (SharedDb.step pb srv)
      (SharedDb.init nMaxCacheSize nWritebackTime server) actions).Succeeded) :
    let db := Runs.run (SharedDb.step pb srv) (SharedDb.init nMaxCacheSize nWritebackTime server)
      actions
    (∀ i, (db.history.filter fun op => op.1 = i).map (fun op => op.2.1) =
      (db.mgr.m_vecDbThread i).finished) ∧
    Runs.Legal (tableStep pb tables) (tableAnswers pb tables) (rows server)
      (db.history.map Prod.snd) ∧
    ((∀ i, (db.mgr.m_vecDbThread i).phase = .closed) → ∀ i,
      rows (db.mgr.m_vecDbThread i).store.m_dbConnection.server =
        Runs.stateAfter (tableStep pb tables) (rows server) (db.history.map Prod.snd)) := by
  intro db
  have hserves : db.ServesTable pb tables rows (rows server) := by
    refine Runs.run_invariant_of_last (SharedDb.ServesTable pb tables rows (rows server))
      (p := SharedDb.Succeeded)
      (fun _ action h => SharedDb.succeeded_of_step action h)
      (fun _ _ h hok hnext => SharedDb.step_servesTable hpb hsrv h hok hnext)
      (SharedDb.init_servesTable hlimit nWritebackTime server) horderly hsucceeded
  refine ⟨hserves.finished, hserves.legal, fun hclosed i => funext fun key => ?_⟩
  -- The row is that of the worker of its id, which has left it to the database.
  obtain ⟨szTableName, nID⟩ := key
  let home : Fin n := ⟨nID % 2 ^ 32 % n, Nat.mod_lt _ (Fin.pos i)⟩
  obtain ⟨served, hworker, hagrees⟩ := hserves.workers home
  rw [hserves.server i home, hworker.left (hclosed home)]
  exact hagrees szTableName nID rfl

/-! ## Player 5 is read, deleted and read again -/

/-- A server with the tables of the test program, read with its runtime. -/
def testServer : Server TableServer.State := TableServer.server testRuntime playerTables

/-- A SELECT or a DELETE of player 5. -/
def SDbCommand.isOnFive (sDbCommand : SDbCommand) : Bool :=
  match sDbCommand.nType, sDbCommand.pMessage with
  | .kOT_SELECT, some (.select_command id table_name)
  | .kOT_DELETE, some (.delete_command id table_name) => id == 5 && table_name == "player_base"
  | _, _ => false

/-- A command on player 5 is the one or the other. -/
theorem SDbCommand.of_isOnFive {sDbCommand : SDbCommand} (h : sDbCommand.isOnFive = true) :
    (sDbCommand.nType = .kOT_SELECT ∧
        sDbCommand.pMessage = some (.select_command 5 "player_base")) ∨
      sDbCommand.nType = .kOT_DELETE ∧
        sDbCommand.pMessage = some (.delete_command 5 "player_base") := by
  unfold isOnFive at h
  split at h
  · rename_i htype hmessage
    simp only [Bool.and_eq_true, beq_iff_eq] at h
    exact .inl ⟨htype, by rw [hmessage, h.1, h.2]⟩
  · rename_i htype hmessage
    simp only [Bool.and_eq_true, beq_iff_eq] at h
    exact .inr ⟨htype, by rw [hmessage, h.1, h.2]⟩
  · cases h

/-- What makes the next step of a worker orderly whose batch is about player 5, in a form that can
be evaluated: a SELECT comes while the record is not cached, and the last flush is not skipped. -/
def CDbThread.ServesFive (th : CDbThread TableServer.State) (input : Input) : Prop :=
  let mgr := th.store.m_dbCacheMgr
  input.clock.nSetTime ≠ 0 ∧
    (th.phase = .leaving → mgr.isPaced 0 = false ∨ mgr.m_mapDirtyCache = ∅) ∧
    (∀ sDbCommand ∈ th.listCommand, sDbCommand.isOnFive = true) ∧
    (∀ sDbCommand ∈ th.listCommand.head?, sDbCommand.nType = .kOT_SELECT →
      mgr.lookup 5 (getMessageNameByTableName "player_base") = none) ∧
    mgr.m_nCurIndex + 1 < 2 ^ 32

instance (th : CDbThread TableServer.State) (input : Input) : Decidable (th.ServesFive input) :=
  inferInstanceAs (Decidable (_ ∧ _ ∧ _ ∧ _ ∧ _))

/-- Then the step is orderly: the record is not cached, so nothing of it waits to be written. -/
theorem CDbThread.ServesFive.orderly {th : CDbThread TableServer.State} {input : Input}
    (h : th.ServesFive input) : th.Orderly testRuntime playerTables TableServer.rows input := by
  obtain ⟨htime, hleaving, hall, hlookup, hindex⟩ := h
  refine ⟨fun sDbCommand rest _ hlist => ?_, hleaving⟩
  obtain ⟨htype, hmessage⟩ | ⟨htype, hmessage⟩ :=
    SDbCommand.of_isOnFive (hall sDbCommand (hlist ▸ List.mem_cons_self))
  · rw [Store.OnRows, htype, hmessage]
    refine ⟨⟨htime, .select 5 "player_base"⟩, .inr ⟨⟨.inr hindex, fun _ _ hlook => ?_⟩, ?_⟩⟩
    · rw [hlookup sDbCommand (by simp [hlist]) htype] at hlook
      cases hlook
    · intro h
      cases h
  · rw [Store.OnRows, htype, hmessage]
    refine ⟨⟨htime, .delete 5 "player_base"⟩, .inr ⟨.inr hindex, fun h => ?_⟩⟩
    cases h

/-- The operations of the client. -/
def readFive : ProxyAction := .select ⟨1, true⟩ 1 5 "player_base" 60 0 0

/-- `remove` without a callback. -/
def deleteFive : ProxyAction := .remove ⟨1, true⟩ 5 "player_base"

/-- Their messages come through. -/
theorem readFive_carries : ∀ pMessage, readFive.pMessage = some pMessage →
    testRuntime.Carries pMessage := by
  rintro _ ⟨⟩
  exact Runtime.withCommands_carries rfl (by decide)

/-- Its message comes through as well. -/
theorem deleteFive_carries : ∀ pMessage, deleteFive.pMessage = some pMessage →
    testRuntime.Carries pMessage := by
  rintro _ ⟨⟩
  exact Runtime.withCommands_carries rfl (by decide)

/-- The second of two workers reads player 5, deletes it and reads again, then both leave. -/
def readDeleteReadLeave : List (MgrAction 2) :=
  let second : Fin 2 := Fin.last 1
  let advance (i : Fin 2) : MgrAction 2 := .advance i ⟨⟨1, 1⟩, ⟨[], 0⟩, 0⟩
  requestOf readFive ++ requestOf deleteFive ++ requestOf readFive ++
    [advance second, advance second, advance second, advance second, advance second,
      advance second, .join second, advance second, advance second, .join second.rev,
      advance second.rev, advance second.rev, advance second.rev, advance second.rev]

/-- The steps of the workers are those on player 5. -/
def SharedDb.ServesFive (db : SharedDb 2 TableServer.State) : MgrAction 2 → Prop
  | .advance i input => (db.mgr.m_vecDbThread i).ServesFive input
  | _ => True

instance (db : SharedDb 2 TableServer.State) : ∀ action, Decidable (db.ServesFive action)
  | .advance i input =>
      inferInstanceAs (Decidable ((db.mgr.m_vecDbThread i).ServesFive input))
  | .query .. | .flushCache .. | .push _ | .join _ | .getResultInfo =>
      inferInstanceAs (Decidable True)

/-- What a new proxy sends is a request that comes through. -/
theorem requestOf_issued {action : ProxyAction}
    (hcarries : ∀ pMessage, action.pMessage = some pMessage → testRuntime.Carries pMessage)
    {caller nServiceID : Nat} {pRequest : Request} {nTime : Nat}
    (hin : (.query caller nServiceID pRequest nTime : MgrAction 2) ∈ requestOf action) :
    pRequest.Issued testRuntime testRuntime.FindMessageTypeByName := by
  obtain ⟨pRequest', hsent, hquery⟩ := List.mem_flatMap.mp hin
  obtain rfl : pRequest = pRequest' := by
    simp only [List.mem_cons, MgrAction.query.injEq, List.not_mem_nil, or_false,
      reduceCtorEq] at hquery
    exact hquery.2.2.1
  exact ⟨CDbProxy.init, action, Option.mem_toList.mp hsent, hcarries⟩

/-- Every step of the run is orderly. -/
theorem readDeleteReadLeave_orderly :
    Runs.Guarded (SharedDb.step testRuntime testServer)
      (SharedDb.Orderly testRuntime playerTables TableServer.rows
        testRuntime.FindMessageTypeByName)
      (SharedDb.init 1000 1 (storedPlayer [65]).server) readDeleteReadLeave := by
  have hserves : Runs.Guarded (SharedDb.step testRuntime testServer) SharedDb.ServesFive
      (SharedDb.init 1000 1 (storedPlayer [65]).server) readDeleteReadLeave := by
    decide +kernel
  have hissued : ∀ action ∈ readDeleteReadLeave, ∀ caller nServiceID pRequest nTime,
      action = .query caller nServiceID pRequest nTime →
      pRequest.Issued testRuntime testRuntime.FindMessageTypeByName := by
    rintro _ hin caller nServiceID pRequest nTime rfl
    simp only [readDeleteReadLeave, List.mem_append, List.mem_cons, List.not_mem_nil, or_false,
      reduceCtorEq] at hin
    rcases hin with (hread | hdelete) | hread
    · exact requestOf_issued readFive_carries hread
    · exact requestOf_issued deleteFive_carries hdelete
    · exact requestOf_issued readFive_carries hread
  refine (hserves.and_forall hissued).imp fun db action h => ?_
  obtain ⟨hrequest, hstep⟩ := h
  cases action with
  | query caller nServiceID pRequest nTime => exact hrequest _ _ _ _ rfl
  | advance i input => exact CDbThread.ServesFive.orderly hstep
  | _ => trivial

/-- Three commands, and both workers have left. -/
theorem one_table_readDeleteReadLeave :
    let db := Runs.run (SharedDb.step testRuntime testServer)
      (SharedDb.init 1000 1 (storedPlayer [65]).server) readDeleteReadLeave
    db.history.map (fun op => op.2.1.nType) = [.kOT_SELECT, .kOT_DELETE, .kOT_SELECT] ∧
    (∀ i, (db.mgr.m_vecDbThread i).phase = .closed) ∧
    (∀ i, (db.history.filter fun op => op.1 = i).map (fun op => op.2.1) =
      (db.mgr.m_vecDbThread i).finished) ∧
    Runs.Legal (tableStep testRuntime playerTables) (tableAnswers testRuntime playerTables)
      (TableServer.rows (storedPlayer [65]).server) (db.history.map Prod.snd) ∧
    ((∀ i, (db.mgr.m_vecDbThread i).phase = .closed) → ∀ i,
      TableServer.rows (db.mgr.m_vecDbThread i).store.m_dbConnection.server =
        Runs.stateAfter (tableStep testRuntime playerTables)
          (TableServer.rows (storedPlayer [65]).server) (db.history.map Prod.snd)) :=
  ⟨by decide +kernel, by decide +kernel, one_table testRuntime_lawful
    (TableServer.server_keeps testRuntime playerTables) testRuntime.FindMessageTypeByName
    (by decide) 1 _ readDeleteReadLeave_orderly (by decide +kernel)⟩

end Db
