import DbService.CallTransactions
import DbService.GeneratedMessages
import DbService.SentStatements
import DbService.WorkerStores

/-!
# Commands do not mix on a connection

A worker sends the statements of one command before those of the next: what goes over its
connection is a sequence of blocks, one row statement, one whole CALL, or the opening or closing
of the connection.  The UPDATEs of write-backs and evictions are blocks of their own.  So none of
them is sent inside the transaction of a CALL, and as long as the CALLs before left the session
clean, every block starts in a fresh session.

* `inBlocks_keptByHandlers` -- the handlers send whole blocks;
* `commands_do_not_mix` -- so the commands of a worker do not mix, whatever runs beside it.
-/

namespace Db

open Reflection ByteText Transactions CDbCommandCallHandler

/-- The statements on rows. -/
def Statement.OfRow : Statement → Prop
  | .selectRow .. | .deleteRow .. | .insertRow .. | .upsertRow .. | .queryRows .. => True
  | _ => False

/-- **What goes over a connection in one piece.** -/
inductive Block : List SqlEvent → Prop
  | row (stmt : Statement) (reply : Reply) (hrow : stmt.OfRow) : Block [.sql stmt reply]
  | call (szSQL : Bytes) (code : EResultCode) (first : Reply) (events : List SqlEvent)
      (hattempts : Attempts szSQL TRY_DEAD_LOOP_COUNT code events) :
      Block (.sql (.setAutocommit false) first :: events)
  | connected (reply : Reply) : Block [.connect true, .sql (.setAutocommit true) reply]
  | refused : Block [.connect false]
  | closed : Block [.close]

/-- The trace, after what was there before, is made of blocks. -/
def InBlocks {σ : Type} (before : List SqlEvent) (conn : CDbConnection σ) : Prop :=
  ∃ blocks : List (List SqlEvent), conn.trace = before ++ blocks.flatten ∧
    ∀ block ∈ blocks, Block block

section Connection

variable {σ : Type} {before : List SqlEvent} {conn : CDbConnection σ}

/-- A further block keeps the history in blocks. -/
theorem InBlocks.append (h : InBlocks before conn) {conn' : CDbConnection σ}
    {block : List SqlEvent} (htrace : conn'.trace = conn.trace ++ block) (hblock : Block block) :
    InBlocks before conn' := by
  obtain ⟨blocks, heq, hblocks⟩ := h
  refine ⟨blocks ++ [block], by simp [htrace, heq], ?_⟩
  simpa [or_imp, forall_and] using ⟨hblocks, hblock⟩

/-- So does closing the connection, -/
theorem InBlocks.close (h : InBlocks before conn) : InBlocks before conn.close := by
  unfold CDbConnection.close
  split
  · exact h.append rfl .closed
  · exact h

/-- and connecting. -/
theorem InBlocks.connect (h : InBlocks before conn) (srv : Server σ) :
    InBlocks before (conn.connect srv) := by
  unfold CDbConnection.connect
  rcases srv.connect conn.server with ⟨ok, server⟩
  cases ok with
  | false => exact h.append rfl .refused
  | true =>
      let opened : CDbConnection σ :=
        { conn with m_pMysql := true, server := server, trace := conn.trace ++ [.connect true] }
      have hopen : opened.isConnect = true := rfl
      obtain ⟨reply, hreply⟩ := send_trace srv hopen (.setAutocommit true)
      have htrace : (opened.autoCommit srv true).trace =
          conn.trace ++ [.connect true, .sql (.setAutocommit true) reply] := by
        simpa [opened, CDbConnection.autoCommit] using hreply
      exact h.append htrace (.connected reply)

/-- A row statement, if it goes out. -/
theorem InBlocks.execute (h : InBlocks before conn) (srv : Server σ) {stmt : Statement}
    (hrow : stmt.OfRow) (wanted : Bool) : InBlocks before (conn.execute srv stmt wanted).2.2 := by
  unfold CDbConnection.execute
  split
  · exact h.append (CDbConnection.sent_trace srv conn stmt) (.row stmt _ hrow)
  · exact h

end Connection

section Handlers

variable {σ : Type} (pb : Runtime) (srv : Server σ) {before : List SqlEvent}
  {conn : CDbConnection σ}

/-- INSERT and UPDATE send one statement or none. -/
theorem InBlocks.writeMessage (h : InBlocks before conn)
    {statement : String → List SFieldInfo → Statement}
    (hrow : ∀ szTableName vecFieldInfo, (statement szTableName vecFieldInfo).OfRow)
    (accepts : Nat → Bool) (pRequest : Message) :
    InBlocks before (Db.writeMessage pb srv statement accepts pRequest conn).2.2 := by
  unfold Db.writeMessage
  split
  · rename_i szTableName vecFieldInfo _ _
    have hsent := h.execute srv (hrow szTableName vecFieldInfo) false
    dsimp only
    split <;> exact hsent
  · exact h

/-- The handler of SELECT adds a block. -/
theorem InBlocks.select (h : InBlocks before conn) (pRequest : Message) :
    InBlocks before (CDbCommandSelectHandler.onDbCommand pb srv pRequest conn).2.2 := by
  unfold CDbCommandSelectHandler.onDbCommand
  split
  · split
    · exact h
    · split
      · exact h
      · dsimp only
        split <;> exact h.execute srv (by trivial) true
  · exact h

/-- The handler of DELETE adds a block. -/
theorem InBlocks.delete (h : InBlocks before conn) (pRequest : Message) :
    InBlocks before (CDbCommandDeleteHandler.onDbCommand pb srv pRequest conn).2.2 := by
  unfold CDbCommandDeleteHandler.onDbCommand
  split
  · split
    · exact h
    · split
      · exact h
      · exact h.execute srv (by trivial) false
  · exact h

/-- The handler of QUERY adds a block. -/
theorem InBlocks.query (h : InBlocks before conn) (pRequest : Message) :
    InBlocks before (CDbCommandQueryHandler.onDbCommand pb srv pRequest conn).2.2 := by
  unfold CDbCommandQueryHandler.onDbCommand
  split
  · split
    · exact h
    · dsimp only
      split
      · exact h.execute srv (by trivial) true
      · split
        · exact h.execute srv (by trivial) true
        · split <;> exact h.execute srv (by trivial) true
  · exact h

/-- **A CALL is one block,** or nothing without a connection. -/
theorem InBlocks.call (h : InBlocks before conn) (pRequest : Message) :
    InBlocks before (CDbCommandCallHandler.onDbCommand srv pRequest conn).2.2 := by
  unfold CDbCommandCallHandler.onDbCommand
  split
  · split
    · exact h
    · rename_i szSQL _
      cases hopen : conn.isConnect with
      | false =>
          have hsend : ∀ enable, conn.autoCommit srv enable = conn :=
            fun enable => send_closed hopen (.setAutocommit enable)
          obtain ⟨_, hconn⟩ := attempts_closed srv szSQL TRY_DEAD_LOOP_COUNT hopen
          simp only [hsend, hconn]
          exact h
      | true =>
          obtain ⟨first, hfirst⟩ := send_trace srv hopen (.setAutocommit false)
          have hopen' : (conn.autoCommit srv false).isConnect = true :=
            (CDbConnection.send_isConnect srv conn _).trans hopen
          obtain ⟨events, hattempts, hevents⟩ :=
            attempts_events srv szSQL TRY_DEAD_LOOP_COUNT hopen'
          have htrace := hevents.trans (congrArg (· ++ events) hfirst)
          rw [List.append_assoc] at htrace
          exact h.append htrace (.call szSQL _ first events hattempts)
  · exact h

/-- **The handlers send blocks.** -/
theorem inBlocks_keptByHandlers (before : List SqlEvent) :
    KeptByHandlers pb srv fun conn : CDbConnection σ => InBlocks before conn := by
  intro nType pRequest conn h
  cases nType with
  | kOT_SELECT => exact h.select pb srv pRequest
  | kOT_UPDATE => exact h.writeMessage pb srv (fun _ _ => by trivial) _ pRequest
  | kOT_INSERT => exact h.writeMessage pb srv (fun _ _ => by trivial) _ pRequest
  | kOT_DELETE => exact h.delete pb srv pRequest
  | kOT_QUERY => exact h.query pb srv pRequest
  | kOT_CALL => exact h.call srv pRequest
  | kOT_NOP => exact h
  | kOT_FLUSH => exact h
  | kOT_None => exact h

end Handlers

/-- The block of a CALL. -/
def IsCall (block : List SqlEvent) : Prop :=
  ∃ first, block.head? = some (.sql (.setAutocommit false) first)

/-- The CALL left no trace on a session: the statements whose outcome it ignores succeeded, on a
connection that stayed alive. -/
def Clean (effect : Statement → Reply → Session → Session) (block : List SqlEvent) : Prop :=
  IsCall block → ControlsSucceed effect .fresh block ∧ ∀ event ∈ block, ¬ event.IsLost

section Sessions

variable {effect : Statement → Reply → Session → Session}
  (heffect : ∀ stmt reply, stmt.OfRow → effect stmt reply .fresh = .fresh)

include heffect

/-- A clean block leaves a fresh session fresh. -/
theorem Block.fresh {block : List SqlEvent} (h : Block block) (hclean : Clean effect block) :
    sessionAfter effect .fresh block = .fresh := by
  cases h with
  | row stmt reply hrow =>
      have hcontrol : stmt.control = none := by
        cases stmt <;> first | rfl | exact hrow.elim
      simp [sessionAfter, SqlEvent.session, hcontrol, heffect stmt reply hrow]
  | call szSQL code first events hattempts =>
      obtain ⟨hcontrols, hlive⟩ := hclean ⟨first, rfl⟩
      have hfirst := hlive _ List.mem_cons_self
      exact hattempts.fresh (fun hzero => absurd hzero (by decide)) (hcontrols.tail hfirst)
        fun event hin => hlive event (List.mem_cons_of_mem _ hin)
  | connected reply =>
      simp only [sessionAfter, List.foldl_cons, List.foldl_nil, SqlEvent.session, Statement.control]
      split
      · rfl
      · rfl
  | refused => rfl
  | closed => rfl

/-- So do clean blocks. -/
theorem blocks_fresh {blocks : List (List SqlEvent)} (h : ∀ block ∈ blocks, Block block)
    (hclean : ∀ block ∈ blocks, Clean effect block) :
    sessionAfter effect .fresh blocks.flatten = .fresh := by
  induction blocks with
  | nil => rfl
  | cons block rest ih =>
      have hfirst := (h block List.mem_cons_self).fresh heffect (hclean block List.mem_cons_self)
      have hsplit : sessionAfter effect .fresh (block :: rest).flatten =
          sessionAfter effect (sessionAfter effect .fresh block) rest.flatten :=
        List.foldl_append
      rw [hsplit, hfirst]
      exact ih (fun b hin => h b (List.mem_cons_of_mem _ hin))
        fun b hin => hclean b (List.mem_cons_of_mem _ hin)

end Sessions

/-- **Commands do not mix.**  In every run of an instance, what a worker sends is made of blocks:
row statements one by one, whole CALLs, and the opening and closing of the connection.  And a
block whose predecessors were clean starts in a fresh session, with autocommit on and no
transaction open. -/
theorem commands_do_not_mix {n : Nat} {σ : Type} (pb : Runtime) (srv : Fin n → Server σ)
    (nMaxCacheSize nWritebackTime : Nat) (conn : Fin n → CDbConnection σ)
    (effect : Statement → Reply → Session → Session)
    (heffect : ∀ stmt reply, stmt.OfRow → effect stmt reply .fresh = .fresh)
    (actions : List (MgrAction n)) (i : Fin n) :
    ∃ blocks : List (List SqlEvent),
      ((Runs.run (CDbThreadMgr.step pb srv) (CDbThreadMgr.init nMaxCacheSize nWritebackTime conn)
        actions).m_vecDbThread i).store.m_dbConnection.trace =
          (conn i).trace ++ blocks.flatten ∧
      (∀ block ∈ blocks, Block block) ∧
      ∀ earlier block later, blocks = earlier ++ block :: later →
        (∀ block' ∈ earlier, Clean effect block') →
        sessionAfter effect .fresh earlier.flatten = .fresh := by
  have hinit : ∀ i, InBlocks (conn i).trace
      ((CDbThreadMgr.init nMaxCacheSize nWritebackTime conn).m_vecDbThread
        i).store.m_dbConnection :=
    fun i => ⟨[], (List.append_nil _).symm, fun _ hin => by cases hin⟩
  obtain ⟨blocks, htrace, hblocks⟩ := @CDbThreadMgr.run_stores n σ pb srv
    (fun i st => InBlocks (conn i).trace st.m_dbConnection)
    (fun i _ action h => (inBlocks_keptByHandlers pb (srv i) (conn i).trace).step h action)
    (fun i _ h => h.close.connect (srv i)) (fun _ _ h => h.close) _ hinit actions i
  refine ⟨blocks, htrace, hblocks, ?_⟩
  intro earlier block later heq hclean
  exact blocks_fresh heffect (fun b hin => hblocks b (by simp [heq, hin])) hclean

/-- With autocommit off a row statement opens a transaction. -/
def opensWithoutAutocommit (_ : Statement) (_ : Reply) (session : Session) : Session :=
  ⟨session.autocommit, session.isOpen || !session.autocommit⟩

/-- One worker that inserts a player, makes a CALL and inserts another. -/
def insertCallInsert : List (MgrAction 1) :=
  let insert (nID : Int) : ProxyAction := .insert ⟨1, true⟩ (.row (PlayerBase.player nID [65]))
  let advance : MgrAction 1 := .advance (Fin.last 0) ⟨⟨1, 1⟩, ⟨[], 0⟩, 0⟩
  requestOf (insert 1) ++ requestOf (.call ⟨1, true⟩ 1 [67] []) ++ requestOf (insert 2) ++
    [advance, advance, advance, advance, advance]

/-- The event is a statement that controls transactions. -/
def SqlEvent.isControl : SqlEvent → Bool
  | .sql stmt _ => stmt.control.isSome
  | .connect _ | .close => false

/-- Between the two insertions stands the CALL, with two such statements before and behind. -/
theorem commands_do_not_mix_insertCallInsert :
    let trace := ((Runs.run (CDbThreadMgr.step testRuntime fun _ => Server.constant (.done 0 1))
      (CDbThreadMgr.init 0 1 fun _ => ⟨true, (), 0, []⟩)
      insertCallInsert).m_vecDbThread 0).store.m_dbConnection.trace
    trace.map SqlEvent.isControl = [false, true, true, false, true, true, false] ∧
    ∃ blocks : List (List SqlEvent), trace = [] ++ blocks.flatten ∧
      (∀ block ∈ blocks, Block block) ∧
      ∀ earlier block later, blocks = earlier ++ block :: later →
        (∀ block' ∈ earlier, Clean opensWithoutAutocommit block') →
        sessionAfter opensWithoutAutocommit .fresh earlier.flatten = .fresh :=
  ⟨by decide +kernel, commands_do_not_mix testRuntime (fun _ => Server.constant (.done 0 1)) 0 1
    (fun _ => ⟨true, (), 0, []⟩) opensWithoutAutocommit (fun _ _ _ => rfl) insertCallInsert 0⟩

end Db
