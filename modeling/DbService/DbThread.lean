import DbService.DbCacheMgr

/-!
# The worker (`db_thread.cpp`)

`Store` is what a worker processes commands on: its cache manager and its connection.
`Store.process` is the body of the batch loop of `onProcess` for one command.  `CDbThread`
adds the command queue, the batch under way and the place the worker's thread has
reached, and `CDbThread.step` interleaves that thread with the threads that push commands
and join.  `pushed` and `finished` record history and are never read.
-/

namespace Db

open Reflection ByteText

/-- A command as it waits in the queue of a worker. -/
structure SDbCommand where
  nServiceID : Nat
  nType : EOperatorType
  nSessionID : Nat
  nTimeout : Int
  /-- Null for the FLUSH that `db::flushCache` pushes. -/
  pMessage : Option Message

/-- `response`; a field that was never set is `none`. -/
structure Response where
  session_id : Nat
  err_code : Nat
  name : Option String
  content : Option Bytes

/-- A result as it waits to be handed to the client. -/
structure SDbResultInfo where
  nServiceID : Nat
  pResponse : Response

/-- The clock readings of one round of the batch loop: the one compared with the
deadline, and the one `CDbCache::setData` takes. -/
structure Clock where
  nCurTime : Nat
  nSetTime : Nat

/-- How the batch loop is done with a command, or not. -/
inductive Outcome
  | flushed
  | expired
  /-- The handler returned `kRC_LOST_CONNECTION`. -/
  | lost
  | handled (nErrorCode : EResultCode) (pMessage : Option Message)

/-- What a worker processes commands on. -/
structure Store (σ : Type) where
  m_dbCacheMgr : CDbCacheMgr
  m_dbConnection : CDbConnection σ

namespace CDbThread

variable {σ : Type} (pb : Runtime) (srv : Server σ)

/-- `onPreCache`: whether the cache answered for the command, and the response. -/
def onPreCache (mgr : CDbCacheMgr) (nType : EOperatorType) (pRequest : Option Message)
    (nSetTime : Nat) : Bool × Option Message × CDbCacheMgr :=
  if mgr.isDisabled then (false, none, mgr)
  else
    match nType, pRequest with
    | .kOT_SELECT, some (.select_command id table_name) =>
        match mgr.getData pb id (getMessageNameByTableName table_name) with
        | (some pMessage, mgr) => (true, some (.row pMessage), mgr)
        | (none, mgr) => (false, none, mgr)
    | .kOT_UPDATE, some (.row m) =>
        match getPrimaryValue (.row m), pb.SerializeToString (.row m) with
        | some nID, some _ =>
            let (bSet, mgr) := mgr.setData pb nID m nSetTime
            (bSet, none, mgr)
        | _, _ => (false, none, mgr)
    | .kOT_INSERT, some (.row m) =>
        match getPrimaryValue (.row m), pb.SerializeToString (.row m) with
        | some nID, some _ => (false, none, (mgr.addData pb nID m).2)
        | _, _ => (false, none, mgr)
    | .kOT_DELETE, some (.delete_command id table_name) =>
        (false, none, (mgr.delData id (getMessageNameByTableName table_name)).2)
    | _, _ => (false, none, mgr)

/-- `onPostCache`: the response of a SELECT is put into the cache. -/
def onPostCache (mgr : CDbCacheMgr) (nType : EOperatorType) (pRequest : Option Message)
    (pResponse : Option Message) (nSetTime : Nat) : CDbCacheMgr :=
  if mgr.isDisabled then mgr
  else
    match nType, pRequest, pResponse with
    | .kOT_SELECT, some (.select_command id _), some (.row m) =>
        match pb.SerializeToString (.row m) with
        | none => mgr
        | some _ => (mgr.setData pb id m nSetTime).2
    | _, _, _ => mgr

/-- The id a command's pre-step looks up. -/
def cacheKey (nType : EOperatorType) (pRequest : Option Message) : Option Nat :=
  match nType, pRequest with
  | .kOT_SELECT, some (.select_command id _) => some id
  | .kOT_UPDATE, some (.row m) => getPrimaryValue (.row m)
  | .kOT_INSERT, some (.row m) => getPrimaryValue (.row m)
  | .kOT_DELETE, some (.delete_command id _) => some id
  | _, _ => none

/-- The handler call of `onProcess`. -/
def handle (nType : EOperatorType) (pRequest : Option Message) (conn : CDbConnection σ) :
    EResultCode × Option Message × CDbConnection σ :=
  match pRequest with
  | none => (.kRC_UNKNOWN, none, conn)
  | some pMessage => CDbCommandHandlerProxy.onDbCommand pb srv nType pMessage conn

section PreCache

variable {pb} {mgr : CDbCacheMgr}

@[simp] theorem onPreCache_disabled (hdisabled : mgr.isDisabled = true) (nType : EOperatorType)
    (pRequest : Option Message) (nSetTime : Nat) :
    onPreCache pb mgr nType pRequest nSetTime = (false, none, mgr) := by
  simp [onPreCache, hdisabled]

/-- A SELECT is answered from the cache, if it has the record. -/
theorem onPreCache_select (hdisabled : mgr.isDisabled = false) (id : Nat)
    (table_name : String) (nSetTime : Nat) :
    onPreCache pb mgr .kOT_SELECT (some (.select_command id table_name)) nSetTime =
      let result := mgr.getData pb id (getMessageNameByTableName table_name)
      (result.1.isSome, result.1.map .row, result.2) := by
  simp only [onPreCache, hdisabled, Bool.false_eq_true, if_false]
  rcases mgr.getData pb id (getMessageNameByTableName table_name) with ⟨_ | m, mgr'⟩ <;> rfl

/-- An UPDATE is answered from the cache, if it takes the record. -/
theorem onPreCache_update (hdisabled : mgr.isDisabled = false) {m : RowMessage} {nID : Nat}
    {szData : Bytes} (hid : getPrimaryValue (.row m) = some nID)
    (hdata : pb.SerializeToString (.row m) = some szData) (nSetTime : Nat) :
    onPreCache pb mgr .kOT_UPDATE (some (.row m)) nSetTime =
      ((mgr.setData pb nID m nSetTime).1, none, (mgr.setData pb nID m nSetTime).2) := by
  simp only [onPreCache, hdisabled, hid, hdata, Bool.false_eq_true, if_false]

/-- An INSERT adds its record, and goes to the database. -/
theorem onPreCache_insert (hdisabled : mgr.isDisabled = false) {m : RowMessage} {nID : Nat}
    {szData : Bytes} (hid : getPrimaryValue (.row m) = some nID)
    (hdata : pb.SerializeToString (.row m) = some szData) (nSetTime : Nat) :
    onPreCache pb mgr .kOT_INSERT (some (.row m)) nSetTime =
      (false, none, (mgr.addData pb nID m).2) := by
  simp only [onPreCache, hdisabled, hid, hdata, Bool.false_eq_true, if_false]

/-- Without an id or a serialisation the pre-step of a write does nothing. -/
theorem onPreCache_write_refused {nType : EOperatorType}
    (htype : nType = .kOT_UPDATE ∨ nType = .kOT_INSERT) {m : RowMessage}
    (hrefused : getPrimaryValue (.row m) = none ∨ pb.SerializeToString (.row m) = none)
    (nSetTime : Nat) :
    onPreCache pb mgr nType (some (.row m)) nSetTime = (false, none, mgr) := by
  unfold onPreCache
  split
  · rfl
  · rcases htype with rfl | rfl <;> rcases hrefused with h | h <;> simp [h]

/-- A DELETE drops its record, and goes to the database. -/
theorem onPreCache_delete (hdisabled : mgr.isDisabled = false) (id : Nat)
    (table_name : String) (nSetTime : Nat) :
    onPreCache pb mgr .kOT_DELETE (some (.delete_command id table_name)) nSetTime =
      (false, none, (mgr.delData id (getMessageNameByTableName table_name)).2) := by
  simp only [onPreCache, hdisabled, Bool.false_eq_true, if_false]

/-- The post-step is for SELECT alone. -/
theorem onPostCache_of_ne_select {nType : EOperatorType} (htype : nType ≠ .kOT_SELECT)
    (pRequest pResponse : Option Message) (nSetTime : Nat) :
    onPostCache pb mgr nType pRequest pResponse nSetTime = mgr := by
  unfold onPostCache
  split
  · rfl
  · split
    · exact absurd rfl htype
    · rfl

end PreCache

end CDbThread

/-- The deadline test of `onProcess`. -/
def SDbCommand.isExpired (sDbCommand : SDbCommand) (nCurTime : Nat) : Bool :=
  sDbCommand.nTimeout != 0 && decide (sDbCommand.nTimeout ≤ nCurTime) &&
    sDbCommand.nSessionID != 0

namespace Store

variable {σ : Type} (pb : Runtime) (srv : Server σ)

/-- The pre-step, the handler unless the pre-step answered, and the post-step. -/
def execute (st : Store σ) (nType : EOperatorType) (pRequest : Option Message)
    (nSetTime : Nat) : Store σ × Outcome :=
  match CDbThread.onPreCache pb st.m_dbCacheMgr nType pRequest nSetTime with
  | (true, pMessage, mgr) =>
      (⟨CDbThread.onPostCache pb mgr nType pRequest pMessage nSetTime, st.m_dbConnection⟩,
        .handled .kRC_OK pMessage)
  | (false, _, mgr) =>
      let (nErrorCode, pMessage, conn) :=
        CDbThread.handle pb srv nType pRequest st.m_dbConnection
      if nErrorCode = .kRC_LOST_CONNECTION then (⟨mgr, conn⟩, .lost)
      else
        (⟨CDbThread.onPostCache pb mgr nType pRequest pMessage nSetTime, conn⟩,
          .handled nErrorCode pMessage)

/-- The body of the batch loop for one command, with the write-back UPDATEs it issued. -/
def process (st : Store σ) (sDbCommand : SDbCommand) (clock : Clock) :
    Store σ × Outcome × List WriteEvent :=
  if sDbCommand.nType = .kOT_FLUSH then
    match sDbCommand.pMessage with
    | some (.flush_command id type) =>
        let (mgr, writes, conn) := st.m_dbCacheMgr.flushCache pb srv id
          (type == EFlushCacheType.kFCT_DEL.code) st.m_dbConnection
        (⟨mgr, conn⟩, .flushed, writes)
    | _ => (st, .flushed, [])
  else if sDbCommand.isExpired clock.nCurTime then (st, .expired, [])
  else
    let (st, outcome) :=
      st.execute pb srv sDbCommand.nType sDbCommand.pMessage clock.nSetTime
    (st, outcome, [])

/-- `CDbCacheMgr::update()` on the worker's manager and connection. -/
def update (st : Store σ) (nCurTime : Nat) (sample : Sample) :
    Store σ × List WriteEvent :=
  let (mgr, writes, conn) :=
    st.m_dbCacheMgr.update pb srv nCurTime sample st.m_dbConnection
  (⟨mgr, conn⟩, writes)

/-- `flushCache(0, true)`, the last thing the worker does before it closes. -/
def flushAll (st : Store σ) : Store σ × List WriteEvent :=
  let (mgr, writes, conn) := st.m_dbCacheMgr.flushCache pb srv 0 true st.m_dbConnection
  (⟨mgr, conn⟩, writes)

section Cases

/-- **The three ways to execute a command:** the cache answers it, the connection is lost
under it, or a handler answers it. -/
inductive Executed (pb : Runtime) (srv : Server σ) (st : Store σ) (nType : EOperatorType)
    (pRequest : Option Message) (nSetTime : Nat) : Store σ × Outcome → Prop
  | absorbed (pMessage : Option Message) (mgr : CDbCacheMgr)
      (hpre : CDbThread.onPreCache pb st.m_dbCacheMgr nType pRequest nSetTime =
        (true, pMessage, mgr)) :
      Executed pb srv st nType pRequest nSetTime
        (⟨CDbThread.onPostCache pb mgr nType pRequest pMessage nSetTime, st.m_dbConnection⟩,
          .handled .kRC_OK pMessage)
  | lost (pMessage pAnswer : Option Message) (mgr : CDbCacheMgr) (conn : CDbConnection σ)
      (hpre : CDbThread.onPreCache pb st.m_dbCacheMgr nType pRequest nSetTime =
        (false, pMessage, mgr))
      (hhandle : CDbThread.handle pb srv nType pRequest st.m_dbConnection =
        (.kRC_LOST_CONNECTION, pAnswer, conn)) :
      Executed pb srv st nType pRequest nSetTime (⟨mgr, conn⟩, .lost)
  | answered (pMessage pAnswer : Option Message) (mgr : CDbCacheMgr)
      (nErrorCode : EResultCode) (conn : CDbConnection σ)
      (hpre : CDbThread.onPreCache pb st.m_dbCacheMgr nType pRequest nSetTime =
        (false, pMessage, mgr))
      (hhandle : CDbThread.handle pb srv nType pRequest st.m_dbConnection =
        (nErrorCode, pAnswer, conn))
      (hcode : nErrorCode ≠ .kRC_LOST_CONNECTION) :
      Executed pb srv st nType pRequest nSetTime
        (⟨CDbThread.onPostCache pb mgr nType pRequest pAnswer nSetTime, conn⟩,
          .handled nErrorCode pAnswer)

/-- The outcomes of a command that is executed. -/
theorem execute_cases (st : Store σ) (nType : EOperatorType) (pRequest : Option Message)
    (nSetTime : Nat) :
    Executed pb srv st nType pRequest nSetTime (st.execute pb srv nType pRequest nSetTime) := by
  unfold execute
  rcases hpre : CDbThread.onPreCache pb st.m_dbCacheMgr nType pRequest nSetTime with
    ⟨_ | _, pMessage, mgr⟩
  · rcases hhandle : CDbThread.handle pb srv nType pRequest st.m_dbConnection with
      ⟨nErrorCode, pAnswer, conn⟩
    simp only
    split
    · rename_i hlost
      subst hlost
      exact .lost pMessage pAnswer mgr conn hpre hhandle
    · rename_i hcode
      exact .answered pMessage pAnswer mgr nErrorCode conn hpre hhandle hcode
  · exact .absorbed pMessage mgr hpre

/-- A command other than SELECT changes the cache by its pre-step alone. -/
theorem executed_mgr {pb : Runtime} {srv : Server σ} {st : Store σ}
    {nType : EOperatorType} (htype : nType ≠ .kOT_SELECT) {pRequest : Option Message}
    {nSetTime : Nat} {result : Store σ × Outcome}
    (hexecuted : Executed pb srv st nType pRequest nSetTime result) :
    result.1.m_dbCacheMgr =
      (CDbThread.onPreCache pb st.m_dbCacheMgr nType pRequest nSetTime).2.2 := by
  have hpost : ∀ mgr pResponse,
      CDbThread.onPostCache pb mgr nType pRequest pResponse nSetTime = mgr :=
    fun mgr pResponse => CDbThread.onPostCache_of_ne_select htype pRequest pResponse nSetTime
  cases hexecuted with
  | absorbed pMessage mgr hpre => rw [hpre, hpost]
  | lost pMessage pAnswer mgr conn hpre => rw [hpre]
  | answered pMessage pAnswer mgr nErrorCode conn hpre => rw [hpre, hpost]

/-- **The ways to process a command:** a FLUSH, which does nothing without its message, a
command past its deadline, or an execution. -/
inductive Processed (pb : Runtime) (srv : Server σ) (st : Store σ) (sDbCommand : SDbCommand)
    (clock : Clock) : Store σ × Outcome × List WriteEvent → Prop
  | flush (id type : Nat) (htype : sDbCommand.nType = .kOT_FLUSH)
      (hmessage : sDbCommand.pMessage = some (.flush_command id type))
      (mgr : CDbCacheMgr) (writes : List WriteEvent) (conn : CDbConnection σ)
      (hflush : st.m_dbCacheMgr.flushCache pb srv id (type == EFlushCacheType.kFCT_DEL.code)
        st.m_dbConnection = (mgr, writes, conn)) :
      Processed pb srv st sDbCommand clock (⟨mgr, conn⟩, .flushed, writes)
  | flushNothing (htype : sDbCommand.nType = .kOT_FLUSH)
      (hmessage : ∀ id type, sDbCommand.pMessage ≠ some (.flush_command id type)) :
      Processed pb srv st sDbCommand clock (st, .flushed, [])
  | expired (htype : sDbCommand.nType ≠ .kOT_FLUSH)
      (hexpired : sDbCommand.isExpired clock.nCurTime = true) :
      Processed pb srv st sDbCommand clock (st, .expired, [])
  | executed (htype : sDbCommand.nType ≠ .kOT_FLUSH)
      (hexpired : sDbCommand.isExpired clock.nCurTime = false) (st' : Store σ)
      (outcome : Outcome)
      (hexecuted : Executed pb srv st sDbCommand.nType sDbCommand.pMessage clock.nSetTime
        (st', outcome)) :
      Processed pb srv st sDbCommand clock (st', outcome, [])

/-- The outcomes of a command, executed or not. -/
theorem process_cases (st : Store σ) (sDbCommand : SDbCommand) (clock : Clock) :
    Processed pb srv st sDbCommand clock (st.process pb srv sDbCommand clock) := by
  unfold process
  split
  · rename_i htype
    split
    · rename_i id type hmessage
      rcases hflush : st.m_dbCacheMgr.flushCache pb srv id
        (type == EFlushCacheType.kFCT_DEL.code) st.m_dbConnection with ⟨mgr, writes, conn⟩
      exact .flush id type htype hmessage mgr writes conn hflush
    · rename_i hmessage
      exact .flushNothing htype hmessage
  · rename_i htype
    split
    · rename_i hexpired
      exact .expired htype hexpired
    · rename_i hexpired
      exact .executed htype (by simpa using hexpired) _ _ (execute_cases pb srv st ..)

/-- A command past its deadline does nothing. -/
theorem process_expired {st : Store σ} {sDbCommand : SDbCommand} {clock : Clock}
    (htype : sDbCommand.nType ≠ .kOT_FLUSH)
    (hexpired : sDbCommand.isExpired clock.nCurTime = true) :
    st.process pb srv sDbCommand clock = (st, .expired, []) := by
  simp only [process, if_neg htype, hexpired, if_true]

/-- A command in time that is no FLUSH is executed. -/
theorem process_executed {st : Store σ} {sDbCommand : SDbCommand} {clock : Clock}
    (htype : sDbCommand.nType ≠ .kOT_FLUSH)
    (hexpired : sDbCommand.isExpired clock.nCurTime = false) :
    st.process pb srv sDbCommand clock =
      ((st.execute pb srv sDbCommand.nType sDbCommand.pMessage clock.nSetTime).1,
        (st.execute pb srv sDbCommand.nType sDbCommand.pMessage clock.nSetTime).2, []) := by
  simp only [process, if_neg htype, hexpired, Bool.false_eq_true, if_false]

end Cases

end Store

/-- The result `onProcess` makes of a handled command.  The source does not assign
`nServiceID` of the local `SDbResultInfo`, whose value is then whatever the stack holds. -/
def makeResultInfo (pb : Runtime) (sDbCommand : SDbCommand) (nErrorCode : EResultCode)
    (pMessage : Option Message) (nStack : Nat) : SDbResultInfo where
  nServiceID := nStack
  pResponse :=
    { session_id := sDbCommand.nSessionID
      err_code := nErrorCode.code
      name := pMessage.map Message.GetTypeName
      content := pMessage.map fun m => (pb.SerializeToString m).getD [] }

/-- Where the worker's thread stands in its loop. -/
inductive Phase
  /-- before `onProcess`, at its connection test -/
  | top
  /-- after `update()`, waiting for commands -/
  | waiting
  /-- in the batch loop -/
  | batch
  /-- a command came back lost; its batch is about to be put back -/
  | requeue
  /-- after `onProcess`, at the test of `m_quit` -/
  | check
  /-- out of the loop, before the last flush -/
  | leaving
  | closed
  deriving DecidableEq

/-- A worker: the members of the class, the local variables of its thread, and the history. -/
structure CDbThread (σ : Type) where
  m_quit : Bool
  m_listCommand : List SDbCommand
  /-- The rest of the batch, the command under way at its head. -/
  listCommand : List SDbCommand
  phase : Phase
  store : Store σ
  pushed : List SDbCommand
  finished : List SDbCommand

/-- What the worker's thread reads from outside in one step. -/
structure Input where
  clock : Clock
  sample : Sample
  nStack : Nat

/-- Who acts on a worker. -/
inductive ThreadAction
  /-- another thread calls `query` -/
  | query (sDbCommand : SDbCommand)
  /-- another thread calls `join`, which sets `m_quit` -/
  | join
  /-- the worker's own thread makes a step -/
  | advance (input : Input)

/-- What a step shows to the outside: the result it adds, the write-back UPDATEs, and,
for the record only, the request with a session it finished without discarding it. -/
structure ThreadOutput where
  result : Option SDbResultInfo
  writes : List WriteEvent
  answerDue : Option SDbCommand

/-- Nothing is shown. -/
def ThreadOutput.silent : ThreadOutput := ⟨none, [], none⟩

namespace CDbThread

variable {σ : Type} (pb : Runtime) (srv : Server σ)

/-- A worker after `init`, its thread about to enter the loop. -/
def init (nMaxCacheSize nWritebackTime : Nat) (conn : CDbConnection σ) : CDbThread σ where
  m_quit := false
  m_listCommand := []
  listCommand := []
  phase := .top
  store := ⟨CDbCacheMgr.init nMaxCacheSize nWritebackTime, conn⟩
  pushed := []
  finished := []

/-- `query`: the push under `m_tCommandLock`. -/
def query (th : CDbThread σ) (sDbCommand : SDbCommand) : CDbThread σ :=
  { th with
    m_listCommand := th.m_listCommand ++ [sDbCommand]
    pushed := th.pushed ++ [sDbCommand] }

/-- `join`, up to the wait for the thread to end. -/
def join (th : CDbThread σ) : CDbThread σ := { th with m_quit := true }

/-- One round of the batch loop. -/
def processHead (th : CDbThread σ) (sDbCommand : SDbCommand) (rest : List SDbCommand)
    (input : Input) : CDbThread σ × ThreadOutput :=
  let (store, outcome, writes) := th.store.process pb srv sDbCommand input.clock
  let finish : CDbThread σ :=
    { th with
      store := store
      listCommand := rest
      finished := th.finished ++ [sDbCommand] }
  let answerDue := if sDbCommand.nSessionID = 0 then none else some sDbCommand
  match outcome with
  | .lost => ({ th with store := store, phase := .requeue }, ⟨none, writes, none⟩)
  | .expired => (finish, ⟨none, writes, none⟩)
  | .flushed => (finish, ⟨none, writes, answerDue⟩)
  | .handled nErrorCode pMessage =>
      let result :=
        if sDbCommand.nSessionID = 0 then none
        else some (makeResultInfo pb sDbCommand nErrorCode pMessage input.nStack)
      (finish, ⟨result, writes, answerDue⟩)

/-- A step of the worker's own thread. -/
def advance (th : CDbThread σ) (input : Input) : CDbThread σ × ThreadOutput :=
  match th.phase with
  | .top =>
      if th.store.m_dbConnection.isConnect then
        let (store, writes) :=
          th.store.update pb srv input.clock.nCurTime input.sample
        ({ th with store := store, phase := .waiting }, ⟨none, writes, none⟩)
      else
        let conn := th.store.m_dbConnection.close.connect srv
        ({ th with store := { th.store with m_dbConnection := conn } }, .silent)
  | .waiting =>
      if th.m_listCommand.isEmpty then ({ th with phase := .check }, .silent)
      else
        ({ th with listCommand := th.m_listCommand, m_listCommand := [], phase := .batch },
          .silent)
  | .batch =>
      match th.listCommand with
      | [] => ({ th with phase := .check }, .silent)
      | sDbCommand :: rest => th.processHead pb srv sDbCommand rest input
  | .requeue =>
      ({ th with
          m_listCommand := th.listCommand ++ th.m_listCommand
          listCommand := []
          phase := .check }, .silent)
  | .check =>
      if th.m_quit && th.m_listCommand.isEmpty then
        ({ th with phase := .leaving }, .silent)
      else ({ th with phase := .top }, .silent)
  | .leaving =>
      let (store, writes) := th.store.flushAll pb srv
      ({ th with
          store := { store with m_dbConnection := store.m_dbConnection.close }
          phase := .closed }, ⟨none, writes, none⟩)
  | .closed => (th, .silent)

/-- One step of a worker. -/
def step (th : CDbThread σ) : ThreadAction → CDbThread σ × ThreadOutput
  | .query sDbCommand => (th.query sDbCommand, .silent)
  | .join => (th.join, .silent)
  | .advance input => th.advance pb srv input

end CDbThread

end Db
