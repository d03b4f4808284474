import DbService.StoreRuns

/-!
# What statements keep

Handlers change the connection only by sending statements on it, passes of write-back and whole
actions only by calling handlers.  So what every handler keeps, each of these keeps
(`KeptByHandlers`), and what every statement keeps, every handler does (`KeptBySent`).

A property `q` of connections is therefore checked once, against `CDbConnection.sent` or against
the handlers, and carried over by the rules here:

* `KeptByHandlers.step`, `KeptByHandlers.run` -- from handlers to actions and runs of a store;
* `KeptBySent.handlers` -- from statements to handlers;
* `KeptBySent.step`, `KeptBySent.run` -- both at once;
* `isConnect_keptBySent`, `trace_keptBySent` -- a connection stays open, and its trace only grows.
-/

namespace Db

open Reflection ByteText

/-- `q` holds of a connection after a handler if it did before.  What else touches the connection,
the passes of the cache, calls the handler of UPDATE and no other code. -/
def KeptByHandlers {σ : Type} (pb : Runtime) (srv : Server σ) (q : CDbConnection σ → Prop) :
    Prop :=
  ∀ nType pRequest conn, q conn →
    q (CDbCommandHandlerProxy.onDbCommand pb srv nType pRequest conn).2.2

section HandlerRule

variable {σ : Type} {pb : Runtime} {srv : Server σ} {q : CDbConnection σ → Prop}
  (hq : KeptByHandlers pb srv q)

include hq

/-- A command without a message reaches no handler, and one with a message reaches that of its
type. -/
theorem KeptByHandlers.handle {conn : CDbConnection σ} (h : q conn) (nType : EOperatorType)
    (pRequest : Option Message) : q (CDbThread.handle pb srv nType pRequest conn).2.2 := by
  cases pRequest with
  | none => exact h
  | some m => exact hq nType m conn h

/-- **So does writing back:** the records of one object, and so on up to a tick.  A pass sends one
UPDATE for each record it visits, so the induction is on the records. -/
theorem KeptByHandlers.writebackRecords (getDataName : Nat → String) (nTime : Nat)
    (records : List (Nat × SCacheInfo)) {conn : CDbConnection σ} (h : q conn) :
    q (CDbCache.writebackFrom pb srv getDataName nTime records conn).2 := by
  induction records generalizing conn with
  | nil => exact h
  | cons record rest ih =>
      obtain ⟨nDataID, sCacheInfo⟩ := record
      unfold CDbCache.writebackFrom
      split
      · exact ih h
      · split
        · exact ih h
        · rename_i pMessage _
          exact ih (hq .kOT_UPDATE (.row pMessage) _ h)

/-- The pass over one object is that over its records. -/
theorem KeptByHandlers.writebackObject (mgr : CDbCacheMgr) (nID pObject nTime : Nat)
    {conn : CDbConnection σ} (h : q conn) :
    q (mgr.writebackObject pb srv nID pObject nTime conn).2.2 :=
  hq.writebackRecords mgr.getDataName nTime _ h

/-- A pass over entries of the dirty map visits their objects one after another. -/
theorem KeptByHandlers.writebackFrom (mgr : CDbCacheMgr) (nTime : Nat)
    (entries : List (Nat × Nat)) {conn : CDbConnection σ} (h : q conn) :
    q (mgr.writebackFrom pb srv nTime entries conn).2.2 := by
  induction entries generalizing conn with
  | nil => exact h
  | cons entry rest ih =>
      obtain ⟨nID, pObject⟩ := entry
      unfold CDbCacheMgr.writebackFrom
      exact ih (hq.writebackObject mgr nID pObject nTime h)

/-- The timed pass either returns at its guards or goes over the whole dirty map. -/
theorem KeptByHandlers.writeback (mgr : CDbCacheMgr) (nTime : Nat) {conn : CDbConnection σ}
    (h : q conn) : q (mgr.writeback pb srv nTime conn).2.2 := by
  rcases CDbCacheMgr.writeback_cases pb srv mgr nTime conn with ⟨_, heq⟩ | ⟨_, _, heq⟩
  · rw [heq]
    exact h
  · rw [heq]
    exact hq.writebackFrom mgr nTime _ h

/-- An eviction writes one object back, if it finds one to evict. -/
theorem KeptByHandlers.cleanCache (mgr : CDbCacheMgr) (nTime : Nat) (sample : Sample)
    {conn : CDbConnection σ} (h : q conn) :
    q (mgr.cleanCache pb srv nTime sample conn).2.2 := by
  rcases CDbCacheMgr.cleanCache_cases pb srv mgr nTime sample conn with
    ⟨_, _, heq⟩ | ⟨nID, pObject, _, _, heq⟩
  · rw [heq]
    exact h
  · rw [heq]
    exact hq.writebackObject mgr nID pObject 0 h

/-- A flush of one id writes its cached object, a flush of all makes the forced pass. -/
theorem KeptByHandlers.flushCache (mgr : CDbCacheMgr) (nKey : Nat) (bDel : Bool)
    {conn : CDbConnection σ} (h : q conn) :
    q (mgr.flushCache pb srv nKey bDel conn).2.2 := by
  rcases CDbCacheMgr.flushCache_cases pb srv mgr nKey bDel conn with
    ⟨_, heq⟩ | ⟨pObject, _, _, _, heq⟩ | ⟨_, _, heq⟩
  · rw [heq]
    exact h
  · rw [heq]
    exact hq.writebackObject mgr nKey pObject 0 h
  · rw [heq]
    exact hq.writeback mgr 0 h

/-- A tick evicts first and writes back on the connection that is left. -/
theorem KeptByHandlers.update (mgr : CDbCacheMgr) (nCurTime : Nat) (sample : Sample)
    {conn : CDbConnection σ} (h : q conn) :
    q (mgr.update pb srv nCurTime sample conn).2.2 :=
  hq.writeback _ nCurTime (hq.cleanCache mgr nCurTime sample h)

/-- A command is a flush, is discarded, or is executed: the cache may answer it, and otherwise its
handler does. -/
theorem KeptByHandlers.process {st : Store σ} (h : q st.m_dbConnection)
    (sDbCommand : SDbCommand) (clock : Clock) :
    q (st.process pb srv sDbCommand clock).1.m_dbConnection := by
  have hprocessed := Store.process_cases pb srv st sDbCommand clock
  generalize st.process pb srv sDbCommand clock = result at hprocessed
  cases hprocessed with
  | flush id type _ _ mgr writes conn hflush =>
      have hkept := hq.flushCache st.m_dbCacheMgr id
        (type == EFlushCacheType.kFCT_DEL.code) h
      rwa [hflush] at hkept
  | flushNothing => exact h
  | expired => exact h
  | executed _ _ st' outcome hexecuted =>
      have hkept := hq.handle h sDbCommand.nType sDbCommand.pMessage
      cases hexecuted with
      | absorbed => exact h
      | lost _ _ _ conn _ hhandle => rwa [hhandle] at hkept
      | answered _ _ _ _ conn _ hhandle _ => rwa [hhandle] at hkept

/-- **An action keeps what handlers keep:** a command, a tick and the last flush alike, since each
is made of the passes and commands above. -/
theorem KeptByHandlers.step {st : Store σ} (h : q st.m_dbConnection) (action : StoreAction) :
    q (st.step pb srv action).1.m_dbConnection := by
  cases action with
  | command sDbCommand clock => exact hq.process h sDbCommand clock
  | tick nCurTime sample => exact hq.update st.m_dbCacheMgr nCurTime sample h
  | finish => exact hq.flushCache st.m_dbCacheMgr 0 true h

/-- **So does a run,** by induction on its actions.  A fact about every connection of a run has to
be proved for one handler only. -/
theorem KeptByHandlers.run {st : Store σ} (h : q st.m_dbConnection) (actions : List StoreAction) :
    q (Runs.run (Store.step pb srv) st actions).m_dbConnection :=
  Runs.run_preserves (fun st : Store σ => q st.m_dbConnection)
    (fun _ action hst => hq.step hst action) h actions

end HandlerRule

/-- `q` holds of a connection after a statement if it did before.  Reading the reply and asking
for the number of affected rows leave the connection alone. -/
def KeptBySent {σ : Type} (srv : Server σ) (q : CDbConnection σ → Prop) : Prop :=
  ∀ conn stmt, q conn → q (conn.sent srv stmt)

section Rule

variable {σ : Type} {srv : Server σ} {q : CDbConnection σ → Prop}

/-- A closed connection is not used, and on an open one a statement is sent. -/
theorem KeptBySent.execute (hq : KeptBySent srv q) {conn : CDbConnection σ} (h : q conn)
    (stmt : Statement) (wanted : Bool) : q (conn.execute srv stmt wanted).2.2 := by
  unfold CDbConnection.execute
  split
  · exact hq conn stmt h
  · exact h

/-- The form for a result that was split into its parts. -/
theorem KeptBySent.executed (hq : KeptBySent srv q) {conn conn' : CDbConnection σ} (h : q conn)
    {stmt : Statement} {wanted : Bool} {nErrorType : Nat} {pDbRecordset : Option CDbRecordset}
    (hexecute : conn.execute srv stmt wanted = (nErrorType, pDbRecordset, conn')) : q conn' := by
  have hkept := hq.execute h stmt wanted
  rwa [hexecute] at hkept

variable (hq : KeptBySent srv q)

include hq

/-- The row commands send at most one statement (`StatementOutcome`). -/
theorem KeptBySent.outcome {conn : CDbConnection σ} (h : q conn)
    {result : EResultCode × Option Message × CDbConnection σ}
    (houtcome : StatementOutcome srv conn result) : q result.2.2 := by
  cases houtcome with
  | refused => exact h
  | failed stmt wanted => exact hq.execute h stmt wanted
  | answered stmt wanted => exact hq.execute h stmt wanted

/-- The CALL handler makes attempts of at most four statements each, so the induction is on the
number of attempts that are left.  It does not matter which of them fails. -/
theorem KeptBySent.attempts (szSQL : Bytes) (n : Nat) {conn : CDbConnection σ} (h : q conn) :
    q (CDbCommandCallHandler.attempts srv szSQL n conn).2.2 := by
  induction n generalizing conn with
  | zero => exact h
  | succ n ih =>
      unfold CDbCommandCallHandler.attempts
      rcases hexecute : (conn.send srv .begin).execute srv (.callText szSQL) true with
        ⟨nErrorType, pDbRecordset, conn'⟩
      have hbegun : q (conn.send srv .begin) := hq.execute h .begin false
      have hkept : q conn' := hq.executed hbegun hexecute
      have hsent : ∀ stmt, q (conn'.send srv stmt) := fun stmt => hq.execute hkept stmt false
      simp only
      split
      · exact ih (hsent _)
      · split <;> exact hsent _

/-- Around its attempts a CALL switches autocommit off and on again. -/
theorem KeptBySent.callHandler {conn : CDbConnection σ} (h : q conn) (pRequest : Message) :
    q (CDbCommandCallHandler.onDbCommand srv pRequest conn).2.2 := by
  unfold CDbCommandCallHandler.onDbCommand
  split
  · split
    · exact h
    · have hauto : q (conn.autoCommit srv false) := hq.execute h _ false
      exact hq.execute (hq.attempts _ _ hauto) _ false
  · exact h

variable (pb : Runtime)

/-- **A handler keeps what statements keep.**  Each of the seven is one of three kinds: it sends
nothing, it sends one statement, or it is the CALL. -/
theorem KeptBySent.onDbCommand {conn : CDbConnection σ} (h : q conn) (nType : EOperatorType)
    (pRequest : Message) :
    q (CDbCommandHandlerProxy.onDbCommand pb srv nType pRequest conn).2.2 := by
  cases nType with
  | kOT_SELECT => exact hq.outcome h (selectHandler_outcome pb pRequest conn)
  | kOT_UPDATE => exact hq.outcome h (updateHandler_outcome pb pRequest conn)
  | kOT_INSERT => exact hq.outcome h (insertHandler_outcome pb pRequest conn)
  | kOT_DELETE => exact hq.outcome h (deleteHandler_outcome pb pRequest conn)
  | kOT_QUERY => exact hq.outcome h (queryHandler_outcome pb pRequest conn)
  | kOT_CALL => exact hq.callHandler h pRequest
  | kOT_NOP => exact h
  | kOT_FLUSH => exact h
  | kOT_None => exact h

/-- So it is kept by all that handlers are used for, and every rule above has its form for
`KeptBySent`. -/
theorem KeptBySent.handlers : KeptByHandlers pb srv q :=
  fun nType pRequest _ h => hq.onDbCommand pb h nType pRequest

/-- A command with a message, or without. -/
theorem KeptBySent.handle {conn : CDbConnection σ} (h : q conn) (nType : EOperatorType)
    (pRequest : Option Message) : q (CDbThread.handle pb srv nType pRequest conn).2.2 :=
  (hq.handlers pb).handle h nType pRequest

/-- The records of one object. -/
theorem KeptBySent.writebackRecords (getDataName : Nat → String) (nTime : Nat)
    (records : List (Nat × SCacheInfo)) {conn : CDbConnection σ} (h : q conn) :
    q (CDbCache.writebackFrom pb srv getDataName nTime records conn).2 :=
  (hq.handlers pb).writebackRecords getDataName nTime records h

/-- One object. -/
theorem KeptBySent.writebackObject (mgr : CDbCacheMgr) (nID pObject nTime : Nat)
    {conn : CDbConnection σ} (h : q conn) :
    q (mgr.writebackObject pb srv nID pObject nTime conn).2.2 :=
  (hq.handlers pb).writebackObject mgr nID pObject nTime h

/-- The objects of some entries. -/
theorem KeptBySent.writebackFrom (mgr : CDbCacheMgr) (nTime : Nat) (entries : List (Nat × Nat))
    {conn : CDbConnection σ} (h : q conn) :
    q (mgr.writebackFrom pb srv nTime entries conn).2.2 :=
  (hq.handlers pb).writebackFrom mgr nTime entries h

/-- The timed pass. -/
theorem KeptBySent.writeback (mgr : CDbCacheMgr) (nTime : Nat) {conn : CDbConnection σ}
    (h : q conn) : q (mgr.writeback pb srv nTime conn).2.2 :=
  (hq.handlers pb).writeback mgr nTime h

/-- An eviction. -/
theorem KeptBySent.cleanCache (mgr : CDbCacheMgr) (nTime : Nat) (sample : Sample)
    {conn : CDbConnection σ} (h : q conn) :
    q (mgr.cleanCache pb srv nTime sample conn).2.2 :=
  (hq.handlers pb).cleanCache mgr nTime sample h

/-- **An action keeps what statements keep,** whatever the replies: `q` is known of every reply
that the server could give. -/
theorem KeptBySent.step {st : Store σ} (h : q st.m_dbConnection) (action : StoreAction) :
    q (st.step pb srv action).1.m_dbConnection :=
  (hq.handlers pb).step h action

/-- **So does a run.**  This is how the open connection and the growing trace below are carried
over whole runs. -/
theorem KeptBySent.run {st : Store σ} (h : q st.m_dbConnection) (actions : List StoreAction) :
    q (Runs.run (Store.step pb srv) st actions).m_dbConnection :=
  (hq.handlers pb).run h actions

end Rule

section Instances

variable {σ : Type} (srv : Server σ)

/-- An open connection stays open, a closed one closed: sending a statement does not close it,
whatever the reply says. -/
theorem isConnect_keptBySent (open' : Bool) :
    KeptBySent srv fun conn => conn.isConnect = open' :=
  fun _ _ h => h

/-- The trace only grows, as each statement is appended to it. -/
theorem trace_keptBySent (trace : List SqlEvent) :
    KeptBySent srv fun conn => trace <+: conn.trace := by
  intro conn stmt h
  rw [CDbConnection.sent_trace]
  exact h.trans (List.prefix_append conn.trace _)

end Instances

end Db
