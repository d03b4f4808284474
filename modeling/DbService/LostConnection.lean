import DbService.SentStatements
import DbService.DbThreadMgr
import DbService.PlayerBase

/-!
# Lost connections

libmysqlclient reports a broken connection as error 2006 or 2013; no error number it
reports is below 1000.  The service compares with 1, so it never recognises one: no handler
returns `kRC_LOST_CONNECTION`, and the command under way is finished like any failed one.

Main results:
* `process_ne_lost` -- no command is ever taken for one that lost the connection;
* `lost_connection_not_recovered` -- so none is put back, in any run of a worker.
-/

namespace Db

open Reflection ByteText

/-- The lowest error number of a server (`mysqld_error.h`); those of the client library
start at 2000 (`errmsg.h`). -/
def ER_ERROR_FIRST : Nat := 1000

/-- What the headers say about `mysql_errno` after a failure, and after a success. -/
structure Server.ReportsErrors {σ : Type} (srv : Server σ) : Prop where
  failed : ∀ s stmt nError, (srv.query s stmt).1 = .failed nError → ER_ERROR_FIRST ≤ nError
  done : ∀ s stmt nError nAffectedRow, (srv.query s stmt).1 = .done nError nAffectedRow →
    nError = kMET_OK ∨ ER_ERROR_FIRST ≤ nError

/-- A statement that failed because the connection broke. -/
def SqlEvent.IsLost : SqlEvent → Prop
  | .sql _ (.failed nError) => nError = CR_SERVER_GONE_ERROR ∨ nError = CR_SERVER_LOST
  | _ => False

section Handlers

variable {σ : Type} {pb : Runtime} {srv : Server σ} (hserver : srv.ReportsErrors)

include hserver

/-- `execute` never returns the number the handlers take for a lost connection. -/
theorem execute_ne_lost (conn : CDbConnection σ) (stmt : Statement) (wanted : Bool) :
    (conn.execute srv stmt wanted).1 ≠ kMET_LostConnection := by
  unfold CDbConnection.execute
  split
  · simp only
    cases hreply : (srv.query conn.server stmt).1 with
    | failed nError =>
        have := hserver.failed _ _ _ hreply
        simp only [CDbConnection.outcome, kMET_LostConnection, ER_ERROR_FIRST] at *
        omega
    | done nError nAffectedRow =>
        have := hserver.done _ _ _ _ hreply
        simp only [CDbConnection.outcome, kMET_LostConnection, kMET_OK, ER_ERROR_FIRST] at *
        omega
    | rows rs => cases wanted <;> simp [CDbConnection.outcome, kMET_LostConnection, kMET_OK,
        kMET_Unknwon]
  · simp [kMET_LostConnection, kMET_Unknwon]

/-- **No handler recognises a lost connection.** -/
theorem handle_ne_lost (pb : Runtime) (nType : EOperatorType) (pRequest : Option Message)
    (conn : CDbConnection σ) :
    (CDbThread.handle pb srv nType pRequest conn).1 ≠ .kRC_LOST_CONNECTION := by
  cases pRequest with
  | none => simp [CDbThread.handle]
  | some m =>
      intro hlost
      have hexplained := @onDbCommand_explained σ pb srv nType m conn
      rw [CDbThread.handle] at hlost
      rw [hlost] at hexplained
      rcases hexplained with hok | hhandler | ⟨conn', stmt, wanted, hcode⟩
      · cases hok
      · exact hhandler
      · have hne := execute_ne_lost hserver conn' stmt wanted
        rw [errorCode, if_neg hne] at hcode
        split at hcode <;> cases hcode

/-- So no command comes back from the batch loop to be put back. -/
theorem process_ne_lost (pb : Runtime) (st : Store σ) (sDbCommand : SDbCommand) (clock : Clock) :
    (st.process pb srv sDbCommand clock).2.1 ≠ .lost := by
  have hprocessed := Store.process_cases pb srv st sDbCommand clock
  generalize st.process pb srv sDbCommand clock = result at hprocessed
  cases hprocessed with
  | flush => simp
  | flushNothing => simp
  | expired => simp
  | executed _ _ st' outcome hexecuted =>
      cases hexecuted with
      | absorbed => simp
      | lost _ _ _ conn _ hhandle =>
          have hne := handle_ne_lost hserver pb sDbCommand.nType sDbCommand.pMessage
            st.m_dbConnection
          rw [hhandle] at hne
          exact absurd rfl hne
      | answered => simp

end Handlers

/-! ## What recovery would be -/

namespace CDbThread

variable {σ : Type} (pb : Runtime) (srv : Server σ)

/-- The operations whose statements the handlers send. -/
def Queued (nType : EOperatorType) : Prop :=
  nType = .kOT_SELECT ∨ nType = .kOT_UPDATE ∨ nType = .kOT_INSERT ∨ nType = .kOT_DELETE ∨
    nType = .kOT_QUERY ∨ nType = .kOT_CALL

/-- The next step of the worker executes `sDbCommand`, and a statement of it fails because
the connection broke. -/
def LosesConnection (th : CDbThread σ) (input : Input) (sDbCommand : SDbCommand)
    (rest : List SDbCommand) : Prop :=
  th.phase = .batch ∧ th.listCommand = sDbCommand :: rest ∧ Queued sDbCommand.nType ∧
    ∃ events, (th.advance pb srv input).1.store.m_dbConnection.trace =
        th.store.m_dbConnection.trace ++ events ∧
      ∃ event ∈ events, event.IsLost

/-- Neither finished nor answered, the command is put back at the head of the queue. -/
def PutsBack (th : CDbThread σ) (input : Input) (sDbCommand : SDbCommand)
    (rest : List SDbCommand) : Prop :=
  let th' := (th.advance pb srv input).1
  th'.finished = th.finished ∧ (th.advance pb srv input).2.result = none ∧
    ∀ input', (th'.advance pb srv input').1.m_listCommand =
      sDbCommand :: rest ++ th'.m_listCommand

/-- No statement goes out before the connection has been closed and opened again;
`bClosed` tells whether it has been closed. -/
def Quiet : Bool → List SqlEvent → Prop
  | _, [] => True
  | _, .sql .. :: _ => False
  | _, .close :: rest => Quiet true rest
  | bClosed, .connect ok :: rest => (bClosed = true ∧ ok = true) ∨ Quiet bClosed rest

/-- **Recovery from a lost connection:** the command is put back, and whatever happens
next, nothing is sent behind a failure of this kind until the connection is a new one. -/
def Recovers (th : CDbThread σ) (input : Input) (sDbCommand : SDbCommand)
    (rest : List SDbCommand) : Prop :=
  th.PutsBack pb srv input sDbCommand rest ∧
    ∀ (later : List ThreadAction) (before : List SqlEvent) (event : SqlEvent)
      (after : List SqlEvent), event.IsLost →
      (Runs.run (step pb srv) (th.advance pb srv input).1 later).store.m_dbConnection.trace =
        th.store.m_dbConnection.trace ++ before ++ event :: after →
      Quiet false after

/-- The batch loop is done with a command that lost the connection: it is finished, and
answered if it has a session. -/
theorem lost_command_finished (hserver : srv.ReportsErrors) {th : CDbThread σ} {input : Input}
    {sDbCommand : SDbCommand} {rest : List SDbCommand} (hphase : th.phase = .batch)
    (hbatch : th.listCommand = sDbCommand :: rest) :
    (th.advance pb srv input).1.finished = th.finished ++ [sDbCommand] := by
  have hne := process_ne_lost hserver pb th.store sDbCommand input.clock
  simp only [advance, hphase, hbatch, processHead]
  rcases hprocess : th.store.process pb srv sDbCommand input.clock with
    ⟨store, outcome, writes⟩
  rw [hprocess] at hne
  cases outcome with
  | lost => exact absurd rfl hne
  | flushed => rfl
  | expired => rfl
  | handled => rfl

end CDbThread

/-- **A lost connection is never recovered.**  In every run of a worker, wherever a
statement of a queued command fails with the error of a broken connection, the command is
not put back. -/
theorem lost_connection_not_recovered {σ : Type} (pb : Runtime) {srv : Server σ}
    (hserver : srv.ReportsErrors) (nMaxCacheSize nWritebackTime : Nat)
    (conn : CDbConnection σ) (actions : List ThreadAction) (input : Input)
    (sDbCommand : SDbCommand) (rest : List SDbCommand)
    (hlost : (Runs.run (CDbThread.step pb srv)
      (CDbThread.init nMaxCacheSize nWritebackTime conn) actions).LosesConnection pb srv input
        sDbCommand rest) :
    ¬ (Runs.run (CDbThread.step pb srv)
      (CDbThread.init nMaxCacheSize nWritebackTime conn) actions).Recovers pb srv input
        sDbCommand rest := by
  obtain ⟨hphase, hbatch, _⟩ := hlost
  intro hcase
  obtain ⟨⟨hfinished, _⟩, _⟩ := hcase
  rw [CDbThread.lost_command_finished pb srv hserver hphase hbatch] at hfinished
  simp at hfinished

/-- A server whose connection is broken. -/
def brokenServer : Server Unit := Server.constant (.failed CR_SERVER_GONE_ERROR)

/-- The errors it reports are those of a broken connection. -/
theorem brokenServer_reportsErrors : brokenServer.ReportsErrors where
  failed := by
    intro s stmt nError h
    cases h
    decide
  done := by
    intro s stmt nError nAffectedRow h
    cases h

/-- The SELECT of a player, without a deadline. -/
def selectPlayer : SDbCommand := ⟨7, .kOT_SELECT, 1, 0, some (.select_command 5 "player_base")⟩

/-- What a step reads does not matter here. -/
def anyInput : Input := ⟨⟨1, 1⟩, ⟨[], 0⟩, 0⟩

/-- The worker is about to execute the SELECT. -/
def lostSelect : List ThreadAction :=
  [.query selectPlayer, .advance anyInput, .advance anyInput]

/-- After these steps the worker is at a SELECT whose connection breaks. -/
theorem lostSelect_loses :
    (Runs.run (CDbThread.step PlayerBase.runtime brokenServer)
      (CDbThread.init 0 1 ⟨true, (), 0, []⟩) lostSelect).LosesConnection PlayerBase.runtime
        brokenServer anyInput selectPlayer [] :=
  ⟨rfl, rfl, .inl rfl, [.sql (.selectRow "player_base" "id" 5) (.failed 2006)], rfl,
    .sql (.selectRow "player_base" "id" 5) (.failed 2006), by simp, .inl rfl⟩

/-- And the SELECT is answered with an error. -/
theorem lost_connection_not_recovered_select :
    ¬ (Runs.run (CDbThread.step PlayerBase.runtime brokenServer)
      (CDbThread.init 0 1 ⟨true, (), 0, []⟩) lostSelect).Recovers PlayerBase.runtime
        brokenServer anyInput selectPlayer [] :=
  lost_connection_not_recovered PlayerBase.runtime brokenServer_reportsErrors 0 1
    ⟨true, (), 0, []⟩ lostSelect anyInput selectPlayer [] lostSelect_loses

/-- That SELECT is answered with an error and not put back. -/
theorem lost_select_not_put_back :
    ¬ ∀ (σ : Type) (pb : Runtime) (srv : Server σ), srv.ReportsErrors →
      ∀ (nMaxCacheSize nWritebackTime : Nat) (conn : CDbConnection σ)
        (actions : List ThreadAction) (input : Input) (sDbCommand : SDbCommand)
        (rest : List SDbCommand),
      (Runs.run (CDbThread.step pb srv)
        (CDbThread.init nMaxCacheSize nWritebackTime conn) actions).LosesConnection pb srv
          input sDbCommand rest →
      (Runs.run (CDbThread.step pb srv)
        (CDbThread.init nMaxCacheSize nWritebackTime conn) actions).Recovers pb srv input
          sDbCommand rest := by
  intro h
  have hrecovers := h Unit PlayerBase.runtime brokenServer brokenServer_reportsErrors 0 1
    ⟨true, (), 0, []⟩ lostSelect anyInput selectPlayer [] lostSelect_loses
  have hresult := hrecovers.1.2.1
  exact absurd (congrArg Option.isSome hresult) (by decide)

end Db
