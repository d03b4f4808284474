import DbService.DbConnection

/-!
# The command handlers (`db_command_*_handler.cpp`)

One handler per operation type, each from a request to a result code, an optional
response and the connection afterwards; `CDbCommandHandlerProxy.onDbCommand` dispatches
on the type.  INSERT and UPDATE differ in their statement and in the row counts they
accept and are instances of one function.

A handler that is given a message of another type returns `kRC_PROTO_ERROR`; the service never
does that (`EOperatorType.Carries`), but `db::query` does not check it.

Main results:

* `selectHandler_outcome`, `deleteHandler_outcome`, `insertHandler_outcome`,
  `updateHandler_outcome`, `queryHandler_outcome` -- a handler of one statement refuses the request
  or executes the statement once;
* `onDbCommand_explained` -- every code is success, an error the handler found, or the error number
  of a statement.
-/

namespace Db

open Reflection ByteText

variable {σ : Type} (pb : Runtime) (srv : Server σ)

/-- The code a handler returns for an error number of `execute`, if it is an error.  The number
for a lost connection is compared with `kMET_LostConnection`, which is 1 in the source. -/
def errorCode (nErrorType : Nat) : Option EResultCode :=
  if nErrorType = kMET_LostConnection then some .kRC_LOST_CONNECTION
  else if nErrorType ≠ kMET_OK then some .kRC_MYSQL_ERROR
  else none

/-- The placeholder `{i}` of the argument number `i`, as the handlers of QUERY and CALL print it.
-/
def placeholder (i : Nat) : Bytes := 123 :: (decimalNat i ++ [125])

/-- The argument loop of QUERY and CALL: each `{i}` is searched in the text built so far and its
first occurrence replaced by the escaped argument.  A placeholder that is not found ends the loop
with an error. -/
def substituteArgs (escape : Bytes → Bytes) : Nat → List Bytes → Bytes → Option Bytes
  | _, [], text => some text
  | i, szArg :: rest, text =>
      match find (placeholder i) text with
      | none => none
      | some pos =>
          substituteArgs escape (i + 1) rest
            (replace text pos (placeholder i).length (escape szArg))

/-- The response SELECT makes of a recordset.  A statement that succeeds without a recordset is an
error of the server. -/
def selectResponse (pMessage : RowMessage) :
    Option CDbRecordset → EResultCode × Option Message
  | none => (.kRC_MYSQL_ERROR, none)
  | some rs =>
      match fillNormalMessage pb rs pMessage with
      | none => (.kRC_PROTO_ERROR, none)
      | some m => (.kRC_OK, some (.row m))

/-- SELECT reads the first row of its statement into a message of the table's type.

The message belongs to a `shared_ptr` of the handler.  Where `fillNormalMessage` has deleted it,
the `shared_ptr` deletes it again and the source has no defined result (`deletesTwice`); what
stands here for that case is the code the handler is about to return. -/
def CDbCommandSelectHandler.onDbCommand (pRequest : Message) (conn : CDbConnection σ) :
    EResultCode × Option Message × CDbConnection σ :=
  match pRequest with
  | .select_command id table_name =>
      match pb.createMessage (getMessageNameByTableName table_name) with
      | none => (.kRC_PROTO_ERROR, none, conn)
      | some pMessage =>
          if getPrimaryName pMessage = "" then (.kRC_PROTO_ERROR, none, conn)
          else
            let (nErrorType, pDbRecordset, conn') :=
              conn.execute srv (.selectRow table_name (getPrimaryName pMessage) id) true
            match errorCode nErrorType with
            | some code => (code, none, conn')
            | none =>
                let (code, pResponse) := selectResponse pb pMessage pDbRecordset
                (code, pResponse, conn')
  | _ => (.kRC_PROTO_ERROR, none, conn)

/-- DELETE answers with a code only, and is content with any number of affected rows.  The message
it creates serves to find the primary key's name. -/
def CDbCommandDeleteHandler.onDbCommand (pRequest : Message) (conn : CDbConnection σ) :
    EResultCode × Option Message × CDbConnection σ :=
  match pRequest with
  | .delete_command id table_name =>
      match pb.createMessage (getMessageNameByTableName table_name) with
      | none => (.kRC_PROTO_ERROR, none, conn)
      | some pMessage =>
          if getPrimaryName pMessage = "" then (.kRC_PROTO_ERROR, none, conn)
          else
            let (nErrorType, _, conn') :=
              conn.execute srv (.deleteRow table_name (getPrimaryName pMessage) id) false
            ((errorCode nErrorType).getD .kRC_OK, none, conn')
  | _ => (.kRC_PROTO_ERROR, none, conn)

/-- The common body of INSERT and UPDATE: the columns of the message make a statement,
and the number of affected rows decides between success and failure. -/
def writeMessage (statement : String → List SFieldInfo → Statement) (accepts : Nat → Bool)
    (pRequest : Message) (conn : CDbConnection σ) :
    EResultCode × Option Message × CDbConnection σ :=
  match getTableNameByMessageName pRequest.GetTypeName, getMessageFieldInfos pb pRequest with
  | some szTableName, some vecFieldInfo =>
      let (nErrorType, _, conn') :=
        conn.execute srv (statement szTableName vecFieldInfo) false
      match errorCode nErrorType with
      | some code => (code, none, conn')
      | none =>
          (if accepts conn'.getAffectedRow then .kRC_OK else .kRC_MYSQL_ERROR, none, conn')
  | _, _ => (.kRC_PROTO_ERROR, none, conn)

/-- INSERT of a row that is there is an error of the server, and anything but one affected row is
one of the handler. -/
def CDbCommandInsertHandler.onDbCommand :
    Message → CDbConnection σ → EResultCode × Option Message × CDbConnection σ :=
  writeMessage pb srv .insertRow (fun n => n == 1)

/-- UPDATE inserts the row or, where its key is there, assigns the columns; MySQL counts two rows
for the second, and none if nothing changes, which the handler takes for an error. -/
def CDbCommandUpdateHandler.onDbCommand :
    Message → CDbConnection σ → EResultCode × Option Message × CDbConnection σ :=
  writeMessage pb srv .upsertRow (fun n => 1 ≤ n)

/-- QUERY puts its arguments into the where clause and answers with all rows.  Where a row does
not decode there is no answer. -/
def CDbCommandQueryHandler.onDbCommand (pRequest : Message) (conn : CDbConnection σ) :
    EResultCode × Option Message × CDbConnection σ :=
  match pRequest with
  | .query_command table_name where_clause args =>
      match substituteArgs (CDbConnection.escape srv) 0 args where_clause with
      | none => (.kRC_SQLPARM_ERROR, none, conn)
      | some szWhereClause =>
          let (nErrorType, pDbRecordset, conn') :=
            conn.execute srv (.queryRows table_name szWhereClause) true
          match errorCode nErrorType with
          | some code => (code, none, conn')
          | none =>
              match pDbRecordset with
              | none => (.kRC_MYSQL_ERROR, none, conn')
              | some rs =>
                  match createRepeatMessage pb rs (getMessageNameByTableName table_name) with
                  | none => (.kRC_PROTO_ERROR, none, conn')
                  | some pMessage => (.kRC_OK, some pMessage, conn')
  | _ => (.kRC_PROTO_ERROR, none, conn)

/-- `_TRY_DEAD_LOOP_COUNT`, the number of attempts of a CALL. -/
def TRY_DEAD_LOOP_COUNT : Nat := 5

/-- The attempts of CALL: begin, execute, and commit or rollback; a deadlock timeout is tried
again while attempts are left.  The reply of the commit is not looked at. -/
def CDbCommandCallHandler.attempts (szSQL : Bytes) :
    Nat → CDbConnection σ → EResultCode × Option CDbRecordset × CDbConnection σ
  | 0, conn => (.kRC_MYSQL_ERROR, none, conn)
  | n + 1, conn =>
      let (nErrorType, pDbRecordset, conn') :=
        (conn.send srv .begin).execute srv (.callText szSQL) true
      if nErrorType = kMET_Deadloop then attempts szSQL n (conn'.send srv .rollback)
      else
        match errorCode nErrorType with
        | some code => (code, none, conn'.send srv .rollback)
        | none => (.kRC_OK, pDbRecordset, conn'.send srv .commit)

/-- The `result_set` a CALL answers with: the names of the columns and the rows as texts. -/
def resultSet (rs : CDbRecordset) : Message :=
  .result_set rs.fieldNames (rs.rows.map fun row => row.map CDbRecordset.getData)

/-- CALL puts its arguments into the text it was sent and makes its attempts with autocommit off.
A text without a recordset is answered with a code only. -/
def CDbCommandCallHandler.onDbCommand (pRequest : Message) (conn : CDbConnection σ) :
    EResultCode × Option Message × CDbConnection σ :=
  match pRequest with
  | .call_command sql args =>
      match substituteArgs (CDbConnection.escape srv) 0 args sql with
      | none => (.kRC_SQLPARM_ERROR, none, conn)
      | some szSQL =>
          let (code, pDbRecordset, conn') :=
            attempts srv szSQL TRY_DEAD_LOOP_COUNT (conn.autoCommit srv false)
          -- The deferred `autoCommit(true)` runs on every way out.
          (code, pDbRecordset.map resultSet, conn'.autoCommit srv true)
  | _ => (.kRC_PROTO_ERROR, none, conn)

/-- NOP does nothing and succeeds; it is there to be answered. -/
def CDbCommandNOPHandler.onDbCommand (_pRequest : Message) (conn : CDbConnection σ) :
    EResultCode × Option Message × CDbConnection σ :=
  (.kRC_OK, none, conn)

/-- The dispatch on the operation type; no handler is registered for FLUSH, which the worker takes
care of itself. -/
def CDbCommandHandlerProxy.onDbCommand (nType : EOperatorType) (pRequest : Message)
    (conn : CDbConnection σ) : EResultCode × Option Message × CDbConnection σ :=
  match nType with
  | .kOT_CALL => CDbCommandCallHandler.onDbCommand srv pRequest conn
  | .kOT_DELETE => CDbCommandDeleteHandler.onDbCommand pb srv pRequest conn
  | .kOT_INSERT => CDbCommandInsertHandler.onDbCommand pb srv pRequest conn
  | .kOT_QUERY => CDbCommandQueryHandler.onDbCommand pb srv pRequest conn
  | .kOT_SELECT => CDbCommandSelectHandler.onDbCommand pb srv pRequest conn
  | .kOT_UPDATE => CDbCommandUpdateHandler.onDbCommand pb srv pRequest conn
  | .kOT_NOP => CDbCommandNOPHandler.onDbCommand pRequest conn
  | .kOT_FLUSH | .kOT_None => (.kRC_UNKNOWN, none, conn)

/-- The statements of the commands; the others are those around the text of a CALL. -/
def Statement.OfCommand : Statement → Prop
  | .setAutocommit _ | .begin | .commit | .rollback => False
  | _ => True

/-- The errors that a handler, or their proxy, finds by itself: a message it cannot use, a
placeholder that is missing, a number of rows it does not accept, an operation without a handler.
-/
def EResultCode.OfHandler : EResultCode → Prop
  | .kRC_PROTO_ERROR | .kRC_SQLPARM_ERROR | .kRC_MYSQL_ERROR | .kRC_UNKNOWN => True
  | _ => False

/-- A handler of one statement refuses the request without it, or executes it: an error gives its
code, and otherwise the handler answers.  Nothing else happens on the connection, so what one
statement keeps, the handler does. -/
inductive StatementOutcome (conn : CDbConnection σ) :
    EResultCode × Option Message × CDbConnection σ → Prop
  | refused (code : EResultCode) (hrefused : code.OfHandler) :
      StatementOutcome conn (code, none, conn)
  | failed (stmt : Statement) (wanted : Bool) (code : EResultCode) (hcommand : stmt.OfCommand)
      (hcode : errorCode (conn.execute srv stmt wanted).1 = some code) :
      StatementOutcome conn (code, none, (conn.execute srv stmt wanted).2.2)
  | answered (stmt : Statement) (wanted : Bool) (code : EResultCode) (pResponse : Option Message)
      (hcommand : stmt.OfCommand) (hcode : errorCode (conn.execute srv stmt wanted).1 = none)
      (hanswered : code = .kRC_OK ∨ code.OfHandler) :
      StatementOutcome conn (code, pResponse, (conn.execute srv stmt wanted).2.2)

/-- Where a code comes from: success, an error found by the handler, or the error number of a
statement. -/
def EResultCode.Explained (code : EResultCode) : Prop :=
  code = .kRC_OK ∨ code.OfHandler ∨
    ∃ (conn : CDbConnection σ) (stmt : Statement) (wanted : Bool),
      errorCode (conn.execute srv stmt wanted).1 = some code

section Outcomes

variable {srv}

/-- SELECT answers a recordset with success or with an error of its own. -/
theorem selectResponse_code (pMessage : RowMessage) (rs : Option CDbRecordset) :
    (selectResponse pb pMessage rs).1 = .kRC_OK ∨ (selectResponse pb pMessage rs).1.OfHandler := by
  unfold selectResponse
  split
  · exact .inr trivial
  · split
    · exact .inr trivial
    · exact .inl rfl

/-- SELECT executes its statement if the table has a type with a primary key. -/
theorem selectHandler_outcome (pRequest : Message) (conn : CDbConnection σ) :
    StatementOutcome srv conn (CDbCommandSelectHandler.onDbCommand pb srv pRequest conn) := by
  unfold CDbCommandSelectHandler.onDbCommand
  split
  · rename_i id table_name
    split
    · exact .refused .kRC_PROTO_ERROR trivial
    · rename_i pMessage _
      split
      · exact .refused .kRC_PROTO_ERROR trivial
      · dsimp only
        split
        · rename_i code hcode
          exact .failed _ true code trivial hcode
        · rename_i hcode
          exact .answered _ true _ _ trivial hcode (selectResponse_code pb pMessage _)
  · exact .refused .kRC_PROTO_ERROR trivial

/-- So does DELETE. -/
theorem deleteHandler_outcome (pRequest : Message) (conn : CDbConnection σ) :
    StatementOutcome srv conn (CDbCommandDeleteHandler.onDbCommand pb srv pRequest conn) := by
  unfold CDbCommandDeleteHandler.onDbCommand
  split
  · rename_i id table_name
    split
    · exact .refused .kRC_PROTO_ERROR trivial
    · rename_i pMessage _
      split
      · exact .refused .kRC_PROTO_ERROR trivial
      · dsimp only
        cases hcode : errorCode (conn.execute srv
            (.deleteRow table_name (getPrimaryName pMessage) id) false).1 with
        | some code => exact .failed _ false code trivial hcode
        | none => exact .answered _ false .kRC_OK none trivial hcode (.inl rfl)
  · exact .refused .kRC_PROTO_ERROR trivial

/-- INSERT and UPDATE execute theirs if the type of the message names a table and all its columns
can be written. -/
theorem writeMessage_outcome {statement : String → List SFieldInfo → Statement}
    (hcommand : ∀ szTableName vecFieldInfo, (statement szTableName vecFieldInfo).OfCommand)
    (accepts : Nat → Bool) (pRequest : Message) (conn : CDbConnection σ) :
    StatementOutcome srv conn (writeMessage pb srv statement accepts pRequest conn) := by
  unfold writeMessage
  split
  · dsimp only
    split
    · rename_i code hcode
      exact .failed _ false code (hcommand _ _) hcode
    · rename_i hcode
      refine .answered _ false _ none (hcommand _ _) hcode ?_
      split
      · exact .inl rfl
      · exact .inr trivial
  · exact .refused .kRC_PROTO_ERROR trivial

/-- INSERT is a handler of one statement. -/
theorem insertHandler_outcome (pRequest : Message) (conn : CDbConnection σ) :
    StatementOutcome srv conn (CDbCommandInsertHandler.onDbCommand pb srv pRequest conn) :=
  @writeMessage_outcome σ pb srv .insertRow (fun _ _ => trivial) _ pRequest conn

/-- UPDATE is a handler of one statement. -/
theorem updateHandler_outcome (pRequest : Message) (conn : CDbConnection σ) :
    StatementOutcome srv conn (CDbCommandUpdateHandler.onDbCommand pb srv pRequest conn) :=
  @writeMessage_outcome σ pb srv .upsertRow (fun _ _ => trivial) _ pRequest conn

/-- QUERY executes its statement if it finds all placeholders. -/
theorem queryHandler_outcome (pRequest : Message) (conn : CDbConnection σ) :
    StatementOutcome srv conn (CDbCommandQueryHandler.onDbCommand pb srv pRequest conn) := by
  unfold CDbCommandQueryHandler.onDbCommand
  split
  · split
    · exact .refused .kRC_SQLPARM_ERROR trivial
    · dsimp only
      split
      · rename_i code hcode
        exact .failed _ true code trivial hcode
      · rename_i hcode
        split
        · exact .answered _ true _ none trivial hcode (.inr trivial)
        · split
          · exact .answered _ true _ none trivial hcode (.inr trivial)
          · exact .answered _ true _ _ trivial hcode (.inl rfl)
  · exact .refused .kRC_PROTO_ERROR trivial

/-- The code of a handler of one statement is explained by the three ways it can end. -/
theorem StatementOutcome.explained {conn : CDbConnection σ}
    {result : EResultCode × Option Message × CDbConnection σ}
    (h : StatementOutcome srv conn result) : result.1.Explained srv := by
  cases h with
  | refused code hrefused => exact .inr (.inl hrefused)
  | failed stmt wanted code _ hcode => exact .inr (.inr ⟨conn, stmt, wanted, hcode⟩)
  | answered _ _ code _ _ _ hanswered => exact hanswered.imp_right .inl

/-! ## The codes of all handlers -/

/-- The code of a CALL is that of its last attempt, or of having none left, which the induction on
the attempts shows. -/
theorem attempts_explained (szSQL : Bytes) (n : Nat) (conn : CDbConnection σ) :
    (CDbCommandCallHandler.attempts srv szSQL n conn).1.Explained srv := by
  induction n generalizing conn with
  | zero => exact .inr (.inl trivial)
  | succ n ih =>
      unfold CDbCommandCallHandler.attempts
      dsimp only
      split
      · exact ih _
      · split
        · rename_i code hcode
          exact .inr (.inr ⟨_, _, _, hcode⟩)
        · exact .inl rfl

/-- **Every code is explained:** whatever the operation and the request, a handler returns
success, an error it found by itself, or what the error number of a statement stands for. -/
theorem onDbCommand_explained (nType : EOperatorType) (pRequest : Message)
    (conn : CDbConnection σ) :
    (CDbCommandHandlerProxy.onDbCommand pb srv nType pRequest conn).1.Explained srv := by
  cases nType with
  | kOT_SELECT => exact (selectHandler_outcome pb pRequest conn).explained
  | kOT_UPDATE => exact (updateHandler_outcome pb pRequest conn).explained
  | kOT_INSERT => exact (insertHandler_outcome pb pRequest conn).explained
  | kOT_DELETE => exact (deleteHandler_outcome pb pRequest conn).explained
  | kOT_QUERY => exact (queryHandler_outcome pb pRequest conn).explained
  | kOT_CALL =>
      simp only [CDbCommandHandlerProxy.onDbCommand, CDbCommandCallHandler.onDbCommand]
      split
      · split
        · exact .inr (.inl trivial)
        · exact attempts_explained _ _ _
      · exact .inr (.inl trivial)
  | kOT_NOP => exact .inl rfl
  | kOT_FLUSH | kOT_None => exact .inr (.inl trivial)

end Outcomes

/-- INSERT and UPDATE answer with a code only. -/
theorem writeMessage_without_message (statement : String → List SFieldInfo → Statement)
    (accepts : Nat → Bool) (pRequest : Message) (conn : CDbConnection σ) :
    (writeMessage pb srv statement accepts pRequest conn).2.1 = none := by
  unfold writeMessage
  split
  · dsimp only
    split <;> rfl
  · rfl

/-- DELETE answers with a code only. -/
theorem deleteHandler_without_message (pRequest : Message) (conn : CDbConnection σ) :
    (CDbCommandDeleteHandler.onDbCommand pb srv pRequest conn).2.1 = none := by
  unfold CDbCommandDeleteHandler.onDbCommand
  split
  · split
    · rfl
    · split <;> rfl
  · rfl

end Db
