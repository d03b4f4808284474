import DbService.DbProtobuf

/-!
# The database connection (`db_connection.cpp`)

A connection talks to a server through libmysqlclient.  The server is a parameter: any
state type with a function from a statement to a reply, so that a result about every
server covers every outcome of every statement, other clients included.  The connection
records what it did in `trace`; the program never reads the trace.
-/

namespace Db

open Reflection ByteText

/-- Error numbers the code compares with. -/
def kMET_OK : Nat := 0
/-- The number the code takes for a lost connection. -/
def kMET_LostConnection : Nat := 1
/-- `ER_LOCK_WAIT_TIMEOUT`, after which a CALL is tried again. -/
def kMET_Deadloop : Nat := 1205
/-- The number of a failure that is not the server's, -1 as a `uint32_t`. -/
def kMET_Unknwon : Nat := 2 ^ 32 - 1

/-- What `mysql_errno` reports for a connection that broke (`errmsg.h`). -/
def CR_SERVER_GONE_ERROR : Nat := 2006
/-- The connection broke during the statement. -/
def CR_SERVER_LOST : Nat := 2013

/-- The statements the service sends, each with the parts its text is built from. -/
inductive Statement
  /-- `select * from T where P=id limit 1` -/
  | selectRow (szTableName szPrimaryName : String) (nID : Nat)
  /-- `delete from T where P=id limit 1` -/
  | deleteRow (szTableName szPrimaryName : String) (nID : Nat)
  /-- `insert into T(names) values (literals)` -/
  | insertRow (szTableName : String) (vecFieldInfo : List SFieldInfo)
  /-- `insert into T(names) values (literals) on duplicate key update name=literal,..` -/
  | upsertRow (szTableName : String) (vecFieldInfo : List SFieldInfo)
  /-- `select * from T`, with ` where W` unless `W` is empty -/
  | queryRows (szTableName : String) (szWhereClause : Bytes)
  /-- the text of a CALL -/
  | callText (szSQL : Bytes)
  | setAutocommit (enable : Bool)
  | begin
  | commit
  | rollback
  deriving DecidableEq

/-- What `mysql_real_query` and `mysql_store_result` report about one statement. -/
inductive Reply
  /-- `mysql_real_query` failed and `mysql_errno` is `nError`. -/
  | failed (nError : Nat)
  /-- There is no result set; `mysql_errno` is `nError` (0 for a plain success). -/
  | done (nError : Nat) (nAffectedRow : Nat)
  | rows (rs : CDbRecordset)

/-- A database server as one connection sees it. -/
structure Server (σ : Type) where
  query : σ → Statement → Reply × σ
  /-- `mysql_real_connect` and `mysql_set_character_set` -/
  connect : σ → Bool × σ
  /-- `mysql_real_escape_string` -/
  escape : Bytes → Bytes

/-- A server that gives every statement the same reply. -/
def Server.constant (reply : Reply) : Server Unit where
  query := fun _ _ => (reply, ())
  connect := fun _ => (true, ())
  escape := fun szSQL => szSQL

/-- What a connection did, in order. -/
inductive SqlEvent
  | sql (stmt : Statement) (reply : Reply)
  | connect (ok : Bool)
  | close

/-- A connection: whether it is open, the server behind it, what `mysql_affected_rows` would say,
and the history. -/
structure CDbConnection (σ : Type) where
  /-- `m_pMysql` is not null. -/
  m_pMysql : Bool
  server : σ
  nAffectedRow : Nat
  trace : List SqlEvent

namespace CDbConnection

variable {σ : Type} (srv : Server σ)

/-- `isConnect` -/
def isConnect (conn : CDbConnection σ) : Bool := conn.m_pMysql

/-- `close`: the handle is given back and set to null. -/
def close (conn : CDbConnection σ) : CDbConnection σ :=
  if conn.isConnect then
    { conn with m_pMysql := false, trace := conn.trace ++ [.close] }
  else conn

/-- `mysql_affected_rows` after a reply. -/
def affectedRows : Reply → Nat
  | .failed _ => 2 ^ 64 - 1
  | .done _ n => n
  | .rows rs => rs.getRowCount

/-- The error number `execute` returns for a reply and the recordset it hands out.  The
caller passes a null `pDbRecordset` when `wanted` is false. -/
def outcome (wanted : Bool) : Reply → Nat × Option CDbRecordset
  | .failed nError => (nError, none)
  | .done nError _ => (nError, none)
  | .rows rs => if wanted then (kMET_OK, some rs) else (kMET_Unknwon, none)

/-- The connection after a statement went out on it. -/
def sent (conn : CDbConnection σ) (stmt : Statement) : CDbConnection σ :=
  let (reply, server) := srv.query conn.server stmt
  { conn with
    server := server
    nAffectedRow := affectedRows reply
    trace := conn.trace ++ [.sql stmt reply] }

/-- `execute`, also with a null recordset: a closed connection fails without asking the server. -/
def execute (conn : CDbConnection σ) (stmt : Statement) (wanted : Bool) :
    Nat × Option CDbRecordset × CDbConnection σ :=
  if conn.isConnect then
    let (nError, pDbRecordset) := outcome wanted (srv.query conn.server stmt).1
    (nError, pDbRecordset, conn.sent srv stmt)
  else (kMET_Unknwon, none, conn)

/-- `getAffectedRow` -/
def getAffectedRow (conn : CDbConnection σ) : Nat := conn.nAffectedRow

/-- `autoCommit`, `begin`, `commit` and `rollback` ignore the outcome. -/
def send (conn : CDbConnection σ) (stmt : Statement) : CDbConnection σ :=
  (conn.execute srv stmt false).2.2

/-- `autoCommit`: turned on for a new connection, and off while a CALL runs. -/
def autoCommit (conn : CDbConnection σ) (enable : Bool) : CDbConnection σ :=
  conn.send srv (.setAutocommit enable)

/-- `escape` of the empty string does not reach the library. -/
def escape (szSQL : Bytes) : Bytes :=
  if szSQL.isEmpty then [] else srv.escape szSQL

/-- One round of the loop of `CDbThread::connectDb`, with `onConnect` after a success. -/
def connect (conn : CDbConnection σ) : CDbConnection σ :=
  let (ok, server) := srv.connect conn.server
  let conn' : CDbConnection σ :=
    { conn with m_pMysql := ok, server := server, trace := conn.trace ++ [.connect ok] }
  if ok then conn'.autoCommit srv true else conn'

@[simp] theorem sent_isConnect (conn : CDbConnection σ) (stmt : Statement) :
    (conn.sent srv stmt).isConnect = conn.isConnect := rfl

@[simp] theorem sent_server (conn : CDbConnection σ) (stmt : Statement) :
    (conn.sent srv stmt).server = (srv.query conn.server stmt).2 := rfl

/-- **One statement, one event.**  The trace records exactly the statement and the
server's reply. -/
theorem sent_trace (conn : CDbConnection σ) (stmt : Statement) :
    (conn.sent srv stmt).trace = conn.trace ++ [.sql stmt (srv.query conn.server stmt).1] :=
  rfl

/-- On an open connection a statement reaches the server. -/
theorem execute_of_isConnect {conn : CDbConnection σ} (hopen : conn.isConnect = true)
    (stmt : Statement) (wanted : Bool) :
    conn.execute srv stmt wanted =
      ((outcome wanted (srv.query conn.server stmt).1).1,
        (outcome wanted (srv.query conn.server stmt).1).2, conn.sent srv stmt) := by
  simp [execute, hopen]

/-- Executing a statement neither opens nor closes the connection. -/
@[simp] theorem execute_isConnect (conn : CDbConnection σ) (stmt : Statement)
    (wanted : Bool) : (conn.execute srv stmt wanted).2.2.isConnect = conn.isConnect := by
  unfold execute
  split <;> rfl

@[simp] theorem send_isConnect (conn : CDbConnection σ) (stmt : Statement) :
    (conn.send srv stmt).isConnect = conn.isConnect :=
  execute_isConnect srv conn stmt false

end CDbConnection

end Db
