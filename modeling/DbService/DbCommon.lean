import DbService.Reflection

/-!
# Common vocabulary of the client and the service

Operation types, result codes, the messages that travel between the two sides, and the
protobuf runtime they are read and written with.  The runtime is third-party code: the
development takes it as a parameter, and `Runtime.Lawful` states the documented
behaviour that results about stored bytes rely on.
-/

namespace Db

open Reflection

/-- `EOperatorType`.  Every number the enumeration does not name is treated alike by the
service and is read as `kOT_None`. -/
inductive EOperatorType
  | kOT_SELECT | kOT_UPDATE | kOT_INSERT | kOT_DELETE | kOT_QUERY | kOT_CALL | kOT_NOP
  | kOT_FLUSH | kOT_None
  deriving DecidableEq

/-- The codes a callback may get. -/
inductive EResultCode
  | kRC_OK | kRC_TIME_OUT | kRC_PROTO_ERROR | kRC_MYSQL_ERROR | kRC_SQLPARM_ERROR
  | kRC_LOST_CONNECTION | kRC_UNKNOWN
  deriving DecidableEq

/-- The number a result code has on the wire. -/
def EResultCode.code : EResultCode → Nat
  | kRC_OK => 0
  | kRC_TIME_OUT => 1
  | kRC_PROTO_ERROR => 2
  | kRC_MYSQL_ERROR => 3
  | kRC_SQLPARM_ERROR => 4
  | kRC_LOST_CONNECTION => 5
  | kRC_UNKNOWN => 6

/-- The two kinds of a flush. -/
inductive EFlushCacheType
  | kFCT_NORMAL | kFCT_DEL
  deriving DecidableEq

/-- The number that travels in the command. -/
def EFlushCacheType.code : EFlushCacheType → Nat
  | kFCT_NORMAL => 0
  | kFCT_DEL => 1

theorem EResultCode.code_inj {c d : EResultCode} (h : c.code = d.code) : c = d := by
  cases c <;> cases d <;> first | rfl | simp [EResultCode.code] at h

/-- The messages of the protocol: the commands, the rows of a table, the set of rows a
QUERY answers with and the raw rows a CALL answers with. -/
inductive Message
  | select_command (id : Nat) (table_name : String)
  | delete_command (id : Nat) (table_name : String)
  | query_command (table_name : String) (where_clause : Bytes) (args : List Bytes)
  | call_command (sql : Bytes) (args : List Bytes)
  | nop_command
  | flush_command (id : Nat) (type : Nat)
  | result_set (field_name : List String) (rows : List (List Bytes))
  | row (m : RowMessage)
  | rowSet (szName : String) (data_set : List RowMessage)

/-- `Message::GetTypeName` -/
def Message.GetTypeName : Message → String
  | select_command .. => "proto.db.select_command"
  | delete_command .. => "proto.db.delete_command"
  | query_command .. => "proto.db.query_command"
  | call_command .. => "proto.db.call_command"
  | nop_command => "proto.db.nop_command"
  | flush_command .. => "proto.db.flush_command"
  | result_set .. => "proto.db.result_set"
  | row m => m.GetTypeName
  | rowSet szName _ => szName

/-- The protobuf library as the program uses it: the descriptor pools, serialisation, the
JSON conversions and the stream formatting of floating-point numbers. -/
structure Runtime where
  /-- The type `CMessageFactory::createMessage` finds in the generated pool or in the
  importer's pool. -/
  FindMessageTypeByName : String → Option Descriptor
  SerializeToString : Message → Option Bytes
  /-- `ParseFromString` on a new message of the named type. -/
  ParseFromString : String → Bytes → Option Message
  SerializeToArray : SubMessage → Option Bytes
  ParseSubMessage : String → Bytes → Option SubMessage
  MessageToJsonString : SubMessage → Option Bytes
  JsonStringToMessage : String → Bytes → Option SubMessage
  printReal : Nat → Bytes
  scanReal : Bytes → Nat

/-- The types of the rows in a message are the ones the pools know under their names. -/
def Runtime.Knows (pb : Runtime) : Message → Prop
  | .row m => pb.FindMessageTypeByName m.GetTypeName = some m.descriptor
  | .rowSet szName data_set =>
      (pb.FindMessageTypeByName szName).isSome ∧
        ∀ m ∈ data_set, pb.FindMessageTypeByName m.GetTypeName = some m.descriptor
  | _ => True

/-- Documented behaviour of the runtime: a type is found under its own name, the empty
name finds nothing, parsing what was serialised gives the message back, and what parses
is complete, so it can be serialised. -/
structure Runtime.Lawful (pb : Runtime) : Prop where
  full_name : ∀ name d, pb.FindMessageTypeByName name = some d → d.full_name = name
  empty_name : pb.FindMessageTypeByName "" = none
  parse_serialize : ∀ m b, pb.Knows m → pb.SerializeToString m = some b →
    pb.ParseFromString m.GetTypeName b = some m
  serialize_parse : ∀ szName b m, pb.ParseFromString szName b = some m →
    (pb.SerializeToString m).isSome

/-- `createMessage`: a new message of the named type. -/
def Runtime.createMessage (pb : Runtime) (szName : String) : Option RowMessage :=
  (pb.FindMessageTypeByName szName).map RowMessage.New

/-- `ParseFromString` on a message made by `createMessage`. -/
def Runtime.ParseRow (pb : Runtime) (pMessage : RowMessage) (szData : Bytes) :
    Option RowMessage :=
  match pb.ParseFromString pMessage.GetTypeName szData with
  | some (.row m) => some m
  | _ => none

end Db
