import DbService.DbThread

/-!
# The workers of an instance and the service entry point
(`db_thread_mgr.cpp`, `db_service.cpp`)

`db::query` turns a request into a command and `CDbThreadMgr::query` pushes it to one
worker, or to all of them for a FLUSH with index 0.  Each push is atomic and each call is
not: `calls` holds, for every calling thread, the pushes its call has still to make.
`CDbThreadMgr.step` interleaves the callers, the workers and the reader of the results;
`submitted`, `pushes`, `handed`, `added` and `answerDue` record history and are never
read.
-/

namespace Db

open Reflection ByteText

/-- `google.protobuf.Any` -/
structure Any where
  type_url : String
  value : Bytes

/-- `request`; a field that was never set is `none`. -/
structure Request where
  session_id : Option Nat
  associate_id : Option Nat
  type : Option EOperatorType
  timeout : Option Nat
  content : Option Any

/-- What stands in front of the name in a packed message. -/
def URL_PREFIX : String := "type.googleapis.com/"

/-- `PackFrom` -/
def packFrom (pb : Runtime) (m : Message) : Any :=
  ⟨URL_PREFIX ++ m.GetTypeName, (pb.SerializeToString m).getD []⟩

/-- The message `db::query` unpacks: the type named behind the prefix must be known and
its content must parse. -/
def unpack (pb : Runtime) (content : Any) : Option Message :=
  match afterPrefix URL_PREFIX.toList content.type_url.toList with
  | none => none
  | some name =>
      match pb.FindMessageTypeByName (String.ofList name) with
      | none => none
      | some _ => pb.ParseFromString (String.ofList name) content.value

/-- What is packed is unpacked as its bytes are parsed. -/
theorem unpack_packFrom {pb : Runtime} {m : Message} {szData : Bytes}
    (hknown : (pb.FindMessageTypeByName m.GetTypeName).isSome)
    (hdata : pb.SerializeToString m = some szData) :
    unpack pb (packFrom pb m) = pb.ParseFromString m.GetTypeName szData := by
  have hlist : (URL_PREFIX ++ m.GetTypeName).toList =
      URL_PREFIX.toList ++ m.GetTypeName.toList := by simp
  have hafter := afterPrefix_append (show URL_PREFIX.toList ≠ [] by decide)
    m.GetTypeName.toList
  obtain ⟨d, hd⟩ := Option.isSome_iff_exists.mp hknown
  simp only [unpack, packFrom, hlist, hafter, hdata, String.ofList_toList, hd, Option.getD_some]

/-- `db::query`: the worker index and the command a request stands for, if its content
can be unpacked.  Getters of fields that were never set return 0. -/
def query (pb : Runtime) (nServiceID : Nat) (pRequest : Request) (nTime : Nat) :
    Option (Nat × SDbCommand) :=
  match unpack pb (pRequest.content.getD ⟨"", []⟩) with
  | none => none
  | some pMessage =>
      let timeout := pRequest.timeout.getD 0
      some (pRequest.associate_id.getD 0,
        { nServiceID := nServiceID
          nType := pRequest.type.getD .kOT_SELECT
          nSessionID := pRequest.session_id.getD 0
          nTimeout := if timeout ≠ 0 then (timeout / 2 + nTime : Nat) else 0
          pMessage := some pMessage })

/-- `db::flushCache`: the message it builds is not put into the command, and `nTimeout` is
not assigned. -/
def flushCache (nID : Nat) (nStack : Int) : Nat × SDbCommand :=
  (nID % 2 ^ 32,
    { nServiceID := 0
      nType := .kOT_FLUSH
      nSessionID := 0
      nTimeout := nStack
      pMessage := none })

/-- A call of `CDbThreadMgr::query`, with the thread that makes it. -/
structure Call where
  caller : Nat
  nThreadIndex : Nat
  sDbCommand : SDbCommand

/-- One push of a call. -/
structure Push (n : Nat) where
  call : Call
  worker : Fin n

namespace CDbThreadMgr

/-- The workers a command goes to, in the order of the pushes. -/
def targets (n : Nat) (nThreadIndex : Nat) (nType : EOperatorType) : List (Fin n) :=
  (List.finRange n).filter fun i =>
    (nType == .kOT_FLUSH && nThreadIndex == 0) || i.val == nThreadIndex % n

/-- `CDbThreadMgr::query`: the pushes of a call. -/
def query (n : Nat) (call : Call) : List (Push n) :=
  (targets n call.nThreadIndex call.sDbCommand.nType).map fun i => ⟨call, i⟩

end CDbThreadMgr

/-- The workers, and what the threads that call `db::query` have still to do. -/
structure CDbThreadMgr (n : Nat) (σ : Type) where
  m_vecDbThread : Fin n → CDbThread σ
  /-- The pushes the call of a thread has still to make. -/
  calls : Nat → List (Push n)
  m_listResultInfo : List SDbResultInfo
  /-- The calls made so far. -/
  submitted : List Call
  /-- The pushes made so far. -/
  pushes : List (Push n)
  /-- The results `getResultInfo` has handed out so far. -/
  handed : List SDbResultInfo
  /-- All results added so far, with the worker that added them. -/
  added : List (Fin n × SDbResultInfo)
  /-- The finished requests with a session that were not discarded, with their worker. -/
  answerDue : List (Fin n × SDbCommand)

/-- Who acts on an instance. -/
inductive MgrAction (n : Nat)
  /-- a thread calls `db::query` for a service -/
  | query (caller nServiceID : Nat) (pRequest : Request) (nTime : Nat)
  /-- a thread calls `db::flushCache` -/
  | flushCache (caller nID : Nat) (nStack : Int)
  /-- the call of a thread makes its next push -/
  | push (caller : Nat)
  /-- the thread of worker `i` makes a step -/
  | advance (i : Fin n) (input : Input)
  | join (i : Fin n)
  | getResultInfo

namespace CDbThreadMgr

variable {n : Nat} {σ : Type} (pb : Runtime) (srv : Fin n → Server σ)

/-- An instance that was just started: every worker gets its share of the cache. -/
def init (nMaxCacheSize nWritebackTime : Nat) (conn : Fin n → CDbConnection σ) :
    CDbThreadMgr n σ where
  m_vecDbThread := fun i => CDbThread.init (nMaxCacheSize / n) nWritebackTime (conn i)
  calls := fun _ => []
  m_listResultInfo := []
  submitted := []
  pushes := []
  handed := []
  added := []
  answerDue := []

/-- A thread enters `CDbThreadMgr::query`, unless it is still inside an earlier call. -/
def submit (mgr : CDbThreadMgr n σ) (call : Call) : CDbThreadMgr n σ :=
  if (mgr.calls call.caller).isEmpty then
    { mgr with
      calls := Function.update mgr.calls call.caller (query n call)
      submitted := mgr.submitted ++ [call] }
  else mgr

/-- A thread makes the next push of its call. -/
def push (mgr : CDbThreadMgr n σ) (caller : Nat) : CDbThreadMgr n σ :=
  match mgr.calls caller with
  | [] => mgr
  | p :: rest =>
      { mgr with
        m_vecDbThread := Function.update mgr.m_vecDbThread p.worker
          ((mgr.m_vecDbThread p.worker).query p.call.sDbCommand)
        calls := Function.update mgr.calls caller rest
        pushes := mgr.pushes ++ [p] }

/-- `addResultInfo` -/
def addResultInfo (mgr : CDbThreadMgr n σ) (i : Fin n) (sResultInfo : SDbResultInfo) :
    CDbThreadMgr n σ :=
  { mgr with
    m_listResultInfo := mgr.m_listResultInfo ++ [sResultInfo]
    added := mgr.added ++ [(i, sResultInfo)] }

/-- `getResultInfo`: everything added so far is handed out. -/
def getResultInfo (mgr : CDbThreadMgr n σ) : CDbThreadMgr n σ :=
  { mgr with m_listResultInfo := [], handed := mgr.handed ++ mgr.m_listResultInfo }

/-- A step of worker `i`, with the result it adds. -/
def advance (mgr : CDbThreadMgr n σ) (i : Fin n) (input : Input) : CDbThreadMgr n σ :=
  let (th, output) := (mgr.m_vecDbThread i).advance pb (srv i) input
  let mgr : CDbThreadMgr n σ :=
    { mgr with
      m_vecDbThread := Function.update mgr.m_vecDbThread i th
      answerDue := mgr.answerDue ++ (output.answerDue.map fun cmd => (i, cmd)).toList }
  match output.result with
  | none => mgr
  | some sResultInfo => mgr.addResultInfo i sResultInfo

/-- A worker is told to leave. -/
def join (mgr : CDbThreadMgr n σ) (i : Fin n) : CDbThreadMgr n σ :=
  { mgr with
    m_vecDbThread := Function.update mgr.m_vecDbThread i (mgr.m_vecDbThread i).join }

/-- One step of an instance. -/
def step (mgr : CDbThreadMgr n σ) : MgrAction n → CDbThreadMgr n σ × Unit
  | .query caller nServiceID pRequest nTime =>
      match Db.query pb nServiceID pRequest nTime with
      | none => (mgr, ())
      | some (nThreadIndex, sDbCommand) => (mgr.submit ⟨caller, nThreadIndex, sDbCommand⟩, ())
  | .flushCache caller nID nStack =>
      (mgr.submit ⟨caller, (Db.flushCache nID nStack).1, (Db.flushCache nID nStack).2⟩, ())
  | .push caller => (mgr.push caller, ())
  | .advance i input => (mgr.advance pb srv i input, ())
  | .join i => (mgr.join i, ())
  | .getResultInfo => (mgr.getResultInfo, ())

end CDbThreadMgr

end Db
