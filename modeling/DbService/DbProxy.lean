import DbService.DbThreadMgr

/-!
# The client side (`db_proxy.cpp`)

The proxy numbers its requests with session ids and keeps three containers: the pending
records by session, the session ids by client, and the list of timeouts, whose entries
the records point to with list iterators.  An iterator is the number of its list node;
`none` is `end()`.

`onTimer` is a step function of its own: `timer` holds the local variables of a call under
way, and each `timerNext` is one round of its loop, which ends in at most one callback.
What a callback does is what the run does before the next round, so requests issued by
callbacks are ordinary actions.  `registered` and `invoked` record history and are never
read; so are the fields `nType` and `nRequest` of a pending record, and `undefined`, which
notes that the source used an iterator that designates no entry.

Three inversions carry the later modules, none of which unfolds an operation again:

* `step_kind`: what an action can do to the containers, one constructor for each kind;
* `onMessage_of_pending`, `onMessage_of_unknown`: the two outcomes of a response;
* `timerNext_outcome`: the five outcomes of a round of `onTimer`.
-/

namespace Db

open Reflection ByteText

/-- An entry of the list of timeouts: the session it belongs to and the second its deadline falls
on. -/
structure STimeoutInfo where
  nSessionID : Nat
  nTimeout : Int
  deriving DecidableEq

/-- What the proxy keeps of a request until it is answered, discarded or removed: whom to call
back with what, and where its timeout entry stands. -/
structure SPendingResponseInfo where
  nSessionID : Nat
  nContext : Nat
  callback : Nat
  pDbClient : Nat
  iterTimeout : Option Nat
  /-- The operation of the request. -/
  nType : EOperatorType
  /-- The position of the request among all requests with a session. -/
  nRequest : Nat
  deriving DecidableEq

/-- What a request with a session registers: the context the callback is to get, the callback and
the client it was issued through. -/
structure Registration where
  nContext : Nat
  callback : Nat
  pDbClient : Nat
  deriving DecidableEq

/-- One call of a callback: the request it answers, and the three arguments of `DbCallback`. -/
structure Invocation where
  nRequest : Nat
  callback : Nat
  nErrCode : Nat
  pMessage : Option Message
  nContext : Nat

/-- The members of the class, under the source's names, with the list nodes numbered and the
history beside them. -/
structure CDbProxy where
  m_nNextSessionID : Nat
  m_mapPendingResponseInfo : Std.ExtTreeMap Nat SPendingResponseInfo
  m_mapPendingResponseInfoByDbClient : Std.ExtTreeMap Nat (Std.ExtTreeSet Nat)
  /-- The nodes of the list, in order: node number and entry. -/
  m_listTimeout : List (Nat × STimeoutInfo)
  nNextNode : Nat
  /-- `nCurTime` and `iter` of an `onTimer` under way. -/
  timer : Option (Int × Option Nat)
  registered : List Registration
  invoked : List Invocation
  undefined : Bool

/-- The order `STimeoutInfoComp` sorts by: `lower_bound` stops at the first entry that is
not before the new one. -/
def notAfter (lhs rhs : Nat × STimeoutInfo) : Prop := lhs.2.nTimeout ≤ rhs.2.nTimeout

instance : DecidableRel notAfter := fun lhs rhs =>
  inferInstanceAs (Decidable (lhs.2.nTimeout ≤ rhs.2.nTimeout))

/-- Of two entries one is not after the other, as `List.orderedInsert` needs it for its lemmas. -/
instance : Std.Total notAfter := ⟨fun lhs rhs => Int.le_total lhs.2.nTimeout rhs.2.nTimeout⟩

/-- The order of the list is transitive. -/
instance : IsTrans (Nat × STimeoutInfo) notAfter := ⟨fun _ _ _ => Int.le_trans⟩

/-- What the surroundings decide during a request: the clock, and what `sendRequest`, which the
owner of the proxy implements, returns. -/
structure Environment where
  nTime : Int
  bSent : Bool

namespace CDbProxy

/-- The constructor: the first session is 1, since 0 stands for a request without one. -/
def init : CDbProxy where
  m_nNextSessionID := 1
  m_mapPendingResponseInfo := ∅
  m_mapPendingResponseInfoByDbClient := ∅
  m_listTimeout := []
  nNextNode := 0
  timer := none
  registered := []
  invoked := []
  undefined := false

/-- `m_mapPendingResponseInfoByDbClient[pDbClient]`: the sessions of a client, none where the map
has no entry. -/
def sessionsOf (proxy : CDbProxy) (pDbClient : Nat) : Std.ExtTreeSet Nat :=
  proxy.m_mapPendingResponseInfoByDbClient[pDbClient]?.getD ∅

/-- The timeout entry of a request: where its record points, and the proxy with the entry in its
place.  A request without a deadline (nop) adds none and points to `end()`. -/
def insertTimeout (proxy : CDbProxy) (nSessionID : Nat) (nTimeout : Option Int) :
    Option Nat × CDbProxy :=
  match nTimeout with
  | none => (none, proxy)
  | some nTimeout =>
      (some proxy.nNextNode,
        { proxy with
          m_listTimeout := proxy.m_listTimeout.orderedInsert notAfter
            (proxy.nNextNode, ⟨nSessionID, nTimeout⟩)
          nNextNode := proxy.nNextNode + 1 })

/-- The part every operation with a callback shares: a session id is drawn, the timeout
entry is inserted and the record is entered under the session and under the client. -/
def openSession (proxy : CDbProxy) (nType : EOperatorType) (pDbClient : Nat)
    (nTimeout : Option Int) (nContext callback : Nat) : Nat × CDbProxy :=
  let nSessionID := proxy.m_nNextSessionID
  let proxy := { proxy with m_nNextSessionID := (proxy.m_nNextSessionID + 1) % 2 ^ 64 }
  let (iterTimeout, proxy) := proxy.insertTimeout nSessionID nTimeout
  let sPendingResponseInfo : SPendingResponseInfo :=
    { nSessionID := nSessionID
      nContext := nContext
      callback := callback
      pDbClient := pDbClient
      iterTimeout := iterTimeout
      nType := nType
      nRequest := proxy.registered.length }
  (nSessionID,
    { proxy with
      m_mapPendingResponseInfo :=
        proxy.m_mapPendingResponseInfo.insert nSessionID sPendingResponseInfo
      m_mapPendingResponseInfoByDbClient :=
        proxy.m_mapPendingResponseInfoByDbClient.insert pDbClient
          ((proxy.sessionsOf pDbClient).insert nSessionID)
      registered := proxy.registered ++ [⟨nContext, callback, pDbClient⟩] })

variable (pb : Runtime)

/-- A request with a session: what the operation returns, what is sent, and the proxy.  The
deadline is the client's clock plus the timeout; the identifier is cut to 32 bits. -/
def request_r (proxy : CDbProxy) (env : Environment) (nType : EOperatorType)
    (pDbClient nAssociateID : Nat) (timeout : Option Nat) (content : Message)
    (nContext callback : Nat) : Bool × Option Request × CDbProxy :=
  let (nSessionID, proxy) :=
    proxy.openSession nType pDbClient (timeout.map fun t => env.nTime + t) nContext callback
  (env.bSent,
    some
      { session_id := some nSessionID
        associate_id := some (nAssociateID % 2 ^ 32)
        type := some nType
        timeout := timeout
        content := some (packFrom pb content) },
    proxy)

/-- A request without a session: session id 0, and no `timeout` is set.  Nothing is registered. -/
def request_n (proxy : CDbProxy) (env : Environment) (nType : EOperatorType)
    (nAssociateID : Nat) (content : Message) : Bool × Option Request × CDbProxy :=
  (env.bSent,
    some
      { session_id := some 0
        associate_id := some (nAssociateID % 2 ^ 32)
        type := some nType
        timeout := none
        content := some (packFrom pb content) },
    proxy)

/-- A request for one row.  A client's address stands for the client; null is 0. -/
def select (proxy : CDbProxy) (env : Environment) (pDbClient nID : Nat)
    (szTableName : String) (nTimeout nContext callback : Nat) :
    Bool × Option Request × CDbProxy :=
  if pDbClient = 0 then (false, none, proxy)
  else proxy.request_r pb env .kOT_SELECT pDbClient nID (some nTimeout)
    (.select_command nID szTableName) nContext callback

/-- An update nobody waits for: it goes to the worker its primary key names, and a message without
one is refused. -/
def update (proxy : CDbProxy) (env : Environment) (pMessage : Message) :
    Bool × Option Request × CDbProxy :=
  match getPrimaryValue pMessage with
  | none => (false, none, proxy)
  | some nID => proxy.request_n pb env .kOT_UPDATE nID pMessage

/-- An update with a callback. -/
def update_r (proxy : CDbProxy) (env : Environment) (pDbClient : Nat) (pMessage : Message)
    (nTimeout nContext callback : Nat) : Bool × Option Request × CDbProxy :=
  if pDbClient = 0 then (false, none, proxy)
  else
    match getPrimaryValue pMessage with
    | none => (false, none, proxy)
    | some nID => proxy.request_r pb env .kOT_UPDATE pDbClient nID (some nTimeout) pMessage
        nContext callback

/-- A removal nobody waits for. -/
def remove (proxy : CDbProxy) (env : Environment) (nID : Nat) (szTableName : String) :
    Bool × Option Request × CDbProxy :=
  proxy.request_n pb env .kOT_DELETE nID (.delete_command nID szTableName)

/-- A removal with a callback. -/
def remove_r (proxy : CDbProxy) (env : Environment) (pDbClient nID : Nat)
    (szTableName : String) (nTimeout nContext callback : Nat) :
    Bool × Option Request × CDbProxy :=
  if pDbClient = 0 then (false, none, proxy)
  else proxy.request_r pb env .kOT_DELETE pDbClient nID (some nTimeout)
    (.delete_command nID szTableName) nContext callback

/-- An insertion nobody waits for; like an update it needs a primary key. -/
def insert (proxy : CDbProxy) (env : Environment) (pMessage : Message) :
    Bool × Option Request × CDbProxy :=
  match getPrimaryValue pMessage with
  | none => (false, none, proxy)
  | some nID => proxy.request_n pb env .kOT_INSERT nID pMessage

/-- An insertion with a callback. -/
def insert_r (proxy : CDbProxy) (env : Environment) (pDbClient : Nat) (pMessage : Message)
    (nTimeout nContext callback : Nat) : Bool × Option Request × CDbProxy :=
  if pDbClient = 0 then (false, none, proxy)
  else
    match getPrimaryValue pMessage with
    | none => (false, none, proxy)
    | some nID => proxy.request_r pb env .kOT_INSERT pDbClient nID (some nTimeout) pMessage
        nContext callback

/-- A request for the rows a where clause describes.  The arguments are the texts of the variants.
-/
def query (proxy : CDbProxy) (env : Environment) (pDbClient nAssociateID : Nat)
    (szTableName : String) (szWhereClause : Bytes) (vecArg : List Bytes)
    (nTimeout nContext callback : Nat) : Bool × Option Request × CDbProxy :=
  if pDbClient = 0 then (false, none, proxy)
  else proxy.request_r pb env .kOT_QUERY pDbClient nAssociateID (some nTimeout)
    (.query_command szTableName szWhereClause vecArg) nContext callback

/-- A statement of the caller's own, with nobody waiting for its outcome. -/
def call (proxy : CDbProxy) (env : Environment) (nAssociateID : Nat) (szSQL : Bytes)
    (vecArg : List Bytes) : Bool × Option Request × CDbProxy :=
  proxy.request_n pb env .kOT_CALL nAssociateID (.call_command szSQL vecArg)

/-- A statement of the caller's own, with a callback. -/
def call_r (proxy : CDbProxy) (env : Environment) (pDbClient nAssociateID : Nat)
    (szSQL : Bytes) (vecArg : List Bytes) (nTimeout nContext callback : Nat) :
    Bool × Option Request × CDbProxy :=
  if pDbClient = 0 then (false, none, proxy)
  else proxy.request_r pb env .kOT_CALL pDbClient nAssociateID (some nTimeout)
    (.call_command szSQL vecArg) nContext callback

/-- A request that does nothing and is answered all the same: no timeout is set, and its record
points to `end()`. -/
def nop (proxy : CDbProxy) (env : Environment) (pDbClient nAssociateID : Nat)
    (nContext callback : Nat) : Bool × Option Request × CDbProxy :=
  if pDbClient = 0 then (false, none, proxy)
  else proxy.request_r pb env .kOT_NOP pDbClient nAssociateID none .nop_command
    nContext callback

/-- A flush of the caches.  The client only has to be there; the request has no session. -/
def flush (proxy : CDbProxy) (env : Environment) (pDbClient nID : Nat)
    (eType : EFlushCacheType) : Bool × Option Request × CDbProxy :=
  if pDbClient = 0 then (false, none, proxy)
  else proxy.request_n pb env .kOT_FLUSH nID (.flush_command nID eType.code)

/-- The list without a node. -/
def eraseNode (list : List (Nat × STimeoutInfo)) (iter : Nat) : List (Nat × STimeoutInfo) :=
  list.filter fun node => node.1 != iter

/-- `m_listTimeout.erase(iter)`, undefined for `end()` and for an erased node. -/
def erase (proxy : CDbProxy) : Option Nat → CDbProxy
  | none => { proxy with undefined := true }
  | some iter =>
      { proxy with
        m_listTimeout := eraseNode proxy.m_listTimeout iter
        undefined :=
          proxy.undefined || !(proxy.m_listTimeout.any fun node => node.1 == iter) }

/-- The iterator `erase(iter)` returns: the node behind `iter`. -/
def nextNode : List (Nat × STimeoutInfo) → Nat → Option Nat
  | [], _ => none
  | node :: rest, iter => if node.1 = iter then rest.head?.map (·.1) else nextNode rest iter

/-- The record leaves the pending map and its client's set. -/
def closeSession (proxy : CDbProxy) (nSessionID : Nat) (info : SPendingResponseInfo) :
    CDbProxy :=
  { proxy with
    m_mapPendingResponseInfo := proxy.m_mapPendingResponseInfo.erase nSessionID
    m_mapPendingResponseInfoByDbClient :=
      match proxy.m_mapPendingResponseInfoByDbClient[info.pDbClient]? with
      | none => proxy.m_mapPendingResponseInfoByDbClient
      | some setSessionID =>
          proxy.m_mapPendingResponseInfoByDbClient.insert info.pDbClient
            (setSessionID.erase nSessionID) }

/-- The callback of a record is called. -/
def invoke (proxy : CDbProxy) (info : SPendingResponseInfo) (nErrCode : Nat)
    (pMessage : Option Message) : CDbProxy :=
  { proxy with
    invoked := proxy.invoked ++
      [⟨info.nRequest, info.callback, nErrCode, pMessage, info.nContext⟩] }

/-- What `onMessage` reads from a response: the name is looked up in the client's generated
pool before the error code is looked at. -/
def readResponse (pResponse : Response) : Nat × Option Message :=
  match pb.FindMessageTypeByName (pResponse.name.getD "") with
  | none => (EResultCode.kRC_PROTO_ERROR.code, none)
  | some _ =>
      match pb.ParseFromString (pResponse.name.getD "") (pResponse.content.getD []) with
      | none => (EResultCode.kRC_PROTO_ERROR.code, none)
      | some pContent => (pResponse.err_code, some pContent)

/-- A response arrives: the session is closed first, then the callback learns the outcome.  A
response for a session that is not pending changes nothing. -/
def onMessage (proxy : CDbProxy) (pResponse : Response) : CDbProxy :=
  match proxy.m_mapPendingResponseInfo[pResponse.session_id]? with
  | none => proxy
  | some info =>
      let proxy := proxy.closeSession pResponse.session_id info
      let proxy :=
        match info.iterTimeout with
        | none => proxy
        | some iter => proxy.erase (some iter)
      let (nErrCode, pContent) := readResponse pb pResponse
      proxy.invoke info nErrCode pContent

/-- One round of the loop of `removePendingResponseInfo`; the record of a nop points to
`end()`. -/
def removeSession (proxy : CDbProxy) (nSessionID : Nat) : CDbProxy :=
  match proxy.m_mapPendingResponseInfo[nSessionID]? with
  | none => proxy
  | some info =>
      let proxy := proxy.erase info.iterTimeout
      { proxy with
        m_mapPendingResponseInfo := proxy.m_mapPendingResponseInfo.erase nSessionID }

/-- What the destructor of a client does: its sessions leave the three containers, in the order of
the set. -/
def removePendingResponseInfo (proxy : CDbProxy) (pDbClient : Nat) : CDbProxy :=
  if pDbClient = 0 then proxy
  else
    match proxy.m_mapPendingResponseInfoByDbClient[pDbClient]? with
    | none => proxy
    | some setSessionID =>
        let proxy := setSessionID.toList.foldl removeSession proxy
        { proxy with
          m_mapPendingResponseInfoByDbClient :=
            proxy.m_mapPendingResponseInfoByDbClient.erase pDbClient }

/-- The start of `onTimer`: the clock is read once, and the loop begins at the first entry. -/
def timerStart (proxy : CDbProxy) (nCurTime : Int) : CDbProxy :=
  { proxy with timer := some (nCurTime, proxy.m_listTimeout.head?.map (·.1)) }

/-- One round of the loop of `onTimer`: it ends at the first entry that is not due; an entry that
is due leaves the list, and its session, if still pending, is answered with `kRC_TIME_OUT`. -/
def timerNext (proxy : CDbProxy) : CDbProxy :=
  match proxy.timer with
  | none => proxy
  | some (_, none) => { proxy with timer := none }
  | some (nCurTime, some iter) =>
      match proxy.m_listTimeout.find? fun node => node.1 == iter with
      | none => { proxy with timer := none, undefined := true }
      | some (_, entry) =>
          if nCurTime < entry.nTimeout then { proxy with timer := none }
          else
            let proxy :=
              { proxy with
                m_listTimeout := eraseNode proxy.m_listTimeout iter
                timer := some (nCurTime, nextNode proxy.m_listTimeout iter) }
            match proxy.m_mapPendingResponseInfo[entry.nSessionID]? with
            | none => proxy
            | some info =>
                (proxy.closeSession entry.nSessionID info).invoke info
                  EResultCode.kRC_TIME_OUT.code none

end CDbProxy

/-- What the owner of a proxy, the network and the clock do with it: the public operations, the
rounds of the timer, and the removal a client's destructor asks for. -/
inductive ProxyAction
  | select (env : Environment) (pDbClient nID : Nat) (szTableName : String)
      (nTimeout nContext callback : Nat)
  | update (env : Environment) (pMessage : Message)
  | update_r (env : Environment) (pDbClient : Nat) (pMessage : Message)
      (nTimeout nContext callback : Nat)
  | remove (env : Environment) (nID : Nat) (szTableName : String)
  | remove_r (env : Environment) (pDbClient nID : Nat) (szTableName : String)
      (nTimeout nContext callback : Nat)
  | insert (env : Environment) (pMessage : Message)
  | insert_r (env : Environment) (pDbClient : Nat) (pMessage : Message)
      (nTimeout nContext callback : Nat)
  | query (env : Environment) (pDbClient nAssociateID : Nat) (szTableName : String)
      (szWhereClause : Bytes) (vecArg : List Bytes) (nTimeout nContext callback : Nat)
  | call (env : Environment) (nAssociateID : Nat) (szSQL : Bytes) (vecArg : List Bytes)
  | call_r (env : Environment) (pDbClient nAssociateID : Nat) (szSQL : Bytes)
      (vecArg : List Bytes) (nTimeout nContext callback : Nat)
  | nop (env : Environment) (pDbClient nAssociateID nContext callback : Nat)
  | flush (env : Environment) (pDbClient nID : Nat) (eType : EFlushCacheType)
  | onMessage (pResponse : Response)
  | timerStart (nCurTime : Int)
  | timerNext
  | removePendingResponseInfo (pDbClient : Nat)

namespace CDbProxy

variable (pb : Runtime)

/-- One action, with the request it sends.  What an operation returns is for its caller and
changes nothing. -/
def step (proxy : CDbProxy) : ProxyAction → CDbProxy × Option Request
  | .select env pDbClient nID szTableName nTimeout nContext callback =>
      (proxy.select pb env pDbClient nID szTableName nTimeout nContext callback).2.swap
  | .update env pMessage => (proxy.update pb env pMessage).2.swap
  | .update_r env pDbClient pMessage nTimeout nContext callback =>
      (proxy.update_r pb env pDbClient pMessage nTimeout nContext callback).2.swap
  | .remove env nID szTableName => (proxy.remove pb env nID szTableName).2.swap
  | .remove_r env pDbClient nID szTableName nTimeout nContext callback =>
      (proxy.remove_r pb env pDbClient nID szTableName nTimeout nContext callback).2.swap
  | .insert env pMessage => (proxy.insert pb env pMessage).2.swap
  | .insert_r env pDbClient pMessage nTimeout nContext callback =>
      (proxy.insert_r pb env pDbClient pMessage nTimeout nContext callback).2.swap
  | .query env pDbClient nAssociateID szTableName szWhereClause vecArg nTimeout nContext
        callback =>
      (proxy.query pb env pDbClient nAssociateID szTableName szWhereClause vecArg nTimeout
        nContext callback).2.swap
  | .call env nAssociateID szSQL vecArg =>
      (proxy.call pb env nAssociateID szSQL vecArg).2.swap
  | .call_r env pDbClient nAssociateID szSQL vecArg nTimeout nContext callback =>
      (proxy.call_r pb env pDbClient nAssociateID szSQL vecArg nTimeout nContext
        callback).2.swap
  | .nop env pDbClient nAssociateID nContext callback =>
      (proxy.nop pb env pDbClient nAssociateID nContext callback).2.swap
  | .flush env pDbClient nID eType => (proxy.flush pb env pDbClient nID eType).2.swap
  | .onMessage pResponse => (proxy.onMessage pb pResponse, none)
  | .timerStart nCurTime => (proxy.timerStart nCurTime, none)
  | .timerNext => (proxy.timerNext, none)
  | .removePendingResponseInfo pDbClient => (proxy.removePendingResponseInfo pDbClient, none)

/-- **A step, sorted by what it does to the containers:** nothing, a new session, a
response, a step of `onTimer` or a removal.  A session without a deadline is a nop's, and
no session is opened for a null client. -/
inductive StepKind (proxy : CDbProxy) : ProxyAction → CDbProxy → Prop
  | idle (action : ProxyAction) : StepKind proxy action proxy
  | opened (action : ProxyAction) (nType : EOperatorType) (pDbClient : Nat)
      (nTimeout : Option Int) (nContext callback : Nat)
      (hnop : nTimeout = none ↔ nType = .kOT_NOP) (hclient : pDbClient ≠ 0) :
      StepKind proxy action (proxy.openSession nType pDbClient nTimeout nContext callback).2
  | message (pResponse : Response) :
      StepKind proxy (.onMessage pResponse) (proxy.onMessage pb pResponse)
  | timerStart (nCurTime : Int) :
      StepKind proxy (.timerStart nCurTime) (proxy.timerStart nCurTime)
  | timerNext : StepKind proxy .timerNext proxy.timerNext
  | removal (pDbClient : Nat) :
      StepKind proxy (.removePendingResponseInfo pDbClient)
        (proxy.removePendingResponseInfo pDbClient)

/-- A request with a session opens one. -/
theorem request_r_kind (proxy : CDbProxy) (action : ProxyAction) (env : Environment)
    {nType : EOperatorType} (hnop : nType ≠ .kOT_NOP) {pDbClient : Nat}
    (hclient : pDbClient ≠ 0) (nAssociateID nTimeout : Nat) (content : Message)
    (nContext callback : Nat) :
    StepKind pb proxy action (proxy.request_r pb env nType pDbClient nAssociateID
      (some nTimeout) content nContext callback).2.swap.1 :=
  .opened action nType pDbClient (some (env.nTime + nTimeout)) nContext callback
    (by simp [hnop]) hclient

/-- Every action is of one of the kinds.  The seven operations with a callback open a session
where their guards let them; those without one leave the containers alone. -/
theorem step_kind (proxy : CDbProxy) (action : ProxyAction) :
    StepKind pb proxy action (proxy.step pb action).1 := by
  cases action with
  | select env pDbClient nID szTableName nTimeout nContext callback =>
      by_cases hnull : pDbClient = 0
      · simpa [step, select, hnull] using StepKind.idle _
      · simp only [step, select, hnull, if_false]
        exact request_r_kind pb proxy _ env (by decide) hnull _ _ _ _ _
  | update env pMessage =>
      simp only [step, update]
      cases getPrimaryValue pMessage <;> exact .idle _
  | update_r env pDbClient pMessage nTimeout nContext callback =>
      by_cases hnull : pDbClient = 0
      · simpa [step, update_r, hnull] using StepKind.idle _
      · simp only [step, update_r, hnull, if_false]
        cases getPrimaryValue pMessage with
        | none => exact .idle _
        | some nID => exact request_r_kind pb proxy _ env (by decide) hnull _ _ _ _ _
  | remove env nID szTableName => exact .idle _
  | remove_r env pDbClient nID szTableName nTimeout nContext callback =>
      by_cases hnull : pDbClient = 0
      · simpa [step, remove_r, hnull] using StepKind.idle _
      · simp only [step, remove_r, hnull, if_false]
        exact request_r_kind pb proxy _ env (by decide) hnull _ _ _ _ _
  | insert env pMessage =>
      simp only [step, insert]
      cases getPrimaryValue pMessage <;> exact .idle _
  | insert_r env pDbClient pMessage nTimeout nContext callback =>
      by_cases hnull : pDbClient = 0
      · simpa [step, insert_r, hnull] using StepKind.idle _
      · simp only [step, insert_r, hnull, if_false]
        cases getPrimaryValue pMessage with
        | none => exact .idle _
        | some nID => exact request_r_kind pb proxy _ env (by decide) hnull _ _ _ _ _
  | query env pDbClient nAssociateID szTableName szWhereClause vecArg nTimeout nContext
      callback =>
      by_cases hnull : pDbClient = 0
      · simpa [step, query, hnull] using StepKind.idle _
      · simp only [step, query, hnull, if_false]
        exact request_r_kind pb proxy _ env (by decide) hnull _ _ _ _ _
  | call env nAssociateID szSQL vecArg => exact .idle _
  | call_r env pDbClient nAssociateID szSQL vecArg nTimeout nContext callback =>
      by_cases hnull : pDbClient = 0
      · simpa [step, call_r, hnull] using StepKind.idle _
      · simp only [step, call_r, hnull, if_false]
        exact request_r_kind pb proxy _ env (by decide) hnull _ _ _ _ _
  | nop env pDbClient nAssociateID nContext callback =>
      by_cases hnull : pDbClient = 0
      · simpa [step, nop, hnull] using StepKind.idle _
      · simp only [step, nop, hnull, if_false]
        exact .opened _ .kOT_NOP pDbClient none nContext callback (by simp) hnull
  | flush env pDbClient nID eType =>
      by_cases hnull : pDbClient = 0
      · simpa [step, flush, hnull] using StepKind.idle _
      · simp only [step, flush, hnull, if_false]
        exact .idle _
  | onMessage pResponse => exact .message pResponse
  | timerStart nCurTime => exact .timerStart nCurTime
  | timerNext => exact .timerNext
  | removePendingResponseInfo pDbClient => exact .removal pDbClient

/-! ## What the operations change -/

section Lemmas

variable (proxy : CDbProxy) (nType : EOperatorType) (pDbClient : Nat)
  (nTimeout : Option Int) (nContext callback : Nat)

/-- The record a new session enters. -/
def newInfo : SPendingResponseInfo where
  nSessionID := proxy.m_nNextSessionID
  nContext := nContext
  callback := callback
  pDbClient := pDbClient
  iterTimeout := nTimeout.map fun _ => proxy.nNextNode
  nType := nType
  nRequest := proxy.registered.length

@[simp] theorem openSession_nextSession :
    (proxy.openSession nType pDbClient nTimeout nContext callback).2.m_nNextSessionID =
      (proxy.m_nNextSessionID + 1) % 2 ^ 64 := by
  cases nTimeout <;> rfl

@[simp] theorem openSession_pending :
    (proxy.openSession nType pDbClient nTimeout nContext callback).2.m_mapPendingResponseInfo =
      proxy.m_mapPendingResponseInfo.insert proxy.m_nNextSessionID
        (proxy.newInfo nType pDbClient nTimeout nContext callback) := by
  cases nTimeout <;> rfl

/-- The number joins the set of the session's client; the other sets stay. -/
theorem openSession_sessionsOf (pDbClient' : Nat) :
    (proxy.openSession nType pDbClient nTimeout nContext callback).2.sessionsOf pDbClient' =
      if pDbClient = pDbClient' then
        (proxy.sessionsOf pDbClient).insert proxy.m_nNextSessionID
      else proxy.sessionsOf pDbClient' := by
  by_cases heq : pDbClient = pDbClient'
  · cases nTimeout <;> simp [openSession, insertTimeout, sessionsOf, heq]
  · cases nTimeout <;>
      simp [openSession, insertTimeout, sessionsOf, Std.ExtTreeMap.getElem?_insert, heq]

/-- A deadline adds one entry, in its place; without one the list stays. -/
@[simp] theorem openSession_listTimeout :
    (proxy.openSession nType pDbClient nTimeout nContext callback).2.m_listTimeout =
      match nTimeout with
      | none => proxy.m_listTimeout
      | some nTimeout => proxy.m_listTimeout.orderedInsert notAfter
          (proxy.nNextNode, ⟨proxy.m_nNextSessionID, nTimeout⟩) := by
  cases nTimeout <;> rfl

/-- Node numbers are never used again. -/
theorem openSession_nNextNode_le :
    proxy.nNextNode ≤
      (proxy.openSession nType pDbClient nTimeout nContext callback).2.nNextNode := by
  cases nTimeout
  · exact Nat.le_refl _
  · exact Nat.le_succ _

@[simp] theorem openSession_registered :
    (proxy.openSession nType pDbClient nTimeout nContext callback).2.registered =
      proxy.registered ++ [⟨nContext, callback, pDbClient⟩] := by
  cases nTimeout <;> rfl

@[simp] theorem openSession_invoked :
    (proxy.openSession nType pDbClient nTimeout nContext callback).2.invoked =
      proxy.invoked := by
  cases nTimeout <;> rfl

@[simp] theorem openSession_undefined :
    (proxy.openSession nType pDbClient nTimeout nContext callback).2.undefined =
      proxy.undefined := by
  cases nTimeout <;> rfl

@[simp] theorem openSession_timer :
    (proxy.openSession nType pDbClient nTimeout nContext callback).2.timer = proxy.timer := by
  cases nTimeout <;> rfl

/-- Closing a session takes its id out of its client's set and nothing else. -/
theorem mem_closeSession_sessionsOf (nSessionID : Nat) (info : SPendingResponseInfo)
    (nSessionID' : Nat) :
    nSessionID' ∈ (proxy.closeSession nSessionID info).sessionsOf pDbClient ↔
      nSessionID' ∈ proxy.sessionsOf pDbClient ∧
        ¬ (pDbClient = info.pDbClient ∧ nSessionID' = nSessionID) := by
  unfold closeSession sessionsOf
  rw [@eq_comm Nat nSessionID' nSessionID]
  cases hset : proxy.m_mapPendingResponseInfoByDbClient[info.pDbClient]? with
  | none =>
      by_cases heq : pDbClient = info.pDbClient
      · simp [heq, hset]
      · simp [heq]
  | some setSessionID =>
      by_cases heq : pDbClient = info.pDbClient
      · simp [heq, hset, and_comm]
      · simp [Std.ExtTreeMap.getElem?_insert, Ne.symm heq, heq]

variable {proxy}

@[simp] theorem erase_pending (proxy : CDbProxy) (iter : Option Nat) :
    (proxy.erase iter).m_mapPendingResponseInfo = proxy.m_mapPendingResponseInfo := by
  cases iter <;> rfl

@[simp] theorem erase_byDbClient (proxy : CDbProxy) (iter : Option Nat) :
    (proxy.erase iter).m_mapPendingResponseInfoByDbClient =
      proxy.m_mapPendingResponseInfoByDbClient := by
  cases iter <;> rfl

/-- Erasing an entry leaves the counters, the timer and the history alone. -/
theorem erase_rest (proxy : CDbProxy) (iter : Option Nat) :
    (proxy.erase iter).m_nNextSessionID = proxy.m_nNextSessionID ∧
      (proxy.erase iter).nNextNode = proxy.nNextNode ∧
      (proxy.erase iter).timer = proxy.timer ∧
      (proxy.erase iter).registered = proxy.registered ∧
      (proxy.erase iter).invoked = proxy.invoked := by
  cases iter <;> exact ⟨rfl, rfl, rfl, rfl, rfl⟩

/-- A session without its entry: a record that points to `end()` has none. -/
def withoutEntry (proxy : CDbProxy) (info : SPendingResponseInfo) : CDbProxy :=
  match info.iterTimeout with
  | none => proxy
  | some iter => proxy.erase (some iter)

/-- A response for a pending session closes it, takes its entry out and calls back. -/
theorem onMessage_of_pending {pb : Runtime} {pResponse : Response}
    {info : SPendingResponseInfo}
    (hpending : proxy.m_mapPendingResponseInfo[pResponse.session_id]? = some info) :
    proxy.onMessage pb pResponse =
      ((proxy.closeSession pResponse.session_id info).withoutEntry info).invoke info
        (readResponse pb pResponse).1 (readResponse pb pResponse).2 := by
  unfold onMessage
  rw [hpending]
  rfl

/-- A response for a session that is not pending is dropped. -/
theorem onMessage_of_unknown {pb : Runtime} {pResponse : Response}
    (hpending : proxy.m_mapPendingResponseInfo[pResponse.session_id]? = none) :
    proxy.onMessage pb pResponse = proxy := by
  unfold onMessage
  rw [hpending]

/-- **The rounds of `onTimer`:** it ends, it finds its iterator dead, it takes out an entry
without a record, or it closes an expired session and calls back. -/
inductive TimerOutcome (proxy : CDbProxy) : CDbProxy → Prop
  | idle : TimerOutcome proxy proxy
  | done : TimerOutcome proxy { proxy with timer := none }
  | dead (nCurTime : Int) (iter : Nat) (htimer : proxy.timer = some (nCurTime, some iter))
      (hdead : ∀ node ∈ proxy.m_listTimeout, node.1 ≠ iter) :
      TimerOutcome proxy { proxy with timer := none, undefined := true }
  | stale (nCurTime : Int) (node : Nat × STimeoutInfo) (hnode : node ∈ proxy.m_listTimeout)
      (hunknown : proxy.m_mapPendingResponseInfo[node.2.nSessionID]? = none) :
      TimerOutcome proxy
        { proxy with
          m_listTimeout := eraseNode proxy.m_listTimeout node.1
          timer := some (nCurTime, nextNode proxy.m_listTimeout node.1) }
  | expired (nCurTime : Int) (node : Nat × STimeoutInfo) (info : SPendingResponseInfo)
      (hnode : node ∈ proxy.m_listTimeout)
      (hpending : proxy.m_mapPendingResponseInfo[node.2.nSessionID]? = some info) :
      TimerOutcome proxy
        (({ proxy with
            m_listTimeout := eraseNode proxy.m_listTimeout node.1
            timer := some (nCurTime, nextNode proxy.m_listTimeout node.1) } :
          CDbProxy).closeSession node.2.nSessionID info |>.invoke info
            EResultCode.kRC_TIME_OUT.code none)

/-- Every round has one of the five outcomes. -/
theorem timerNext_outcome : TimerOutcome proxy proxy.timerNext := by
  unfold timerNext
  split
  · exact .idle
  · exact .done
  · rename_i nCurTime iter htimer
    cases hfind : proxy.m_listTimeout.find? (fun node => node.1 == iter) with
    | none => exact .dead nCurTime iter htimer (by simpa using hfind)
    | some node =>
        obtain ⟨iter', entry⟩ := node
        have hnode := List.mem_of_find?_eq_some hfind
        obtain rfl : iter' = iter := by simpa using List.find?_some hfind
        simp only
        split
        · exact .done
        · cases hpending : proxy.m_mapPendingResponseInfo[entry.nSessionID]? with
          | none => exact .stale nCurTime (iter', entry) hnode hpending
          | some info => exact .expired nCurTime (iter', entry) info hnode hpending

end Lemmas

end CDbProxy

end Db
