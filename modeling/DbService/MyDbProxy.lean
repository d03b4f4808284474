import DbService.Delivery
import DbService.ProxyRequests
import DbService.ResultRouting
import DbService.SessionTable
import DbService.WorkerOrder

/-!
# The service in the process of its client (`test.cpp`)

`CMyDbProxy` puts the two sides together: `sendRequest` calls `db::query`, and `update` takes
the results of the workers, hands them to `onMessage` one by one and then calls `onTimer`.
One thread does all this; it is thread 0 of the instance.  The workers' own steps may come
between any two of its steps, also between the pushes of one call of `db::query`.

The properties of runs in the modules on requests, answers and progress are invariants of the few
cases that three theorems leave:

* `advance_finishes` -- what a step of a worker finishes;
* `timerNext_ages`, `removal_ages`, `onMessage_receives` -- what the rounds of the timer, the
  removals and the responses do to the records and to the history;
* `step_stepped` -- the steps of the whole, sorted by what they do to the two sides.
-/

namespace Db

open Reflection ByteText

/-- The client's side, the service's, and what the thread holds between the two. -/
structure CMyDbProxy (n : Nat) (σ : Type) where
  /-- The base class. -/
  proxy : CDbProxy
  /-- The instance behind `m_nID`. -/
  mgr : CDbThreadMgr n σ
  /-- What `update` has still to hand to `onMessage`. -/
  listDbResultInfo : List SDbResultInfo
  /-- What it has handed to it, for the record. -/
  delivered : List SDbResultInfo
  /-- The clients destroyed so far, each with the number of requests registered by then, for the
  record: an address may be used again by a later client. -/
  destroyed : List (Nat × Nat)

/-- What may happen next: a step of the one thread, or one of a worker. -/
inductive MyAction (n : Nat)
  /-- a request of a client, in a callback or outside -/
  | request (action : ProxyAction) (nTime : Nat)
  /-- the next push of the call of `db::query` under way -/
  | push
  | advance (i : Fin n) (input : Input)
  /-- the start of `update` -/
  | getResultInfo
  /-- one round of the loop of `update` -/
  | nextResult
  | onTimer (nCurTime : Int)
  | timerNext
  /-- the destructor of a client -/
  | removeClient (pDbClient : Nat)

namespace CMyDbProxy

variable {n : Nat} {σ : Type} (pb : Runtime) (generated_pool : String → Option Descriptor)
  (srv : Fin n → Server σ)

/-- A proxy without requests, and an instance that was just started. -/
def init (nMaxCacheSize nWritebackTime : Nat) (conn : Fin n → CDbConnection σ) :
    CMyDbProxy n σ where
  proxy := CDbProxy.init
  mgr := CDbThreadMgr.init nMaxCacheSize nWritebackTime conn
  listDbResultInfo := []
  delivered := []
  destroyed := []

/-- The thread is not inside `db::query`. -/
def isFree (my : CMyDbProxy n σ) : Bool := (my.mgr.calls 0).isEmpty

/-- It is between two rounds of `update`, or at its end. -/
def isBetween (my : CMyDbProxy n σ) : Bool :=
  my.isFree && my.listDbResultInfo.isEmpty && my.proxy.timer.isNone

/-- `sendRequest`: the requests of this proxy go to service 0. -/
def sendRequest (mgr : CDbThreadMgr n σ) (pRequest : Option Request) (nTime : Nat) :
    CDbThreadMgr n σ :=
  match pRequest with
  | none => mgr
  | some pRequest => (mgr.step pb srv (.query 0 0 pRequest nTime)).1

/-- The step of the thread on its proxy. -/
def act (my : CMyDbProxy n σ) (action : ProxyAction) (nTime : Nat) : CMyDbProxy n σ :=
  if my.isFree then
    let (proxy, pRequest) := my.proxy.step (pb.withPool generated_pool) action
    { my with proxy := proxy, mgr := sendRequest pb srv my.mgr pRequest nTime }
  else my

/-- One step.  The thread is in one place at a time: a step that belongs elsewhere changes
nothing. -/
def step (my : CMyDbProxy n σ) : MyAction n → CMyDbProxy n σ × Unit
  | .request action nTime =>
      if action.env.isSome then (my.act pb generated_pool srv action nTime, ()) else (my, ())
  | .push => ({ my with mgr := my.mgr.push 0 }, ())
  | .advance i input => ({ my with mgr := my.mgr.advance pb srv i input }, ())
  | .getResultInfo =>
      if my.isBetween then
        ({ my with
            mgr := my.mgr.getResultInfo
            listDbResultInfo := my.mgr.m_listResultInfo }, ())
      else (my, ())
  | .nextResult =>
      match my.listDbResultInfo with
      | [] => (my, ())
      | sResultInfo :: rest =>
          if my.isFree then
            ({ my with
                proxy := my.proxy.onMessage (pb.withPool generated_pool) sResultInfo.pResponse
                listDbResultInfo := rest
                delivered := my.delivered ++ [sResultInfo] }, ())
          else (my, ())
  | .onTimer nCurTime =>
      if my.isBetween then (my.act pb generated_pool srv (.timerStart nCurTime) 0, ())
      else (my, ())
  | .timerNext => (my.act pb generated_pool srv .timerNext 0, ())
  | .removeClient pDbClient =>
      if my.isFree then
        ({ my with
            proxy := my.proxy.removePendingResponseInfo pDbClient
            destroyed := my.destroyed ++ [(pDbClient, my.proxy.registered.length)] }, ())
      else (my, ())

/-- The state after some actions from the start. -/
def after (nMaxCacheSize nWritebackTime : Nat) (conn : Fin n → CDbConnection σ)
    (actions : List (MyAction n)) : CMyDbProxy n σ :=
  Runs.run (step pb generated_pool srv) (init nMaxCacheSize nWritebackTime conn) actions

end CMyDbProxy

/-! ## What one step of each part does -/

namespace CDbThread

variable {σ : Type} (pb : Runtime) (srv : Server σ)

/-- **What a step of a worker finishes:** nothing, or the command at the head of its batch, which
it handled, discarded as expired, or took for a FLUSH. -/
inductive Finishes (th : CDbThread σ) (input : Input) : CDbThread σ × ThreadOutput → Prop
  | nothing (th' : CDbThread σ) (output : ThreadOutput) (hfinished : th'.finished = th.finished)
      (hresult : output.result = none) : Finishes th input (th', output)
  | handled (th' : CDbThread σ) (output : ThreadOutput) (sDbCommand : SDbCommand)
      (rest : List SDbCommand) (nErrorCode : EResultCode) (pMessage : Option Message)
      (hphase : th.phase = .batch) (hhead : th.listCommand = sDbCommand :: rest)
      (hprocess : (th.store.process pb srv sDbCommand input.clock).2.1 =
        .handled nErrorCode pMessage)
      (hfinished : th'.finished = th.finished ++ [sDbCommand])
      (hresult : output.result = if sDbCommand.nSessionID = 0 then none
        else some (makeResultInfo pb sDbCommand nErrorCode pMessage input.nStack)) :
      Finishes th input (th', output)
  | dropped (th' : CDbThread σ) (output : ThreadOutput) (sDbCommand : SDbCommand)
      (rest : List SDbCommand) (hphase : th.phase = .batch)
      (hhead : th.listCommand = sDbCommand :: rest)
      (hdropped : sDbCommand.nType = .kOT_FLUSH ∨ sDbCommand.isExpired input.clock.nCurTime = true)
      (hfinished : th'.finished = th.finished ++ [sDbCommand])
      (hresult : output.result = none) : Finishes th input (th', output)

/-- In its next step a worker discards the command at the head of its batch, which has expired. -/
structure Discards (th : CDbThread σ) (input : Input) (sDbCommand : SDbCommand) : Prop where
  batch : th.phase = .batch
  head : ∃ rest, th.listCommand = sDbCommand :: rest
  expired : sDbCommand.isExpired input.clock.nCurTime = true

/-- Only a command with a deadline expires. -/
theorem Discards.nTimeout_ne {th : CDbThread σ} {input : Input} {sDbCommand : SDbCommand}
    (h : th.Discards input sDbCommand) : sDbCommand.nTimeout ≠ 0 := by
  have hexpired := h.expired
  simp only [SDbCommand.isExpired, Bool.and_eq_true, bne_iff_ne] at hexpired
  exact hexpired.1.1

/-- A command is dropped as a FLUSH or past its deadline. -/
theorem process_dropped (st : Store σ) (sDbCommand : SDbCommand) (clock : Clock) :
    ((st.process pb srv sDbCommand clock).2.1 = .flushed → sDbCommand.nType = .kOT_FLUSH) ∧
      ((st.process pb srv sDbCommand clock).2.1 = .expired →
        sDbCommand.isExpired clock.nCurTime = true) := by
  refine ⟨(process_flushed pb srv st sDbCommand clock).2, ?_⟩
  have hprocessed := Store.process_cases pb srv st sDbCommand clock
  generalize st.process pb srv sDbCommand clock = result at hprocessed
  intro hexpired
  cases hprocessed with
  | flush => cases hexpired
  | flushNothing => cases hexpired
  | expired _ hpast => exact hpast
  | executed _ _ st' outcome hexecuted => cases hexecuted <;> cases hexpired

/-- A step of a worker finishes nothing, or the command it had in hand with the response it got.
-/
theorem advance_finishes (th : CDbThread σ) (input : Input) :
    Finishes pb srv th input (th.advance pb srv input) := by
  unfold advance
  split
  · split
    · exact .nothing _ _ rfl rfl
    · exact .nothing _ _ rfl rfl
  · split
    · exact .nothing _ _ rfl rfl
    · exact .nothing _ _ rfl rfl
  · rename_i hphase
    split
    · exact .nothing _ _ rfl rfl
    · rename_i sDbCommand rest hhead
      obtain ⟨hflushed, hexpired⟩ := process_dropped pb srv th.store sDbCommand input.clock
      unfold processHead
      rcases hprocess : th.store.process pb srv sDbCommand input.clock with
        ⟨store, outcome, writes⟩
      rw [hprocess] at hflushed hexpired
      cases outcome with
      | lost => exact .nothing _ _ rfl rfl
      | expired => exact .dropped _ _ sDbCommand rest hphase hhead (.inr (hexpired rfl)) rfl rfl
      | flushed => exact .dropped _ _ sDbCommand rest hphase hhead (.inl (hflushed rfl)) rfl rfl
      | handled nErrorCode pMessage =>
          exact .handled _ _ sDbCommand rest nErrorCode pMessage hphase hhead
            (by rw [hprocess]) rfl rfl
  · exact .nothing _ _ rfl rfl
  · split
    · exact .nothing _ _ rfl rfl
    · exact .nothing _ _ rfl rfl
  · exact .nothing _ _ rfl rfl
  · exact .nothing _ _ rfl rfl

end CDbThread

namespace CDbProxy

/-- **A proxy settles records:** each that goes is called back or is one of a client that is
being destroyed. -/
structure Settles (destroyed : Option Nat) (proxy proxy' : CDbProxy) : Prop where
  counter : proxy'.m_nNextSessionID = proxy.m_nNextSessionID
  registered : proxy'.registered = proxy.registered
  pending : ∀ (nSessionID : Nat) info,
    proxy'.m_mapPendingResponseInfo[nSessionID]? = some info →
    proxy.m_mapPendingResponseInfo[nSessionID]? = some info
  sessions : ∀ pDbClient nSessionID, nSessionID ∈ proxy'.sessionsOf pDbClient →
    nSessionID ∈ proxy.sessionsOf pDbClient
  invoked : proxy.invoked <+: proxy'.invoked
  settled : ∀ (nSessionID : Nat) info,
    proxy.m_mapPendingResponseInfo[nSessionID]? = some info →
    proxy'.m_mapPendingResponseInfo[nSessionID]? = some info ∨
      (∃ call ∈ proxy'.invoked, call.nRequest = info.nRequest) ∨
      ∃ pDbClient, destroyed = some pDbClient ∧ nSessionID ∈ proxy.sessionsOf pDbClient

/-- **A proxy ages:** the callbacks it calls are called for timeouts. -/
structure Ages (destroyed : Option Nat) (proxy proxy' : CDbProxy) : Prop
    extends Settles destroyed proxy proxy' where
  timeouts : ∃ calls : List Invocation, proxy'.invoked = proxy.invoked ++ calls ∧
    ∀ call ∈ calls, call.nErrCode = EResultCode.kRC_TIME_OUT.code

variable {proxy : CDbProxy}

/-- Neither records nor history change. -/
theorem Ages.quiet {proxy' : CDbProxy} (hcounter : proxy'.m_nNextSessionID = proxy.m_nNextSessionID)
    (hregistered : proxy'.registered = proxy.registered)
    (hpending : proxy'.m_mapPendingResponseInfo = proxy.m_mapPendingResponseInfo)
    (hclients : proxy'.m_mapPendingResponseInfoByDbClient =
      proxy.m_mapPendingResponseInfoByDbClient)
    (hinvoked : proxy'.invoked = proxy.invoked) : Ages none proxy proxy' where
  counter := hcounter
  registered := hregistered
  pending := by simp [hpending]
  sessions := by simp [sessionsOf, hclients]
  invoked := hinvoked ▸ List.prefix_rfl
  settled := fun _ _ hsome => .inl (by rw [hpending, hsome])
  timeouts := ⟨[], by simp [hinvoked]⟩

/-- A record is closed and its callback called. -/
theorem closed_settles {nSessionID : Nat} {info : SPendingResponseInfo}
    (hpending : proxy.m_mapPendingResponseInfo[nSessionID]? = some info) {proxy' : CDbProxy}
    (hcounter : proxy'.m_nNextSessionID = proxy.m_nNextSessionID)
    (hregistered : proxy'.registered = proxy.registered)
    (hrecords : proxy'.m_mapPendingResponseInfo = proxy.m_mapPendingResponseInfo.erase nSessionID)
    (hclients : proxy'.m_mapPendingResponseInfoByDbClient =
      (proxy.closeSession nSessionID info).m_mapPendingResponseInfoByDbClient)
    {call : Invocation} (hinvoked : proxy'.invoked = proxy.invoked ++ [call])
    (hcall : call.nRequest = info.nRequest) : Settles none proxy proxy' where
  counter := hcounter
  registered := hregistered
  pending := fun nSessionID' info' hsome => (erase_left (hrecords ▸ hsome)).2
  sessions := by
    intro pDbClient nSessionID' hin
    rw [sessionsOf, hclients, ← sessionsOf] at hin
    exact ((mem_closeSession_sessionsOf proxy _ _ _ _).mp hin).1
  invoked := hinvoked ▸ List.prefix_append _ _
  settled := by
    intro nSessionID' info' hsome
    by_cases heq : nSessionID' = nSessionID
    · obtain rfl : info = info' := by simpa [heq, hpending] using hsome
      exact .inr (.inl ⟨call, by simp [hinvoked], hcall⟩)
    · refine .inl ?_
      simpa [hrecords, Std.ExtTreeMap.getElem?_erase, Ne.symm heq] using hsome

/-- A round of the timer calls back for a timeout, if it does, and then the record is gone. -/
theorem timerNext_ages : Ages none proxy proxy.timerNext := by
  have houtcome : TimerOutcome proxy proxy.timerNext := timerNext_outcome
  generalize proxy.timerNext = proxy' at houtcome
  cases houtcome with
  | idle => exact .quiet rfl rfl rfl rfl rfl
  | done => exact .quiet rfl rfl rfl rfl rfl
  | dead => exact .quiet rfl rfl rfl rfl rfl
  | stale => exact .quiet rfl rfl rfl rfl rfl
  | expired nCurTime node info _ hpending =>
      exact ⟨closed_settles hpending rfl rfl rfl rfl rfl rfl, [_], rfl, by simp⟩

/-- A removal lets the records of one client go, and calls nobody back. -/
theorem removal_ages (proxy : CDbProxy) (pDbClient : Nat) :
    Ages (some pDbClient) proxy (proxy.removePendingResponseInfo pDbClient) := by
  by_cases hclient : pDbClient = 0
  · rw [removePendingResponseInfo, if_pos hclient]
    exact ⟨⟨rfl, rfl, fun _ _ hsome => hsome, fun _ _ hin => hin, List.prefix_rfl,
      fun _ _ hsome => .inl hsome⟩, [], by simp⟩
  · have hremoval := removePendingResponseInfo_removal proxy hclient
    refine ⟨⟨hremoval.next, hremoval.registered, ?_, ?_,
      hremoval.invoked ▸ List.prefix_rfl, ?_⟩, ?_⟩
    · intro nSessionID info hsome
      rw [hremoval.pending] at hsome
      split at hsome
      · cases hsome
      · exact hsome
    · intro pDbClient' nSessionID hin
      rw [hremoval.sessions] at hin
      split at hin
      · simp at hin
      · exact hin
    · intro nSessionID info hsome
      rw [hremoval.pending]
      split
      · rename_i hin
        exact .inr (.inr ⟨pDbClient, rfl, hin⟩)
      · exact .inl hsome
    · exact ⟨[], by simp [hremoval.invoked]⟩

/-- What a response does to the records and to the history. -/
structure Receives (proxy proxy' : CDbProxy) (pb : Runtime) (pResponse : Response) : Prop
    extends Settles none proxy proxy' where
  answered : proxy'.m_mapPendingResponseInfo[pResponse.session_id]? = none
  calls : proxy'.invoked = proxy.invoked ∨
    ∃ info, proxy.m_mapPendingResponseInfo[pResponse.session_id]? = some info ∧
      proxy'.invoked = proxy.invoked ++ [⟨info.nRequest, info.callback,
        (readResponse pb pResponse).1, (readResponse pb pResponse).2, info.nContext⟩]

/-- A response calls back with what it says, if its session is pending, and leaves none pending.
-/
theorem onMessage_receives (pb : Runtime) (proxy : CDbProxy) (pResponse : Response) :
    Receives proxy (proxy.onMessage pb pResponse) pb pResponse := by
  cases hpending : proxy.m_mapPendingResponseInfo[pResponse.session_id]? with
  | none =>
      rw [onMessage_of_unknown hpending]
      exact ⟨(Ages.quiet rfl rfl rfl rfl rfl).toSettles, hpending, .inl rfl⟩
  | some info =>
      rw [onMessage_of_pending hpending]
      unfold withoutEntry
      cases info.iterTimeout <;>
        exact ⟨closed_settles hpending rfl rfl rfl rfl rfl rfl,
          by simp [closeSession, invoke, erase], .inr ⟨info, hpending, rfl⟩⟩

/-- **The records are numbered:** the session id of a record is one more than the number of its
request, and so is the next id. -/
structure Numbered (proxy : CDbProxy) : Prop where
  counter : proxy.m_nNextSessionID = (1 + proxy.sessionCount) % 2 ^ 64
  records : ∀ (nSessionID : Nat) info,
    proxy.m_mapPendingResponseInfo[nSessionID]? = some info →
    nSessionID = info.nRequest + 1 ∧ info.nRequest < proxy.sessionCount

theorem init_numbered : Numbered init := ⟨rfl, by simp [init]⟩

/-- Records that go do not spoil the numbering, -/
theorem Numbered.shrink (h : Numbered proxy) {proxy' : CDbProxy}
    (hcounter : proxy'.m_nNextSessionID = proxy.m_nNextSessionID)
    (hregistered : proxy'.registered = proxy.registered)
    (hpending : ∀ (nSessionID : Nat) info,
      proxy'.m_mapPendingResponseInfo[nSessionID]? = some info →
      proxy.m_mapPendingResponseInfo[nSessionID]? = some info) : Numbered proxy' where
  counter := by rw [hcounter, h.counter, sessionCount, sessionCount, hregistered]
  records := fun nSessionID info hsome => by
    rw [sessionCount, hregistered]
    exact h.records nSessionID info (hpending nSessionID info hsome)

theorem Numbered.next_eq (h : Numbered proxy) (hcount : proxy.sessionCount + 1 < 2 ^ 64) :
    proxy.m_nNextSessionID = proxy.sessionCount + 1 := by
  rw [h.counter, Nat.mod_eq_of_lt (by omega), Nat.add_comm]

/-- and until then a new session gets a number of its own. -/
theorem Numbered.opened (h : Numbered proxy) (hcount : proxy.sessionCount + 1 < 2 ^ 64)
    (nType : EOperatorType) (pDbClient : Nat) (nTimeout : Option Int) (nContext callback : Nat) :
    Numbered (proxy.openSession nType pDbClient nTimeout nContext callback).2 where
  counter := by
    have hlen : (proxy.openSession nType pDbClient nTimeout nContext callback).2.sessionCount =
        proxy.sessionCount + 1 := by simp [sessionCount]
    rw [openSession_nextSession, h.next_eq hcount, hlen, Nat.add_comm]
  records := by
    intro nSessionID info hsome
    have hlen : (proxy.openSession nType pDbClient nTimeout nContext callback).2.sessionCount =
        proxy.sessionCount + 1 := by simp [sessionCount]
    rw [openSession_pending, Std.ExtTreeMap.getElem?_insert] at hsome
    rw [hlen]
    by_cases heq : proxy.m_nNextSessionID = nSessionID
    · have hinfo : proxy.newInfo nType pDbClient nTimeout nContext callback = info := by
        simpa [heq] using hsome
      rw [← hinfo, ← heq, h.next_eq hcount]
      exact ⟨rfl, Nat.lt_succ_self _⟩
    · obtain ⟨hid, hlt⟩ := h.records nSessionID info (by simpa [heq] using hsome)
      exact ⟨hid, by omega⟩

end CDbProxy

namespace CMyDbProxy

variable {n : Nat} {σ : Type} {pb : Runtime} {generated_pool : String → Option Descriptor}
  {srv : Fin n → Server σ} {my : CMyDbProxy n σ}

/-- The messages `db::query` can be asked with by a session's request. -/
def sessionRequest (nSessionID nAssociateID : Nat) (nType : EOperatorType) (timeout : Option Nat)
    (content : Any) : Request where
  session_id := some nSessionID
  associate_id := some (nAssociateID % 2 ^ 32)
  type := some nType
  timeout := timeout
  content := some content

variable (pb generated_pool srv) in
/-- **The steps, sorted by what they do.** -/
inductive Stepped (my : CMyDbProxy n σ) (action : MyAction n) : CMyDbProxy n σ → Prop
  | idle : Stepped my action my
  | opened (hfree : my.isFree = true) (nType : EOperatorType)
      (pDbClient nAssociateID : Nat) (timeout : Option Nat) (content : Message)
      (nTimeout : Option Int) (nContext callback nTime : Nat)
      (hnop : timeout = none ↔ nType = .kOT_NOP) (hflush : nType ≠ .kOT_FLUSH) :
      Stepped my action
        { my with
          proxy := (my.proxy.openSession nType pDbClient nTimeout nContext callback).2
          mgr := (my.mgr.step pb srv (.query 0 0
            (sessionRequest my.proxy.m_nNextSessionID nAssociateID nType timeout
              (packFrom (pb.withPool generated_pool) content)) nTime)).1 }
  | sent (hfree : my.isFree = true) (pRequest : Request)
      (hsession : pRequest.session_id.getD 0 = 0) (nTime : Nat) :
      Stepped my action { my with mgr := (my.mgr.step pb srv (.query 0 0 pRequest nTime)).1 }
  | aged (proxy : CDbProxy) (hages : CDbProxy.Ages none my.proxy proxy) :
      Stepped my action { my with proxy := proxy }
  | removed (pDbClient : Nat) :
      Stepped my action
        { my with
          proxy := my.proxy.removePendingResponseInfo pDbClient
          destroyed := my.destroyed ++ [(pDbClient, my.proxy.registered.length)] }
  | pushed : Stepped my action { my with mgr := my.mgr.push 0 }
  | advanced (i : Fin n) (input : Input) (haction : action = .advance i input) :
      Stepped my action { my with mgr := my.mgr.advance pb srv i input }
  | taken (hempty : my.listDbResultInfo = []) :
      Stepped my action
        { my with
          mgr := my.mgr.getResultInfo
          listDbResultInfo := my.mgr.m_listResultInfo }
  | handedOn (sResultInfo : SDbResultInfo) (rest : List SDbResultInfo)
      (hlist : my.listDbResultInfo = sResultInfo :: rest) :
      Stepped my action
        { my with
          proxy := my.proxy.onMessage (pb.withPool generated_pool) sResultInfo.pResponse
          listDbResultInfo := rest
          delivered := my.delivered ++ [sResultInfo] }

/-- A request of a client is one of three cases: nothing was sent, a request without a session
was, or a session was opened for it. -/
theorem request_stepped (hfree : my.isFree = true) {action : ProxyAction} {env : Environment}
    (henv : action.env = some env) (nTime : Nat) (action' : MyAction n) :
    Stepped pb generated_pool srv my action'
      { my with
        proxy := (my.proxy.step (pb.withPool generated_pool) action).1
        mgr := sendRequest pb srv my.mgr
          (my.proxy.step (pb.withPool generated_pool) action).2 nTime } := by
  obtain ⟨result, hresult⟩ :=
    CDbProxy.exists_operate (pb.withPool generated_pool) my.proxy henv
  rw [CDbProxy.step_of_operate hresult]
  cases CDbProxy.operated henv hresult with
  | unregistered bSent request _ hnone =>
      cases request with
      | none => exact .idle
      | some pRequest => exact .sent hfree pRequest (hnone pRequest rfl) nTime
  | registered nType pDbClient nAssociateID timeout content nContext callback _ hnop _ hflush =>
      exact .opened hfree nType pDbClient nAssociateID timeout content
        (timeout.map fun t => env.nTime + t) nContext callback nTime hnop hflush

/-- An action that sends nothing and calls callbacks for timeouts only. -/
theorem act_stepped {action : ProxyAction} {proxy : CDbProxy}
    (hstep : my.proxy.step (pb.withPool generated_pool) action = (proxy, none))
    (hages : CDbProxy.Ages none my.proxy proxy) (nTime : Nat) (action' : MyAction n) :
    Stepped pb generated_pool srv my action' (my.act pb generated_pool srv action nTime) := by
  unfold act
  split
  · rw [hstep]
    exact .aged proxy hages
  · exact .idle

variable (pb generated_pool srv) in
/-- **Every step is of one of the cases,** with the conditions under which the code takes it.
What follows about runs of the client is proved case by case, without unfolding the step again. -/
theorem step_stepped (my : CMyDbProxy n σ) (action : MyAction n) :
    Stepped pb generated_pool srv my action (my.step pb generated_pool srv action).1 := by
  cases action with
  | request action nTime =>
      simp only [step]
      split
      · rename_i henv
        obtain ⟨env, henv⟩ := Option.isSome_iff_exists.mp henv
        unfold act
        split
        · rename_i hfree
          exact request_stepped hfree henv nTime _
        · exact .idle
      · exact .idle
  | push => exact .pushed
  | advance i input => exact .advanced i input rfl
  | getResultInfo =>
      simp only [step]
      split
      · rename_i hready
        simp only [isBetween, Bool.and_eq_true, List.isEmpty_iff] at hready
        exact .taken hready.1.2
      · exact .idle
  | nextResult =>
      simp only [step]
      split
      · exact .idle
      · rename_i sResultInfo rest hlist
        split
        · exact .handedOn sResultInfo rest hlist
        · exact .idle
  | onTimer nCurTime =>
      simp only [step]
      split
      · have hstart : CDbProxy.step (pb.withPool generated_pool) my.proxy (.timerStart nCurTime) =
            (my.proxy.timerStart nCurTime, none) := rfl
        exact act_stepped hstart (.quiet rfl rfl rfl rfl rfl) 0 _
      · exact .idle
  | timerNext =>
      simp only [step]
      exact act_stepped rfl CDbProxy.timerNext_ages 0 _
  | removeClient pDbClient =>
      simp only [step]
      split
      · exact .removed pDbClient
      · exact .idle

/-- The proxy does what a proxy can do. -/
theorem step_proxy (my : CMyDbProxy n σ) (action : MyAction n) :
    (my.step pb generated_pool srv action).1.proxy = my.proxy ∨
      ∃ proxyAction, (my.step pb generated_pool srv action).1.proxy =
        (my.proxy.step (pb.withPool generated_pool) proxyAction).1 := by
  cases action with
  | request action nTime =>
      simp only [step, act]
      split
      · split
        · exact .inr ⟨action, rfl⟩
        · exact .inl rfl
      · exact .inl rfl
  | push => exact .inl rfl
  | advance i input => exact .inl rfl
  | getResultInfo =>
      simp only [step]
      split <;> exact .inl rfl
  | nextResult =>
      simp only [step]
      split
      · exact .inl rfl
      · rename_i sResultInfo rest _
        split
        · exact .inr ⟨.onMessage sResultInfo.pResponse, rfl⟩
        · exact .inl rfl
  | onTimer nCurTime =>
      simp only [step, act]
      split
      · split
        · exact .inr ⟨.timerStart nCurTime, rfl⟩
        · exact .inl rfl
      · exact .inl rfl
  | timerNext =>
      simp only [step, act]
      split
      · exact .inr ⟨.timerNext, rfl⟩
      · exact .inl rfl
  | removeClient pDbClient =>
      simp only [step]
      split
      · exact .inr ⟨.removePendingResponseInfo pDbClient, rfl⟩
      · exact .inl rfl

end CMyDbProxy

end Db
