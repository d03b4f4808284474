import DbService.SessionTable
import DbService.ProxyRequests

/-!
# Deadlines on both sides

A client gives up a request `T` seconds after it is sent (`nTimeout + time(nullptr)`, compared
with `<`), a worker does `T / 2` seconds after it is accepted (compared with `<=`), and 0 is
no deadline for the worker only.  From `T = 2` on the worker's deadline lies inside the
client's; `OnClock` puts both on one clock, and what was reported as timed out there is
discarded by every worker.

* `request_expiry_agreed_iff` -- one request;
* `step_timely` -- one step of client and service on a common clock;
* `expiry_agreed_iff` -- the requests, and what follows for runs;
* `update_within_one_discarded` -- a timeout of one second.
-/

namespace Db

open Reflection ByteText

/-! ## One request -/

/-- The action, with its clock readings at `nTime`. -/
def ProxyAction.at (nTime : Nat) : ProxyAction → ProxyAction
  | .select env pDbClient nID szTableName nTimeout nContext callback =>
      .select { env with nTime := nTime } pDbClient nID szTableName nTimeout nContext callback
  | .update env pMessage => .update { env with nTime := nTime } pMessage
  | .update_r env pDbClient pMessage nTimeout nContext callback =>
      .update_r { env with nTime := nTime } pDbClient pMessage nTimeout nContext callback
  | .remove env nID szTableName => .remove { env with nTime := nTime } nID szTableName
  | .remove_r env pDbClient nID szTableName nTimeout nContext callback =>
      .remove_r { env with nTime := nTime } pDbClient nID szTableName nTimeout nContext callback
  | .insert env pMessage => .insert { env with nTime := nTime } pMessage
  | .insert_r env pDbClient pMessage nTimeout nContext callback =>
      .insert_r { env with nTime := nTime } pDbClient pMessage nTimeout nContext callback
  | .query env pDbClient nAssociateID szTableName szWhereClause vecArg nTimeout nContext
        callback =>
      .query { env with nTime := nTime } pDbClient nAssociateID szTableName szWhereClause vecArg
        nTimeout nContext callback
  | .call env nAssociateID szSQL vecArg =>
      .call { env with nTime := nTime } nAssociateID szSQL vecArg
  | .call_r env pDbClient nAssociateID szSQL vecArg nTimeout nContext callback =>
      .call_r { env with nTime := nTime } pDbClient nAssociateID szSQL vecArg nTimeout nContext
        callback
  | .nop env pDbClient nAssociateID nContext callback =>
      .nop { env with nTime := nTime } pDbClient nAssociateID nContext callback
  | .flush env pDbClient nID eType => .flush { env with nTime := nTime } pDbClient nID eType
  | .onMessage pResponse => .onMessage pResponse
  | .timerStart _ => .timerStart nTime
  | .timerNext => .timerNext
  | .removePendingResponseInfo pDbClient => .removePendingResponseInfo pDbClient

@[simp] theorem ProxyAction.at_nTimeout (action : ProxyAction) (nTime : Nat) :
    (action.at nTime).nTimeout = action.nTimeout := by
  cases action <;> rfl

theorem ProxyAction.at_env (action : ProxyAction) (nTime : Nat) :
    (action.at nTime).env = action.env.map fun env => { env with nTime := nTime } := by
  cases action <;> rfl

/-- The reading from which on the client's timer reports the request. -/
def clientDeadline (nTimeout : Option Nat) (nTime : Nat) : Option Nat :=
  nTimeout.map fun T => nTime + T

namespace SDbCommand

variable (pb : Runtime)

/-- A worker whose clock reads `nCurTime` does not execute the command. -/
def Discarded (sDbCommand : SDbCommand) (nCurTime : Nat) : Prop :=
  ∀ (σ : Type) (srv : Server σ) (st : Store σ) (nSetTime : Nat),
    st.process pb srv sDbCommand ⟨nCurTime, nSetTime⟩ = (st, .expired, [])

/-- A worker whose clock reads `nCurTime` executes it. -/
def Executed (sDbCommand : SDbCommand) (nCurTime : Nat) : Prop :=
  ∀ (σ : Type) (srv : Server σ) (st : Store σ) (nSetTime : Nat),
    st.process pb srv sDbCommand ⟨nCurTime, nSetTime⟩ =
      ((st.execute pb srv sDbCommand.nType sDbCommand.pMessage nSetTime).1,
        (st.execute pb srv sDbCommand.nType sDbCommand.pMessage nSetTime).2, [])

/-- Client and service agree on when a request accepted at `nTime` expires.  With a timeout, a
worker executes it as long as the clock stands still and discards it from the client's deadline
on; without one, it expires on neither side, or on both at once. -/
def AgreesOnExpiry (nTimeout : Option Nat) (nTime : Nat) (sDbCommand : SDbCommand) : Prop :=
  (0 < nTimeout.getD 0 → sDbCommand.Executed pb nTime ∧
    ∀ nCurTime, nTime + nTimeout.getD 0 ≤ nCurTime → sDbCommand.Discarded pb nCurTime) ∧
  (nTimeout.getD 0 = 0 →
    (clientDeadline nTimeout nTime = none ∧
        ∀ nCurTime, nTime ≤ nCurTime → sDbCommand.Executed pb nCurTime) ∨
      (∃ deadline ≤ nTime, clientDeadline nTimeout nTime = some deadline) ∧
        ∀ nCurTime, nTime ≤ nCurTime → sDbCommand.Discarded pb nCurTime)

variable {pb} {sDbCommand : SDbCommand}

/-- No execution looks like a command that is discarded. -/
theorem execute_ne_expired {σ : Type} (srv : Server σ) (st : Store σ) (nType : EOperatorType)
    (pRequest : Option Message) (nSetTime : Nat) :
    (st.execute pb srv nType pRequest nSetTime).2 ≠ .expired := by
  have hexecuted := Store.execute_cases pb srv st nType pRequest nSetTime
  generalize st.execute pb srv nType pRequest nSetTime = result at hexecuted
  cases hexecuted <;> simp

/-- A worker discards a command that is no FLUSH exactly if it is expired, -/
theorem discarded_iff (htype : sDbCommand.nType ≠ .kOT_FLUSH) (nCurTime : Nat) :
    sDbCommand.Discarded pb nCurTime ↔ sDbCommand.isExpired nCurTime = true := by
  constructor
  · intro h
    by_contra hdue
    simp only [Bool.not_eq_true] at hdue
    -- Some worker with some connection.
    let srv : Server Unit := .constant (.done 0 0)
    let st : Store Unit := ⟨CDbCacheMgr.init 0 0, ⟨false, (), 0, []⟩⟩
    have hboth := (h Unit srv st 0).symm.trans (Store.process_executed pb srv htype hdue)
    have houtcome := congrArg (fun result => result.2.1) hboth
    exact execute_ne_expired srv st _ _ _ houtcome.symm
  · intro hexpired σ srv st nSetTime
    exact Store.process_expired pb srv htype hexpired

/-- and executes it otherwise. -/
theorem executed_iff (htype : sDbCommand.nType ≠ .kOT_FLUSH) (nCurTime : Nat) :
    sDbCommand.Executed pb nCurTime ↔ sDbCommand.isExpired nCurTime = false := by
  constructor
  · intro h
    by_contra hexpired
    simp only [Bool.not_eq_false] at hexpired
    let srv : Server Unit := .constant (.done 0 0)
    let st : Store Unit := ⟨CDbCacheMgr.init 0 0, ⟨false, (), 0, []⟩⟩
    have hboth := (h Unit srv st 0).symm.trans (Store.process_expired pb srv htype hexpired)
    have houtcome := congrArg (fun result => result.2.1) hboth
    exact execute_ne_expired srv st _ _ _ houtcome
  · intro hdue σ srv st nSetTime
    exact Store.process_executed pb srv htype hdue

end SDbCommand

namespace CDbProxy

/-- **A request with a session** carries the timeout of its operation, and the proxy enters a
record for it, with an entry at the deadline if there is one. -/
theorem step_request (pb : Runtime) {proxy : CDbProxy} {action : ProxyAction} {nTime : Nat}
    {pRequest : Request} (hsent : (proxy.step pb (action.at nTime)).2 = some pRequest)
    (hsession : pRequest.session_id.getD 0 ≠ 0) :
    ∃ (nType : EOperatorType) (pDbClient nContext callback : Nat),
      pRequest.session_id = some proxy.m_nNextSessionID ∧ pRequest.type = some nType ∧
      nType ≠ .kOT_FLUSH ∧ pRequest.timeout = action.nTimeout ∧
      (proxy.step pb (action.at nTime)).1 = (proxy.openSession nType pDbClient
        ((clientDeadline action.nTimeout nTime).map Int.ofNat) nContext callback).2 := by
  cases henv : (action.at nTime).env with
  | none =>
      rw [step_of_no_env henv] at hsent
      cases hsent
  | some env =>
      have hclock : env.nTime = nTime := by
        rw [action.at_env] at henv
        obtain ⟨_, _, rfl⟩ := Option.map_eq_some_iff.mp henv
        rfl
      obtain ⟨result, hoperate⟩ := exists_operate pb proxy henv
      rw [step_of_operate hoperate] at hsent ⊢
      cases operated henv hoperate with
      | unregistered _ request _ hnone => exact absurd (hnone pRequest hsent) hsession
      | registered nType pDbClient _ timeout _ nContext callback _ _ _ hflush htimeout =>
          rw [action.at_nTimeout] at htimeout
          subst htimeout
          obtain rfl := Option.some.inj hsent
          refine ⟨nType, pDbClient, nContext, callback, rfl, rfl, hflush, rfl, ?_⟩
          simp only [request_r, hclock]
          cases action.nTimeout <;> rfl

end CDbProxy

/-- The command `db::query` makes of a request. -/
theorem query_command {pb : Runtime} {nServiceID nTime nThreadIndex : Nat} {pRequest : Request}
    {sDbCommand : SDbCommand}
    (h : query pb nServiceID pRequest nTime = some (nThreadIndex, sDbCommand)) :
    sDbCommand.nType = pRequest.type.getD .kOT_SELECT ∧
      sDbCommand.nSessionID = pRequest.session_id.getD 0 ∧
      sDbCommand.nTimeout = if pRequest.timeout.getD 0 ≠ 0
        then ((pRequest.timeout.getD 0 / 2 + nTime : Nat) : Int) else 0 := by
  unfold query at h
  split at h
  · cases h
  · obtain ⟨_, rfl⟩ := Prod.mk.inj (Option.some.inj h)
    refine ⟨rfl, rfl, ?_⟩
    split <;> simp_all

/-- **One request.**  The two sides agree exactly from a timeout of 2 seconds on, and where
there is none. -/
theorem request_expiry_agreed_iff {pb : Runtime} {proxy : CDbProxy} {action : ProxyAction}
    {nTime nServiceID nThreadIndex : Nat} {pRequest : Request} {sDbCommand : SDbCommand}
    (hsent : (proxy.step pb (action.at nTime)).2 = some pRequest)
    (haccepted : query pb nServiceID pRequest nTime = some (nThreadIndex, sDbCommand))
    (hsession : sDbCommand.nSessionID ≠ 0) :
    sDbCommand.AgreesOnExpiry pb action.nTimeout nTime ↔
      ∀ T, action.nTimeout = some T → 2 ≤ T := by
  obtain ⟨htype, hid, hdeadline⟩ := query_command haccepted
  rw [hid] at hsession
  obtain ⟨nType, _, _, _, _, htype', hflush, htimeout, _⟩ :=
    CDbProxy.step_request pb hsent hsession
  have hcommand : sDbCommand.nType ≠ .kOT_FLUSH := by
    rw [htype, htype']
    exact hflush
  rw [← hid] at hsession
  rw [htimeout] at hdeadline
  have hexpired : ∀ nCurTime : Nat, sDbCommand.isExpired nCurTime = true ↔
      sDbCommand.nTimeout ≠ 0 ∧ sDbCommand.nTimeout ≤ nCurTime := by
    intro nCurTime
    simp [SDbCommand.isExpired, hsession]
  simp only [SDbCommand.AgreesOnExpiry, SDbCommand.discarded_iff hcommand,
    SDbCommand.executed_iff hcommand, ← Bool.not_eq_true, hexpired]
  cases htime : action.nTimeout with
  | none =>
      have hzero : sDbCommand.nTimeout = 0 := by simpa [htime] using hdeadline
      simp [hzero, clientDeadline]
  | some T =>
      simp only [htime, Option.getD_some] at hdeadline
      constructor
      · intro hagrees T' hT
        obtain rfl := Option.some.inj hT
        obtain ⟨hlimited, hunlimited⟩ := hagrees
        by_contra hsmall
        have hcase : T = 0 ∨ T = 1 := by omega
        rcases hcase with rfl | rfl
        · -- The client reports it at once, no worker ever discards it.
          rcases hunlimited rfl with ⟨hnone, _⟩ | ⟨_, hdiscarded⟩
          · cases hnone
          · have hset := (hdiscarded nTime (Nat.le_refl _)).1
            simp [hdeadline] at hset
        · -- The deadline of the worker is the second the request came in.
          obtain ⟨hexecuted, hdiscarded⟩ := hlimited Nat.one_pos
          have hset := (hdiscarded (nTime + 1) (Nat.le_refl _)).1
          have hvalue : sDbCommand.nTimeout = nTime := by simpa using hdeadline
          rw [hvalue] at hexecuted hset
          exact hexecuted ⟨hset, Int.le_refl _⟩
      · intro hlong
        have hT := hlong T rfl
        have hvalue : sDbCommand.nTimeout = (T / 2 + nTime : Nat) := by
          rw [hdeadline, if_pos (by omega)]
        simp only [Option.getD_some, hvalue]
        refine ⟨fun _ => ⟨?_, ?_⟩, fun hzero => ?_⟩
        · intro hpast
          omega
        · intro nCurTime hlate
          omega
        · omega

/-! ## Results -/

section Results

variable {σ : Type} (pb : Runtime) (srv : Server σ)

/-- No error of the database is reported as a timeout. -/
theorem errorCode_ne_timeOut (nErrorType : Nat) :
    errorCode nErrorType ≠ some .kRC_TIME_OUT := by
  unfold errorCode
  split
  · simp
  · split <;> simp

/-- No handler returns the code of a timeout. -/
theorem handle_ne_timeOut (nType : EOperatorType) (pRequest : Option Message)
    (conn : CDbConnection σ) :
    (CDbThread.handle pb srv nType pRequest conn).1 ≠ .kRC_TIME_OUT := by
  cases pRequest with
  | none => simp [CDbThread.handle]
  | some m =>
      intro htimeOut
      have hexplained := @onDbCommand_explained σ pb srv nType m conn
      rw [CDbThread.handle] at htimeOut
      rw [htimeOut] at hexplained
      rcases hexplained with hok | hhandler | ⟨_, _, _, hcode⟩
      · cases hok
      · exact hhandler
      · exact errorCode_ne_timeOut _ hcode

/-- **No worker reports a timeout.** -/
theorem advance_ne_timeOut (th : CDbThread σ) (input : Input) {sResultInfo : SDbResultInfo}
    (hresult : (th.advance pb srv input).2.result = some sResultInfo) :
    sResultInfo.pResponse.err_code ≠ EResultCode.kRC_TIME_OUT.code := by
  have hprocessed : ∀ (st : Store σ) (sDbCommand : SDbCommand) (clock : Clock)
      (nErrorCode : EResultCode) (pMessage : Option Message),
      (st.process pb srv sDbCommand clock).2.1 = .handled nErrorCode pMessage →
      nErrorCode ≠ .kRC_TIME_OUT := by
    intro st sDbCommand clock nErrorCode pMessage hhandled
    have hcases := Store.process_cases pb srv st sDbCommand clock
    generalize st.process pb srv sDbCommand clock = result at hcases hhandled
    cases hcases with
    | flush => cases hhandled
    | flushNothing => cases hhandled
    | expired => cases hhandled
    | executed _ _ st' outcome hexecuted =>
        cases hexecuted with
        | absorbed =>
            cases hhandled
            decide
        | lost => cases hhandled
        | answered _ _ _ _ _ _ hhandle _ =>
            cases hhandled
            intro heq
            exact handle_ne_timeOut pb srv _ _ st.m_dbConnection
              ((congrArg Prod.fst hhandle).trans heq)
  unfold CDbThread.advance at hresult
  split at hresult
  · split at hresult <;> cases hresult
  · split at hresult <;> cases hresult
  · split at hresult
    · cases hresult
    · rename_i sDbCommand rest _
      unfold CDbThread.processHead at hresult
      have hcode := hprocessed th.store sDbCommand input.clock
      rcases hprocess : th.store.process pb srv sDbCommand input.clock with
        ⟨st', _ | _ | _ | ⟨nErrorCode, pMessage⟩, writes⟩
      · simp [hprocess] at hresult
      · simp [hprocess] at hresult
      · simp [hprocess] at hresult
      · rw [hprocess] at hresult hcode
        simp only at hresult
        split at hresult
        · cases hresult
        · obtain rfl := Option.some.inj hresult
          intro heq
          exact hcode nErrorCode pMessage rfl (EResultCode.code_inj heq)
  · cases hresult
  · split at hresult <;> cases hresult
  · cases hresult
  · cases hresult

end Results

/-! ## Both sides on one clock -/

namespace CDbProxy

/-- What an action without a new session does with entries, records and registrations. -/
structure Sheds (proxy proxy' : CDbProxy) : Prop where
  entries : ∀ node ∈ proxy'.m_listTimeout, node ∈ proxy.m_listTimeout
  records : ∀ (nSessionID : Nat) info,
    proxy'.m_mapPendingResponseInfo[nSessionID]? = some info →
    proxy.m_mapPendingResponseInfo[nSessionID]? = some info
  registered : proxy'.registered = proxy.registered

/-- A callback is one from before, one with another code than that of a timeout, or one for a
record whose entry the clock reading `nTime` has reached. -/
def CallsDue (proxy proxy' : CDbProxy) (nTime : Nat) : Prop :=
  ∀ call ∈ proxy'.invoked, call ∈ proxy.invoked ∨
    call.nErrCode ≠ EResultCode.kRC_TIME_OUT.code ∨
    ∃ node ∈ proxy.m_listTimeout, ∃ info,
      proxy.m_mapPendingResponseInfo[node.2.nSessionID]? = some info ∧
      call.nRequest = info.nRequest ∧ node.2.nTimeout ≤ nTime

variable {proxy : CDbProxy}

/-- Erasing an entry adds none. -/
theorem erase_entries (iter : Option Nat) {node : Nat × STimeoutInfo}
    (hin : node ∈ (proxy.erase iter).m_listTimeout) : node ∈ proxy.m_listTimeout := by
  cases iter with
  | none => exact hin
  | some iter => exact (List.mem_filter.mp hin).1

/-- A response that reports no timeout adds no entry and calls no callback with `kRC_TIME_OUT`. -/
theorem onMessage_sheds (pb : Runtime) (pResponse : Response)
    (hcode : pResponse.err_code ≠ EResultCode.kRC_TIME_OUT.code) (nTime : Nat) :
    Sheds proxy (proxy.onMessage pb pResponse) ∧
      CallsDue proxy (proxy.onMessage pb pResponse) nTime ∧
      (proxy.onMessage pb pResponse).timer = proxy.timer := by
  cases hpending : proxy.m_mapPendingResponseInfo[pResponse.session_id]? with
  | none =>
      rw [onMessage_of_unknown hpending]
      exact ⟨⟨fun _ h => h, fun _ _ h => h, rfl⟩, fun _ h => .inl h, rfl⟩
  | some info =>
      have hread : (readResponse pb pResponse).1 ≠ EResultCode.kRC_TIME_OUT.code := by
        unfold readResponse
        split
        · decide
        · split
          · decide
          · exact hcode
      rw [onMessage_of_pending hpending]
      unfold withoutEntry
      cases hiter : info.iterTimeout with
      | none =>
          refine ⟨⟨fun _ h => h, fun _ _ h => (erase_left h).2, rfl⟩, ?_, rfl⟩
          intro call hcall
          rcases List.mem_append.mp hcall with hold | hnew
          · exact .inl hold
          · exact .inr (.inl ((List.mem_singleton.mp hnew) ▸ hread))
      | some iter =>
          refine ⟨⟨fun _ h => (List.mem_filter.mp h).1, fun _ _ h => (erase_left h).2, rfl⟩, ?_,
            rfl⟩
          intro call hcall
          rcases List.mem_append.mp hcall with hold | hnew
          · exact .inl hold
          · exact .inr (.inl ((List.mem_singleton.mp hnew) ▸ hread))

/-- **A round of `onTimer`** calls back for an entry that its reading has reached. -/
theorem timerNext_sheds {nTime : Nat}
    (htimer : ∀ nCurTime iter, proxy.timer = some (nCurTime, iter) → nCurTime ≤ nTime) :
    Sheds proxy proxy.timerNext ∧ CallsDue proxy proxy.timerNext nTime ∧
      ∀ nCurTime iter, proxy.timerNext.timer = some (nCurTime, iter) → nCurTime ≤ nTime := by
  have hsame : Sheds proxy proxy := ⟨fun _ h => h, fun _ _ h => h, rfl⟩
  unfold timerNext
  split
  · exact ⟨hsame, fun _ h => .inl h, htimer⟩
  · exact ⟨⟨fun _ h => h, fun _ _ h => h, rfl⟩, fun _ h => .inl h, by simp⟩
  · rename_i nCurTime iter hrunning
    have hreading := htimer nCurTime (some iter) hrunning
    split
    · exact ⟨⟨fun _ h => h, fun _ _ h => h, rfl⟩, fun _ h => .inl h, by simp⟩
    · rename_i iter' entry hfind
      have hnode := List.mem_of_find?_eq_some hfind
      split
      · exact ⟨⟨fun _ h => h, fun _ _ h => h, rfl⟩, fun _ h => .inl h, by simp⟩
      · rename_i hdue
        -- The timer goes on with the same reading.
        have hnext : ∀ nCurTime' iter'', some (nCurTime, nextNode proxy.m_listTimeout iter) =
            some (nCurTime', iter'') → nCurTime' ≤ nTime := by
          intro nCurTime' iter'' heq
          rw [← (Prod.mk.inj (Option.some.inj heq)).1]
          exact hreading
        simp only
        cases hpending : proxy.m_mapPendingResponseInfo[entry.nSessionID]? with
        | none =>
            exact ⟨⟨fun _ h => (List.mem_filter.mp h).1, fun _ _ h => h, rfl⟩,
              fun _ h => .inl h, hnext⟩
        | some info =>
            refine ⟨⟨fun _ h => (List.mem_filter.mp h).1, fun _ _ h => (erase_left h).2, rfl⟩,
              ?_, hnext⟩
            intro call hcall
            rcases List.mem_append.mp hcall with hold | hnew
            · exact .inl hold
            · obtain rfl := List.mem_singleton.mp hnew
              exact .inr (.inr ⟨(iter', entry), hnode, info, hpending, rfl, by simp only; omega⟩)

/-- The removal of a client adds no entry and calls nobody back. -/
theorem removePendingResponseInfo_sheds (pDbClient nTime : Nat) :
    Sheds proxy (proxy.removePendingResponseInfo pDbClient) ∧
      CallsDue proxy (proxy.removePendingResponseInfo pDbClient) nTime ∧
      (proxy.removePendingResponseInfo pDbClient).timer = proxy.timer := by
  obtain ⟨hrecords, hregistered, hinvoked⟩ := removePendingResponseInfo_kept proxy pDbClient
  refine ⟨⟨?_, hrecords, hregistered⟩, fun _ h => .inl (hinvoked ▸ h), ?_⟩
  · have hloop : ∀ (ids : List Nat) (proxy' : CDbProxy),
        ∀ node ∈ (ids.foldl removeSession proxy').m_listTimeout, node ∈ proxy'.m_listTimeout := by
      intro ids
      induction ids with
      | nil => exact fun _ _ h => h
      | cons nSessionID rest ih =>
          intro proxy' node hin
          have hhead := ih (proxy'.removeSession nSessionID) node hin
          unfold removeSession at hhead
          split at hhead
          · exact hhead
          · exact erase_entries _ hhead
    unfold removePendingResponseInfo
    split
    · exact fun _ h => h
    · split
      · exact fun _ h => h
      · exact hloop _ proxy
  · unfold removePendingResponseInfo
    split
    · rfl
    · split
      · rfl
      · rename_i setSessionID _
        exact (foldl_removed proxy setSessionID.toList).timer

end CDbProxy

/-- A client and the service it sends to, with one clock.  The workers' side is what was
accepted for them: the commands of requests with a session, each with the number of its
request. -/
structure OnClock where
  proxy : CDbProxy
  clock : Nat
  accepted : List (Nat × SDbCommand)

/-- Time passes in whole seconds; the client acts in between. -/
inductive OnClockAction
  | wait (nSeconds : Nat)
  /-- an action of the client, whose request is accepted at once -/
  | client (action : ProxyAction) (nServiceID : Nat)

namespace OnClock

open CDbProxy

variable (pb : Runtime)

/-- Nothing was sent yet. -/
def init (clock : Nat) : OnClock := ⟨CDbProxy.init, clock, []⟩

/-- What the service accepts of a request. -/
def accept (x : OnClock) (nServiceID : Nat) (pRequest : Option Request) :
    List (Nat × SDbCommand) :=
  match pRequest with
  | none => []
  | some pRequest =>
      match Db.query pb nServiceID pRequest x.clock with
      | none => []
      | some (_, sDbCommand) =>
          if sDbCommand.nSessionID = 0 then [] else [(x.proxy.registered.length, sDbCommand)]

/-- One step, with all clock readings the one of the common clock. -/
def step (x : OnClock) : OnClockAction → OnClock × Unit
  | .wait nSeconds => ({ x with clock := x.clock + nSeconds }, ())
  | .client action nServiceID =>
      ({ x with
          proxy := (x.proxy.step pb (action.at x.clock)).1
          accepted := x.accepted ++
            x.accept pb nServiceID (x.proxy.step pb (action.at x.clock)).2 }, ())

/-- The timeout of an action's request is at least 2 seconds, if it has one, its use of the
proxy is allowed and leaves session ids, and a response reports no timeout: no worker's does. -/
def Orderly (x : OnClock) : OnClockAction → Prop
  | .wait _ => True
  | .client action _ =>
      (∀ T, action.nTimeout = some T → 2 ≤ T) ∧ Allowed x.proxy (action.at x.clock) ∧
        (x.proxy.step pb (action.at x.clock)).1.sessionCount < 2 ^ 64 ∧
        ∀ pResponse, action = .onMessage pResponse →
          pResponse.err_code ≠ EResultCode.kRC_TIME_OUT.code

/-- The commands of a pending request are discarded once its entry is reached, and those of a
request that was reported as timed out are discarded from now on. -/
structure Timely (x : OnClock) : Prop where
  consistent : Consistent x.proxy
  serial : Serial x.proxy
  timer : ∀ nCurTime iter, x.proxy.timer = some (nCurTime, iter) → nCurTime ≤ x.clock
  numbered : ∀ entry ∈ x.accepted, entry.1 < x.proxy.registered.length
  pending : ∀ node ∈ x.proxy.m_listTimeout, ∀ info,
    x.proxy.m_mapPendingResponseInfo[node.2.nSessionID]? = some info →
    ∀ sDbCommand, (info.nRequest, sDbCommand) ∈ x.accepted →
    ∀ nCurTime : Nat, node.2.nTimeout ≤ nCurTime → sDbCommand.Discarded pb nCurTime
  reported : ∀ call ∈ x.proxy.invoked, call.nErrCode = EResultCode.kRC_TIME_OUT.code →
    ∀ sDbCommand, (call.nRequest, sDbCommand) ∈ x.accepted →
    ∀ nCurTime, x.clock ≤ nCurTime → sDbCommand.Discarded pb nCurTime

variable {pb} {x : OnClock}

/-- At first there is nothing to be late. -/
theorem init_timely (clock : Nat) : Timely pb (init clock) where
  consistent := init_consistent
  serial := init_serial
  timer := by simp [init, CDbProxy.init]
  numbered := by simp [init]
  pending := by simp [init]
  reported := by simp [init, CDbProxy.init]

/-- **An action without a new session** keeps the deadlines in step. -/
theorem Timely.shed (h : Timely pb x) {proxy : CDbProxy} (hconsistent : Consistent proxy)
    (hserial : Serial proxy) (hsheds : Sheds x.proxy proxy)
    (hcalls : CallsDue x.proxy proxy x.clock)
    (htimer : ∀ nCurTime iter, proxy.timer = some (nCurTime, iter) → nCurTime ≤ x.clock) :
    Timely pb { x with proxy := proxy } where
  consistent := hconsistent
  serial := hserial
  timer := htimer
  numbered := by
    intro entry hin
    rw [hsheds.registered]
    exact h.numbered entry hin
  pending := fun node hnode info hinfo =>
    h.pending node (hsheds.entries node hnode) info (hsheds.records _ info hinfo)
  reported := by
    intro call hcall hcode sDbCommand hin nCurTime hlate
    rcases hcalls call hcall with hold | hother | ⟨node, hnode, info, hinfo, hrequest, hdue⟩
    · exact h.reported call hold hcode sDbCommand hin nCurTime hlate
    · exact absurd hcode hother
    · rw [hrequest] at hin
      exact h.pending node hnode info hinfo sDbCommand hin nCurTime (by simp only at hlate; omega)

/-- **A new session** with the commands of its request, which are discarded from its deadline
on. -/
theorem Timely.opened (h : Timely pb x) {nType : EOperatorType} {pDbClient nContext callback : Nat}
    {nTimeout : Option Int} (hcount : x.proxy.sessionCount + 1 < 2 ^ 64)
    (hconsistent : Consistent
      (x.proxy.openSession nType pDbClient nTimeout nContext callback).2)
    (hserial : Serial (x.proxy.openSession nType pDbClient nTimeout nContext callback).2)
    {fresh : List (Nat × SDbCommand)}
    (hnumber : ∀ entry ∈ fresh, entry.1 = x.proxy.registered.length)
    (hdeadline : ∀ entry ∈ fresh, ∀ deadline, nTimeout = some deadline →
      ∀ nCurTime : Nat, deadline ≤ nCurTime → entry.2.Discarded pb nCurTime) :
    Timely pb ⟨(x.proxy.openSession nType pDbClient nTimeout nContext callback).2, x.clock,
      x.accepted ++ fresh⟩ where
  consistent := hconsistent
  serial := hserial
  timer := by
    intro nCurTime iter htimer
    rw [openSession_timer] at htimer
    exact h.timer nCurTime iter htimer
  numbered := by
    intro entry hin
    simp only [openSession_registered, List.length_append, List.length_singleton]
    rcases List.mem_append.mp hin with hold | hnew
    · exact Nat.lt_succ_of_lt (h.numbered entry hold)
    · rw [hnumber entry hnew]
      exact Nat.lt_succ_self _
  pending := by
    intro node hnode info hinfo sDbCommand hin nCurTime hlate
    have hnext := h.consistent.next_eq hcount
    have hcases : node ∈ x.proxy.m_listTimeout ∨ ∃ deadline, nTimeout = some deadline ∧
        node = (x.proxy.nNextNode, ⟨x.proxy.m_nNextSessionID, deadline⟩) := by
      simp only [openSession_listTimeout] at hnode
      cases nTimeout with
      | none => exact .inl hnode
      | some deadline => simpa [List.mem_orderedInsert, or_comm] using hnode
    rcases hcases with hold | ⟨deadline, hsome, rfl⟩
    · -- An old entry belongs to an old record, whose request has an old number.
      obtain ⟨info', hinfo', _⟩ := h.consistent.only_entry node hold
      have hne : x.proxy.m_nNextSessionID ≠ node.2.nSessionID := by
        have hle := (h.consistent.ids _ info' hinfo').2
        omega
      simp only [openSession_pending, Std.ExtTreeMap.getElem?_insert, compare_eq_iff_eq, if_neg hne]
        at hinfo
      have hlt : info.nRequest < x.proxy.registered.length :=
        (List.getElem?_eq_some_iff.mp (h.serial.registered _ info hinfo)).1
      rcases List.mem_append.mp hin with hin | hnew
      · exact h.pending node hold info hinfo sDbCommand hin nCurTime hlate
      · have heq := hnumber _ hnew
        simp only at heq
        omega
    · simp only [openSession_pending, Std.ExtTreeMap.getElem?_insert_self, Option.some.injEq]
        at hinfo
      subst hinfo
      rcases List.mem_append.mp hin with hin | hnew
      · exact absurd (h.numbered _ hin) (Nat.lt_irrefl _)
      · exact hdeadline _ hnew deadline hsome nCurTime hlate
  reported := by
    intro call hcall hcode sDbCommand hin
    simp only [openSession_invoked] at hcall
    rcases List.mem_append.mp hin with hin | hnew
    · exact h.reported call hcall hcode sDbCommand hin
    · have hlt := h.serial.called_lt (List.mem_map_of_mem hcall)
      have heq := hnumber _ hnew
      simp only at heq
      omega

/-- What is accepted of a request with a session. -/
theorem mem_accept {nServiceID : Nat} {pRequest : Option Request} {entry : Nat × SDbCommand}
    (hin : entry ∈ x.accept pb nServiceID pRequest) :
    entry.1 = x.proxy.registered.length ∧ entry.2.nSessionID ≠ 0 ∧
      ∃ request nThreadIndex, pRequest = some request ∧
        Db.query pb nServiceID request x.clock = some (nThreadIndex, entry.2) := by
  unfold accept at hin
  split at hin
  · cases hin
  · rename_i request
    split at hin
    · cases hin
    · rename_i nThreadIndex sDbCommand hquery
      split at hin
      · cases hin
      · rename_i hsession
        obtain rfl := List.mem_singleton.mp hin
        exact ⟨rfl, hsession, request, nThreadIndex, rfl, hquery⟩

/-- **The step lemma.**  Waiting only makes deadlines pass, a new request gets an entry that is
reached no earlier than its command is discarded, and the walk of the timer reports what it has
reached. -/
theorem step_timely (h : Timely pb x) {action : OnClockAction} (horderly : x.Orderly pb action) :
    Timely pb (x.step pb action).1 := by
  cases action with
  | wait nSeconds =>
      refine ⟨h.consistent, h.serial, ?_, h.numbered, h.pending, ?_⟩
      · intro nCurTime iter htimer
        have hle := h.timer nCurTime iter htimer
        simp only [step]
        omega
      · intro call hcall hcode sDbCommand hin nCurTime hlate
        exact h.reported call hcall hcode sDbCommand hin nCurTime
          (Nat.le_trans (Nat.le_add_right ..) hlate)
  | client action nServiceID =>
      obtain ⟨hlong, hallowed, hcount, hcode⟩ := horderly
      have hconsistent := step_consistent pb h.consistent (action.at x.clock)
        (step_sound pb h.consistent.toSound _ hallowed) hcount
      have hserial := step_serial pb h.serial (action.at x.clock)
      by_cases hsession : ∃ pRequest, (x.proxy.step pb (action.at x.clock)).2 = some pRequest ∧
          pRequest.session_id.getD 0 ≠ 0
      · obtain ⟨pRequest, hsent, hid⟩ := hsession
        obtain ⟨nType, pDbClient, nContext, callback, _, _, _, _, hopened⟩ :=
          step_request pb hsent hid
        simp only [step]
        rw [hopened] at hconsistent hserial hcount ⊢
        refine h.opened (by simpa [sessionCount] using hcount) hconsistent hserial
          (fun entry hin => (mem_accept hin).1) ?_
        intro entry hin deadline hdeadline nCurTime hlate
        obtain ⟨_, hnonzero, request, nThreadIndex, hrequest, hquery⟩ := mem_accept hin
        have hagrees := (request_expiry_agreed_iff hrequest hquery hnonzero).mpr hlong
        cases htime : action.nTimeout with
        | none => simp [htime, clientDeadline] at hdeadline
        | some T =>
            have hT := hlong T htime
            rw [htime] at hagrees hdeadline
            have hvalue : ((x.clock + T : Nat) : Int) = deadline := by
              simpa [clientDeadline] using hdeadline
            exact (hagrees.1 (by simp only [Option.getD_some]; omega)).2 nCurTime
              (by simp only [Option.getD_some]; omega)
      · have hnothing : x.accept pb nServiceID (x.proxy.step pb (action.at x.clock)).2 = [] := by
          refine List.eq_nil_iff_forall_not_mem.mpr fun entry hin => ?_
          obtain ⟨_, hnonzero, request, _, hrequest, hquery⟩ := mem_accept hin
          rw [(query_command hquery).2.1] at hnonzero
          exact hsession ⟨request, hrequest, hnonzero⟩
        simp only [step, hnothing]
        have hkind := step_kind pb x.proxy (action.at x.clock)
        generalize haction : action.at x.clock = action' at hkind hconsistent hserial hcount
        generalize (x.proxy.step pb action').1 = proxy at hkind hconsistent hserial hcount
        cases hkind with
        | idle =>
            simp only [List.append_nil]
            exact h
        | opened _ nType pDbClient nTimeout nContext callback =>
            exact h.opened (by simpa [sessionCount] using hcount) hconsistent hserial
              (by simp) (by simp)
        | message pResponse =>
            have hmessage : action = .onMessage pResponse := by
              cases action <;> simp [ProxyAction.at] at haction
              rw [haction]
            obtain ⟨hsheds, hcalls, htimer⟩ :=
              onMessage_sheds pb pResponse (hcode pResponse hmessage) x.clock
            simp only [List.append_nil]
            exact h.shed hconsistent hserial hsheds hcalls
              (fun nCurTime iter hrunning => h.timer nCurTime iter (htimer ▸ hrunning))
        | timerStart nCurTime =>
            have hreading : nCurTime = x.clock := by
              cases action <;> simp [ProxyAction.at] at haction
              exact haction.symm
            simp only [List.append_nil]
            refine h.shed hconsistent hserial ⟨fun _ hin => hin, fun _ _ hin => hin, rfl⟩
              (fun _ hin => .inl hin) ?_
            intro nCurTime' iter hrunning
            rw [← (Prod.mk.inj (Option.some.inj hrunning)).1, hreading]
        | timerNext =>
            obtain ⟨hsheds, hcalls, htimer⟩ := timerNext_sheds h.timer
            simp only [List.append_nil]
            exact h.shed hconsistent hserial hsheds hcalls htimer
        | removal pDbClient =>
            obtain ⟨hsheds, hcalls, htimer⟩ :=
              removePendingResponseInfo_sheds pDbClient x.clock
            simp only [List.append_nil]
            exact h.shed hconsistent hserial hsheds hcalls
              (fun nCurTime iter hrunning => h.timer nCurTime iter (htimer ▸ hrunning))

end OnClock

/-- **Deadlines.**  Client and service agree on when a request expires exactly when its timeout
is at least 2 seconds, or its operation takes none.  And in every run in which all timeouts are,
a request that was reported to the caller as timed out is discarded by every worker from then
on. -/
theorem expiry_agreed_iff (pb : Runtime) :
    (∀ (proxy : CDbProxy) (action : ProxyAction) (nTime nServiceID nThreadIndex : Nat)
        (pRequest : Request) (sDbCommand : SDbCommand),
      (proxy.step pb (action.at nTime)).2 = some pRequest →
      query pb nServiceID pRequest nTime = some (nThreadIndex, sDbCommand) →
      sDbCommand.nSessionID ≠ 0 →
      (sDbCommand.AgreesOnExpiry pb action.nTimeout nTime ↔
        ∀ T, action.nTimeout = some T → 2 ≤ T)) ∧
    ∀ (clock : Nat) (actions : List OnClockAction),
      Runs.Guarded (OnClock.step pb) (OnClock.Orderly pb) (OnClock.init clock) actions →
      let x := Runs.run (OnClock.step pb) (OnClock.init clock) actions
      ∀ call ∈ x.proxy.invoked, call.nErrCode = EResultCode.kRC_TIME_OUT.code →
        ∀ sDbCommand, (call.nRequest, sDbCommand) ∈ x.accepted →
        ∀ nCurTime, x.clock ≤ nCurTime → sDbCommand.Discarded pb nCurTime := by
  refine ⟨?_, ?_⟩
  · intro proxy action nTime nServiceID nThreadIndex pRequest sDbCommand hsent haccepted hsession
    exact request_expiry_agreed_iff hsent haccepted hsession
  · intro clock actions horderly
    exact (Runs.run_invariant (OnClock.Timely pb) (fun _ _ h hok => OnClock.step_timely h hok)
      (OnClock.init_timely clock) horderly).reported

/-- An UPDATE of player 5 within `T` seconds, and what is sent and executed of it at 100. -/
def updateWithin (T : Nat) : ProxyAction :=
  .update_r ⟨0, true⟩ 1 (.row (PlayerBase.player 5 [97])) T 7 0

/-- An update of player 5 with timeout `T`, as the client sends it. -/
def updateRequest (T : Nat) : Request where
  session_id := some 1
  associate_id := some 5
  type := some .kOT_UPDATE
  timeout := some T
  content := some (packFrom PlayerBase.runtime (.row (PlayerBase.player 5 [97])))

/-- The command the service makes of it. -/
def updateCommand (nTimeout : Int) : SDbCommand :=
  ⟨0, .kOT_UPDATE, 1, nTimeout, some (.row (PlayerBase.player 5 [97]))⟩

/-- The row is unpacked from the request. -/
theorem query_updateRequest (T : Nat) (hT : T ≠ 0) :
    query PlayerBase.runtime 0 (updateRequest T) 100 =
      some (5, updateCommand (T / 2 + 100 : Nat)) := by
  have hdata : PlayerBase.runtime.SerializeToString (.row (PlayerBase.player 5 [97])) =
      some [13, 5, 0, 0, 0, 18, 1, 97] := rfl
  have hknown : PlayerBase.runtime.Knows (.row (PlayerBase.player 5 [97])) := rfl
  have hparse := PlayerBase.runtime_lawful.parse_serialize _ _ hknown hdata
  have hunpack : unpack PlayerBase.runtime
      (packFrom PlayerBase.runtime (.row (PlayerBase.player 5 [97]))) =
        some (.row (PlayerBase.player 5 [97])) := (unpack_packFrom rfl hdata).trans hparse
  simp [query, updateRequest, hunpack, updateCommand, hT]

/-- With 2 seconds both sides agree, and the report of a run that waits for it is final. -/
theorem update_within_two_agreed :
    ((updateCommand 101).AgreesOnExpiry PlayerBase.runtime (some 2) 100 ↔
      ∀ T, some 2 = some T → 2 ≤ T) ∧
    let x := Runs.run (OnClock.step PlayerBase.runtime) (OnClock.init 100)
      [.client (updateWithin 2) 0, .wait 2, .client (.timerStart 0) 0, .client .timerNext 0]
    ∀ call ∈ x.proxy.invoked, call.nErrCode = EResultCode.kRC_TIME_OUT.code →
      ∀ sDbCommand, (call.nRequest, sDbCommand) ∈ x.accepted →
      ∀ nCurTime, x.clock ≤ nCurTime → sDbCommand.Discarded PlayerBase.runtime nCurTime := by
  have hexpiry := expiry_agreed_iff PlayerBase.runtime
  refine ⟨?_, hexpiry.2 100 _ ?_⟩
  · exact hexpiry.1 CDbProxy.init (updateWithin 2) 100 0 5 (updateRequest 2) (updateCommand 101)
      rfl (query_updateRequest 2 (by decide)) (by decide)
  · refine ⟨⟨?_, trivial, by decide, nofun⟩, trivial, ⟨nofun, rfl, by decide, nofun⟩,
      ⟨nofun, trivial, by decide, nofun⟩, trivial⟩
    intro T hT
    obtain rfl : 2 = T := Option.some.inj hT
    exact Nat.le_refl 2

/-- With 1 second every worker discards the command in the second it is sent in. -/
theorem update_within_one_discarded :
    ¬ ∀ (pb : Runtime) (proxy : CDbProxy) (action : ProxyAction)
        (nTime nServiceID nThreadIndex : Nat) (pRequest : Request) (sDbCommand : SDbCommand),
      (proxy.step pb (action.at nTime)).2 = some pRequest →
      query pb nServiceID pRequest nTime = some (nThreadIndex, sDbCommand) →
      sDbCommand.nSessionID ≠ 0 →
      sDbCommand.AgreesOnExpiry pb action.nTimeout nTime := by
  intro h
  have hagrees := h PlayerBase.runtime CDbProxy.init (updateWithin 1) 100 0 5 (updateRequest 1)
    (updateCommand 100) rfl (query_updateRequest 1 (by decide)) (by decide)
  have hexecuted := (hagrees.1 Nat.one_pos).1
  rw [SDbCommand.executed_iff (by decide)] at hexecuted
  revert hexecuted
  decide

end Db
