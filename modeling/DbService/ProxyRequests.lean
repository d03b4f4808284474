import DbService.Callbacks

/-!
# The requests of a proxy

Twelve operations make requests.  Seven of them take a callback; they enter a session before they
send (`Operated.registered`), unless the client is null or the message has no primary key.  So a
request that is reported as not sent leaves no trace exactly if it was refused before that
(`unsent_leaves_no_trace_iff`).

* `operated` -- an operation registers nothing, or opens one session;
* `unsent_leaves_no_trace_iff` -- what is reported as not sent leaves no trace exactly if it was
  refused first;
* `unsent_select_called_back` -- a SELECT that was not sent and is called back.
-/

namespace Db

open Reflection ByteText

/-- The surroundings of a request; no other action is one. -/
def ProxyAction.env : ProxyAction → Option Environment
  | .select env .. | .update env .. | .update_r env .. | .remove env .. | .remove_r env ..
  | .insert env .. | .insert_r env .. | .query env .. | .call env .. | .call_r env ..
  | .nop env .. | .flush env .. => some env
  | .onMessage .. | .timerStart .. | .timerNext | .removePendingResponseInfo .. => none

/-- An operation with a callback, for a client and, where it needs one, with a primary key. -/
def ProxyAction.Registers : ProxyAction → Prop
  | .select _ pDbClient .. | .remove_r _ pDbClient .. | .query _ pDbClient ..
  | .call_r _ pDbClient .. | .nop _ pDbClient .. => pDbClient ≠ 0
  | .update_r _ pDbClient pMessage .. | .insert_r _ pDbClient pMessage .. =>
      pDbClient ≠ 0 ∧ getPrimaryValue pMessage ≠ none
  | _ => False

/-- The timeout an operation with a session is given; a nop takes none. -/
def ProxyAction.nTimeout : ProxyAction → Option Nat
  | .select _ _ _ _ nTimeout _ _ => some nTimeout
  | .update_r _ _ _ nTimeout _ _ => some nTimeout
  | .remove_r _ _ _ _ nTimeout _ _ => some nTimeout
  | .insert_r _ _ _ nTimeout _ _ => some nTimeout
  | .query _ _ _ _ _ _ nTimeout _ _ => some nTimeout
  | .call_r _ _ _ _ _ nTimeout _ _ => some nTimeout
  | _ => none

namespace CDbProxy

variable (pb : Runtime)

/-- What an operation returns, sends and leaves. -/
def operate (proxy : CDbProxy) : ProxyAction → Option (Bool × Option Request × CDbProxy)
  | .select env pDbClient nID szTableName nTimeout nContext callback =>
      some (proxy.select pb env pDbClient nID szTableName nTimeout nContext callback)
  | .update env pMessage => some (proxy.update pb env pMessage)
  | .update_r env pDbClient pMessage nTimeout nContext callback =>
      some (proxy.update_r pb env pDbClient pMessage nTimeout nContext callback)
  | .remove env nID szTableName => some (proxy.remove pb env nID szTableName)
  | .remove_r env pDbClient nID szTableName nTimeout nContext callback =>
      some (proxy.remove_r pb env pDbClient nID szTableName nTimeout nContext callback)
  | .insert env pMessage => some (proxy.insert pb env pMessage)
  | .insert_r env pDbClient pMessage nTimeout nContext callback =>
      some (proxy.insert_r pb env pDbClient pMessage nTimeout nContext callback)
  | .query env pDbClient nAssociateID szTableName szWhereClause vecArg nTimeout nContext
        callback =>
      some (proxy.query pb env pDbClient nAssociateID szTableName szWhereClause vecArg nTimeout
        nContext callback)
  | .call env nAssociateID szSQL vecArg => some (proxy.call pb env nAssociateID szSQL vecArg)
  | .call_r env pDbClient nAssociateID szSQL vecArg nTimeout nContext callback =>
      some (proxy.call_r pb env pDbClient nAssociateID szSQL vecArg nTimeout nContext callback)
  | .nop env pDbClient nAssociateID nContext callback =>
      some (proxy.nop pb env pDbClient nAssociateID nContext callback)
  | .flush env pDbClient nID eType => some (proxy.flush pb env pDbClient nID eType)
  | .onMessage .. | .timerStart .. | .timerNext | .removePendingResponseInfo .. => none

variable {pb} {proxy : CDbProxy} {action : ProxyAction}

/-- The step of a request is its operation. -/
theorem step_of_operate {result : Bool × Option Request × CDbProxy}
    (h : proxy.operate pb action = some result) : proxy.step pb action = result.2.swap := by
  cases action <;> first | exact congrArg (·.2.swap) (Option.some.inj h) | cases h

/-- Exactly the requests have surroundings. -/
theorem exists_operate (pb : Runtime) (proxy : CDbProxy) {action : ProxyAction}
    {env : Environment} (h : action.env = some env) :
    ∃ result, proxy.operate pb action = some result := by
  cases action <;> first | exact ⟨_, rfl⟩ | cases h

/-- An action without surroundings sends nothing. -/
theorem step_of_no_env (h : action.env = none) : (proxy.step pb action).2 = none := by
  cases action <;> first | rfl | cases h

variable (pb) in
/-- **A request, sorted by what it does:** it leaves the proxy as it is, or it opens a session and
returns what sending returns. -/
inductive Operated (proxy : CDbProxy) (env : Environment) (action : ProxyAction) :
    Bool × Option Request × CDbProxy → Prop
  | unregistered (bSent : Bool) (request : Option Request) (hnot : ¬ action.Registers)
      (hnone : ∀ pRequest, request = some pRequest → pRequest.session_id.getD 0 = 0) :
      Operated proxy env action (bSent, request, proxy)
  | registered (nType : EOperatorType) (pDbClient nAssociateID : Nat) (timeout : Option Nat)
      (content : Message) (nContext callback : Nat) (hregisters : action.Registers)
      (hnop : timeout = none ↔ nType = .kOT_NOP) (hclient : pDbClient ≠ 0)
      (hflush : nType ≠ .kOT_FLUSH) (htimeout : timeout = action.nTimeout) :
      Operated proxy env action
        (proxy.request_r pb env nType pDbClient nAssociateID timeout content nContext callback)

/-- The test for a null client. -/
theorem Operated.of_client {env : Environment} {pDbClient : Nat}
    {result : Bool × Option Request × CDbProxy} (hnull : pDbClient = 0 → ¬ action.Registers)
    (hother : pDbClient ≠ 0 → Operated pb proxy env action result) :
    Operated pb proxy env action (if pDbClient = 0 then (false, none, proxy) else result) := by
  split
  · rename_i hzero
    exact .unregistered false none (hnull hzero) (fun _ hsent => by cases hsent)
  · rename_i hclient
    exact hother hclient

theorem operated {env : Environment} {result : Bool × Option Request × CDbProxy}
    (henv : action.env = some env) (h : proxy.operate pb action = some result) :
    Operated pb proxy env action result := by
  -- A request without a session has the id 0.
  have hnone : ∀ nType nAssociateID content pRequest,
      (proxy.request_n pb env nType nAssociateID content).2.1 = some pRequest →
        pRequest.session_id.getD 0 = 0 := by
    intro nType nAssociateID content pRequest hrequest
    obtain rfl := Option.some.inj hrequest
    rfl
  cases action with
  | select _ pDbClient | remove_r _ pDbClient | query _ pDbClient | call_r _ pDbClient
  | nop _ pDbClient =>
      cases henv
      obtain rfl := Option.some.inj h
      exact .of_client (fun hzero hclient => hclient hzero) fun hclient =>
        .registered _ _ _ _ _ _ _ hclient (by simp) hclient (by simp) rfl
  | update_r _ pDbClient pMessage | insert_r _ pDbClient pMessage =>
      cases henv
      obtain rfl := Option.some.inj h
      refine .of_client (fun hzero hboth => hboth.1 hzero) fun hclient => ?_
      cases hid : getPrimaryValue pMessage with
      | none =>
          exact .unregistered false none (fun hboth => hboth.2 hid) (fun _ hsent => by cases hsent)
      | some nID =>
          exact .registered _ _ _ _ _ _ _ ⟨hclient, by simp [hid]⟩ (by simp) hclient
            (by simp) rfl
  | update _ pMessage | insert _ pMessage =>
      cases henv
      obtain rfl := Option.some.inj h
      dsimp only [update, insert]
      cases getPrimaryValue pMessage with
      | none => exact .unregistered false none id (fun _ hsent => by cases hsent)
      | some nID => exact .unregistered _ _ id (hnone _ _ _)
  | remove | call =>
      cases henv
      obtain rfl := Option.some.inj h
      exact .unregistered _ _ id (hnone _ _ _)
  | flush _ pDbClient =>
      cases henv
      obtain rfl := Option.some.inj h
      exact .of_client (fun _ => id) fun _ => .unregistered _ _ id (hnone _ _ _)
  | onMessage | timerStart | timerNext | removePendingResponseInfo => cases henv

variable (pb) in
/-- **No trace of a request** that took `proxy` to `proxy'`: the containers are as they were, and
however the run goes on, what it registered is never called back. -/
structure NoTrace (proxy proxy' : CDbProxy) : Prop where
  pending : proxy'.m_mapPendingResponseInfo = proxy.m_mapPendingResponseInfo
  sessions : proxy'.m_mapPendingResponseInfoByDbClient = proxy.m_mapPendingResponseInfoByDbClient
  entries : proxy'.m_listTimeout = proxy.m_listTimeout
  silent : ∀ later, ∀ call ∈ (Runs.run (step pb) proxy' later).invoked,
    call.nRequest < proxy.registered.length ∨ proxy'.registered.length ≤ call.nRequest

/-- A proxy that did not change has no trace. -/
theorem NoTrace.refl (proxy : CDbProxy) : NoTrace pb proxy proxy :=
  ⟨rfl, rfl, rfl, fun _ _ _ => Nat.lt_or_ge _ _⟩

/-- A new session is one: its record has a number no record had. -/
theorem openSession_trace (hserial : Serial proxy) (nType : EOperatorType) (pDbClient : Nat)
    (nTimeout : Option Int) (nContext callback : Nat) :
    ¬ NoTrace pb proxy (proxy.openSession nType pDbClient nTimeout nContext callback).2 := by
  intro htrace
  have hpending := htrace.pending
  rw [openSession_pending] at hpending
  have hnew : proxy.m_mapPendingResponseInfo[proxy.m_nNextSessionID]? =
      some (proxy.newInfo nType pDbClient nTimeout nContext callback) := by
    rw [← hpending]
    exact Std.ExtTreeMap.getElem?_insert_self
  have hlt := (List.getElem?_eq_some_iff.mp (hserial.registered _ _ hnew)).1
  exact absurd hlt (Nat.lt_irrefl _)

end CDbProxy

/-- **A request reported as not sent leaves no trace** exactly if it was refused before anything
was registered. -/
theorem unsent_leaves_no_trace_iff (pb : Runtime) (before : List ProxyAction)
    (action : ProxyAction) {env : Environment} (henv : action.env = some env)
    {result : Bool × Option Request × CDbProxy}
    (hoperate : (Runs.run (CDbProxy.step pb) CDbProxy.init before).operate pb action =
      some result) :
    (result.1 = false →
        CDbProxy.NoTrace pb (Runs.run (CDbProxy.step pb) CDbProxy.init before) result.2.2) ↔
      (env.bSent = true ∨ ¬ action.Registers) := by
  have hserial := CDbProxy.run_serial pb before
  generalize Runs.run (CDbProxy.step pb) CDbProxy.init before = proxy at *
  cases CDbProxy.operated henv hoperate with
  | unregistered bSent request hnot => exact iff_of_true (fun _ => .refl proxy) (.inr hnot)
  | registered nType pDbClient nAssociateID timeout content nContext callback hregisters =>
      constructor
      · intro hno
        refine .inl ?_
        by_contra hsent
        rw [Bool.not_eq_true] at hsent
        exact CDbProxy.openSession_trace hserial _ _ _ _ _ (hno hsent)
      · intro hcase
        have hsent := hcase.resolve_right (not_not_intro hregisters)
        intro hfalse
        exact absurd (hsent.symm.trans hfalse) (by decide)

/-- A select that is not sent. -/
def unsentSelect : ProxyAction := .select ⟨100, false⟩ 1 5 "player_base" 10 7 0

/-- The theorem at that select. -/
theorem unsent_leaves_no_trace_unsentSelect :
    (false = false → CDbProxy.NoTrace PlayerBase.runtime CDbProxy.init
        (CDbProxy.init.openSession .kOT_SELECT 1 (some 110) 7 0).2) ↔
      (false = true ∨ ¬ unsentSelect.Registers) :=
  unsent_leaves_no_trace_iff PlayerBase.runtime [] unsentSelect rfl rfl

/-- The caller was told that it failed, and is called back when it times out. -/
theorem unsent_select_called_back :
    ¬ ∀ (pb : Runtime) (before : List ProxyAction) (action : ProxyAction)
      (result : Bool × Option Request × CDbProxy),
      (Runs.run (CDbProxy.step pb) CDbProxy.init before).operate pb action = some result →
      result.1 = false →
      CDbProxy.NoTrace pb (Runs.run (CDbProxy.step pb) CDbProxy.init before) result.2.2 := by
  intro h
  have hno := h PlayerBase.runtime [] unsentSelect _ rfl rfl
  have hsilent := hno.silent [.timerStart 200, .timerNext]
    ⟨0, 0, EResultCode.kRC_TIME_OUT.code, none, 7⟩ (List.mem_singleton.mpr rfl)
  exact absurd hsilent (by decide)

end Db
