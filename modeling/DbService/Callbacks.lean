import DbService.ProxyIterators
import DbService.PlayerBase

/-!
# Callbacks of a proxy

Every request with a session is answered by at most one callback.  A step of the proxy
either takes records away, enters one, or takes one record away and calls its callback
(`Turn`); so a request has a pending record or an invocation, never two of them, and both
carry what was registered (`Serial`).  After a client is removed no record of a request it
had made is left, and none comes back (`Silenced`).

* `step_turn`, `step_serial` -- one step;
* `run_serial`, `run_silenced` -- all runs;
* `callback_at_most_once` -- what a client may rely on.
-/

namespace Db

open Reflection ByteText

namespace CDbProxy

/-- **What an action does with records, registrations and invocations.** -/
inductive Turn (proxy proxy' : CDbProxy) : Prop
  | kept
      (hpending : ∀ (nSessionID : Nat) info,
        proxy'.m_mapPendingResponseInfo[nSessionID]? = some info →
        proxy.m_mapPendingResponseInfo[nSessionID]? = some info)
      (hregistered : proxy'.registered = proxy.registered)
      (hinvoked : proxy'.invoked = proxy.invoked)
  | opened (info : SPendingResponseInfo)
      (hpending : ∀ nSessionID info', proxy'.m_mapPendingResponseInfo[nSessionID]? = some info' →
        info' = info ∧ nSessionID = info.nSessionID ∨
          proxy.m_mapPendingResponseInfo[nSessionID]? = some info')
      (hrequest : info.nRequest = proxy.registered.length)
      (hclient : info.pDbClient ≠ 0)
      (hregistered : proxy'.registered =
        proxy.registered ++ [⟨info.nContext, info.callback, info.pDbClient⟩])
      (hinvoked : proxy'.invoked = proxy.invoked)
  | called (nSessionID : Nat) (info : SPendingResponseInfo)
      (nErrCode : Nat) (pMessage : Option Message)
      (hinfo : proxy.m_mapPendingResponseInfo[nSessionID]? = some info)
      (hpending : ∀ nSessionID' info',
        proxy'.m_mapPendingResponseInfo[nSessionID']? = some info' →
        nSessionID' ≠ nSessionID ∧
          proxy.m_mapPendingResponseInfo[nSessionID']? = some info')
      (hregistered : proxy'.registered = proxy.registered)
      (hinvoked : proxy'.invoked = proxy.invoked ++
        [⟨info.nRequest, info.callback, nErrCode, pMessage, info.nContext⟩])

section

variable {proxy : CDbProxy}

/-- A response takes its record and calls back, -/
theorem onMessage_turn (pb : Runtime) (pResponse : Response) :
    Turn proxy (proxy.onMessage pb pResponse) := by
  cases hpending : proxy.m_mapPendingResponseInfo[pResponse.session_id]? with
  | none =>
      rw [onMessage_of_unknown hpending]
      exact .kept (fun _ _ hsome => hsome) rfl rfl
  | some info =>
      rw [onMessage_of_pending hpending]
      unfold withoutEntry
      cases info.iterTimeout <;>
        exact .called _ info _ _ hpending (fun _ _ hsome => erase_left hsome) rfl rfl

/-- and so does the round of the timer that finds an expired one. -/
theorem timerNext_turn : Turn proxy proxy.timerNext := by
  have houtcome : TimerOutcome proxy proxy.timerNext := timerNext_outcome
  generalize proxy.timerNext = proxy' at houtcome
  cases houtcome with
  | idle => exact .kept (fun _ _ hsome => hsome) rfl rfl
  | done => exact .kept (fun _ _ hsome => hsome) rfl rfl
  | dead => exact .kept (fun _ _ hsome => hsome) rfl rfl
  | stale => exact .kept (fun _ _ hsome => hsome) rfl rfl
  | expired nCurTime node info hnode hpending =>
      exact .called _ info _ _ hpending (fun _ _ hsome => erase_left hsome) rfl rfl

/-- The records a removal leaves were there, and the history stands. -/
theorem removePendingResponseInfo_kept (proxy : CDbProxy) (pDbClient : Nat) :
    (∀ (nSessionID : Nat) info, (proxy.removePendingResponseInfo
        pDbClient).m_mapPendingResponseInfo[nSessionID]? = some info →
      proxy.m_mapPendingResponseInfo[nSessionID]? = some info) ∧
    (proxy.removePendingResponseInfo pDbClient).registered = proxy.registered ∧
    (proxy.removePendingResponseInfo pDbClient).invoked = proxy.invoked := by
  by_cases hclient : pDbClient = 0
  · rw [removePendingResponseInfo, if_pos hclient]
    exact ⟨fun _ _ hsome => hsome, rfl, rfl⟩
  · have hremoval := removePendingResponseInfo_removal proxy hclient
    refine ⟨fun nSessionID info hsome => ?_, hremoval.registered, hremoval.invoked⟩
    rw [hremoval.pending] at hsome
    split at hsome
    · cases hsome
    · exact hsome

/-- Every action is a turn. -/
theorem step_turn (pb : Runtime) (proxy : CDbProxy) (action : ProxyAction) :
    Turn proxy (proxy.step pb action).1 := by
  have hkind := step_kind pb proxy action
  generalize (proxy.step pb action).1 = proxy' at hkind
  cases hkind with
  | idle => exact .kept (fun _ _ hsome => hsome) rfl rfl
  | opened _ nType pDbClient nTimeout nContext callback _ hclient =>
      refine .opened (proxy.newInfo nType pDbClient nTimeout nContext callback) ?_ rfl hclient
        (openSession_registered ..) (openSession_invoked ..)
      intro nSessionID info' hsome
      rw [openSession_pending, Std.ExtTreeMap.getElem?_insert] at hsome
      by_cases heq : proxy.m_nNextSessionID = nSessionID
      · refine .inl ⟨?_, heq.symm⟩
        simpa [heq, eq_comm] using hsome
      · exact .inr (by simpa [heq] using hsome)
  | message pResponse => exact onMessage_turn pb pResponse
  | timerStart nCurTime => exact .kept (fun _ _ hsome => hsome) rfl rfl
  | timerNext => exact timerNext_turn
  | removal pDbClient =>
      obtain ⟨hpending, hregistered, hinvoked⟩ :=
        removePendingResponseInfo_kept proxy pDbClient
      exact .kept hpending hregistered hinvoked

/-! ## One callback a request -/

/-- **A request is pending once or called once.**  Records and invocations carry what
their request registered. -/
structure Serial (proxy : CDbProxy) : Prop where
  registered : ∀ (nSessionID : Nat) info,
    proxy.m_mapPendingResponseInfo[nSessionID]? = some info →
    proxy.registered[info.nRequest]? = some ⟨info.nContext, info.callback, info.pDbClient⟩
  client : ∀ (nSessionID : Nat) info,
    proxy.m_mapPendingResponseInfo[nSessionID]? = some info → info.pDbClient ≠ 0
  pending_once : ∀ (nSessionID nSessionID' : Nat) info info',
    proxy.m_mapPendingResponseInfo[nSessionID]? = some info →
    proxy.m_mapPendingResponseInfo[nSessionID']? = some info' →
    info.nRequest = info'.nRequest → nSessionID = nSessionID'
  not_called : ∀ (nSessionID : Nat) info,
    proxy.m_mapPendingResponseInfo[nSessionID]? = some info →
    info.nRequest ∉ proxy.invoked.map Invocation.nRequest
  called_once : (proxy.invoked.map Invocation.nRequest).Nodup
  faithful : ∀ call ∈ proxy.invoked, ∃ entry, proxy.registered[call.nRequest]? = some entry ∧
    call.nContext = entry.nContext ∧ call.callback = entry.callback

theorem init_serial : Serial init := by
  constructor <;> simp [init]

/-- What is registered stays registered. -/
theorem registered_of_extends {registered registered' : List Registration}
    (hextends : registered <+: registered') {nRequest : Nat} {entry : Registration}
    (hentry : registered[nRequest]? = some entry) :
    nRequest < registered.length ∧ registered'[nRequest]? = some entry := by
  obtain ⟨later, rfl⟩ := hextends
  have hlt : nRequest < registered.length := (List.getElem?_eq_some_iff.mp hentry).1
  exact ⟨hlt, (List.getElem?_append_left hlt).trans hentry⟩

/-- An invocation's request number is a registered one. -/
theorem Serial.called_lt (h : Serial proxy) {nRequest : Nat}
    (hin : nRequest ∈ proxy.invoked.map Invocation.nRequest) :
    nRequest < proxy.registered.length := by
  obtain ⟨call, hcall, rfl⟩ := List.mem_map.mp hin
  obtain ⟨entry, hentry, _⟩ := h.faithful call hcall
  exact (List.getElem?_eq_some_iff.mp hentry).1

/-- A new session's request has the next number, so no record and no invocation has it. -/
theorem Serial.opened (h : Serial proxy) {proxy' : CDbProxy} {info : SPendingResponseInfo}
    (hpending : ∀ nSessionID info',
      proxy'.m_mapPendingResponseInfo[nSessionID]? = some info' →
      info' = info ∧ nSessionID = info.nSessionID ∨
        proxy.m_mapPendingResponseInfo[nSessionID]? = some info')
    (hrequest : info.nRequest = proxy.registered.length) (hclient : info.pDbClient ≠ 0)
    (hregistered : proxy'.registered =
      proxy.registered ++ [⟨info.nContext, info.callback, info.pDbClient⟩])
    (hinvoked : proxy'.invoked = proxy.invoked) : Serial proxy' where
  registered := by
    intro nSessionID info' hsome
    rw [hregistered]
    rcases hpending nSessionID info' hsome with ⟨rfl, _⟩ | hold
    · simp [hrequest]
    · exact (registered_of_extends (List.prefix_append _ _) (h.registered _ _ hold)).2
  client := by
    intro nSessionID info' hsome
    rcases hpending nSessionID info' hsome with ⟨rfl, _⟩ | hold
    · exact hclient
    · exact h.client _ _ hold
  pending_once := by
    have hlt : ∀ (nSessionID : Nat) info',
        proxy.m_mapPendingResponseInfo[nSessionID]? = some info' →
        info'.nRequest < proxy.registered.length := fun _ _ hold =>
      (registered_of_extends List.prefix_rfl (h.registered _ _ hold)).1
    intro nSessionID nSessionID' info₁ info₂ hsome₁ hsome₂ heq
    rcases hpending _ _ hsome₁ with ⟨rfl, hid₁⟩ | hold₁ <;>
      rcases hpending _ _ hsome₂ with ⟨rfl, hid₂⟩ | hold₂
    · exact hid₁.trans hid₂.symm
    · have := hlt _ _ hold₂
      omega
    · have := hlt _ _ hold₁
      omega
    · exact h.pending_once _ _ _ _ hold₁ hold₂ heq
  not_called := by
    intro nSessionID info' hsome hin
    rw [hinvoked] at hin
    rcases hpending _ _ hsome with ⟨rfl, _⟩ | hold
    · have := h.called_lt hin
      omega
    · exact h.not_called _ _ hold hin
  called_once := by
    rw [hinvoked]
    exact h.called_once
  faithful := by
    rw [hinvoked, hregistered]
    intro call hcall
    obtain ⟨entry, hentry, hsame⟩ := h.faithful call hcall
    exact ⟨entry, (registered_of_extends (List.prefix_append _ _) hentry).2, hsame⟩

/-- Taking records away keeps the history serial. -/
theorem Serial.kept (h : Serial proxy) {proxy' : CDbProxy}
    (hpending : ∀ (nSessionID : Nat) info,
      proxy'.m_mapPendingResponseInfo[nSessionID]? = some info →
      proxy.m_mapPendingResponseInfo[nSessionID]? = some info)
    (hregistered : proxy'.registered = proxy.registered)
    (hinvoked : proxy'.invoked = proxy.invoked) : Serial proxy' where
  registered := fun _ _ hsome => by
    rw [hregistered]
    exact h.registered _ _ (hpending _ _ hsome)
  client := fun _ _ hsome => h.client _ _ (hpending _ _ hsome)
  pending_once := fun _ _ _ _ hsome hsome' =>
    h.pending_once _ _ _ _ (hpending _ _ hsome) (hpending _ _ hsome')
  not_called := fun _ _ hsome => by
    rw [hinvoked]
    exact h.not_called _ _ (hpending _ _ hsome)
  called_once := by
    rw [hinvoked]
    exact h.called_once
  faithful := by
    rw [hinvoked, hregistered]
    exact h.faithful

/-- A call takes its record away, so no other record has its request number. -/
theorem Serial.called (h : Serial proxy) {proxy' : CDbProxy} {nSessionID : Nat}
    {info : SPendingResponseInfo} {nErrCode : Nat} {pMessage : Option Message}
    (hinfo : proxy.m_mapPendingResponseInfo[nSessionID]? = some info)
    (hpending : ∀ nSessionID' info',
      proxy'.m_mapPendingResponseInfo[nSessionID']? = some info' →
      nSessionID' ≠ nSessionID ∧ proxy.m_mapPendingResponseInfo[nSessionID']? = some info')
    (hregistered : proxy'.registered = proxy.registered)
    (hinvoked : proxy'.invoked = proxy.invoked ++
      [⟨info.nRequest, info.callback, nErrCode, pMessage, info.nContext⟩]) :
    Serial proxy' where
  registered := fun _ _ hsome => by
    rw [hregistered]
    exact h.registered _ _ (hpending _ _ hsome).2
  client := fun _ _ hsome => h.client _ _ (hpending _ _ hsome).2
  pending_once := fun _ _ _ _ hsome hsome' =>
    h.pending_once _ _ _ _ (hpending _ _ hsome).2 (hpending _ _ hsome').2
  not_called := by
    intro nSessionID' info' hsome hin
    obtain ⟨hne, hold⟩ := hpending _ _ hsome
    rw [hinvoked, List.map_append, List.mem_append] at hin
    rcases hin with hin | hin
    · exact h.not_called _ _ hold hin
    · exact hne (h.pending_once _ _ _ _ hold hinfo (by simpa using hin))
  called_once := by
    rw [hinvoked, List.map_append, List.nodup_append]
    refine ⟨h.called_once, by simp, ?_⟩
    intro nRequest hin nRequest' hin' heq
    obtain rfl : nRequest' = info.nRequest := by simpa using hin'
    exact h.not_called _ _ hinfo (heq ▸ hin)
  faithful := by
    rw [hinvoked, hregistered]
    intro call hcall
    rcases List.mem_append.mp hcall with hold | hnew
    · exact h.faithful call hold
    · obtain rfl := List.mem_singleton.mp hnew
      exact ⟨_, h.registered _ _ hinfo, rfl, rfl⟩

/-- A turn keeps requests pending once or called once. -/
theorem step_serial (pb : Runtime) (h : Serial proxy) (action : ProxyAction) :
    Serial (proxy.step pb action).1 := by
  cases step_turn pb proxy action with
  | kept hpending hregistered hinvoked => exact h.kept hpending hregistered hinvoked
  | opened info hpending hrequest hclient hregistered hinvoked =>
      exact h.opened hpending hrequest hclient hregistered hinvoked
  | called nSessionID info nErrCode pMessage hinfo hpending hregistered hinvoked =>
      exact h.called hinfo hpending hregistered hinvoked

/-! ## After a removal -/

/-- The callbacks since `start` was reached: none for a request that client `pDbClient` had
made by then. -/
def SilentSince (start : CDbProxy) (pDbClient : Nat) (proxy : CDbProxy) : Prop :=
  ∃ later, proxy.invoked = start.invoked ++ later ∧
    ∀ call ∈ later, ∀ entry, start.registered[call.nRequest]? = some entry →
      entry.pDbClient ≠ pDbClient

/-- No request that client `pDbClient` had made when `start` was reached has a record or a
callback since. -/
structure Silenced (start : CDbProxy) (pDbClient : Nat) (proxy : CDbProxy) : Prop where
  registered : start.registered <+: proxy.registered
  records : ∀ (nSessionID : Nat) info,
    proxy.m_mapPendingResponseInfo[nSessionID]? = some info →
    info.nRequest < start.registered.length → info.pDbClient ≠ pDbClient
  calls : SilentSince start pDbClient proxy

/-- **A removal silences its client:** its set is empty afterwards, and every record left is
in its own client's set. -/
theorem removal_silences (pDbClient : Nat) (hserial : Serial proxy) (hlinked : Linked proxy) :
    Silenced proxy pDbClient (proxy.removePendingResponseInfo pDbClient) := by
  obtain ⟨hpending, hregistered, hinvoked⟩ :=
    removePendingResponseInfo_kept proxy pDbClient
  refine ⟨hregistered ▸ List.prefix_rfl, ?_, [], by simp [hinvoked], by simp⟩
  intro nSessionID info hsome _ heq
  subst heq
  have hclient := hserial.client nSessionID info (hpending nSessionID info hsome)
  have hown := (removePendingResponseInfo_linked hlinked info.pDbClient).own_client
    nSessionID info hsome
  simp [(removePendingResponseInfo_removal proxy hclient).sessions] at hown

/-- A step calls back for a record, and the records of the silenced requests are gone. -/
theorem step_silenced (pb : Runtime) {start : CDbProxy} {pDbClient : Nat}
    (hserial : Serial proxy) (h : Silenced start pDbClient proxy) (action : ProxyAction) :
    Silenced start pDbClient (proxy.step pb action).1 := by
  obtain ⟨later, hlater, hcalls⟩ := h.calls
  cases step_turn pb proxy action with
  | kept hpending hregistered hinvoked =>
      refine ⟨by rw [hregistered]; exact h.registered, ?_, later, hinvoked.trans hlater, hcalls⟩
      exact fun nSessionID info hsome => h.records nSessionID info (hpending _ _ hsome)
  | opened info hpending hrequest _ hregistered hinvoked =>
      refine ⟨?_, ?_, later, hinvoked.trans hlater, hcalls⟩
      · rw [hregistered]
        exact h.registered.trans (List.prefix_append _ _)
      · intro nSessionID info' hsome hlt
        rcases hpending _ _ hsome with ⟨rfl, _⟩ | hold
        · have := h.registered.length_le
          omega
        · exact h.records _ _ hold hlt
  | called nSessionID info nErrCode pMessage hinfo hpending hregistered hinvoked =>
      refine ⟨by rw [hregistered]; exact h.registered, ?_, later ++
        [⟨info.nRequest, info.callback, nErrCode, pMessage, info.nContext⟩], ?_, ?_⟩
      · exact fun nSessionID' info' hsome => h.records _ _ (hpending _ _ hsome).2
      · rw [hinvoked, hlater, List.append_assoc]
      · intro call hcall entry hentry
        rcases List.mem_append.mp hcall with hold | hnew
        · exact hcalls call hold entry hentry
        · obtain rfl := List.mem_singleton.mp hnew
          have hlt := (registered_of_extends h.registered hentry).1
          have hsame := (registered_of_extends h.registered hentry).2.symm.trans
            (hserial.registered _ _ hinfo)
          rw [Option.some.injEq] at hsame
          rw [hsame]
          exact h.records _ _ hinfo hlt

end

/-! ## Runs -/

theorem run_serial (pb : Runtime) (actions : List ProxyAction) :
    Serial (Runs.run (step pb) init actions) :=
  Runs.run_preserves Serial (fun _ action h => step_serial pb h action) init_serial actions

/-- A client that was removed stays silent in every run. -/
theorem run_silenced (pb : Runtime) {start proxy : CDbProxy} {pDbClient : Nat}
    (hserial : Serial proxy) (h : Silenced start pDbClient proxy)
    (actions : List ProxyAction) :
    Silenced start pDbClient (Runs.run (step pb) proxy actions) :=
  (Runs.run_preserves (fun proxy => Serial proxy ∧ Silenced start pDbClient proxy)
    (fun _ action h => ⟨step_serial pb h.1 action, step_silenced pb h.1 h.2 action⟩)
    ⟨hserial, h⟩ actions).2

end CDbProxy

/-- **At most one callback a request.**  In every allowed run a request is called back at
most once, by a response or by the timer, with the callback and the context it registered;
and once a client is removed, none of the requests it had made is. -/
theorem callback_at_most_once (pb : Runtime) (actions : List ProxyAction)
    (hallowed : Runs.Guarded (CDbProxy.step pb) CDbProxy.Allowed CDbProxy.init actions) :
    let proxy := Runs.run (CDbProxy.step pb) CDbProxy.init actions
    (proxy.invoked.map Invocation.nRequest).Nodup ∧
      (∀ call ∈ proxy.invoked, ∃ entry, proxy.registered[call.nRequest]? = some entry ∧
        call.nContext = entry.nContext ∧ call.callback = entry.callback) ∧
      ∀ before pDbClient after,
        actions = before ++ .removePendingResponseInfo pDbClient :: after →
        CDbProxy.SilentSince (Runs.run (CDbProxy.step pb) CDbProxy.init before) pDbClient
          proxy := by
  have hserial := CDbProxy.run_serial pb actions
  refine ⟨hserial.called_once, hserial.faithful, ?_⟩
  intro before pDbClient after heq
  subst heq
  rw [Runs.guarded_append] at hallowed
  obtain ⟨hbefore, _⟩ := hallowed
  have hsound := Runs.run_invariant CDbProxy.Sound
    (fun _ action h hok => CDbProxy.step_sound pb h action hok) CDbProxy.init_sound hbefore
  have hstart := CDbProxy.run_serial pb before
  rw [Runs.run_append]
  generalize Runs.run (CDbProxy.step pb) CDbProxy.init before = start at *
  have hsilenced := CDbProxy.removal_silences pDbClient hstart hsound.toLinked
  exact (CDbProxy.run_silenced pb
    (CDbProxy.step_serial pb hstart (.removePendingResponseInfo pDbClient)) hsilenced
    after).calls

/-- Two clients ask; the first is removed; both answers arrive, one of them twice. -/
def removedClient : List ProxyAction :=
  [.select ⟨100, true⟩ 1 5 "player_base" 10 7 0, .nop ⟨100, true⟩ 2 0 8 1,
    .removePendingResponseInfo 1, .onMessage ⟨1, 0, none, none⟩,
    .onMessage ⟨2, 0, none, none⟩, .onMessage ⟨2, 0, none, none⟩]

/-- Only the nop of the second client is called back, once. -/
theorem callback_at_most_once_removedClient :
    let proxy := Runs.run (CDbProxy.step PlayerBase.runtime) CDbProxy.init removedClient
    (proxy.invoked.map Invocation.nRequest).Nodup ∧
      (∀ call ∈ proxy.invoked, ∃ entry, proxy.registered[call.nRequest]? = some entry ∧
        call.nContext = entry.nContext ∧ call.callback = entry.callback) ∧
      ∀ before pDbClient after,
        removedClient = before ++ .removePendingResponseInfo pDbClient :: after →
        CDbProxy.SilentSince
          (Runs.run (CDbProxy.step PlayerBase.runtime) CDbProxy.init before) pDbClient
          proxy := by
  refine callback_at_most_once PlayerBase.runtime removedClient
    ⟨trivial, trivial, ⟨rfl, ?_⟩, rfl, rfl, rfl, trivial⟩
  intro hcase
  obtain ⟨nSessionID, info, hin, hsome, hnop⟩ := hcase
  change nSessionID ∈ ((CDbProxy.init.openSession .kOT_SELECT 1 (some 110) 7 0).2.openSession
    .kOT_NOP 2 none 8 1).2.sessionsOf 1 at hin
  change ((CDbProxy.init.openSession .kOT_SELECT 1 (some 110) 7 0).2.openSession
    .kOT_NOP 2 none 8 1).2.m_mapPendingResponseInfo[nSessionID]? = some info at hsome
  simp only [CDbProxy.openSession_sessionsOf] at hin
  obtain rfl : 1 = nSessionID := by simpa [CDbProxy.init, CDbProxy.sessionsOf] using hin
  have htype : EOperatorType.kOT_SELECT = info.nType := by
    simpa [Std.ExtTreeMap.getElem_insert, CDbProxy.newInfo, CDbProxy.init] using
      congrArg (Option.map SPendingResponseInfo.nType) hsome
  rw [hnop] at htype
  cases htype

end Db
