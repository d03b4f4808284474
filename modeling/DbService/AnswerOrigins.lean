import DbService.RequestLedger

/-!
# Where an answer comes from

Every result was added in a step of the run in which a worker handled the command it is made
from, and every answer of a callback was read from a result with the session id of its request.
Put together, an answer tells the callback of a request, with the context it was registered with,
what became of the request's own command.

* `step_added` -- what a step adds to the results;
* `added_arises` -- over whole runs, every result arises from a command that a worker handled;
* `answer_of_own_command` -- so an answer tells what became of the request's own command.
-/

namespace Db

open Reflection ByteText

namespace CMyDbProxy

variable {n : Nat} {σ : Type} (pb : Runtime) (generated_pool : String → Option Descriptor)
  (srv : Fin n → Server σ)

/-- In its next step worker `i` handles the command at the head of its batch with this outcome. -/
structure Handles (my : CMyDbProxy n σ) (i : Fin n) (input : Input) (sDbCommand : SDbCommand)
    (nErrorCode : EResultCode) (pMessage : Option Message) : Prop where
  batch : (my.mgr.m_vecDbThread i).phase = .batch
  head : ∃ rest, (my.mgr.m_vecDbThread i).listCommand = sDbCommand :: rest
  outcome : ((my.mgr.m_vecDbThread i).store.process pb (srv i) sDbCommand input.clock).2.1 =
    .handled nErrorCode pMessage

variable (nMaxCacheSize nWritebackTime : Nat) (conn : Fin n → CDbConnection σ)

/-- The result was made in a step of the run from this command. -/
def Arises (actions : List (MyAction n)) (i : Fin n) (sDbCommand : SDbCommand)
    (sResultInfo : SDbResultInfo) : Prop :=
  ∃ earlier input later nErrorCode pMessage, actions = earlier ++ .advance i input :: later ∧
    Handles pb srv (after pb generated_pool srv nMaxCacheSize nWritebackTime conn earlier) i input
      sDbCommand nErrorCode pMessage ∧
    sResultInfo = makeResultInfo pb sDbCommand nErrorCode pMessage input.nStack

variable {pb generated_pool srv nMaxCacheSize nWritebackTime conn}

/-- What arose goes on having arisen. -/
theorem Arises.append {actions : List (MyAction n)} {i : Fin n} {sDbCommand : SDbCommand}
    {sResultInfo : SDbResultInfo}
    (h : Arises pb generated_pool srv nMaxCacheSize nWritebackTime conn actions i sDbCommand
      sResultInfo) (action : MyAction n) :
    Arises pb generated_pool srv nMaxCacheSize nWritebackTime conn (actions ++ [action]) i
      sDbCommand sResultInfo := by
  obtain ⟨earlier, input, later, nErrorCode, pMessage, rfl, hhandles, hresult⟩ := h
  exact ⟨earlier, input, later ++ [action], nErrorCode, pMessage, by simp, hhandles, hresult⟩

/-- What a step finishes stays finished. -/
theorem step_finished (my : CMyDbProxy n σ) (action : MyAction n) (i : Fin n) :
    (my.mgr.m_vecDbThread i).finished <+:
      ((my.step pb generated_pool srv action).1.mgr.m_vecDbThread i).finished := by
  have hstepped := step_stepped pb generated_pool srv my action
  generalize (my.step pb generated_pool srv action).1 = my' at hstepped
  cases hstepped with
  | opened hfree nType pDbClient nAssociateID timeout content nTimeout nContext callback nTime =>
      exact (query_workers pb srv my.mgr hfree _ nTime).1 ▸ List.prefix_rfl
  | sent hfree pRequest _ nTime =>
      exact (query_workers pb srv my.mgr hfree pRequest nTime).1 ▸ List.prefix_rfl
  | pushed => exact (CDbThreadMgr.push_parts my.mgr 0).2.2 i ▸ List.prefix_rfl
  | advanced j input =>
      rw [(CDbThreadMgr.advance_parts pb srv my.mgr j input).1]
      by_cases heq : i = j
      · subst heq
        rw [Function.update_self]
        have hfinishes := CDbThread.advance_finishes pb (srv i) (my.mgr.m_vecDbThread i) input
        generalize (my.mgr.m_vecDbThread i).advance pb (srv i) input = advanced at hfinishes ⊢
        cases hfinishes with
        | nothing _ _ hfinished => exact hfinished ▸ List.prefix_rfl
        | handled _ _ _ _ _ _ _ _ _ hfinished => exact hfinished ▸ List.prefix_append _ _
        | dropped _ _ _ _ _ _ _ hfinished => exact hfinished ▸ List.prefix_append _ _
      · exact (Function.update_of_ne heq _ _) ▸ List.prefix_rfl
  | _ => exact List.prefix_rfl

variable (pb generated_pool srv) in
/-- **What a step adds:** nothing, or the result of a command a worker handled in it. -/
theorem step_added (my : CMyDbProxy n σ) (action : MyAction n) :
    (my.step pb generated_pool srv action).1.mgr.added = my.mgr.added ∨
      ∃ i input sDbCommand nErrorCode pMessage, action = .advance i input ∧
        Handles pb srv my i input sDbCommand nErrorCode pMessage ∧
        sDbCommand ∈ ((my.step pb generated_pool srv action).1.mgr.m_vecDbThread i).finished ∧
        (my.step pb generated_pool srv action).1.mgr.added = my.mgr.added ++
          [(i, makeResultInfo pb sDbCommand nErrorCode pMessage input.nStack)] := by
  have hstepped := step_stepped pb generated_pool srv my action
  generalize (my.step pb generated_pool srv action).1 = my' at hstepped
  cases hstepped with
  | opened hfree nType pDbClient nAssociateID timeout content nTimeout nContext callback nTime =>
      exact .inl (query_workers pb srv my.mgr hfree _ nTime).2
  | sent hfree pRequest _ nTime => exact .inl (query_workers pb srv my.mgr hfree pRequest nTime).2
  | pushed => exact .inl (CDbThreadMgr.push_parts my.mgr 0).2.1
  | advanced i input haction =>
      simp only [CDbThreadMgr.advance_added, (CDbThreadMgr.advance_parts pb srv my.mgr i input).1,
        haction]
      have hfinishes := CDbThread.advance_finishes pb (srv i) (my.mgr.m_vecDbThread i) input
      generalize (my.mgr.m_vecDbThread i).advance pb (srv i) input = advanced
        at hfinishes
      cases hfinishes with
      | nothing _ _ _ hresult => exact .inl (by simp [hresult])
      | dropped _ _ _ _ _ _ _ _ hresult => exact .inl (by simp [hresult])
      | handled th' output sDbCommand rest nErrorCode pMessage hphase hhead hprocess hfinished
          hresult =>
          by_cases hzero : sDbCommand.nSessionID = 0
          · exact .inl (by simp [hresult, hzero])
          · rw [if_neg hzero] at hresult
            refine .inr ⟨i, input, sDbCommand, nErrorCode, pMessage, rfl,
              ⟨hphase, ⟨rest, hhead⟩, hprocess⟩, ?_, by simp [hresult]⟩
            simp [hfinished]
  | _ => exact .inl rfl

/-- **The step lemma, over whole runs:** every result arises. -/
theorem added_arises (actions : List (MyAction n)) (i : Fin n) (sResultInfo : SDbResultInfo)
    (hadded : (i, sResultInfo) ∈
      (after pb generated_pool srv nMaxCacheSize nWritebackTime conn actions).mgr.added) :
    ∃ sDbCommand,
      sDbCommand ∈ ((after pb generated_pool srv nMaxCacheSize nWritebackTime conn
        actions).mgr.m_vecDbThread i).finished ∧
      Arises pb generated_pool srv nMaxCacheSize nWritebackTime conn actions i sDbCommand
        sResultInfo := by
  induction actions using List.reverseRecOn with
  | nil => simp [after, Runs.run, init, CDbThreadMgr.init] at hadded
  | append_singleton actions action ih =>
      have hsnoc : after pb generated_pool srv nMaxCacheSize nWritebackTime conn
          (actions ++ [action]) = ((after pb generated_pool srv nMaxCacheSize nWritebackTime conn
            actions).step pb generated_pool srv action).1 := by
        simp only [after, Runs.run_append, Runs.run]
      have hold : (i, sResultInfo) ∈
          (after pb generated_pool srv nMaxCacheSize nWritebackTime conn actions).mgr.added →
          ∃ sDbCommand, sDbCommand ∈ ((after pb generated_pool srv nMaxCacheSize nWritebackTime
              conn (actions ++ [action])).mgr.m_vecDbThread i).finished ∧
            Arises pb generated_pool srv nMaxCacheSize nWritebackTime conn (actions ++ [action]) i
              sDbCommand sResultInfo := by
        intro hbefore
        obtain ⟨sDbCommand, hfinished, harises⟩ := ih hbefore
        rw [hsnoc]
        exact ⟨sDbCommand, (step_finished _ action i).subset hfinished, harises.append action⟩
      rcases step_added pb generated_pool srv
          (after pb generated_pool srv nMaxCacheSize nWritebackTime conn actions) action with
        hsame | ⟨j, input, sDbCommand, nErrorCode, pMessage, haction, hhandles, hfinished, hnew⟩
      · rw [hsnoc, hsame] at hadded
        exact hold hadded
      · rw [hsnoc, hnew] at hadded
        rcases List.mem_append.mp hadded with hbefore | hlast
        · exact hold hbefore
        · obtain ⟨rfl, rfl⟩ := Prod.mk.inj (List.mem_singleton.mp hlast)
          rw [hsnoc]
          exact ⟨sDbCommand, hfinished, actions, input, [], nErrorCode, pMessage,
            by rw [haction], hhandles, rfl⟩

variable {my : CMyDbProxy n σ}

variable (pb generated_pool) in
/-- The call goes to the callback its request was registered with, and passes on what the client
reads from a delivered result with the session id of the request. -/
def ReadFrom (my : CMyDbProxy n σ) (call : Invocation) : Prop :=
  (∃ pDbClient, my.proxy.registered[call.nRequest]? =
    some ⟨call.nContext, call.callback, pDbClient⟩) ∧
  ∃ sResultInfo ∈ my.delivered, sResultInfo.pResponse.session_id = call.nRequest + 1 ∧
    CDbProxy.readResponse (pb.withPool generated_pool) sResultInfo.pResponse =
      (call.nErrCode, call.pMessage)

variable (pb generated_pool) in
/-- **Every answer is read from a result.** -/
structure Reads (my : CMyDbProxy n σ) : Prop extends Ledger my where
  read : ∀ call ∈ my.proxy.invoked, call.isAnswer = true → ReadFrom pb generated_pool my call

theorem init_reads : Reads pb generated_pool (init nMaxCacheSize nWritebackTime conn) where
  toLedger := init_ledger nMaxCacheSize nWritebackTime conn
  read := by simp [init, CDbProxy.init]

/-- A proxy that ages calls back for timeouts, so the answers are the old ones. -/
theorem Reads.aged (h : Reads pb generated_pool my) {client : Option Nat} {proxy : CDbProxy}
    (hages : CDbProxy.Ages client my.proxy proxy) (destroyed : List (Nat × Nat)) {call : Invocation}
    (hin : call ∈ proxy.invoked) (hanswer : call.isAnswer = true) :
    ReadFrom pb generated_pool { my with proxy := proxy, destroyed := destroyed } call := by
  obtain ⟨calls, hinvoked, htimeout⟩ := hages.timeouts
  rw [hinvoked] at hin
  rcases List.mem_append.mp hin with hold | hnew
  · rw [ReadFrom, hages.registered]
    exact h.read call hold hanswer
  · simp [Invocation.isAnswer, htimeout call hnew] at hanswer

/-- Every step keeps what the callbacks read, until the session ids wrap. -/
theorem step_reads (h : Reads pb generated_pool my) (action : MyAction n)
    (hcount : (my.step pb generated_pool srv action).1.proxy.sessionCount < 2 ^ 64) :
    Reads pb generated_pool (my.step pb generated_pool srv action).1 := by
  have hledger := step_ledger h.toLedger action hcount
  have hstepped := step_stepped pb generated_pool srv my action
  generalize (my.step pb generated_pool srv action).1 = my' at hledger hstepped
  refine ⟨hledger, ?_⟩
  cases hstepped with
  | opened hfree nType pDbClient nAssociateID timeout content nTimeout nContext callback nTime =>
      intro call hin hanswer
      rw [CDbProxy.openSession_invoked] at hin
      obtain ⟨⟨pDbClient', hregistered⟩, hread⟩ := h.read call hin hanswer
      obtain ⟨hlt, _⟩ := List.getElem?_eq_some_iff.mp hregistered
      refine ⟨⟨pDbClient', ?_⟩, hread⟩
      rw [CDbProxy.openSession_registered]
      exact (List.getElem?_append_left hlt).trans hregistered
  | aged proxy hages => exact fun call hin hanswer => h.aged hages my.destroyed hin hanswer
  | removed pDbClient =>
      exact fun call hin hanswer => h.aged (CDbProxy.removal_ages my.proxy pDbClient) _ hin hanswer
  | handedOn sResultInfo rest _ =>
      have hreceives := CDbProxy.onMessage_receives (pb.withPool generated_pool) my.proxy
        sResultInfo.pResponse
      intro call hin hanswer
      rw [ReadFrom, hreceives.registered]
      have hold : call ∈ my.proxy.invoked → (∃ pDbClient, my.proxy.registered[call.nRequest]? =
            some ⟨call.nContext, call.callback, pDbClient⟩) ∧
          ∃ result ∈ my.delivered ++ [sResultInfo],
            result.pResponse.session_id = call.nRequest + 1 ∧
            CDbProxy.readResponse (pb.withPool generated_pool) result.pResponse =
              (call.nErrCode, call.pMessage) := by
        intro hbefore
        obtain ⟨hregistered, result, hdelivered, hread⟩ := h.read call hbefore hanswer
        exact ⟨hregistered, result, List.mem_append_left _ hdelivered, hread⟩
      rcases hreceives.calls with hsame | ⟨info, hpending, hcalled⟩
      · exact hold (hsame ▸ hin)
      · rw [hcalled] at hin
        rcases List.mem_append.mp hin with hbefore | hnew
        · exact hold hbefore
        · rw [List.mem_singleton.mp hnew]
          exact ⟨⟨info.pDbClient, h.books.clients _ info hpending⟩, sResultInfo, by simp,
            (h.numbered.records _ info hpending).1, rfl⟩
  | _ => exact h.read

end CMyDbProxy

/-- **An answer tells what became of the request's own command.**  It goes to the callback and
with the context the request was registered with, and what it says is what the client reads from
the response made when the worker of the request handled the command `db::query` made of it. -/
theorem answer_of_own_command {n : Nat} {σ : Type} (pb : Runtime)
    (generated_pool : String → Option Descriptor) (srv : Fin n → Server σ)
    (nMaxCacheSize nWritebackTime : Nat) (conn : Fin n → CDbConnection σ)
    (actions : List (MyAction n))
    (hcount : (CMyDbProxy.after pb generated_pool srv nMaxCacheSize nWritebackTime conn
      actions).proxy.sessionCount < 2 ^ 64) :
    let my := CMyDbProxy.after pb generated_pool srv nMaxCacheSize nWritebackTime conn actions
    ∀ invocation ∈ my.proxy.invoked, invocation.isAnswer = true →
      (∃ pDbClient, my.proxy.registered[invocation.nRequest]? =
        some ⟨invocation.nContext, invocation.callback, pDbClient⟩) ∧
      ∃ call ∈ my.mgr.submitted, call.sDbCommand.nSessionID = invocation.nRequest + 1 ∧
      ∃ i : Fin n, i.val = call.nThreadIndex % n ∧
      ∃ earlier input later nErrorCode pMessage,
        actions = earlier ++ .advance i input :: later ∧
        CMyDbProxy.Handles pb srv (CMyDbProxy.after pb generated_pool srv nMaxCacheSize
          nWritebackTime conn earlier) i input call.sDbCommand nErrorCode pMessage ∧
        (invocation.nErrCode, invocation.pMessage) =
          CDbProxy.readResponse (pb.withPool generated_pool)
            (makeResultInfo pb call.sDbCommand nErrorCode pMessage input.nStack).pResponse := by
  intro my invocation hin hanswer
  have hreads : my.Reads pb generated_pool := CMyDbProxy.run_invariant
    (fun _ action h hlt => CMyDbProxy.step_reads h action hlt) CMyDbProxy.init_reads actions hcount
  obtain ⟨hregistered, sResultInfo, hdelivered, hsession, hread⟩ :=
    hreads.read invocation hin hanswer
  obtain ⟨⟨i, sResultInfo'⟩, hadded, rfl⟩ :=
    List.mem_map.mp (hreads.delivered_prefix.subset hdelivered)
  obtain ⟨sDbCommand, hfinished, earlier, input, later, nErrorCode, pMessage, hactions, hhandles,
    rfl⟩ := CMyDbProxy.added_arises actions i sResultInfo' hadded
  have hticket : sDbCommand.nSessionID = invocation.nRequest + 1 := hsession
  obtain ⟨call, hcall, rfl, hi⟩ :=
    hreads.call_of_finished hfinished (hticket ▸ Nat.succ_ne_zero _)
  exact ⟨hregistered, call, hcall, hticket, i, hi, earlier, input, later, nErrorCode, pMessage,
    hactions, hhandles, hread.symm⟩

/-- Both nops are answered with what became of them. -/
theorem answer_of_own_command_twoNops :
    nopsAnswered.proxy.invoked.map Invocation.isAnswer = [true, true] ∧
      ∀ invocation ∈ nopsAnswered.proxy.invoked, invocation.isAnswer = true →
        (∃ pDbClient, nopsAnswered.proxy.registered[invocation.nRequest]? =
          some ⟨invocation.nContext, invocation.callback, pDbClient⟩) ∧
        ∃ call ∈ nopsAnswered.mgr.submitted,
          call.sDbCommand.nSessionID = invocation.nRequest + 1 ∧
        ∃ i : Fin 2, i.val = call.nThreadIndex % 2 ∧
        ∃ earlier input later nErrorCode pMessage,
          twoNops = earlier ++ .advance i input :: later ∧
          CMyDbProxy.Handles PlayerBase.runtime (fun _ => Server.constant (.done 0 1))
            (CMyDbProxy.after PlayerBase.runtime PlayerBase.FindMessageTypeByName
              (fun _ => Server.constant (.done 0 1)) 0 1 (fun _ => ⟨true, (), 0, []⟩) earlier) i
            input call.sDbCommand nErrorCode pMessage ∧
          (invocation.nErrCode, invocation.pMessage) =
            CDbProxy.readResponse
              (PlayerBase.runtime.withPool PlayerBase.FindMessageTypeByName)
              (makeResultInfo PlayerBase.runtime call.sDbCommand nErrorCode pMessage
                input.nStack).pResponse :=
  ⟨by rw [nopsAnswered_invoked]; decide,
    answer_of_own_command PlayerBase.runtime PlayerBase.FindMessageTypeByName
      (fun _ => Server.constant (.done 0 1)) 0 1 (fun _ => ⟨true, (), 0, []⟩) twoNops
      (by decide +kernel)⟩

end Db
