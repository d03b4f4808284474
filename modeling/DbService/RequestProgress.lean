import DbService.RequestLedger
import DbService.WorkerProgress

/-!
# When a request is answered

The run of a client and its service is, for the instance behind it, a run of the instance that
joins no worker (`run_mgr`).  So the bound on the steps of a worker is a bound for the requests
of the client: once the worker of a request has made as many steps, the callback has been called
or the answer waits to be taken, unless the worker discarded the command as expired.

* `run_mgr` -- the run of the instance behind a client;
* `finished_answered` -- what a worker has finished it answered, or discarded as expired;
* `requests_answered_in_time` -- the bound for a request.
-/

namespace Db

open Reflection ByteText

namespace CDbThread

/-- A worker that nobody joined stays in its loop. -/
theorem advance_stays {σ : Type} {pb : Runtime} {srv : Server σ} {th : CDbThread σ}
    (hquit : th.m_quit = false) (h : ¬ HasLeft th) (input : Input) :
    ¬ HasLeft (th.advance pb srv input).1 := by
  unfold advance HasLeft at *
  cases hphase : th.phase with
  | top =>
      simp only
      split <;> simp
  | waiting =>
      simp only
      split <;> simp
  | batch =>
      cases hlist : th.listCommand with
      | nil => simp
      | cons sDbCommand rest =>
          obtain ⟨_, _, hcases⟩ := processHead_lists pb srv th sDbCommand rest input
          rcases hcases with ⟨hphase', _⟩ | ⟨hphase', _⟩
          · simp [hphase']
          · simp [hphase', hphase]
  | requeue => simp
  | check => simp [hquit]
  | leaving => simp [hphase] at h
  | closed => simp [hphase] at h

end CDbThread

namespace CDbThreadMgr

variable {n : Nat} {σ : Type} {pb : Runtime} {srv : Fin n → Server σ} {mgr : CDbThreadMgr n σ}

/-- Nobody joined a worker, and none has left its loop. -/
def Unjoined (mgr : CDbThreadMgr n σ) : Prop :=
  ∀ i, (mgr.m_vecDbThread i).m_quit = false ∧ ¬ (mgr.m_vecDbThread i).HasLeft

theorem step_unjoined (h : mgr.Unjoined) {action : MgrAction n} (hjoin : ∀ i, action ≠ .join i) :
    (mgr.step pb srv action).1.Unjoined := by
  intro i
  obtain ⟨hquit, hstays⟩ := h i
  rcases step_own mgr action i with ⟨input, _, hnext⟩ | ⟨_, hnext | ⟨_, hnext⟩ | ⟨haction, _⟩⟩
  · rw [hnext, (CDbThread.advance_keeps pb (srv i) _ input).1]
    exact ⟨hquit, CDbThread.advance_stays hquit hstays input⟩
  · rw [hnext]
    exact ⟨hquit, hstays⟩
  · rw [hnext]
    exact ⟨hquit, hstays⟩
  · exact absurd haction (hjoin i)

theorem run_unjoined (h : mgr.Unjoined) {actions : List (MgrAction n)}
    (hjoins : ∀ i, .join i ∉ actions) : (Runs.run (step pb srv) mgr actions).Unjoined := by
  refine Runs.run_invariant Unjoined (fun _ _ h hok => step_unjoined h hok.1) h
    (Runs.Guarded.and_forall ?_ (Runs.guarded_true actions))
  intro action hin i heq
  exact hjoins i (heq ▸ hin)

/-- A call that was made stays made. -/
theorem step_submitted {call : Call} (h : call ∈ mgr.submitted) (action : MgrAction n) :
    call ∈ (mgr.step pb srv action).1.submitted := by
  have hsubmit : ∀ call', call ∈ (mgr.submit call').submitted := by
    intro call'
    unfold submit
    split
    · exact List.mem_append_left _ h
    · exact h
  cases action with
  | query caller nServiceID pRequest nTime =>
      simp only [step]
      cases Db.query pb nServiceID pRequest nTime with
      | none => exact h
      | some command => exact hsubmit _
  | flushCache caller nID nStack => exact hsubmit _
  | push caller => exact (push_parts mgr caller).1 ▸ h
  | advance i input => exact (advance_parts pb srv mgr i input).2.2.1 ▸ h
  | join i => exact h
  | getResultInfo => exact h

end CDbThreadMgr

/-- A step of the thread of worker `i`. -/
def MyAction.isStepOf {n : Nat} (i : Fin n) : MyAction n → Bool
  | .advance j _ => j == i
  | _ => false

namespace CMyDbProxy

variable {n : Nat} {σ : Type} (pb : Runtime) (generated_pool : String → Option Descriptor)
  (srv : Fin n → Server σ)

/-- The step is one of worker `i` that sets it back. -/
def isSetback (i : Fin n) (my : CMyDbProxy n σ) : MyAction n → Bool
  | .advance j input => my.mgr.isSetback pb srv i (.advance j input)
  | _ => false

/-- The setbacks of worker `i` in a run. -/
def setbacks (i : Fin n) (my : CMyDbProxy n σ) (actions : List (MyAction n)) : Nat :=
  Runs.total (step pb generated_pool srv)
    (fun my action => (my.isSetback pb srv i action).toNat) my actions

/-- The actions of an instance that make up those of a client and its service. -/
structure Projects (my my' : CMyDbProxy n σ) (actions : List (MyAction n))
    (mgrActions : List (MgrAction n)) : Prop where
  reached : my'.mgr = Runs.run (CDbThreadMgr.step pb srv) my.mgr mgrActions
  steps : ∀ i, mgrActions.countP (MgrAction.isStepOf i) = actions.countP (MyAction.isStepOf i)
  setbacks : ∀ i, my.mgr.setbacks pb srv i mgrActions = my.setbacks pb generated_pool srv i actions
  joins : ∀ i, .join i ∉ mgrActions

/-- An action of the instance, or none. -/
theorem step_mgr (my : CMyDbProxy n σ) (action : MyAction n) :
    ∃ mgrActions, Projects pb generated_pool srv my (my.step pb generated_pool srv action).1
      [action] mgrActions := by
  by_cases hadvance : ∃ i input, action = .advance i input
  · obtain ⟨i, input, rfl⟩ := hadvance
    exact ⟨[.advance i input], rfl, fun _ => rfl, fun _ => rfl, by simp⟩
  · have hsteps : ∀ i, action.isStepOf i = false := by
      intro i
      cases action with
      | advance j input => exact absurd ⟨j, input, rfl⟩ hadvance
      | _ => rfl
    have hsetback : ∀ i, my.isSetback pb srv i action = false := by
      intro i
      cases action with
      | advance j input => exact absurd ⟨j, input, rfl⟩ hadvance
      | _ => rfl
    -- A step of another kind makes one call at most.
    have hone : ∀ (my' : CMyDbProxy n σ) (mgrActions : List (MgrAction n)),
        my'.mgr = Runs.run (CDbThreadMgr.step pb srv) my.mgr mgrActions →
        (∀ i, mgrActions.countP (MgrAction.isStepOf i) = 0) →
        (∀ i, my.mgr.setbacks pb srv i mgrActions = 0) → (∀ i, .join i ∉ mgrActions) →
        Projects pb generated_pool srv my my' [action] mgrActions := by
      intro my' mgrActions hreached hcount hnone hjoins
      refine ⟨hreached, fun i => ?_, fun i => ?_, hjoins⟩
      · rw [hcount i]
        simp [hsteps i]
      · rw [hnone i]
        simp [setbacks, Runs.total, hsetback i]
    have hstepped := step_stepped pb generated_pool srv my action
    generalize (my.step pb generated_pool srv action).1 = my' at hstepped
    cases hstepped with
    | idle => exact ⟨[], hone _ _ rfl (fun _ => rfl) (fun _ => rfl) (by simp)⟩
    | opened => exact ⟨[.query 0 0 _ _], hone _ _ rfl (fun _ => rfl) (fun _ => rfl) (by simp)⟩
    | sent _ pRequest _ nTime =>
        exact ⟨[.query 0 0 pRequest nTime], hone _ _ rfl (fun _ => rfl) (fun _ => rfl) (by simp)⟩
    | aged => exact ⟨[], hone _ _ rfl (fun _ => rfl) (fun _ => rfl) (by simp)⟩
    | removed => exact ⟨[], hone _ _ rfl (fun _ => rfl) (fun _ => rfl) (by simp)⟩
    | pushed => exact ⟨[.push 0], hone _ _ rfl (fun _ => rfl) (fun _ => rfl) (by simp)⟩
    | advanced i input haction => exact absurd ⟨i, input, haction⟩ hadvance
    | taken => exact ⟨[.getResultInfo], hone _ _ rfl (fun _ => rfl) (fun _ => rfl) (by simp)⟩
    | handedOn => exact ⟨[], hone _ _ rfl (fun _ => rfl) (fun _ => rfl) (by simp)⟩

/-- **The run of a client and its service** is a run of its instance that joins no worker. -/
theorem run_mgr (my : CMyDbProxy n σ) (actions : List (MyAction n)) :
    ∃ mgrActions, Projects pb generated_pool srv my
      (Runs.run (step pb generated_pool srv) my actions) actions mgrActions := by
  induction actions generalizing my with
  | nil => exact ⟨[], rfl, fun _ => rfl, fun _ => rfl, by simp⟩
  | cons action rest ih =>
      obtain ⟨first, hfirst⟩ := step_mgr pb generated_pool srv my action
      obtain ⟨later, hlater⟩ := ih (my.step pb generated_pool srv action).1
      refine ⟨first ++ later, ?_, fun i => ?_, fun i => ?_, fun i => ?_⟩
      · rw [Runs.run_append, ← hfirst.reached]
        exact hlater.reached
      · rw [List.countP_append, hfirst.steps i, hlater.steps i, ← List.countP_append]
        rfl
      · have hsetbacks : (my.step pb generated_pool srv action).1.mgr.setbacks pb srv i later = _ :=
          hlater.setbacks i
        rw [CDbThreadMgr.setbacks, Runs.total_append, ← hfirst.reached]
        exact congrArg₂ (· + ·) (hfirst.setbacks i) hsetbacks
      · rw [List.mem_append, not_or]
        exact ⟨hfirst.joins i, hlater.joins i⟩

variable {pb generated_pool srv} in
/-- **What was called for is finished in time.** -/
theorem Ledger.finished_in_time {my : CMyDbProxy n σ} (h : Ledger my)
    (hunjoined : my.mgr.Unjoined) (hfree : my.isFree = true) {call : Call}
    (hcall : call ∈ my.mgr.submitted) {i : Fin n} (hi : i.val = call.nThreadIndex % n)
    {actions : List (MyAction n)}
    (hsteps : 5 * (my.mgr.m_vecDbThread i).remaining + 4 +
      5 * my.setbacks pb generated_pool srv i actions < actions.countP (MyAction.isStepOf i)) :
    let my' := Runs.run (step pb generated_pool srv) my actions
    call ∈ my'.mgr.submitted ∧ call.sDbCommand ∈ (my'.mgr.m_vecDbThread i).finished := by
  obtain ⟨mgrActions, hprojects⟩ := run_mgr pb generated_pool srv my actions
  rw [← hprojects.steps i, ← hprojects.setbacks i] at hsteps
  intro my'
  have hreached : my'.mgr = Runs.run (CDbThreadMgr.step pb srv) my.mgr mgrActions :=
    hprojects.reached
  rw [hreached]
  constructor
  · exact Runs.run_preserves (fun mgr : CDbThreadMgr n σ => call ∈ mgr.submitted)
      (fun _ action h => CDbThreadMgr.step_submitted h action) hcall mgrActions
  · have hfinished := h.ordered.finished_in_time pb srv (hunjoined i).2 hsteps
    exact hfinished.subset (h.ordered.mem_pushed (List.isEmpty_iff.mp hfree) h.caller hcall hi)

/-! ## What a worker discards -/

variable (nMaxCacheSize nWritebackTime : Nat) (conn : Fin n → CDbConnection σ)

/-- The command was discarded as expired in a step of the run. -/
def Discarded (actions : List (MyAction n)) (i : Fin n) (sDbCommand : SDbCommand) : Prop :=
  ∃ earlier input later, actions = earlier ++ .advance i input :: later ∧
    ((after pb generated_pool srv nMaxCacheSize nWritebackTime conn
      earlier).mgr.m_vecDbThread i).Discards input sDbCommand

variable {pb generated_pool srv nMaxCacheSize nWritebackTime conn}

theorem Discarded.append {actions : List (MyAction n)} {i : Fin n} {sDbCommand : SDbCommand}
    (h : Discarded pb generated_pool srv nMaxCacheSize nWritebackTime conn actions i sDbCommand)
    (action : MyAction n) :
    Discarded pb generated_pool srv nMaxCacheSize nWritebackTime conn (actions ++ [action]) i
      sDbCommand := by
  obtain ⟨earlier, input, later, rfl, hdiscards⟩ := h
  exact ⟨earlier, input, later ++ [action], by simp, hdiscards⟩

variable (pb generated_pool srv) in
/-- **What a step finishes** it answers, unless it is a FLUSH or is discarded. -/
theorem step_finishes (my : CMyDbProxy n σ) (action : MyAction n) {i : Fin n}
    {sDbCommand : SDbCommand}
    (hfinished : sDbCommand ∈
      ((my.step pb generated_pool srv action).1.mgr.m_vecDbThread i).finished)
    (hne : sDbCommand.nSessionID ≠ 0) :
    sDbCommand ∈ (my.mgr.m_vecDbThread i).finished ∨ sDbCommand.nType = .kOT_FLUSH ∨
      (∃ input, action = .advance i input ∧
        (my.mgr.m_vecDbThread i).Discards input sDbCommand) ∨
      ∃ result ∈ (my.step pb generated_pool srv action).1.mgr.added,
        result.2.pResponse.session_id = sDbCommand.nSessionID := by
  have hstepped := step_stepped pb generated_pool srv my action
  generalize (my.step pb generated_pool srv action).1 = my' at hfinished hstepped ⊢
  cases hstepped with
  | opened hfree nType pDbClient nAssociateID timeout content nTimeout nContext callback nTime =>
      exact .inl ((query_workers pb srv my.mgr hfree _ nTime).1 ▸ hfinished)
  | sent hfree pRequest _ nTime =>
      exact .inl ((query_workers pb srv my.mgr hfree pRequest nTime).1 ▸ hfinished)
  | pushed => exact .inl ((CDbThreadMgr.push_parts my.mgr 0).2.2 i ▸ hfinished)
  | advanced j input haction =>
      rw [(CDbThreadMgr.advance_parts pb srv my.mgr j input).1] at hfinished
      rw [CDbThreadMgr.advance_added]
      by_cases hworker : i = j
      · subst hworker
        rw [Function.update_self] at hfinished
        have hfinishes := CDbThread.advance_finishes pb (srv i) (my.mgr.m_vecDbThread i) input
        generalize (my.mgr.m_vecDbThread i).advance pb (srv i) input = advanced
          at hfinishes hfinished ⊢
        cases hfinishes with
        | nothing _ _ hsame => exact .inl (hsame ▸ hfinished)
        | handled _ _ cmd rest nErrorCode pMessage _ _ _ hgrown hresult =>
            rw [hgrown] at hfinished
            rcases List.mem_append.mp hfinished with hbefore | hnew
            · exact .inl hbefore
            · obtain rfl := List.mem_singleton.mp hnew
              rw [if_neg hne] at hresult
              exact .inr (.inr (.inr
                ⟨(i, makeResultInfo pb sDbCommand nErrorCode pMessage input.nStack),
                  by simp [hresult], rfl⟩))
        | dropped _ _ cmd rest hphase hhead hdropped hgrown =>
            rw [hgrown] at hfinished
            rcases List.mem_append.mp hfinished with hbefore | hnew
            · exact .inl hbefore
            · obtain rfl := List.mem_singleton.mp hnew
              rcases hdropped with hflush | hexpired
              · exact .inr (.inl hflush)
              · exact .inr (.inr (.inl ⟨input, haction, hphase, ⟨rest, hhead⟩, hexpired⟩))
      · exact .inl (by simpa only [Function.update_of_ne hworker] using hfinished)
  | _ => exact .inl hfinished

/-- What was answered stays answered. -/
theorem step_added_grows (my : CMyDbProxy n σ) (action : MyAction n) :
    my.mgr.added <+: (my.step pb generated_pool srv action).1.mgr.added := by
  have hstepped := step_stepped pb generated_pool srv my action
  generalize (my.step pb generated_pool srv action).1 = my' at hstepped
  cases hstepped with
  | opened hfree nType pDbClient nAssociateID timeout content nTimeout nContext callback nTime =>
      exact (query_workers pb srv my.mgr hfree _ nTime).2 ▸ List.prefix_refl _
  | sent hfree pRequest _ nTime =>
      exact (query_workers pb srv my.mgr hfree pRequest nTime).2 ▸ List.prefix_refl _
  | pushed => exact (CDbThreadMgr.push_parts my.mgr 0).2.1 ▸ List.prefix_refl _
  | advanced i input =>
      exact CDbThreadMgr.advance_added pb srv my.mgr i input ▸ List.prefix_append _ _
  | _ => exact List.prefix_refl _

/-- No worker is joined in a run of the client, which never asks for it. -/
theorem after_unjoined (actions : List (MyAction n)) :
    (after pb generated_pool srv nMaxCacheSize nWritebackTime conn actions).mgr.Unjoined := by
  obtain ⟨mgrActions, hprojects⟩ :=
    run_mgr pb generated_pool srv (init nMaxCacheSize nWritebackTime conn) actions
  unfold after
  rw [hprojects.reached]
  exact CDbThreadMgr.run_unjoined
    (fun i => ⟨rfl, by simp [CDbThread.HasLeft, init, CDbThreadMgr.init, CDbThread.init]⟩)
    hprojects.joins

/-- Session ids that are left after a run were left at any earlier point of it. -/
theorem sessionCount_of_append {before later : List (MyAction n)}
    (hcount : (after pb generated_pool srv nMaxCacheSize nWritebackTime conn
      (before ++ later)).proxy.sessionCount < 2 ^ 64) :
    (after pb generated_pool srv nMaxCacheSize nWritebackTime conn
      before).proxy.sessionCount < 2 ^ 64 := by
  unfold after at hcount ⊢
  rw [Runs.run_append] at hcount
  refine Runs.of_run (p := fun my : CMyDbProxy n σ => my.proxy.sessionCount < 2 ^ 64) ?_ hcount
  exact fun my action hlt => (sessionCount_step my action).1.trans_lt hlt

/-- **Over whole runs:** a request that its worker has finished was answered, or discarded as
expired. -/
theorem finished_answered (actions : List (MyAction n))
    (hcount : (after pb generated_pool srv nMaxCacheSize nWritebackTime conn
      actions).proxy.sessionCount < 2 ^ 64) {i : Fin n} {sDbCommand : SDbCommand}
    (hfinished : sDbCommand ∈ ((after pb generated_pool srv nMaxCacheSize nWritebackTime conn
      actions).mgr.m_vecDbThread i).finished) (hne : sDbCommand.nSessionID ≠ 0) :
    Discarded pb generated_pool srv nMaxCacheSize nWritebackTime conn actions i sDbCommand ∨
      ∃ result ∈ (after pb generated_pool srv nMaxCacheSize nWritebackTime conn
        actions).mgr.added, result.2.pResponse.session_id = sDbCommand.nSessionID := by
  induction actions using List.reverseRecOn with
  | nil => simp [after, Runs.run, init, CDbThreadMgr.init, CDbThread.init] at hfinished
  | append_singleton actions action ih =>
      have hsnoc : after pb generated_pool srv nMaxCacheSize nWritebackTime conn
          (actions ++ [action]) = ((after pb generated_pool srv nMaxCacheSize nWritebackTime conn
            actions).step pb generated_pool srv action).1 := by
        simp only [after, Runs.run_append, Runs.run]
      have hledger := after_ledger pb generated_pool srv nMaxCacheSize nWritebackTime conn
        (actions ++ [action]) hcount
      obtain ⟨call, hcall, rfl, _⟩ := hledger.call_of_finished hfinished hne
      have hsingle := hledger.single call hcall hne
      have hless := sessionCount_of_append hcount
      rw [hsnoc] at hfinished ⊢
      rcases step_finishes pb generated_pool srv _ action hfinished hne with
        hbefore | hflush | ⟨input, rfl, hdiscards⟩ | hanswered
      · rcases ih hless hbefore with hdiscarded | ⟨result, hadded, hticket⟩
        · exact .inl (hdiscarded.append action)
        · exact .inr ⟨result, (step_added_grows _ action).subset hadded, hticket⟩
      · exact absurd hflush hsingle
      · exact .inl ⟨actions, input, [], rfl, hdiscards⟩
      · exact .inr hanswered

end CMyDbProxy

/-- **A request is answered in time:** once its worker has made five steps for each command it
still had and for each setback, and four more, the callback has been called or the answer waits to
be taken, unless the client was destroyed after the request, or the worker discarded the command
as expired and the request waits for its timeout. -/
theorem requests_answered_in_time {n : Nat} {σ : Type} (pb : Runtime)
    (generated_pool : String → Option Descriptor) (srv : Fin n → Server σ)
    (nMaxCacheSize nWritebackTime : Nat) (conn : Fin n → CDbConnection σ)
    (before later : List (MyAction n))
    (hcount : (CMyDbProxy.after pb generated_pool srv nMaxCacheSize nWritebackTime conn
      (before ++ later)).proxy.sessionCount < 2 ^ 64)
    (hfree : (CMyDbProxy.after pb generated_pool srv nMaxCacheSize nWritebackTime conn
      before).isFree = true)
    (call : Call)
    (hcall : call ∈ (CMyDbProxy.after pb generated_pool srv nMaxCacheSize nWritebackTime conn
      before).mgr.submitted)
    (hsession : call.sDbCommand.nSessionID ≠ 0) (i : Fin n) (hi : i.val = call.nThreadIndex % n) :
    let my := CMyDbProxy.after pb generated_pool srv nMaxCacheSize nWritebackTime conn before
    let my' := CMyDbProxy.after pb generated_pool srv nMaxCacheSize nWritebackTime conn
      (before ++ later)
    5 * (my.mgr.m_vecDbThread i).remaining + 4 + 5 * my.setbacks pb generated_pool srv i later <
        later.countP (MyAction.isStepOf i) →
      ∃ nRequest r, call.sDbCommand.nSessionID = nRequest + 1 ∧
        my'.proxy.registered[nRequest]? = some r ∧
        ((∃ invocation ∈ my'.proxy.invoked, invocation.nRequest = nRequest) ∨
          CDbProxy.DestroyedAfter my'.destroyed r.pDbClient nRequest ∨
          (∃ sResultInfo ∈ my'.listDbResultInfo ++ my'.mgr.m_listResultInfo,
            sResultInfo.pResponse.session_id = nRequest + 1) ∨
          CMyDbProxy.Discarded pb generated_pool srv nMaxCacheSize nWritebackTime conn
            (before ++ later) i call.sDbCommand ∧
            ∃ node ∈ my'.proxy.m_listTimeout, node.2.nSessionID = nRequest + 1) := by
  intro my my' hsteps
  have hledger' : my'.Ledger := CMyDbProxy.after_ledger pb generated_pool srv nMaxCacheSize
    nWritebackTime conn (before ++ later) hcount
  have hrun : my' = Runs.run (CMyDbProxy.step pb generated_pool srv) my later :=
    Runs.run_append before later
  have hledger : my.Ledger := CMyDbProxy.after_ledger pb generated_pool srv nMaxCacheSize
    nWritebackTime conn before (CMyDbProxy.sessionCount_of_append hcount)
  obtain ⟨hcalled, hfinished⟩ :=
    hledger.finished_in_time (CMyDbProxy.after_unjoined before) hfree hcall hi hsteps
  rw [← hrun] at hcalled hfinished
  obtain ⟨nRequest, hticket⟩ := Nat.exists_eq_succ_of_ne_zero hsession
  have hdrawn : nRequest < my'.proxy.registered.length := by
    have hle := hledger'.drawn call hcalled
    rw [hticket] at hle
    exact hle
  refine ⟨nRequest, _, hticket, List.getElem?_eq_getElem hdrawn, ?_⟩
  rcases hledger'.books.entered nRequest _ (List.getElem?_eq_getElem hdrawn) with
    hinvoked | hgone | ⟨info, hpending⟩
  · exact .inl hinvoked
  · exact .inr (.inl hgone)
  · rw [← Nat.succ_eq_add_one, ← hticket] at hpending ⊢
    rcases CMyDbProxy.finished_answered (before ++ later) hcount hfinished hsession with
      hdiscarded | ⟨result, hadded, hresult⟩
    · obtain ⟨_, _, _, _, hdiscards⟩ := id hdiscarded
      have htimed := hledger'.timed call hcalled hdiscards.nTimeout_ne info hpending
      rcases hledger'.linked.own_entry _ info hpending with ⟨hnop, _⟩ | ⟨_, node, hin, _, hnode⟩
      · exact absurd hnop htimed
      · exact .inr (.inr (.inr ⟨hdiscarded, node, hin, hnode⟩))
    · exact .inr (.inr (.inl (hledger'.waiting_of_added hpending hadded hresult)))

/-- A nop of worker 0, whose connection is opened first, and the steps of that worker. -/
def nopRequested : List (MyAction 2) := [.request (.nop ⟨100, true⟩ 1 0 7 0) 100, .push]

/-- The answer waits after fifteen steps. -/
theorem requests_answered_in_time_oneNop :
    let answering : List (MyAction 2) := List.replicate 15 (.advance 0 ⟨⟨101, 101⟩, ⟨[], 0⟩, 7⟩)
    let my := CMyDbProxy.after PlayerBase.runtime PlayerBase.FindMessageTypeByName
      (fun _ => Server.constant (.done 0 1)) 0 1 (fun _ => ⟨false, (), 0, []⟩)
      (nopRequested ++ answering)
    ∃ nRequest r, 1 = nRequest + 1 ∧ my.proxy.registered[nRequest]? = some r ∧
      ((∃ invocation ∈ my.proxy.invoked, invocation.nRequest = nRequest) ∨
        CDbProxy.DestroyedAfter my.destroyed r.pDbClient nRequest ∨
        (∃ sResultInfo ∈ my.listDbResultInfo ++ my.mgr.m_listResultInfo,
          sResultInfo.pResponse.session_id = nRequest + 1) ∨
        CMyDbProxy.Discarded PlayerBase.runtime PlayerBase.FindMessageTypeByName
          (fun _ => Server.constant (.done 0 1)) 0 1 (fun _ => ⟨false, (), 0, []⟩)
          (nopRequested ++ answering) 0 ⟨0, .kOT_NOP, 1, 0, some .nop_command⟩ ∧
          ∃ node ∈ my.proxy.m_listTimeout, node.2.nSessionID = nRequest + 1) :=
  requests_answered_in_time PlayerBase.runtime PlayerBase.FindMessageTypeByName
    (fun _ => Server.constant (.done 0 1)) 0 1 (fun _ => ⟨false, (), 0, []⟩) nopRequested
    (List.replicate 15 (.advance 0 ⟨⟨101, 101⟩, ⟨[], 0⟩, 7⟩)) (by decide +kernel) rfl
    ⟨0, 0, ⟨0, .kOT_NOP, 1, 0, some .nop_command⟩⟩ (List.mem_singleton.mpr rfl) (by decide) 0 rfl
    (by decide +kernel)

end Db
