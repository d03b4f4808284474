import DbService.MyDbProxy

/-!
# The order of the callbacks

The session ids of a proxy are tickets in increasing order.  `db::query` hands each to one worker,
the worker finishes what it is given in order, the results of the workers are merged as they come,
and `update` delivers them in that order.  No stage lets a ticket overtake another one of the same
worker, so the callbacks that are answers come in the order of the requests, worker by worker,
and an answer says that all that went to its worker before is finished.

* `step_tickets` -- every step keeps the tickets in order, while session ids are left;
* `answers_in_request_order` -- answers of one worker come in the order of the requests;
* `answer_after_earlier_requests` -- and each comes after all that went to the worker before.
-/

namespace Db

open Reflection ByteText

/-- The session ids of the commands that have one, in order. -/
def tickets (commands : List SDbCommand) : List Nat :=
  (commands.map SDbCommand.nSessionID).filter (· != 0)

@[simp] theorem tickets_append (left right : List SDbCommand) :
    tickets (left ++ right) = tickets left ++ tickets right := by
  simp [tickets]

/-- A ticket is the session of a command that has one. -/
theorem mem_tickets {commands : List SDbCommand} {nSessionID : Nat} :
    nSessionID ∈ tickets commands ↔
      nSessionID ≠ 0 ∧ ∃ sDbCommand ∈ commands, sDbCommand.nSessionID = nSessionID := by
  simp [tickets, and_comm]

theorem tickets_sublist {commands commands' : List SDbCommand}
    (h : commands.Sublist commands') : (tickets commands).Sublist (tickets commands') :=
  (h.map _).filter _

/-- Of increasing tickets each is there once. -/
theorem tickets_alone {left right : List SDbCommand} {sDbCommand : SDbCommand}
    (hincreasing : (tickets (left ++ sDbCommand :: right)).Pairwise (· < ·))
    (hne : sDbCommand.nSessionID ≠ 0) :
    (∀ cmd ∈ left, cmd.nSessionID ≠ sDbCommand.nSessionID) ∧
      ∀ cmd ∈ right, cmd.nSessionID ≠ sDbCommand.nSessionID := by
  rw [← List.singleton_append, tickets_append, tickets_append] at hincreasing
  have hown : sDbCommand.nSessionID ∈ tickets [sDbCommand] := by simp [tickets, hne]
  obtain ⟨_, hrest, hbefore⟩ := List.pairwise_append.mp hincreasing
  obtain ⟨_, _, hafter⟩ := List.pairwise_append.mp hrest
  constructor
  · intro cmd hin heq
    have hmem : sDbCommand.nSessionID ∈ tickets left := mem_tickets.mpr ⟨hne, cmd, hin, heq⟩
    exact absurd (hbefore _ hmem _ (List.mem_append_left _ hown)) (Nat.lt_irrefl _)
  · intro cmd hin heq
    have hmem : sDbCommand.nSessionID ∈ tickets right := mem_tickets.mpr ⟨hne, cmd, hin, heq⟩
    exact absurd (hafter _ hown _ hmem) (Nat.lt_irrefl _)

/-- A callback of an answer, not of a timeout. -/
def Invocation.isAnswer (call : Invocation) : Bool :=
  call.nErrCode != EResultCode.kRC_TIME_OUT.code

/-- What `db::query` makes of a request. -/
theorem query_fields {pb : Runtime} {nServiceID nTime nThreadIndex : Nat} {r : Request}
    {sDbCommand : SDbCommand} (h : query pb nServiceID r nTime = some (nThreadIndex, sDbCommand)) :
    nThreadIndex = r.associate_id.getD 0 ∧ sDbCommand.nSessionID = r.session_id.getD 0 ∧
      sDbCommand.nType = r.type.getD .kOT_SELECT ∧
      (r.timeout.getD 0 = 0 → sDbCommand.nTimeout = 0) := by
  unfold query at h
  split at h
  · cases h
  · obtain ⟨hindex, hcommand⟩ := Prod.mk.inj (Option.some.inj h)
    refine ⟨hindex.symm, hcommand ▸ rfl, hcommand ▸ rfl, ?_⟩
    intro hzero
    rw [← hcommand]
    simp [hzero]

namespace CDbThreadMgr

variable {n : Nat} {σ : Type} {pb : Runtime} {srv : Fin n → Server σ} {mgr : CDbThreadMgr n σ}

/-- A call is pushed to a worker once or not at all. -/
theorem pushes_sublist (calls : List Call) (i : Fin n) :
    (((calls.flatMap (query n)).filter fun p => p.worker = i).map Push.call).Sublist calls := by
  induction calls with
  | nil => exact List.Sublist.slnil
  | cons call rest ih =>
      rw [List.flatMap_cons, List.filter_append, List.map_append]
      have hnodup : (targets n call.nThreadIndex call.sDbCommand.nType).Nodup :=
        (List.nodup_finRange n).filter _
      have hone : (((query n call).filter fun p => p.worker = i).map Push.call).Sublist [call] := by
        rw [query, List.filter_map]
        simp only [Function.comp_def, List.map_map, List.filter_eq]
        rcases Nat.le_one_iff_eq_zero_or_eq_one.mp (List.nodup_iff_count_le_one.mp hnodup i) with
          hnone | hone
        · simp [hnone]
        · simp [hone]
      exact hone.append ih

/-- Any command but a FLUSH goes to the worker of its index only. -/
theorem worker_of_mem_query {call : Call} {p : Push n} (h : p ∈ query n call)
    (hflush : call.sDbCommand.nType ≠ .kOT_FLUSH) : p.worker.val = call.nThreadIndex % n := by
  simp only [query, targets, List.mem_map, List.mem_filter] at h
  obtain ⟨i, ⟨_, hi⟩, rfl⟩ := h
  simpa [hflush] using hi

/-- A push leaves what is submitted, added and finished as it is. -/
theorem push_parts (mgr : CDbThreadMgr n σ) (caller : Nat) :
    (mgr.push caller).submitted = mgr.submitted ∧ (mgr.push caller).added = mgr.added ∧
      ∀ i, ((mgr.push caller).m_vecDbThread i).finished = (mgr.m_vecDbThread i).finished := by
  unfold push
  split
  · exact ⟨rfl, rfl, fun _ => rfl⟩
  · rename_i p rest _
    refine ⟨rfl, rfl, fun i => ?_⟩
    by_cases heq : i = p.worker
    · subst heq
      simp [CDbThread.query]
    · simp [Function.update_of_ne heq]

variable (pb srv) in
/-- `db::query` of the thread refuses the request or makes a call of it. -/
theorem query_step (hfree : (mgr.calls 0).isEmpty = true) (pRequest : Request) (nTime : Nat) :
    Db.query pb 0 pRequest nTime = none ∧ (mgr.step pb srv (.query 0 0 pRequest nTime)).1 = mgr ∨
      ∃ nThreadIndex sDbCommand, Db.query pb 0 pRequest nTime = some (nThreadIndex, sDbCommand) ∧
        (mgr.step pb srv (.query 0 0 pRequest nTime)).1 =
          { mgr with
            calls := Function.update mgr.calls 0 (query n ⟨0, nThreadIndex, sDbCommand⟩)
            submitted := mgr.submitted ++ [⟨0, nThreadIndex, sDbCommand⟩] } := by
  simp only [step]
  cases hquery : Db.query pb 0 pRequest nTime with
  | none => exact .inl ⟨rfl, rfl⟩
  | some command =>
      refine .inr ⟨command.1, command.2, rfl, ?_⟩
      simp [submit, hfree]

/-- One thread makes all the calls, so its pushes are those of the calls. -/
theorem Ordered.pushes_eq (h : mgr.Ordered) (hcaller : ∀ call ∈ mgr.submitted, call.caller = 0) :
    mgr.pushes ++ mgr.calls 0 = mgr.submitted.flatMap (query n) := by
  have hall : mgr.submitted.filter (fun call => call.caller = 0) = mgr.submitted :=
    List.filter_eq_self.mpr fun call hin => by simpa using hcaller call hin
  have hown : mgr.pushes.filter (fun p => p.call.caller = 0) = mgr.pushes := by
    refine List.filter_eq_self.mpr fun p hin => ?_
    have hin' : p ∈ mgr.pushes.filter (fun p' => p'.call.caller = p.call.caller) :=
      List.mem_filter.mpr ⟨hin, by simp⟩
    have hcalled := List.mem_append_left (mgr.calls p.call.caller) hin'
    rw [h.callers p.call.caller] at hcalled
    obtain ⟨call, hcall, hp⟩ := List.mem_flatMap.mp hcalled
    rw [call_of_mem_query hp]
    simpa using hcaller call (List.mem_filter.mp hcall).1
  have hcalls := h.callers 0
  rwa [hown, hall] at hcalls

/-- What a worker has been given is the beginning of what the calls give it. -/
theorem Ordered.pushed_prefix (h : mgr.Ordered)
    (hcaller : ∀ call ∈ mgr.submitted, call.caller = 0) (i : Fin n) :
    (mgr.m_vecDbThread i).pushed <+:
      ((mgr.submitted.flatMap (query n)).filter fun p => p.worker = i).map
        fun p => p.call.sDbCommand := by
  obtain ⟨q, htracks, hpushed⟩ := h.workers i
  rw [htracks.pushed, hpushed, ← h.pushes_eq hcaller, List.filter_append]
  exact (List.prefix_append _ _).map _

/-- A worker finishes what was pushed to it, from the front. -/
theorem Ordered.finished_prefix (h : mgr.Ordered) (i : Fin n) :
    (mgr.m_vecDbThread i).finished <+: (mgr.m_vecDbThread i).pushed := by
  obtain ⟨q, htracks, _⟩ := h.workers i
  rw [htracks.pushed, htracks.finished]
  exact q.finished_prefix.map _

/-- Its tickets are drawn in order. -/
theorem Ordered.tickets_sublist (h : mgr.Ordered)
    (hcaller : ∀ call ∈ mgr.submitted, call.caller = 0) (i : Fin n) :
    (tickets (mgr.m_vecDbThread i).finished).Sublist
      (tickets (mgr.submitted.map Call.sDbCommand)) := by
  have hgiven := (h.finished_prefix i).trans (h.pushed_prefix hcaller i)
  have hcalls := (pushes_sublist mgr.submitted i).map Call.sDbCommand
  rw [List.map_map] at hcalls
  exact Db.tickets_sublist (hgiven.sublist.trans hcalls)

end CDbThreadMgr

namespace CMyDbProxy

variable {n : Nat} {σ : Type} {pb : Runtime} {generated_pool : String → Option Descriptor}
  {srv : Fin n → Server σ} {my : CMyDbProxy n σ}

/-- **The tickets are passed on in order.** -/
structure Tickets (my : CMyDbProxy n σ) : Prop where
  numbered : my.proxy.Numbered
  ordered : my.mgr.Ordered
  caller : ∀ call ∈ my.mgr.submitted, call.caller = 0
  increasing : (tickets (my.mgr.submitted.map Call.sDbCommand)).Pairwise (· < ·)
  drawn : ∀ call ∈ my.mgr.submitted, call.sDbCommand.nSessionID ≤ my.proxy.sessionCount
  single : ∀ call ∈ my.mgr.submitted, call.sDbCommand.nSessionID ≠ 0 →
    call.sDbCommand.nType ≠ .kOT_FLUSH
  handed : my.mgr.handed = my.delivered ++ my.listDbResultInfo
  added : my.mgr.handed ++ my.mgr.m_listResultInfo = my.mgr.added.map Prod.snd
  answers : ∀ i, ((my.mgr.added.filter fun result => result.1 = i).map
      fun result => result.2.pResponse.session_id).Sublist
    (tickets (my.mgr.m_vecDbThread i).finished)
  callbacks : ((my.proxy.invoked.filter Invocation.isAnswer).map
      fun call => call.nRequest + 1).Sublist
    (my.delivered.map fun sResultInfo => sResultInfo.pResponse.session_id)

/-- At first there is no ticket. -/
theorem init_tickets (nMaxCacheSize nWritebackTime : Nat) (conn : Fin n → CDbConnection σ) :
    Tickets (init nMaxCacheSize nWritebackTime conn) where
  numbered := CDbProxy.init_numbered
  ordered := CDbThreadMgr.init_ordered nMaxCacheSize nWritebackTime conn
  caller := by simp [init, CDbThreadMgr.init]
  increasing := by simp [init, CDbThreadMgr.init, tickets]
  drawn := by simp [init, CDbThreadMgr.init]
  single := by simp [init, CDbThreadMgr.init]
  handed := rfl
  added := rfl
  answers := by simp [init, CDbThreadMgr.init]
  callbacks := by simp [init, CDbProxy.init]

/-- A proxy whose callbacks were timeouts. -/
theorem Tickets.aged (h : Tickets my) {destroyed : Option Nat} {proxy : CDbProxy}
    (hages : CDbProxy.Ages destroyed my.proxy proxy) (clients : List (Nat × Nat)) :
    Tickets { my with proxy := proxy, destroyed := clients } where
  numbered := h.numbered.shrink hages.counter hages.registered hages.pending
  ordered := h.ordered
  caller := h.caller
  increasing := h.increasing
  drawn := by
    simp only [CDbProxy.sessionCount, hages.registered]
    exact h.drawn
  single := h.single
  handed := h.handed
  added := h.added
  answers := h.answers
  callbacks := by
    obtain ⟨calls, hinvoked, htimeout⟩ := hages.timeouts
    have hnone : calls.filter Invocation.isAnswer = [] :=
      List.filter_eq_nil_iff.mpr fun call hin => by simp [Invocation.isAnswer, htimeout call hin]
    rw [hinvoked, List.filter_append, hnone, List.append_nil]
    exact h.callbacks

/-- A request that draws no ticket. -/
theorem Tickets.sent (h : Tickets my) (hfree : my.isFree = true) {pRequest : Request}
    (hsession : pRequest.session_id.getD 0 = 0) (nTime : Nat) :
    Tickets { my with mgr := (my.mgr.step pb srv (.query 0 0 pRequest nTime)).1 } := by
  have hordered : (my.mgr.step pb srv (.query 0 0 pRequest nTime)).1.Ordered :=
    CDbThreadMgr.step_ordered h.ordered _
  rcases CDbThreadMgr.query_step pb srv hfree pRequest nTime with
    ⟨_, heq⟩ | ⟨nThreadIndex, sDbCommand, hquery, heq⟩
  · rw [heq]
    exact h
  · rw [heq] at hordered ⊢
    have hzero : sDbCommand.nSessionID = 0 := (query_fields hquery).2.1.trans hsession
    refine ⟨h.numbered, hordered, ?_, ?_, ?_, ?_, h.handed, h.added, h.answers, h.callbacks⟩
    · simpa [or_imp, forall_and] using h.caller
    · simpa [tickets, hzero] using h.increasing
    · simpa [or_imp, forall_and, hzero] using h.drawn
    · simpa [or_imp, forall_and, hzero] using h.single

/-- **A request with a session draws the next ticket,** unless `db::query` refuses it. -/
theorem Tickets.opened (h : Tickets my) (hfree : my.isFree = true)
    (hcount : my.proxy.sessionCount + 1 < 2 ^ 64) {nType : EOperatorType} (pDbClient : Nat)
    (nTimeout : Option Int) (nContext callback : Nat) (pRequest : Request)
    (hsession : pRequest.session_id.getD 0 = my.proxy.m_nNextSessionID)
    (hflush : pRequest.type.getD .kOT_SELECT ≠ .kOT_FLUSH) (nTime : Nat) :
    Tickets
      { my with
        proxy := (my.proxy.openSession nType pDbClient nTimeout nContext callback).2
        mgr := (my.mgr.step pb srv (.query 0 0 pRequest nTime)).1 } := by
  have hordered : (my.mgr.step pb srv (.query 0 0 pRequest nTime)).1.Ordered :=
    CDbThreadMgr.step_ordered h.ordered _
  have hnumbered := h.numbered.opened hcount nType pDbClient nTimeout nContext callback
  have hlen : (my.proxy.openSession nType pDbClient nTimeout nContext callback).2.sessionCount =
      my.proxy.sessionCount + 1 := by simp [CDbProxy.sessionCount]
  have hcallbacks := h.callbacks
  rw [← CDbProxy.openSession_invoked my.proxy nType pDbClient nTimeout nContext callback]
    at hcallbacks
  rcases CDbThreadMgr.query_step pb srv hfree pRequest nTime with
    ⟨_, heq⟩ | ⟨nThreadIndex, sDbCommand, hquery, heq⟩
  · rw [heq]
    refine ⟨hnumbered, h.ordered, h.caller, h.increasing, ?_, h.single, h.handed, h.added,
      h.answers, hcallbacks⟩
    intro call hin
    rw [hlen]
    exact Nat.le_succ_of_le (h.drawn call hin)
  · rw [heq] at hordered ⊢
    obtain ⟨_, hid, htype, _⟩ := query_fields hquery
    have hnext : sDbCommand.nSessionID = my.proxy.sessionCount + 1 :=
      hid.trans (hsession.trans (h.numbered.next_eq hcount))
    refine ⟨hnumbered, hordered, ?_, ?_, ?_, ?_, h.handed, h.added, h.answers, hcallbacks⟩
    · simpa [or_imp, forall_and] using h.caller
    · have hlast : tickets [sDbCommand] = [my.proxy.sessionCount + 1] := by
        simp [tickets, hnext]
      rw [List.map_append, tickets_append, List.pairwise_append]
      refine ⟨h.increasing, ?_, ?_⟩
      · rw [List.map_singleton, hlast]
        exact List.pairwise_singleton _ _
      intro nSessionID hin nSessionID' hin'
      obtain ⟨_, cmd, hcmd, rfl⟩ := mem_tickets.mp hin
      obtain ⟨call, hcall, rfl⟩ := List.mem_map.mp hcmd
      obtain rfl : nSessionID' = my.proxy.sessionCount + 1 := by simpa [hlast] using hin'
      exact Nat.lt_succ_of_le (h.drawn call hcall)
    · rw [hlen]
      intro call hin
      rcases List.mem_append.mp hin with hold | hnew
      · exact Nat.le_succ_of_le (h.drawn call hold)
      · rw [List.mem_singleton.mp hnew]
        exact hnext.le
    · intro call hin hne
      rcases List.mem_append.mp hin with hold | hnew
      · exact h.single call hold hne
      · rw [List.mem_singleton.mp hnew]
        exact htype ▸ hflush

/-- The next push of the call under way. -/
theorem Tickets.pushed (h : Tickets my) : Tickets { my with mgr := my.mgr.push 0 } := by
  obtain ⟨hsubmitted, hadded, hfinished⟩ := CDbThreadMgr.push_parts my.mgr 0
  have hresults : (my.mgr.push 0).handed = my.mgr.handed ∧
      (my.mgr.push 0).m_listResultInfo = my.mgr.m_listResultInfo := by
    unfold CDbThreadMgr.push
    split <;> exact ⟨rfl, rfl⟩
  refine ⟨h.numbered, CDbThreadMgr.push_ordered h.ordered 0, hsubmitted ▸ h.caller,
    hsubmitted ▸ h.increasing, hsubmitted ▸ h.drawn, hsubmitted ▸ h.single,
    hresults.1 ▸ h.handed, ?_, ?_, h.callbacks⟩
  · rw [hresults.1, hresults.2, hadded]
    exact h.added
  · simp only [hadded, hfinished]
    exact h.answers

/-- **A worker passes the ticket of the command it handled on.** -/
theorem Tickets.advanced (h : Tickets my) (i : Fin n) (input : Input) :
    Tickets { my with mgr := my.mgr.advance pb srv i input } := by
  have hordered : (my.mgr.advance pb srv i input).Ordered :=
    CDbThreadMgr.advance_ordered h.ordered i input
  obtain ⟨hthreads, _, hsubmitted, _⟩ := CDbThreadMgr.advance_parts pb srv my.mgr i input
  have hadded := CDbThreadMgr.advance_handed pb srv h.added i input
  have hfinishes := CDbThread.advance_finishes pb (srv i) (my.mgr.m_vecDbThread i) input
  refine ⟨h.numbered, hordered, hsubmitted ▸ h.caller, hsubmitted ▸ h.increasing,
    hsubmitted ▸ h.drawn, hsubmitted ▸ h.single, ?_, hadded, ?_, h.callbacks⟩
  · rw [← h.handed]
    unfold CDbThreadMgr.advance
    rcases (my.mgr.m_vecDbThread i).advance pb (srv i) input with ⟨th, result, writes, due⟩
    cases result <;> rfl
  · intro j
    have hhad := h.answers j
    simp only [hthreads]
    unfold CDbThreadMgr.advance
    generalize (my.mgr.m_vecDbThread i).advance pb (srv i) input = advanced at hfinishes ⊢
    obtain ⟨th, result, writes, due⟩ := advanced
    by_cases heq : j = i
    · subst heq
      rw [Function.update_self]
      cases hfinishes with
      | nothing _ _ hfinished hresult =>
          obtain rfl := hresult
          rw [hfinished]
          exact hhad
      | handled _ _ sDbCommand rest nErrorCode pMessage _ _ _ hfinished hresult =>
          obtain rfl := hresult
          rw [hfinished, tickets_append]
          by_cases hzero : sDbCommand.nSessionID = 0
          · simp only [hzero, if_true]
            exact hhad.trans (List.sublist_append_left _ _)
          · have hticket : tickets [sDbCommand] = [sDbCommand.nSessionID] := by
              simp [tickets, hzero]
            simp only [hzero, if_false, CDbThreadMgr.addResultInfo, List.filter_append,
              List.map_append, hticket]
            exact hhad.append (by simp [makeResultInfo])
      | dropped _ _ sDbCommand _ _ _ _ hfinished hresult =>
          obtain rfl := hresult
          rw [hfinished, tickets_append]
          exact hhad.trans (List.sublist_append_left _ _)
    · rw [Function.update_of_ne heq]
      cases result with
      | none => exact hhad
      | some sResultInfo =>
          simpa [CDbThreadMgr.addResultInfo, List.filter_append, Ne.symm heq] using hhad

/-- `update` takes the results. -/
theorem Tickets.taken (h : Tickets my) (hempty : my.listDbResultInfo = []) :
    Tickets
      { my with
        mgr := my.mgr.getResultInfo
        listDbResultInfo := my.mgr.m_listResultInfo } := by
  refine ⟨h.numbered, ⟨h.ordered.workers, h.ordered.callers⟩, h.caller, h.increasing, h.drawn,
    h.single, ?_, ?_, h.answers, h.callbacks⟩
  · simp only [CDbThreadMgr.getResultInfo, h.handed, hempty, List.append_nil]
  · simpa [CDbThreadMgr.getResultInfo] using h.added

/-- **A result is delivered:** the callback it calls is that of its ticket. -/
theorem Tickets.handedOn (h : Tickets my) {sResultInfo : SDbResultInfo}
    {rest : List SDbResultInfo} (hlist : my.listDbResultInfo = sResultInfo :: rest)
    (pb' : Runtime) :
    Tickets
      { my with
        proxy := my.proxy.onMessage pb' sResultInfo.pResponse
        listDbResultInfo := rest
        delivered := my.delivered ++ [sResultInfo] } := by
  have hreceives := CDbProxy.onMessage_receives pb' my.proxy sResultInfo.pResponse
  refine ⟨h.numbered.shrink hreceives.counter hreceives.registered
      hreceives.pending, h.ordered, h.caller, h.increasing, ?_,
    h.single, ?_, h.added, h.answers, ?_⟩
  · simp only [CDbProxy.sessionCount, hreceives.registered]
    exact h.drawn
  · simp [h.handed, hlist]
  · rw [List.map_append]
    rcases hreceives.calls with hsame | ⟨info, hpending, hcalled⟩
    · rw [hsame]
      exact h.callbacks.trans (List.sublist_append_left _ _)
    · rw [hcalled, List.filter_append, List.map_append]
      refine h.callbacks.append ?_
      have hticket := (h.numbered.records _ info hpending).1
      refine (List.filter_sublist.map _).trans ?_
      simp [hticket]

/-- **The step lemma,** while session ids are left.  A request draws the next ticket, and a step
of the service or of the proxy only passes the tickets on: from the submitted calls to the queue
of a worker, to its finished commands, to the results and to the callbacks. -/
theorem step_tickets (h : Tickets my) (action : MyAction n)
    (hcount : (my.step pb generated_pool srv action).1.proxy.sessionCount < 2 ^ 64) :
    Tickets (my.step pb generated_pool srv action).1 := by
  have hstepped := step_stepped pb generated_pool srv my action
  generalize (my.step pb generated_pool srv action).1 = my' at hcount hstepped
  cases hstepped with
  | idle => exact h
  | opened hfree nType pDbClient nAssociateID timeout content nTimeout nContext callback nTime _
      hflush =>
      have hleft : my.proxy.sessionCount + 1 < 2 ^ 64 := by
        simpa [CDbProxy.sessionCount] using hcount
      exact h.opened hfree hleft pDbClient nTimeout nContext callback
        (sessionRequest _ nAssociateID nType timeout _) rfl hflush nTime
  | sent hfree pRequest hsession nTime => exact h.sent hfree hsession nTime
  | aged proxy hages => exact h.aged hages my.destroyed
  | removed pDbClient => exact h.aged (CDbProxy.removal_ages my.proxy pDbClient) _
  | pushed => exact h.pushed
  | advanced i input => exact h.advanced i input
  | taken hempty => exact h.taken hempty
  | handedOn sResultInfo rest hlist => exact h.handedOn hlist _

/-- A step adds one session at most. -/
theorem sessionCount_step (my : CMyDbProxy n σ) (action : MyAction n) :
    my.proxy.sessionCount ≤ (my.step pb generated_pool srv action).1.proxy.sessionCount ∧
      (my.step pb generated_pool srv action).1.proxy.sessionCount ≤
        my.proxy.sessionCount + 1 := by
  have hstepped := step_stepped pb generated_pool srv my action
  generalize (my.step pb generated_pool srv action).1 = my' at hstepped
  cases hstepped with
  | opened => simp [CDbProxy.sessionCount]
  | aged proxy hages => simp [CDbProxy.sessionCount, hages.registered]
  | removed pDbClient =>
      simp [CDbProxy.sessionCount, (CDbProxy.removal_ages my.proxy pDbClient).registered]
  | handedOn sResultInfo rest hlist =>
      simp [CDbProxy.sessionCount, (CDbProxy.onMessage_receives _ my.proxy
        sResultInfo.pResponse).registered]
  | _ => exact ⟨Nat.le_refl _, Nat.le_succ _⟩

/-- **An invariant of the runs in which session ids are left.** -/
theorem run_invariant {inv : CMyDbProxy n σ → Prop}
    (hstep : ∀ my action, inv my →
      (step pb generated_pool srv my action).1.proxy.sessionCount < 2 ^ 64 →
      inv (step pb generated_pool srv my action).1)
    {my : CMyDbProxy n σ} (h : inv my) (actions : List (MyAction n))
    (hcount : (Runs.run (step pb generated_pool srv) my actions).proxy.sessionCount < 2 ^ 64) :
    inv (Runs.run (step pb generated_pool srv) my actions) := by
  refine Runs.run_preserves (fun my' : CMyDbProxy n σ => my'.proxy.sessionCount < 2 ^ 64 → inv my')
    ?_ (fun _ => h) actions hcount
  intro my' action hinv hlt
  exact hstep my' action (hinv (Nat.lt_of_le_of_lt (sessionCount_step my' action).1 hlt)) hlt

/-- The results are delivered in the order in which the workers added them. -/
theorem Tickets.delivered_prefix (h : Tickets my) :
    my.delivered <+: my.mgr.added.map Prod.snd := by
  rw [← h.added, h.handed, List.append_assoc]
  exact List.prefix_append _ _

/-- Results are handed over in the order they were added. -/
theorem Tickets.delivered_sublist (h : Tickets my) :
    (my.delivered.map fun sResultInfo => sResultInfo.pResponse.session_id).Sublist
      (my.mgr.added.map fun result => result.2.pResponse.session_id) := by
  have hsessions := h.delivered_prefix.map fun sResultInfo => sResultInfo.pResponse.session_id
  rw [List.map_map] at hsessions
  exact hsessions.sublist

/-- A ticket is drawn by one call. -/
theorem Tickets.alone (h : Tickets my) {earlier later : List Call} {call : Call}
    (hsubmitted : my.mgr.submitted = earlier ++ call :: later)
    (hne : call.sDbCommand.nSessionID ≠ 0) :
    (∀ call' ∈ earlier, call'.sDbCommand.nSessionID ≠ call.sDbCommand.nSessionID) ∧
      ∀ call' ∈ later, call'.sDbCommand.nSessionID ≠ call.sDbCommand.nSessionID := by
  have hincreasing := h.increasing
  rw [hsubmitted, List.map_append, List.map_cons] at hincreasing
  obtain ⟨hbefore, hafter⟩ := tickets_alone hincreasing hne
  exact ⟨fun call' hin => hbefore _ (List.mem_map_of_mem hin),
    fun call' hin => hafter _ (List.mem_map_of_mem hin)⟩

/-- A session belongs to one call. -/
theorem Tickets.call_unique (h : Tickets my) {call call' : Call} (hin : call ∈ my.mgr.submitted)
    (hin' : call' ∈ my.mgr.submitted) (hne : call.sDbCommand.nSessionID ≠ 0)
    (heq : call'.sDbCommand.nSessionID = call.sDbCommand.nSessionID) : call' = call := by
  obtain ⟨earlier, later, hsubmitted⟩ := List.append_of_mem hin
  obtain ⟨hearlier, hlater⟩ := h.alone hsubmitted hne
  rw [hsubmitted, List.mem_append, List.mem_cons] at hin'
  rcases hin' with hbefore | hsame | hafter
  · exact absurd heq (hearlier call' hbefore)
  · exact hsame
  · exact absurd heq (hlater call' hafter)

/-- A ticket a worker has is of a call that went to it. -/
theorem Tickets.call_of_finished (h : Tickets my) {i : Fin n} {sDbCommand : SDbCommand}
    (hfinished : sDbCommand ∈ (my.mgr.m_vecDbThread i).finished)
    (hne : sDbCommand.nSessionID ≠ 0) :
    ∃ call ∈ my.mgr.submitted, call.sDbCommand = sDbCommand ∧
      i.val = call.nThreadIndex % n := by
  have hgiven := ((h.ordered.finished_prefix i).trans
    (h.ordered.pushed_prefix h.caller i)).subset hfinished
  obtain ⟨p, hp, rfl⟩ := List.mem_map.mp hgiven
  obtain ⟨hquery, hworker⟩ := List.mem_filter.mp hp
  obtain ⟨call, hcall, hpcall⟩ := List.mem_flatMap.mp hquery
  obtain rfl := CDbThreadMgr.call_of_mem_query hpcall
  obtain rfl : p.worker = i := by simpa using hworker
  exact ⟨p.call, hcall, rfl,
    CDbThreadMgr.worker_of_mem_query hpcall (h.single _ hcall hne)⟩

/-- The call of a result is one that went to the worker that added it. -/
theorem Tickets.call_of_result (h : Tickets my) {i : Fin n} {sResultInfo : SDbResultInfo}
    (hadded : (i, sResultInfo) ∈ my.mgr.added) :
    ∃ call ∈ my.mgr.submitted,
      call.sDbCommand.nSessionID = sResultInfo.pResponse.session_id ∧
      call.sDbCommand.nSessionID ≠ 0 ∧ i.val = call.nThreadIndex % n ∧
      call.sDbCommand ∈ (my.mgr.m_vecDbThread i).finished := by
  have hresult : sResultInfo.pResponse.session_id ∈
      tickets (my.mgr.m_vecDbThread i).finished := by
    refine (h.answers i).subset (List.mem_map.mpr ⟨(i, sResultInfo), ?_, rfl⟩)
    exact List.mem_filter.mpr ⟨hadded, by simp⟩
  obtain ⟨hne, sDbCommand, hfinished, heq⟩ := mem_tickets.mp hresult
  have hne' : sDbCommand.nSessionID ≠ 0 := heq ▸ hne
  obtain ⟨call, hcall, rfl, hi⟩ := h.call_of_finished hfinished hne'
  exact ⟨call, hcall, heq, hne', hi, hfinished⟩

/-- The request of a callback went to worker `i`. -/
def WentTo (my : CMyDbProxy n σ) (invocation : Invocation) (i : Fin n) : Prop :=
  ∃ call ∈ my.mgr.submitted, call.sDbCommand.nSessionID = invocation.nRequest + 1 ∧
    i.val = call.nThreadIndex % n

/-- The results of the callbacks that are answers, in their order. -/
theorem Tickets.exists_results (h : Tickets my) :
    ∃ results : List (Fin n × SDbResultInfo), results.Sublist my.mgr.added ∧
      (my.proxy.invoked.filter Invocation.isAnswer).map (fun call => call.nRequest + 1) =
        results.map fun result => result.2.pResponse.session_id :=
  List.sublist_map_iff.mp (h.callbacks.trans h.delivered_sublist)

/-- The results of one worker have increasing tickets. -/
theorem Tickets.results_increasing (h : Tickets my) {results : List (Fin n × SDbResultInfo)}
    (hresults : results.Sublist my.mgr.added) (i : Fin n) :
    results.Pairwise fun earlier later => earlier.1 = i → later.1 = i →
      earlier.2.pResponse.session_id < later.2.pResponse.session_id := by
  have hsessions := (((hresults.filter fun result => decide (result.1 = i)).map
    fun result => result.2.pResponse.session_id).trans (h.answers i)).trans
      (h.ordered.tickets_sublist h.caller i)
  have hpairwise := h.increasing.sublist hsessions
  rw [List.pairwise_map, List.pairwise_filter] at hpairwise
  simpa using hpairwise

/-- **The answers of a worker come in the order of the requests.** -/
theorem Tickets.in_order (h : Tickets my) (i : Fin n) :
    my.proxy.invoked.Pairwise fun earlier later =>
      earlier.isAnswer = true → later.isAnswer = true → my.WentTo earlier i →
        my.WentTo later i → earlier.nRequest < later.nRequest := by
  obtain ⟨results, hresults, hsessions⟩ := h.exists_results
  have hworker : ∀ result ∈ results, ∀ call ∈ my.mgr.submitted,
      call.sDbCommand.nSessionID = result.2.pResponse.session_id →
      i.val = call.nThreadIndex % n → result.1 = i := by
    intro result hin call hcall heq hi
    obtain ⟨call', hcall', heq', hne, hi', _⟩ := h.call_of_result (hresults.subset hin)
    obtain rfl := h.call_unique hcall' hcall hne (heq.trans heq'.symm)
    exact Fin.ext (hi'.trans hi.symm)
  have hordered : (results.map fun result => result.2.pResponse.session_id).Pairwise
      fun s t => (∃ call ∈ my.mgr.submitted, call.sDbCommand.nSessionID = s ∧
          i.val = call.nThreadIndex % n) →
        (∃ call ∈ my.mgr.submitted, call.sDbCommand.nSessionID = t ∧
          i.val = call.nThreadIndex % n) → s < t := by
    rw [List.pairwise_map]
    refine (h.results_increasing hresults i).imp_of_mem ?_
    intro earlier later hearlier hlater hlt hfirst hsecond
    obtain ⟨call, hcall, heq, hi⟩ := hfirst
    obtain ⟨call', hcall', heq', hi'⟩ := hsecond
    exact hlt (hworker earlier hearlier call hcall heq hi)
      (hworker later hlater call' hcall' heq' hi')
  rw [← hsessions, List.pairwise_map, List.pairwise_filter] at hordered
  refine hordered.imp fun {earlier later} hlt hearlier hlater hfirst hsecond => ?_
  exact Nat.lt_of_succ_lt_succ (hlt hearlier hlater hfirst hsecond)

/-- **An answer is a barrier:** its worker has finished all that went to it before, and the
command itself. -/
theorem Tickets.answer_finished (h : Tickets my) {invocation : Invocation}
    (hinvoked : invocation ∈ my.proxy.invoked) (hanswer : invocation.isAnswer = true)
    {earlier later : List Call} {call : Call}
    (hsubmitted : my.mgr.submitted = earlier ++ call :: later)
    (hcall : call.sDbCommand.nSessionID = invocation.nRequest + 1) {i : Fin n}
    (hi : i.val = call.nThreadIndex % n) :
    ((earlier.flatMap (CDbThreadMgr.query n)).filter fun p => p.worker = i).map
        (fun p => p.call.sDbCommand) ++ [call.sDbCommand] <+:
      (my.mgr.m_vecDbThread i).finished := by
  obtain ⟨results, hresults, hsessions⟩ := h.exists_results
  have hsession : invocation.nRequest + 1 ∈
      results.map fun result => result.2.pResponse.session_id := by
    rw [← hsessions]
    exact List.mem_map.mpr ⟨invocation, List.mem_filter.mpr ⟨hinvoked, hanswer⟩, rfl⟩
  obtain ⟨⟨j, sResultInfo⟩, hin, hticket⟩ := List.mem_map.mp hsession
  obtain ⟨call', hin', heq', hne, hj, hfinished⟩ := h.call_of_result (hresults.subset hin)
  have hmine : call ∈ my.mgr.submitted := by simp [hsubmitted]
  obtain rfl := h.call_unique hin' hmine hne (hcall.trans (hticket.symm.trans heq'.symm))
  obtain rfl : j = i := Fin.ext (hj.trans hi.symm)
  -- what the worker is given, cut at the command of the answer
  have hgiven := (h.ordered.finished_prefix j).trans (h.ordered.pushed_prefix h.caller j)
  rw [hsubmitted, ← List.singleton_append, List.flatMap_append, List.flatMap_append,
    List.flatMap_singleton, List.filter_append, List.filter_append,
    CDbThreadMgr.query_filter_worker call hj, List.map_append, List.map_append,
    ← List.append_assoc, List.map_singleton] at hgiven
  rcases List.prefix_or_prefix_of_prefix hgiven (List.prefix_append _ _) with hshort | hlong
  · rcases List.prefix_concat_iff.mp hshort with heq | hbefore
    · exact heq ▸ List.prefix_rfl
    · obtain ⟨p, hp, hsame⟩ := List.mem_map.mp (hbefore.subset hfinished)
      obtain ⟨call, hcall, hpcall⟩ := List.mem_flatMap.mp (List.mem_filter.mp hp).1
      obtain rfl := CDbThreadMgr.call_of_mem_query hpcall
      exact absurd (congrArg SDbCommand.nSessionID hsame)
        ((h.alone hsubmitted hne).1 p.call hcall)
  · exact hlong

variable (pb generated_pool srv) in
/-- Every run keeps the tickets in order, until the session ids wrap. -/
theorem after_tickets (nMaxCacheSize nWritebackTime : Nat) (conn : Fin n → CDbConnection σ)
    (actions : List (MyAction n))
    (hcount : (after pb generated_pool srv nMaxCacheSize nWritebackTime conn
      actions).proxy.sessionCount < 2 ^ 64) :
    Tickets (after pb generated_pool srv nMaxCacheSize nWritebackTime conn actions) :=
  run_invariant (fun _ action h hlt => step_tickets h action hlt)
    (init_tickets nMaxCacheSize nWritebackTime conn) actions hcount

end CMyDbProxy

/-- **Per worker, answers come in the order of the requests:** of two answers to requests that
went to one worker, the one that is called back first was asked for first.  This is so in every
run, however the workers and the proxy take turns, while session ids are left. -/
theorem answers_in_request_order {n : Nat} {σ : Type} (pb : Runtime)
    (generated_pool : String → Option Descriptor) (srv : Fin n → Server σ)
    (nMaxCacheSize nWritebackTime : Nat) (conn : Fin n → CDbConnection σ)
    (actions : List (MyAction n))
    (hcount : (CMyDbProxy.after pb generated_pool srv nMaxCacheSize nWritebackTime conn
      actions).proxy.sessionCount < 2 ^ 64) (i : Fin n) :
    let my := CMyDbProxy.after pb generated_pool srv nMaxCacheSize nWritebackTime conn actions
    my.proxy.invoked.Pairwise fun earlier later =>
      earlier.isAnswer = true → later.isAnswer = true → my.WentTo earlier i →
        my.WentTo later i → earlier.nRequest < later.nRequest :=
  (CMyDbProxy.after_tickets pb generated_pool srv nMaxCacheSize nWritebackTime conn actions
    hcount).in_order i

/-- Two nops with a worker in between that is never asked, both answered. -/
def twoNops : List (MyAction 2) :=
  let advance : MyAction 2 := .advance (Fin.last 1).rev ⟨⟨101, 101⟩, ⟨[], 0⟩, 7⟩
  let worked := [advance, advance, advance]
  [.request (.nop ⟨100, true⟩ 1 0 7 0) 100, .push, .request (.nop ⟨100, true⟩ 1 2 8 0) 100,
    .push] ++ worked ++ worked ++ [.getResultInfo, .nextResult, .nextResult]

/-- The client and the service of these nops when both are answered. -/
def nopsAnswered : CMyDbProxy 2 Unit :=
  CMyDbProxy.after PlayerBase.runtime PlayerBase.FindMessageTypeByName
    (fun _ => Server.constant (.done 0 1)) 0 1 (fun _ => ⟨true, (), 0, []⟩) twoNops

theorem nopsAnswered_invoked :
    nopsAnswered.proxy.invoked = [⟨0, 0, 2, none, 7⟩, ⟨1, 0, 2, none, 8⟩] := by
  rfl

/-- And the commands were submitted in that order. -/
theorem nopsAnswered_submitted :
    nopsAnswered.mgr.submitted = [⟨0, 0, ⟨0, .kOT_NOP, 1, 0, some .nop_command⟩⟩,
      ⟨0, 2, ⟨0, .kOT_NOP, 2, 0, some .nop_command⟩⟩] := by
  rfl

/-- Two nops of one worker, with the answers in their order. -/
theorem answers_in_request_order_twoNops :
    nopsAnswered.proxy.invoked.map Invocation.isAnswer = [true, true] ∧
      nopsAnswered.proxy.invoked.Pairwise fun earlier later =>
        earlier.isAnswer = true → later.isAnswer = true → nopsAnswered.WentTo earlier 0 →
          nopsAnswered.WentTo later 0 → earlier.nRequest < later.nRequest :=
  ⟨by rw [nopsAnswered_invoked]; decide,
    answers_in_request_order PlayerBase.runtime PlayerBase.FindMessageTypeByName
      (fun _ => Server.constant (.done 0 1)) 0 1 (fun _ => ⟨true, (), 0, []⟩) twoNops
      (by decide +kernel) 0⟩

/-- **An answer is a barrier:** when a callback is called with an answer, the worker of its
request has finished what all earlier requests gave it, in order, and then the request's own
command.  This is so in every run, while session ids are left. -/
theorem answer_after_earlier_requests {n : Nat} {σ : Type} (pb : Runtime)
    (generated_pool : String → Option Descriptor) (srv : Fin n → Server σ)
    (nMaxCacheSize nWritebackTime : Nat) (conn : Fin n → CDbConnection σ)
    (actions : List (MyAction n))
    (hcount : (CMyDbProxy.after pb generated_pool srv nMaxCacheSize nWritebackTime conn
      actions).proxy.sessionCount < 2 ^ 64)
    (invocation : Invocation)
    (hinvoked : invocation ∈ (CMyDbProxy.after pb generated_pool srv nMaxCacheSize nWritebackTime
      conn actions).proxy.invoked)
    (hanswer : invocation.isAnswer = true) (earlier later : List Call) (call : Call)
    (hsubmitted : (CMyDbProxy.after pb generated_pool srv nMaxCacheSize nWritebackTime conn
      actions).mgr.submitted = earlier ++ call :: later)
    (hcall : call.sDbCommand.nSessionID = invocation.nRequest + 1) (i : Fin n)
    (hi : i.val = call.nThreadIndex % n) :
    ((earlier.flatMap (CDbThreadMgr.query n)).filter fun p => p.worker = i).map
        (fun p => p.call.sDbCommand) ++ [call.sDbCommand] <+:
      ((CMyDbProxy.after pb generated_pool srv nMaxCacheSize nWritebackTime conn
        actions).mgr.m_vecDbThread i).finished :=
  (CMyDbProxy.after_tickets pb generated_pool srv nMaxCacheSize nWritebackTime conn actions
    hcount).answer_finished hinvoked hanswer hsubmitted hcall hi

/-- The second nop was answered when both were finished. -/
theorem answer_after_earlier_requests_twoNops :
    [⟨0, .kOT_NOP, 1, 0, some .nop_command⟩, ⟨0, .kOT_NOP, 2, 0, some .nop_command⟩] <+:
      (nopsAnswered.mgr.m_vecDbThread 0).finished :=
  answer_after_earlier_requests PlayerBase.runtime PlayerBase.FindMessageTypeByName
    (fun _ => Server.constant (.done 0 1)) 0 1 (fun _ => ⟨true, (), 0, []⟩) twoNops
    (by decide +kernel) ⟨1, 0, 2, none, 8⟩
    (by
      change _ ∈ nopsAnswered.proxy.invoked
      simp [nopsAnswered_invoked])
    (by decide) [⟨0, 0, ⟨0, .kOT_NOP, 1, 0, some .nop_command⟩⟩] []
    ⟨0, 2, ⟨0, .kOT_NOP, 2, 0, some .nop_command⟩⟩ nopsAnswered_submitted rfl 0 rfl

end Db
