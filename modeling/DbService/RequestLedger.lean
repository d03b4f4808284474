import DbService.CallbackOrder

/-!
# No request is lost

A proxy keeps its books: every request with a session is pending, called back, or one of a client
that was destroyed after the request.  The service keeps the other half: a ticket a worker has
finished comes back as a result unless its command had a deadline and was found too old.  When
nothing is left anywhere on the way, the two halves meet, and what is still pending waits in the
timeout list or is a nop that `db::query` did not take.

* `step_ledger` -- every step keeps the ledger, while session ids are left;
* `Ledger.pending_of_finished` -- a pending request that its worker has finished had a deadline,
  or its answer is on its way;
* `no_request_lost` -- so in a quiet state every request is accounted for.
-/

namespace Db

open Reflection ByteText

namespace CDbProxy

/-- A client with this address was destroyed after the request was made. -/
def DestroyedAfter (destroyed : List (Nat × Nat)) (pDbClient nRequest : Nat) : Prop :=
  ∃ nRequests, (pDbClient, nRequests) ∈ destroyed ∧ nRequest < nRequests

instance (destroyed : List (Nat × Nat)) (pDbClient nRequest : Nat) :
    Decidable (DestroyedAfter destroyed pDbClient nRequest) :=
  decidable_of_iff (∃ entry ∈ destroyed, entry.1 = pDbClient ∧ nRequest < entry.2)
    ⟨fun ⟨entry, hin, hclient, hlt⟩ => ⟨entry.2, hclient ▸ hin, hlt⟩,
      fun ⟨nRequests, hin, hlt⟩ => ⟨(pDbClient, nRequests), hin, rfl, hlt⟩⟩

/-- A client that was destroyed stays so. -/
theorem DestroyedAfter.append {destroyed : List (Nat × Nat)} {pDbClient nRequest : Nat}
    (h : DestroyedAfter destroyed pDbClient nRequest) (later : List (Nat × Nat)) :
    DestroyedAfter (destroyed ++ later) pDbClient nRequest := by
  obtain ⟨nRequests, hin, hlt⟩ := h
  exact ⟨nRequests, List.mem_append_left _ hin, hlt⟩

/-- **The books of a proxy.** -/
structure Books (proxy : CDbProxy) (destroyed : List (Nat × Nat)) : Prop where
  numbered : Numbered proxy
  owner : ∀ pDbClient nSessionID, nSessionID ∈ proxy.sessionsOf pDbClient →
    nSessionID ≤ proxy.sessionCount ∧
      ∀ info, proxy.m_mapPendingResponseInfo[nSessionID]? = some info → info.pDbClient = pDbClient
  clients : ∀ (nSessionID : Nat) info, proxy.m_mapPendingResponseInfo[nSessionID]? = some info →
    proxy.registered[info.nRequest]? = some ⟨info.nContext, info.callback, info.pDbClient⟩
  entered : ∀ nRequest r, proxy.registered[nRequest]? = some r →
    (∃ call ∈ proxy.invoked, call.nRequest = nRequest) ∨
      DestroyedAfter destroyed r.pDbClient nRequest ∨
      ∃ info, proxy.m_mapPendingResponseInfo[nRequest + 1]? = some info

/-- A new proxy has nothing in its books. -/
theorem init_books : Books init [] where
  numbered := init_numbered
  owner := by simp [init, sessionsOf]
  clients := by simp [init]
  entered := by simp [init]

variable {proxy : CDbProxy} {destroyed : List (Nat × Nat)}

/-- Records are settled. -/
theorem Books.settled (h : Books proxy destroyed) {proxy' : CDbProxy} {client : Option Nat}
    (hsettles : Settles client proxy proxy') :
    Books proxy' (destroyed ++ client.toList.map fun pDbClient =>
      (pDbClient, proxy.registered.length)) where
  numbered := h.numbered.shrink hsettles.counter hsettles.registered hsettles.pending
  owner := by
    intro pDbClient nSessionID hin
    obtain ⟨hle, hinfo⟩ := h.owner pDbClient nSessionID (hsettles.sessions _ _ hin)
    rw [sessionCount, hsettles.registered]
    exact ⟨hle, fun info hsome => hinfo info (hsettles.pending _ _ hsome)⟩
  clients := by
    intro nSessionID info hsome
    rw [hsettles.registered]
    exact h.clients nSessionID info (hsettles.pending _ _ hsome)
  entered := by
    intro nRequest r hr
    rw [hsettles.registered] at hr
    rcases h.entered nRequest r hr with ⟨call, hin, hcall⟩ | hgone | ⟨info, hpending⟩
    · exact .inl ⟨call, hsettles.invoked.subset hin, hcall⟩
    · exact .inr (.inl (hgone.append _))
    · have hnumber : info.nRequest = nRequest :=
        (Nat.succ_injective (h.numbered.records _ info hpending).1).symm
      rcases hsettles.settled _ info hpending with hleft | ⟨call, hin, hcall⟩ |
        ⟨pDbClient, rfl, hset⟩
      · exact .inr (.inr ⟨info, hleft⟩)
      · exact .inl ⟨call, hin, hcall.trans hnumber⟩
      · have hr' := h.clients _ info hpending
        rw [hnumber, hr] at hr'
        obtain rfl := Option.some.inj hr'
        have hown := (h.owner pDbClient _ hset).2 info hpending
        have hlt : nRequest < proxy.registered.length := (List.getElem?_eq_some_iff.mp hr).1
        exact .inr (.inl ⟨proxy.registered.length, by simp [hown], hlt⟩)

/-- A session is opened. -/
theorem Books.opened (h : Books proxy destroyed) (hcount : proxy.sessionCount + 1 < 2 ^ 64)
    (nType : EOperatorType) (pDbClient : Nat) (nTimeout : Option Int) (nContext callback : Nat) :
    Books (proxy.openSession nType pDbClient nTimeout nContext callback).2 destroyed := by
  have hnumbered := h.numbered.opened hcount nType pDbClient nTimeout nContext callback
  have hnext := h.numbered.next_eq hcount
  have hlen : (proxy.openSession nType pDbClient nTimeout nContext callback).2.sessionCount =
      proxy.sessionCount + 1 := by simp [sessionCount]
  refine ⟨hnumbered, ?_, ?_, ?_⟩
  · intro pDbClient' nSessionID hin
    rw [openSession_sessionsOf] at hin
    rw [hlen, openSession_pending]
    have hold : nSessionID ∈ proxy.sessionsOf pDbClient' →
        nSessionID ≤ proxy.sessionCount + 1 ∧ ∀ info,
          (proxy.m_mapPendingResponseInfo.insert proxy.m_nNextSessionID
            (proxy.newInfo nType pDbClient nTimeout nContext callback))[nSessionID]? = some info →
          info.pDbClient = pDbClient' := by
      intro hset
      obtain ⟨hle, hinfo⟩ := h.owner pDbClient' nSessionID hset
      refine ⟨Nat.le_succ_of_le hle, fun info hsome => hinfo info ?_⟩
      have hne : proxy.m_nNextSessionID ≠ nSessionID := by omega
      simpa [Std.ExtTreeMap.getElem?_insert, hne] using hsome
    split at hin
    · rename_i hclient
      subst hclient
      rcases Std.ExtTreeSet.mem_insert.mp hin with heq | hset
      · obtain rfl : proxy.m_nNextSessionID = nSessionID := by simpa using heq
        refine ⟨hnext.le, fun info hsome => ?_⟩
        have hinfo : proxy.newInfo nType pDbClient nTimeout nContext callback = info := by
          simpa using hsome
        exact hinfo ▸ rfl
      · exact hold hset
    · exact hold hin
  · intro nSessionID info hsome
    rw [openSession_pending, Std.ExtTreeMap.getElem?_insert] at hsome
    rw [openSession_registered]
    by_cases heq : proxy.m_nNextSessionID = nSessionID
    · obtain rfl : proxy.newInfo nType pDbClient nTimeout nContext callback = info := by
        simpa [heq] using hsome
      simp [newInfo]
    · have hr := h.clients nSessionID info (by simpa [heq] using hsome)
      obtain ⟨hlt, _⟩ := List.getElem?_eq_some_iff.mp hr
      exact (List.getElem?_append_left hlt).trans hr
  · intro nRequest r hr
    rw [openSession_registered] at hr
    rw [openSession_invoked, openSession_pending]
    by_cases hlt : nRequest < proxy.registered.length
    · rw [List.getElem?_append_left hlt] at hr
      rcases h.entered nRequest r hr with hcalled | hgone | ⟨info, hpending⟩
      · exact .inl hcalled
      · exact .inr (.inl hgone)
      · have hne : proxy.m_nNextSessionID ≠ nRequest + 1 := by
          rw [hnext, sessionCount]
          omega
        exact .inr (.inr ⟨info, by simpa [Std.ExtTreeMap.getElem?_insert, hne] using hpending⟩)
    · have hlast : nRequest = proxy.registered.length := by
        have hle := (List.getElem?_eq_some_iff.mp hr).1
        rw [List.length_append, List.length_singleton] at hle
        omega
      refine .inr (.inr ⟨proxy.newInfo nType pDbClient nTimeout nContext callback, ?_⟩)
      rw [hlast, ← sessionCount, ← hnext]
      simp

end CDbProxy

namespace CDbThreadMgr

variable {n : Nat} {σ : Type} {mgr : CDbThreadMgr n σ}

/-- Nothing is on its way to a worker or in its hands. -/
structure Idle (mgr : CDbThreadMgr n σ) : Prop where
  calls : mgr.calls 0 = []
  queues : ∀ i, (mgr.m_vecDbThread i).m_listCommand = []
  batches : ∀ i, (mgr.m_vecDbThread i).listCommand = []

/-- Then a worker has finished all that it was given. -/
theorem Ordered.finished_of_idle (h : mgr.Ordered) (hidle : mgr.Idle) (i : Fin n) :
    (mgr.m_vecDbThread i).finished = (mgr.m_vecDbThread i).pushed := by
  obtain ⟨q, htracks, _⟩ := h.workers i
  have hqueue : q.queue = [] := by simpa [hidle.queues i] using htracks.queue.symm
  have hbatch : q.batch = [] := by simpa [hidle.batches i] using htracks.batch.symm
  rw [htracks.finished, htracks.pushed, BatchQueue.finished_eq_pushed hbatch hqueue]

/-- Between two calls of the thread, what it called for is with the workers. -/
theorem Ordered.mem_pushed (h : mgr.Ordered) (hfree : mgr.calls 0 = [])
    (hcaller : ∀ call ∈ mgr.submitted, call.caller = 0) {call : Call}
    (hcall : call ∈ mgr.submitted) {i : Fin n} (hi : i.val = call.nThreadIndex % n) :
    call.sDbCommand ∈ (mgr.m_vecDbThread i).pushed := by
  obtain ⟨q, htracks, hpushed⟩ := h.workers i
  have hpushes := h.pushes_eq hcaller
  rw [hfree, List.append_nil] at hpushes
  rw [htracks.pushed, hpushed, hpushes]
  have hpush : (⟨call, i⟩ : Push n) ∈ (query n call).filter fun p => p.worker = i := by
    rw [query_filter_worker call hi]
    exact List.mem_singleton_self _
  obtain ⟨hquery, hworker⟩ := List.mem_filter.mp hpush
  exact List.mem_map.mpr ⟨⟨call, i⟩,
    List.mem_filter.mpr ⟨List.mem_flatMap.mpr ⟨call, hcall, hquery⟩, hworker⟩, rfl⟩

/-- A step of a worker adds the result of the step. -/
theorem advance_added (pb : Runtime) (srv : Fin n → Server σ) (mgr : CDbThreadMgr n σ) (i : Fin n)
    (input : Input) :
    (mgr.advance pb srv i input).added = mgr.added ++
      (((mgr.m_vecDbThread i).advance pb (srv i) input).2.result.map
        fun sResultInfo => (i, sResultInfo)).toList := by
  unfold advance
  rcases (mgr.m_vecDbThread i).advance pb (srv i) input with ⟨th, result, writes, due⟩
  cases result with
  | none => exact (List.append_nil _).symm
  | some sResultInfo => rfl

end CDbThreadMgr

namespace CMyDbProxy

variable {n : Nat} {σ : Type} {pb : Runtime} {generated_pool : String → Option Descriptor}
  {srv : Fin n → Server σ} {my : CMyDbProxy n σ}

/-- **The ledger of both sides.** -/
structure Ledger (my : CMyDbProxy n σ) : Prop extends Tickets my where
  books : my.proxy.Books my.destroyed
  linked : my.proxy.Linked
  answered : ∀ i, ∀ sDbCommand ∈ (my.mgr.m_vecDbThread i).finished, sDbCommand.nSessionID ≠ 0 →
    sDbCommand.nTimeout ≠ 0 ∨
      ∃ result ∈ my.mgr.added, result.2.pResponse.session_id = sDbCommand.nSessionID
  settled : ∀ sResultInfo ∈ my.delivered,
    my.proxy.m_mapPendingResponseInfo[sResultInfo.pResponse.session_id]? = none
  timed : ∀ call ∈ my.mgr.submitted, call.sDbCommand.nTimeout ≠ 0 → ∀ info,
    my.proxy.m_mapPendingResponseInfo[call.sDbCommand.nSessionID]? = some info →
    info.nType ≠ .kOT_NOP

/-- At first there is no request to lose. -/
theorem init_ledger (nMaxCacheSize nWritebackTime : Nat) (conn : Fin n → CDbConnection σ) :
    Ledger (init nMaxCacheSize nWritebackTime conn) where
  toTickets := init_tickets nMaxCacheSize nWritebackTime conn
  books := CDbProxy.init_books
  linked := CDbProxy.init_sound.toLinked
  answered := by simp [init, CDbThreadMgr.init, CDbThread.init]
  settled := by simp [init]
  timed := by simp [init, CDbThreadMgr.init]

/-- Only a worker's step finishes commands. -/
theorem query_workers (pb : Runtime) (srv : Fin n → Server σ) (mgr : CDbThreadMgr n σ)
    (hfree : (mgr.calls 0).isEmpty = true) (pRequest : Request) (nTime : Nat) :
    (mgr.step pb srv (.query 0 0 pRequest nTime)).1.m_vecDbThread = mgr.m_vecDbThread ∧
      (mgr.step pb srv (.query 0 0 pRequest nTime)).1.added = mgr.added := by
  rcases CDbThreadMgr.query_step pb srv hfree pRequest nTime with ⟨_, heq⟩ | ⟨_, _, _, heq⟩
  · rw [heq]
    exact ⟨rfl, rfl⟩
  · rw [heq]
    exact ⟨rfl, rfl⟩

/-- A delivered result is of an earlier session. -/
theorem Tickets.delivered_le (h : Tickets my) {sResultInfo : SDbResultInfo}
    (hin : sResultInfo ∈ my.delivered) :
    sResultInfo.pResponse.session_id ≤ my.proxy.sessionCount := by
  have hsession := h.delivered_sublist.subset (List.mem_map_of_mem hin)
  obtain ⟨⟨i, sResultInfo'⟩, hadded, heq⟩ := List.mem_map.mp hsession
  obtain ⟨call, hcall, hticket, _⟩ := h.call_of_result hadded
  rw [← heq, ← hticket]
  exact h.drawn call hcall

/-- Records of the proxy are settled, the service does nothing. -/
theorem Ledger.settles (h : Ledger my) {client : Option Nat} {proxy : CDbProxy}
    (delivered listDbResultInfo : List SDbResultInfo)
    (hsettles : CDbProxy.Settles client my.proxy proxy) (hlinked : proxy.Linked)
    (hsettled : ∀ sResultInfo ∈ delivered, sResultInfo ∈ my.delivered ∨
      proxy.m_mapPendingResponseInfo[sResultInfo.pResponse.session_id]? = none)
    (htickets : Tickets
      { my with
        proxy := proxy
        listDbResultInfo := listDbResultInfo
        delivered := delivered
        destroyed := my.destroyed ++ client.toList.map fun pDbClient =>
          (pDbClient, my.proxy.registered.length) }) :
    Ledger
      { my with
        proxy := proxy
        listDbResultInfo := listDbResultInfo
        delivered := delivered
        destroyed := my.destroyed ++ client.toList.map fun pDbClient =>
          (pDbClient, my.proxy.registered.length) } where
  toTickets := htickets
  books := h.books.settled hsettles
  linked := hlinked
  answered := h.answered
  settled := by
    intro sResultInfo hin
    rcases hsettled sResultInfo hin with hold | hnone
    · refine Option.eq_none_iff_forall_ne_some.mpr fun info hsome => ?_
      have hpending := hsettles.pending _ _ hsome
      rw [h.settled sResultInfo hold] at hpending
      cases hpending
    · exact hnone
  timed := fun call hin hne info hsome => h.timed call hin hne info (hsettles.pending _ _ hsome)

/-- A request with a session. -/
theorem Ledger.opened (h : Ledger my) (hfree : my.isFree = true)
    (hcount : my.proxy.sessionCount + 1 < 2 ^ 64) (nType : EOperatorType)
    (pDbClient nAssociateID : Nat) (timeout : Option Nat) (content : Any) (nTimeout : Option Int)
    (nContext callback nTime : Nat) (hnop : timeout = none ↔ nType = .kOT_NOP)
    (hflush : nType ≠ .kOT_FLUSH)
    (hlinked :
      CDbProxy.Linked (my.proxy.openSession nType pDbClient nTimeout nContext callback).2) :
    Ledger
      { my with
        proxy := (my.proxy.openSession nType pDbClient nTimeout nContext callback).2
        mgr := (my.mgr.step pb srv (.query 0 0
          (sessionRequest my.proxy.m_nNextSessionID nAssociateID nType timeout content)
          nTime)).1 } := by
  have htickets : Tickets
      { my with
        proxy := (my.proxy.openSession nType pDbClient nTimeout nContext callback).2
        mgr := (my.mgr.step pb srv (.query 0 0
          (sessionRequest my.proxy.m_nNextSessionID nAssociateID nType timeout content)
          nTime)).1 } :=
    h.toTickets.opened hfree hcount pDbClient nTimeout nContext callback
      (sessionRequest my.proxy.m_nNextSessionID nAssociateID nType timeout content) rfl hflush nTime
  obtain ⟨hworkers, hadded⟩ := query_workers pb srv my.mgr hfree
    (sessionRequest my.proxy.m_nNextSessionID nAssociateID nType timeout content) nTime
  have hnext := h.numbered.next_eq hcount
  refine ⟨htickets, h.books.opened hcount nType pDbClient nTimeout nContext callback, hlinked,
    ?_, ?_, ?_⟩
  · simp only [hworkers, hadded]
    exact h.answered
  · intro sResultInfo hin
    have hle := h.toTickets.delivered_le hin
    have hne : my.proxy.m_nNextSessionID ≠ sResultInfo.pResponse.session_id := by omega
    rw [CDbProxy.openSession_pending]
    simpa [Std.ExtTreeMap.getElem?_insert, hne] using h.settled sResultInfo hin
  · intro call hin hne info hsome
    rw [CDbProxy.openSession_pending, Std.ExtTreeMap.getElem?_insert] at hsome
    have hold : call ∈ my.mgr.submitted → info.nType ≠ .kOT_NOP := by
      intro hcall
      have hle := h.drawn call hcall
      have hother : my.proxy.m_nNextSessionID ≠ call.sDbCommand.nSessionID := by omega
      exact h.timed call hcall hne info (by simpa [hother] using hsome)
    rcases CDbThreadMgr.query_step pb srv hfree (sessionRequest my.proxy.m_nNextSessionID
      nAssociateID nType timeout content) nTime with ⟨_, heq⟩ | ⟨nThreadIndex, sDbCommand, hquery,
        heq⟩
    · rw [heq] at hin
      exact hold hin
    · rw [heq] at hin
      rcases List.mem_append.mp hin with hcall | hnew
      · exact hold hcall
      · obtain rfl := List.mem_singleton.mp hnew
        obtain ⟨_, hid, _, hzero⟩ := query_fields hquery
        have hsame : my.proxy.m_nNextSessionID = sDbCommand.nSessionID := hid.symm
        have hinfo : my.proxy.newInfo nType pDbClient nTimeout nContext callback = info := by
          simpa [hsame] using hsome
        rw [← hinfo]
        intro htype
        have hnone : timeout = none := hnop.mpr htype
        exact hne (hzero (by simp [sessionRequest, hnone]))

/-- A worker's step: what it finishes it answers, unless the deadline has passed. -/
theorem Ledger.advanced (h : Ledger my) (i : Fin n) (input : Input) :
    Ledger { my with mgr := my.mgr.advance pb srv i input } := by
  have htickets : Tickets { my with mgr := my.mgr.advance pb srv i input } :=
    h.toTickets.advanced i input
  obtain ⟨hthreads, _, hsubmitted, _⟩ := CDbThreadMgr.advance_parts pb srv my.mgr i input
  refine ⟨htickets, h.books, h.linked, ?_, h.settled, by simpa only [hsubmitted] using h.timed⟩
  have hfinishes := CDbThread.advance_finishes pb (srv i) (my.mgr.m_vecDbThread i) input
  have hsingle : ∀ sDbCommand ∈ ((my.mgr.advance pb srv i input).m_vecDbThread i).finished,
      sDbCommand.nSessionID ≠ 0 → sDbCommand.nType ≠ .kOT_FLUSH := by
    intro sDbCommand hin hne
    obtain ⟨call, hcall, rfl, _⟩ := htickets.call_of_finished hin hne
    exact htickets.single call hcall hne
  intro j sDbCommand hin hne
  rw [CDbThreadMgr.advance_added]
  have hold : sDbCommand ∈ (my.mgr.m_vecDbThread j).finished → sDbCommand.nTimeout ≠ 0 ∨
      ∃ result ∈ my.mgr.added ++ (((my.mgr.m_vecDbThread i).advance pb (srv i) input).2.result.map
        fun sResultInfo => (i, sResultInfo)).toList,
        result.2.pResponse.session_id = sDbCommand.nSessionID := by
    intro hfinished
    rcases h.answered j sDbCommand hfinished hne with hdeadline | ⟨result, hadded, heq⟩
    · exact .inl hdeadline
    · exact .inr ⟨result, List.mem_append_left _ hadded, heq⟩
  by_cases hworker : j = i
  · subst hworker
    have hkind := hsingle sDbCommand hin hne
    simp only [hthreads, Function.update_self] at hin
    generalize (my.mgr.m_vecDbThread j).advance pb (srv j) input = advanced at hfinishes hin hold ⊢
    cases hfinishes with
    | nothing th' output hfinished => exact hold (hfinished ▸ hin)
    | handled th' output cmd rest nErrorCode pMessage _ _ _ hfinished hresult =>
        rw [hfinished] at hin
        rcases List.mem_append.mp hin with hbefore | hnew
        · exact hold hbefore
        · obtain rfl := List.mem_singleton.mp hnew
          rw [if_neg hne] at hresult
          exact .inr ⟨(j, makeResultInfo pb sDbCommand nErrorCode pMessage input.nStack),
            by simp [hresult], rfl⟩
    | dropped th' output cmd rest _ _ hdropped hfinished =>
        rw [hfinished] at hin
        rcases List.mem_append.mp hin with hbefore | hnew
        · exact hold hbefore
        · obtain rfl := List.mem_singleton.mp hnew
          rcases hdropped with hflush | hexpired
          · exact absurd hflush hkind
          · simp only [SDbCommand.isExpired, Bool.and_eq_true, bne_iff_ne] at hexpired
            exact .inl hexpired.1.1
  · refine hold ?_
    simpa only [hthreads, Function.update_of_ne hworker] using hin

/-- **The step lemma,** while session ids are left.  A request enters the books and the queue at
once, a finished command leaves its result or has a deadline, and a delivered result settles its
record. -/
theorem step_ledger (h : Ledger my) (action : MyAction n)
    (hcount : (my.step pb generated_pool srv action).1.proxy.sessionCount < 2 ^ 64) :
    Ledger (my.step pb generated_pool srv action).1 := by
  have htickets := step_tickets h.toTickets action hcount
  have hlinked : (my.step pb generated_pool srv action).1.proxy.Linked := by
    rcases step_proxy my action with hsame | ⟨proxyAction, hstep⟩
    · rw [hsame]
      exact h.linked
    · rw [hstep]
      exact CDbProxy.step_linked _ h.linked proxyAction
  have hstepped := step_stepped pb generated_pool srv my action
  generalize (my.step pb generated_pool srv action).1 = my' at hcount htickets hlinked hstepped
  cases hstepped with
  | idle => exact h
  | opened hfree nType pDbClient nAssociateID timeout content nTimeout nContext callback nTime hnop
      hflush =>
      have hleft : my.proxy.sessionCount + 1 < 2 ^ 64 := by
        simpa [CDbProxy.sessionCount] using hcount
      exact h.opened hfree hleft nType pDbClient nAssociateID timeout _ nTimeout nContext callback
        nTime hnop hflush hlinked
  | sent hfree pRequest hsession nTime =>
      obtain ⟨hworkers, hadded⟩ := query_workers pb srv my.mgr hfree pRequest nTime
      refine ⟨htickets, h.books, h.linked, ?_, h.settled, ?_⟩
      · simp only [hworkers, hadded]
        exact h.answered
      · intro call hin hne info hsome
        rcases CDbThreadMgr.query_step pb srv hfree pRequest nTime with
          ⟨_, heq⟩ | ⟨nThreadIndex, sDbCommand, hquery, heq⟩
        · rw [heq] at hin
          exact h.timed call hin hne info hsome
        · rw [heq] at hin
          rcases List.mem_append.mp hin with hcall | hnew
          · exact h.timed call hcall hne info hsome
          · obtain rfl := List.mem_singleton.mp hnew
            have hzero : sDbCommand.nSessionID = 0 := (query_fields hquery).2.1.trans hsession
            have hnumber := (h.numbered.records _ info hsome).1
            simp [hzero] at hnumber
  | aged proxy hages =>
      have hsettles : Ledger { my with proxy := proxy, destroyed := my.destroyed ++ [] } :=
        h.settles my.delivered my.listDbResultInfo hages.toSettles hlinked (fun _ hin => .inl hin)
          (by simpa using htickets)
      simpa using hsettles
  | removed pDbClient =>
      exact h.settles my.delivered my.listDbResultInfo
        (CDbProxy.removal_ages my.proxy pDbClient).toSettles hlinked (fun _ hin => .inl hin)
        htickets
  | pushed =>
      obtain ⟨hsubmitted, hadded, hfinished⟩ := CDbThreadMgr.push_parts my.mgr 0
      refine ⟨htickets, h.books, h.linked, ?_, h.settled, ?_⟩
      · simp only [hadded, hfinished]
        exact h.answered
      · simp only [hsubmitted]
        exact h.timed
  | advanced i input => exact h.advanced i input
  | taken hempty =>
      exact ⟨htickets, h.books, h.linked, h.answered, h.settled, h.timed⟩
  | handedOn sResultInfo rest hlist =>
      have hreceives := CDbProxy.onMessage_receives (pb.withPool generated_pool) my.proxy
        sResultInfo.pResponse
      have hsettled : ∀ result ∈ my.delivered ++ [sResultInfo], result ∈ my.delivered ∨
          (my.proxy.onMessage (pb.withPool generated_pool)
            sResultInfo.pResponse).m_mapPendingResponseInfo[result.pResponse.session_id]? =
              none := by
        intro result hin
        rcases List.mem_append.mp hin with hold | hnew
        · exact .inl hold
        · rw [List.mem_singleton.mp hnew]
          exact .inr hreceives.answered
      have hsettles := h.settles (my.delivered ++ [sResultInfo]) rest hreceives.toSettles hlinked
        hsettled (by simpa using htickets)
      simpa using hsettles

/-- Nothing is on its way to a worker or back. -/
structure Quiet (my : CMyDbProxy n σ) : Prop where
  idle : my.mgr.Idle
  results : my.mgr.m_listResultInfo = []
  handed : my.listDbResultInfo = []

/-- The answer to a pending request is on its way. -/
theorem Ledger.waiting_of_added (h : Ledger my) {nSessionID : Nat} {info : SPendingResponseInfo}
    (hpending : my.proxy.m_mapPendingResponseInfo[nSessionID]? = some info)
    {result : Fin n × SDbResultInfo} (hadded : result ∈ my.mgr.added)
    (hticket : result.2.pResponse.session_id = nSessionID) :
    ∃ sResultInfo ∈ my.listDbResultInfo ++ my.mgr.m_listResultInfo,
      sResultInfo.pResponse.session_id = nSessionID := by
  have hall : my.delivered ++ (my.listDbResultInfo ++ my.mgr.m_listResultInfo) =
      my.mgr.added.map Prod.snd := by
    rw [← h.added, h.handed, List.append_assoc]
  have hresult : result.2 ∈ my.delivered ++ (my.listDbResultInfo ++ my.mgr.m_listResultInfo) :=
    hall ▸ List.mem_map_of_mem hadded
  rcases List.mem_append.mp hresult with hdelivered | hwaiting
  · have hnone := h.settled result.2 hdelivered
    rw [hticket, hpending] at hnone
    cases hnone
  · exact ⟨result.2, hwaiting, hticket⟩

/-- **A pending request that its worker has finished** had a deadline, or its answer is on its
way. -/
theorem Ledger.pending_of_finished (h : Ledger my) {call : Call} (hcall : call ∈ my.mgr.submitted)
    (hne : call.sDbCommand.nSessionID ≠ 0) {i : Fin n}
    (hfinished : call.sDbCommand ∈ (my.mgr.m_vecDbThread i).finished)
    {info : SPendingResponseInfo}
    (hpending : my.proxy.m_mapPendingResponseInfo[call.sDbCommand.nSessionID]? = some info) :
    call.sDbCommand.nTimeout ≠ 0 ∧ info.nType ≠ .kOT_NOP ∨
      ∃ sResultInfo ∈ my.listDbResultInfo ++ my.mgr.m_listResultInfo,
        sResultInfo.pResponse.session_id = call.sDbCommand.nSessionID := by
  rcases h.answered i call.sDbCommand hfinished hne with hdeadline | ⟨result, hadded, hticket⟩
  · exact .inl ⟨hdeadline, h.timed call hcall hdeadline info hpending⟩
  · exact .inr (h.waiting_of_added hpending hadded hticket)

/-- In quiet, a pending request waits for its timeout or was not taken by `db::query`. -/
theorem Ledger.pending_of_quiet (h : Ledger my) (hn : 0 < n) (hquiet : Quiet my)
    {nSessionID : Nat} {info : SPendingResponseInfo}
    (hpending : my.proxy.m_mapPendingResponseInfo[nSessionID]? = some info) :
    (∃ node ∈ my.proxy.m_listTimeout, node.2.nSessionID = nSessionID) ∨
      info.nType = .kOT_NOP ∧
        ∀ call ∈ my.mgr.submitted, call.sDbCommand.nSessionID ≠ nSessionID := by
  rcases h.linked.own_entry nSessionID info hpending with ⟨hnop, _⟩ | ⟨_, node, hin, _, hnode⟩
  · refine .inr ⟨hnop, fun call hcall heq => ?_⟩
    subst heq
    have hne : call.sDbCommand.nSessionID ≠ 0 := by
      rw [(h.numbered.records _ info hpending).1]
      exact Nat.succ_ne_zero _
    -- its worker has finished it, and no answer is on its way
    let i : Fin n := ⟨call.nThreadIndex % n, Nat.mod_lt _ hn⟩
    have hfinished : call.sDbCommand ∈ (my.mgr.m_vecDbThread i).finished := by
      rw [h.ordered.finished_of_idle hquiet.idle i]
      exact h.ordered.mem_pushed hquiet.idle.calls h.caller hcall rfl
    rcases h.pending_of_finished hcall hne hfinished hpending with ⟨_, htimed⟩ | ⟨_, hin, _⟩
    · exact htimed hnop
    · simp [hquiet.handed, hquiet.results] at hin
  · exact .inl ⟨node, hin, hnode⟩

variable (pb generated_pool srv) in
/-- Every run keeps the ledger, until the session ids wrap. -/
theorem after_ledger (nMaxCacheSize nWritebackTime : Nat) (conn : Fin n → CDbConnection σ)
    (actions : List (MyAction n))
    (hcount : (after pb generated_pool srv nMaxCacheSize nWritebackTime conn
      actions).proxy.sessionCount < 2 ^ 64) :
    Ledger (after pb generated_pool srv nMaxCacheSize nWritebackTime conn actions) :=
  run_invariant (fun _ action h hlt => step_ledger h action hlt)
    (init_ledger nMaxCacheSize nWritebackTime conn) actions hcount

end CMyDbProxy

/-- **No request is lost:** when nothing is on its way to a worker or back, every request with a
session has been called back, or its client was destroyed after it was made, or it has its entry
in the timeout list, or it is a nop that `db::query` did not take. -/
theorem no_request_lost {n : Nat} (hn : 0 < n) {σ : Type} (pb : Runtime)
    (generated_pool : String → Option Descriptor) (srv : Fin n → Server σ)
    (nMaxCacheSize nWritebackTime : Nat) (conn : Fin n → CDbConnection σ)
    (actions : List (MyAction n))
    (hcount : (CMyDbProxy.after pb generated_pool srv nMaxCacheSize nWritebackTime conn
      actions).proxy.sessionCount < 2 ^ 64)
    (hquiet : (CMyDbProxy.after pb generated_pool srv nMaxCacheSize nWritebackTime conn
      actions).Quiet) :
    let my := CMyDbProxy.after pb generated_pool srv nMaxCacheSize nWritebackTime conn actions
    ∀ nRequest r, my.proxy.registered[nRequest]? = some r →
      (∃ call ∈ my.proxy.invoked, call.nRequest = nRequest) ∨
        CDbProxy.DestroyedAfter my.destroyed r.pDbClient nRequest ∨
        (∃ node ∈ my.proxy.m_listTimeout, node.2.nSessionID = nRequest + 1) ∨
        ∃ info, my.proxy.m_mapPendingResponseInfo[nRequest + 1]? = some info ∧
          info.nType = .kOT_NOP ∧
          ∀ call ∈ my.mgr.submitted, call.sDbCommand.nSessionID ≠ nRequest + 1 := by
  intro my nRequest r hr
  have hledger : my.Ledger := CMyDbProxy.after_ledger pb generated_pool srv nMaxCacheSize
    nWritebackTime conn actions hcount
  rcases hledger.books.entered nRequest r hr with hcalled | hgone | ⟨info, hpending⟩
  · exact .inl hcalled
  · exact .inr (.inl hgone)
  · rcases hledger.pending_of_quiet hn hquiet hpending with hwaits | hrefused
    · exact .inr (.inr (.inl hwaits))
    · exact .inr (.inr (.inr ⟨info, hpending, hrefused⟩))

/-- Two nops, both called back. -/
theorem no_request_lost_twoNops :
    nopsAnswered.proxy.registered.length = 2 ∧
      ∀ nRequest r, nopsAnswered.proxy.registered[nRequest]? = some r →
        (∃ call ∈ nopsAnswered.proxy.invoked, call.nRequest = nRequest) ∨
          CDbProxy.DestroyedAfter nopsAnswered.destroyed r.pDbClient nRequest ∨
          (∃ node ∈ nopsAnswered.proxy.m_listTimeout, node.2.nSessionID = nRequest + 1) ∨
          ∃ info, nopsAnswered.proxy.m_mapPendingResponseInfo[nRequest + 1]? = some info ∧
            info.nType = .kOT_NOP ∧
            ∀ call ∈ nopsAnswered.mgr.submitted, call.sDbCommand.nSessionID ≠ nRequest + 1 :=
  ⟨rfl, no_request_lost (by decide) PlayerBase.runtime PlayerBase.FindMessageTypeByName
    (fun _ => Server.constant (.done 0 1)) 0 1 (fun _ => ⟨true, (), 0, []⟩) twoNops
    (by decide +kernel) ⟨⟨rfl, fun | 0 => rfl | 1 => rfl, fun | 0 => rfl | 1 => rfl⟩,
      rfl, rfl⟩⟩

end Db
