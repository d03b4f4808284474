import DbService.CallbackOrder
import DbService.DirtyRecords
import DbService.FlushEntryPoints
import DbService.WorkerStores

/-!
# An id is cached by one worker

A worker caches the ids of the commands it is given, and the low 32 bits of an id decide which
worker that is.  So no two workers ever hold the same record, and what one worker writes back
another one does not have: the workers of an instance need no agreement about their caches.

* `step_absent` -- only a command for an id brings it into the cache;
* `step_homed` -- every step of an instance keeps the ids with their workers;
* `cached_by_one_worker` -- so an id is cached, and written back, by one worker.
-/

namespace Db

open Reflection ByteText

/-! ## What a store caches -/

namespace CDbCacheMgr

variable {σ : Type} {pb : Runtime} {srv : Server σ} {mgr : CDbCacheMgr} {nID : Nat}

/-- The manager has nothing under the id. -/
structure Absent (nID : Nat) (mgr : CDbCacheMgr) : Prop where
  cache : mgr.m_mapCache[nID]? = none
  dirty : mgr.m_mapDirtyCache[nID]? = none

/-- What only takes entries out leaves it so. -/
theorem Absent.of_le (h : Absent nID mgr) {mgr' : CDbCacheMgr}
    (hcache : ∀ pObject : Nat, mgr'.m_mapCache[nID]? = some pObject →
      mgr.m_mapCache[nID]? = some pObject)
    (hdirty : ∀ pObject : Nat, mgr'.m_mapDirtyCache[nID]? = some pObject →
      mgr.m_mapDirtyCache[nID]? = some pObject) : Absent nID mgr' where
  cache := by
    refine Option.eq_none_iff_forall_ne_some.mpr fun pObject hsome => ?_
    have hold := hcache pObject hsome
    rw [h.cache] at hold
    cases hold
  dirty := by
    refine Option.eq_none_iff_forall_ne_some.mpr fun pObject hsome => ?_
    have hold := hdirty pObject hsome
    rw [h.dirty] at hold
    cases hold

/-- Operations on other ids bring nothing of an id into the cache. -/
theorem kept_absent (pb : Runtime) (nID : Nat) :
    Kept pb (fun nID' => nID' ≠ nID) fun mgr => WellFormed mgr ∧ Absent nID mgr :=
  kept_of_sameAt pb nID fun _ _ hsame h =>
    ⟨hsame.cache.trans h.cache, hsame.dirty.trans h.dirty⟩

/-- Nor does a flush. -/
theorem flushCache_absent (pb : Runtime) (srv : Server σ) (h : WellFormed mgr ∧ Absent nID mgr)
    (nKey : Nat) (bDel : Bool) (conn : CDbConnection σ) :
    WellFormed (mgr.flushCache pb srv nKey bDel conn).1 ∧
      Absent nID (mgr.flushCache pb srv nKey bDel conn).1 :=
  ⟨flushCache_wellFormed pb srv h.1 nKey bDel conn,
    h.2.of_le (fun _ => flushCache_cache_le mgr nKey bDel conn)
      fun _ => flushCache_dirty_le mgr nKey bDel conn⟩

end CDbCacheMgr

namespace Store

variable {σ : Type} {pb : Runtime} {srv : Server σ} {st : Store σ} {nID : Nat}

open CDbCacheMgr

/-- **Only a command for an id brings it into the cache.** -/
theorem step_absent (h : WellFormed st.m_dbCacheMgr ∧ Absent nID st.m_dbCacheMgr)
    {action : StoreAction} (hkey : action.key ≠ some nID) :
    WellFormed (st.step pb srv action).1.m_dbCacheMgr ∧
      Absent nID (st.step pb srv action).1.m_dbCacheMgr := by
  cases action with
  | command sDbCommand clock =>
      have hstep : (st.step pb srv (.command sDbCommand clock)).1 =
          (st.process pb srv sDbCommand clock).1 := rfl
      rw [hstep]
      have hprocessed := Store.process_cases pb srv st sDbCommand clock
      generalize st.process pb srv sDbCommand clock = result at hprocessed
      cases hprocessed with
      | flush id type _ _ mgr writes conn hflush =>
          have hkept := flushCache_absent pb srv h id (type == EFlushCacheType.kFCT_DEL.code)
            st.m_dbConnection
          rwa [hflush] at hkept
      | flushNothing => exact h
      | expired => exact h
      | executed _ _ st' outcome hexecuted =>
          exact (kept_absent pb nID).executed_other hkey hexecuted h
  | tick nCurTime sample =>
      let cleaned := st.m_dbCacheMgr.cleanCache pb srv nCurTime sample st.m_dbConnection
      have hcleaned : WellFormed cleaned.1 ∧ Absent nID cleaned.1 :=
        ⟨cleanCache_wellFormed pb srv h.1 nCurTime sample st.m_dbConnection,
          h.2.of_le
            (fun _ => cleanCache_cache_le st.m_dbCacheMgr nCurTime sample st.m_dbConnection)
            fun _ => cleanCache_dirty_le st.m_dbCacheMgr nCurTime sample st.m_dbConnection⟩
      exact ⟨writeback_wellFormed pb srv hcleaned.1 nCurTime cleaned.2.2,
        hcleaned.2.of_le (by simp [step, update, CDbCacheMgr.update, cleaned])
          fun _ => writeback_dirty_le cleaned.1 nCurTime cleaned.2.2⟩
  | finish => exact flushCache_absent pb srv h 0 true st.m_dbConnection

/-- An UPDATE of a write-back is for an object the store has. -/
theorem mem_step_writes (action : StoreAction) {w : WriteEvent}
    (hw : w ∈ (st.step pb srv action).2.writes) : ¬ Absent w.nID st.m_dbCacheMgr := by
  have hhas : st.m_dbCacheMgr.m_mapCache[w.nID]? = some w.pDbCache ∨
      st.m_dbCacheMgr.m_mapDirtyCache[w.nID]? = some w.pDbCache := by
    cases action with
    | command sDbCommand clock =>
        have hprocessed := Store.process_cases pb srv st sDbCommand clock
        simp only [step] at hw
        generalize st.process pb srv sDbCommand clock = result at hprocessed hw
        cases hprocessed with
        | flush id type _ _ mgr writes conn hflush =>
            have hin : w ∈ (st.m_dbCacheMgr.flushCache pb srv id
                (type == EFlushCacheType.kFCT_DEL.code) st.m_dbConnection).2.1 := by rwa [hflush]
            exact (mem_flushCache hin).1
        | flushNothing => cases hw
        | expired => cases hw
        | executed => cases hw
    | tick nCurTime sample =>
        rcases List.mem_append.mp hw with hclean | hpass
        · exact .inl (mem_cleanCache hclean).1
        · exact .inr (cleanCache_dirty_le st.m_dbCacheMgr nCurTime sample st.m_dbConnection
            (mem_writeback hpass).1)
    | finish =>
        have hin : w ∈ (st.m_dbCacheMgr.flushCache pb srv 0 true st.m_dbConnection).2.1 := hw
        exact (mem_flushCache hin).1
  intro habsent
  rcases hhas with hcached | hdirty
  · rw [habsent.cache] at hcached
    cases hcached
  · rw [habsent.dirty] at hdirty
    cases hdirty

end Store

/-- A thread writes back in a step of its store. -/
theorem CDbThread.mem_advance_writes {σ : Type} {pb : Runtime} {srv : Server σ}
    {th : CDbThread σ} {input : Input} {w : WriteEvent}
    (hw : w ∈ (th.advance pb srv input).2.writes) :
    ∃ action, w ∈ (th.store.step pb srv action).2.writes := by
  unfold advance at hw
  split at hw
  · split at hw
    · exact ⟨.tick input.clock.nCurTime input.sample, hw⟩
    · cases hw
  · split at hw <;> cases hw
  · split at hw
    · cases hw
    · rename_i sDbCommand rest _
      refine ⟨.command sDbCommand input.clock, ?_⟩
      unfold processHead at hw
      simp only [Store.step]
      rcases hprocess : th.store.process pb srv sDbCommand input.clock with
        ⟨store, outcome, writes⟩
      rw [hprocess] at hw
      cases outcome <;> exact hw
  · cases hw
  · split at hw <;> cases hw
  · exact ⟨.finish, hw⟩
  · cases hw

/-! ## The worker of an id -/

/-- The message an operation sends. -/
def ProxyAction.pMessage : ProxyAction → Option Message
  | .select _ _ nID szTableName .. => some (.select_command nID szTableName)
  | .remove _ nID szTableName | .remove_r _ _ nID szTableName .. =>
      some (.delete_command nID szTableName)
  | .update _ pMessage | .update_r _ _ pMessage .. | .insert _ pMessage
  | .insert_r _ _ pMessage .. => some pMessage
  | .query _ _ _ szTableName szWhereClause vecArg .. =>
      some (.query_command szTableName szWhereClause vecArg)
  | .call _ _ szSQL vecArg | .call_r _ _ _ szSQL vecArg .. => some (.call_command szSQL vecArg)
  | .nop .. => some .nop_command
  | .flush _ _ nID eType => some (.flush_command nID eType.code)
  | .onMessage .. | .timerStart .. | .timerNext | .removePendingResponseInfo .. => none

/-- The request is for the id whose low half it carries, if it is for one. -/
structure Request.PlacedFor (pb : Runtime) (nType : EOperatorType) (pMessage : Message)
    (pRequest : Request) : Prop where
  type : pRequest.type = some nType
  content : pRequest.content = some (packFrom pb pMessage)
  index : ∀ nID, CDbThread.cacheKey nType (some pMessage) = some nID →
    pRequest.associate_id = some (nID % 2 ^ 32)

namespace CDbProxy

variable {pb : Runtime} {proxy : CDbProxy}

/-- **Every operation places its request.** -/
theorem step_placedFor {action : ProxyAction} {pRequest : Request}
    (h : (proxy.step pb action).2 = some pRequest) :
    ∃ nType pMessage, action.pMessage = some pMessage ∧ pRequest.PlacedFor pb nType pMessage := by
  -- Both ways to make a request carry the id they are given.
  have hrequest_n : ∀ env nType nAssociateID pMessage,
      (∀ nID, CDbThread.cacheKey nType (some pMessage) = some nID → nAssociateID = nID) →
      (proxy.request_n pb env nType nAssociateID pMessage).2.1 = some pRequest →
        pRequest.PlacedFor pb nType pMessage := by
    intro env nType nAssociateID pMessage hkey hmade
    obtain rfl := Option.some.inj hmade
    exact ⟨rfl, rfl, fun nID hid => hkey nID hid ▸ rfl⟩
  have hrequest_r : ∀ env nType pDbClient nAssociateID timeout pMessage nContext callback,
      (∀ nID, CDbThread.cacheKey nType (some pMessage) = some nID → nAssociateID = nID) →
      (if pDbClient = 0 then (false, none, proxy)
        else proxy.request_r pb env nType pDbClient nAssociateID timeout pMessage nContext
          callback).2.1 = some pRequest → pRequest.PlacedFor pb nType pMessage := by
    intro env nType pDbClient nAssociateID timeout pMessage nContext callback hkey hmade
    split at hmade
    · cases hmade
    · obtain rfl := Option.some.inj hmade
      exact ⟨rfl, rfl, fun nID hid => hkey nID hid ▸ rfl⟩
  have hwrites : ∀ nType pMessage nAssociateID, nType = .kOT_UPDATE ∨ nType = .kOT_INSERT →
      getPrimaryValue pMessage = some nAssociateID →
      ∀ nID, CDbThread.cacheKey nType (some pMessage) = some nID → nAssociateID = nID := by
    intro nType pMessage nAssociateID htype hvalue nID hid
    rcases CDbThread.cacheKey_cases hid with ⟨rfl, _⟩ | ⟨rfl, _⟩ | ⟨_, m, hm, hrow⟩
    · simp at htype
    · simp at htype
    · obtain rfl := Option.some.inj hm
      exact Option.some.inj (hvalue.symm.trans hrow)
  cases action with
  | select | remove_r =>
      exact ⟨_, _, rfl, hrequest_r _ _ _ _ _ _ _ _ (by simp [CDbThread.cacheKey]) h⟩
  | query | call_r | nop =>
      exact ⟨_, _, rfl, hrequest_r _ _ _ _ _ _ _ _ (by simp [CDbThread.cacheKey]) h⟩
  | remove env | call env =>
      exact ⟨_, _, rfl, hrequest_n env _ _ _ (by simp [CDbThread.cacheKey]) h⟩
  | update env pMessage | insert env pMessage =>
      simp only [step, update, insert, Prod.snd_swap] at h
      cases hvalue : getPrimaryValue pMessage with
      | none => simp [hvalue] at h
      | some nID =>
          simp only [hvalue] at h
          exact ⟨_, _, rfl, hrequest_n env _ _ _ (hwrites _ _ _ (by simp) hvalue) h⟩
  | update_r env pDbClient pMessage | insert_r env pDbClient pMessage =>
      simp only [step, update_r, insert_r, Prod.snd_swap] at h
      cases hvalue : getPrimaryValue pMessage with
      | none => simp [hvalue] at h
      | some nID =>
          simp only [hvalue] at h
          exact ⟨_, _, rfl, hrequest_r _ _ _ _ _ _ _ _ (hwrites _ _ _ (by simp) hvalue) h⟩
  | flush env =>
      simp only [step, flush, Prod.snd_swap] at h
      split at h
      · cases h
      · exact ⟨_, _, rfl, hrequest_n env _ _ _ (by simp [CDbThread.cacheKey]) h⟩
  | onMessage | timerStart | timerNext | removePendingResponseInfo => cases h

end CDbProxy

/-- An operation of a client made the request, from a message that comes through. -/
def Request.Issued (pb : Runtime) (generated_pool : String → Option Descriptor)
    (pRequest : Request) : Prop :=
  ∃ (proxy : CDbProxy) (action : ProxyAction),
    (proxy.step (pb.withPool generated_pool) action).2 = some pRequest ∧
    ∀ pMessage, action.pMessage = some pMessage → pb.Carries pMessage

/-- A call whose command is for an id has the index of the id. -/
def Call.Placed (call : Call) : Prop :=
  ∀ nID, CDbThread.cacheKey call.sDbCommand.nType call.sDbCommand.pMessage = some nID →
    call.nThreadIndex = nID % 2 ^ 32

/-- `db::query` unpacks what was packed, so the call is placed as the request was. -/
theorem Request.Issued.placed {pb : Runtime} {generated_pool : String → Option Descriptor}
    {pRequest : Request} (h : pRequest.Issued pb generated_pool)
    {nServiceID nTime nThreadIndex : Nat} {sDbCommand : SDbCommand}
    (hquery : query pb nServiceID pRequest nTime = some (nThreadIndex, sDbCommand))
    (caller : Nat) : Call.Placed ⟨caller, nThreadIndex, sDbCommand⟩ := by
  obtain ⟨proxy, action, hsent, hcarries⟩ := h
  obtain ⟨nType, pMessage, haction, hplaced⟩ := CDbProxy.step_placedFor hsent
  obtain ⟨hknown, szData, hdata, hparse⟩ := hcarries pMessage haction
  have hunpacked : unpack pb (pRequest.content.getD ⟨"", []⟩) = some pMessage := by
    rw [hplaced.content]
    exact (unpack_packFrom hknown hdata).trans hparse
  simp only [query, hunpacked, hplaced.type, Option.getD_some, Option.some.injEq,
    Prod.mk.injEq] at hquery
  obtain ⟨rfl, rfl⟩ := hquery
  intro nID hid
  rw [hplaced.index nID hid, Option.getD_some]

namespace CDbThreadMgr

variable {n : Nat} {σ : Type} {pb : Runtime} {srv : Fin n → Server σ} {mgr : CDbThreadMgr n σ}

/-- A command in the batch of a worker is of a call that was pushed to the worker. -/
theorem Ordered.call_of_batch (h : mgr.Ordered) {i : Fin n} {sDbCommand : SDbCommand}
    (hin : sDbCommand ∈ (mgr.m_vecDbThread i).listCommand) :
    ∃ call ∈ mgr.submitted, call.sDbCommand = sDbCommand ∧ ⟨call, i⟩ ∈ query n call := by
  obtain ⟨q, htracks, hpushed⟩ := h.workers i
  rw [htracks.batch] at hin
  obtain ⟨p, hp, rfl⟩ := List.mem_map.mp hin
  have hp' : p ∈ q.pushed := by
    rw [q.conserved]
    exact List.mem_append_right _ (List.mem_append_left _ hp)
  rw [hpushed] at hp'
  obtain ⟨hmade, hworker⟩ := List.mem_filter.mp hp'
  obtain rfl : p.worker = i := by simpa using hworker
  have hcalled : p ∈ (mgr.submitted.filter fun call => call.caller = p.call.caller).flatMap
      (query n) := by
    rw [← h.callers p.call.caller]
    exact List.mem_append_left _ (List.mem_filter.mpr ⟨hmade, by simp⟩)
  obtain ⟨call, hcall, hpcall⟩ := List.mem_flatMap.mp hcalled
  obtain rfl := call_of_mem_query hpcall
  exact ⟨p.call, (List.mem_filter.mp hcall).1, rfl, hpcall⟩

/-- **Every id is cached by its own worker.** -/
structure Homed (mgr : CDbThreadMgr n σ) : Prop where
  ordered : mgr.Ordered
  placed : ∀ call ∈ mgr.submitted, call.Placed
  stores : ∀ (i : Fin n) nID, i.val ≠ nID % 2 ^ 32 % n →
    (mgr.m_vecDbThread i).store.m_dbCacheMgr.WellFormed ∧
      (mgr.m_vecDbThread i).store.m_dbCacheMgr.Absent nID

/-- The commands a worker runs are for ids of its own. -/
theorem Homed.key_of_batch (h : mgr.Homed) {i : Fin n} {sDbCommand : SDbCommand}
    (hin : sDbCommand ∈ (mgr.m_vecDbThread i).listCommand) {nID : Nat}
    (hkey : CDbThread.cacheKey sDbCommand.nType sDbCommand.pMessage = some nID) :
    i.val = nID % 2 ^ 32 % n := by
  obtain ⟨call, hcall, rfl, hquery⟩ := h.ordered.call_of_batch hin
  have hflush : call.sDbCommand.nType ≠ .kOT_FLUSH := by
    intro heq
    simp [heq, CDbThread.cacheKey] at hkey
  rw [← h.placed call hcall nID hkey]
  exact worker_of_mem_query hquery hflush

/-- A step adds the call of `db::query` or of `db::flushCache`, or no call. -/
theorem step_placed (h : ∀ call ∈ mgr.submitted, call.Placed)
    {generated_pool : String → Option Descriptor} {action : MgrAction n}
    (hissued : ∀ caller nServiceID pRequest nTime,
      action = .query caller nServiceID pRequest nTime → pRequest.Issued pb generated_pool) :
    ∀ call ∈ (mgr.step pb srv action).1.submitted, call.Placed := by
  have hsubmit : ∀ call, call.Placed → ∀ call' ∈ (mgr.submit call).submitted, call'.Placed := by
    intro call hplaced
    unfold submit
    split
    · simpa [or_imp, forall_and] using ⟨h, hplaced⟩
    · exact h
  cases action with
  | query caller nServiceID pRequest nTime =>
      simp only [step]
      cases hquery : Db.query pb nServiceID pRequest nTime with
      | none => exact h
      | some command =>
          exact hsubmit _ ((hissued caller nServiceID pRequest nTime rfl).placed hquery caller)
  | flushCache caller nID nStack => exact hsubmit _ fun nID' hkey => by cases hkey
  | push caller =>
      simp only [step, (push_parts mgr caller).1]
      exact h
  | advance i input =>
      simp only [step, (advance_parts pb srv mgr i input).2.2.1]
      exact h
  | join i => exact h
  | getResultInfo => exact h

/-- Every step of an instance keeps the ids at home, if the requests are issued by a proxy. -/
theorem step_homed (h : mgr.Homed) {generated_pool : String → Option Descriptor}
    {action : MgrAction n}
    (hissued : ∀ caller nServiceID pRequest nTime,
      action = .query caller nServiceID pRequest nTime → pRequest.Issued pb generated_pool) :
    (mgr.step pb srv action).1.Homed where
  ordered := step_ordered h.ordered action
  placed := step_placed h.placed hissued
  stores := by
    intro i nID hne
    have hstore := h.stores i nID hne
    have hmoves := step_worker pb srv mgr action i
    generalize (mgr.step pb srv action).1.m_vecDbThread i = th at hmoves
    cases hmoves with
    | same => exact hstore
    | pushed => exact hstore
    | joined => exact hstore
    | advanced input =>
        have hmoved := CDbThread.advance_store pb (srv i) (mgr.m_vecDbThread i) input
        generalize ((mgr.m_vecDbThread i).advance pb (srv i) input).1.store = st at hmoved
        cases hmoved with
        | same => exact hstore
        | command sDbCommand rest _ hhead =>
            refine Store.step_absent hstore fun hkey => hne ?_
            exact h.key_of_batch (hhead ▸ List.mem_cons_self) hkey
        | tick => exact Store.step_absent hstore (by simp [StoreAction.key])
        | reconnected => exact hstore
        | finished =>
            have hkey : StoreAction.finish.key ≠ some nID := by simp [StoreAction.key]
            exact Store.step_absent hstore hkey

/-- At first no id is cached anywhere. -/
theorem init_homed (nMaxCacheSize nWritebackTime : Nat) (conn : Fin n → CDbConnection σ) :
    (init nMaxCacheSize nWritebackTime conn).Homed where
  ordered := init_ordered nMaxCacheSize nWritebackTime conn
  placed := by simp [init]
  stores := fun _ _ _ => ⟨CDbCacheMgr.init_wellFormed _ _, rfl, rfl⟩

end CDbThreadMgr

/-- **An id is cached by one worker.**  In every run of an instance whose requests were made by
proxies, a worker has an object for an id, or writes one back in its next step, only if it is the
worker of the low half of the id. -/
theorem cached_by_one_worker {n : Nat} {σ : Type} (pb : Runtime)
    (generated_pool : String → Option Descriptor) (srv : Fin n → Server σ)
    (nMaxCacheSize nWritebackTime : Nat) (conn : Fin n → CDbConnection σ)
    {actions : List (MgrAction n)}
    (hissued : ∀ caller nServiceID pRequest nTime,
      .query caller nServiceID pRequest nTime ∈ actions → pRequest.Issued pb generated_pool)
    (i : Fin n) :
    let th := (Runs.run (CDbThreadMgr.step pb srv)
      (CDbThreadMgr.init nMaxCacheSize nWritebackTime conn) actions).m_vecDbThread i
    (∀ nID pObject : Nat, th.store.m_dbCacheMgr.m_mapCache[nID]? = some pObject ∨
      th.store.m_dbCacheMgr.m_mapDirtyCache[nID]? = some pObject → i.val = nID % 2 ^ 32 % n) ∧
    ∀ input, ∀ w ∈ (th.advance pb (srv i) input).2.writes, i.val = w.nID % 2 ^ 32 % n := by
  intro th
  have hhomed : (Runs.run (CDbThreadMgr.step pb srv)
      (CDbThreadMgr.init nMaxCacheSize nWritebackTime conn) actions).Homed := by
    refine Runs.run_invariant CDbThreadMgr.Homed (fun mgr action h hok => ?_)
      (CDbThreadMgr.init_homed nMaxCacheSize nWritebackTime conn)
      ((Runs.guarded_true actions).and_forall (fun action hin => hin))
    exact CDbThreadMgr.step_homed h fun caller nServiceID pRequest nTime heq =>
      hissued caller nServiceID pRequest nTime (heq ▸ hok.1)
  have hhome : ∀ nID, ¬ th.store.m_dbCacheMgr.Absent nID → i.val = nID % 2 ^ 32 % n := by
    intro nID hpresent
    by_contra hne
    exact hpresent (hhomed.stores i nID hne).2
  refine ⟨fun nID pObject hobject => hhome nID fun habsent => ?_, fun input w hw => ?_⟩
  · rw [habsent.cache, habsent.dirty] at hobject
    rcases hobject with hobject | hobject <;> cases hobject
  · obtain ⟨action, hin⟩ := CDbThread.mem_advance_writes hw
    exact hhome w.nID (Store.mem_step_writes action hin)

/-- An INSERT of player 5, as a proxy sends it. -/
def playerRequest : Request where
  session_id := some 0
  associate_id := some 5
  type := some .kOT_INSERT
  timeout := none
  content := some (packFrom PlayerBase.runtime (.row (PlayerBase.player 5 [65])))

/-- The request to cache a player is one that a proxy issues. -/
theorem playerRequest_issued :
    playerRequest.Issued PlayerBase.runtime PlayerBase.FindMessageTypeByName := by
  refine ⟨CDbProxy.init, .insert ⟨0, true⟩ (.row (PlayerBase.player 5 [65])), rfl, ?_⟩
  rintro _ ⟨⟩
  have hknows : PlayerBase.runtime.Knows (.row (PlayerBase.player 5 [65])) := rfl
  have hsome : (PlayerBase.runtime.SerializeToString
      (.row (PlayerBase.player 5 [65]))).isSome := by decide +kernel
  obtain ⟨szData, hdata⟩ := Option.isSome_iff_exists.mp hsome
  exact ⟨rfl, szData, hdata, PlayerBase.runtime_lawful.parse_serialize _ szData hknows hdata⟩

/-- The two workers of an instance, of which the second caches player 5. -/
def onePlayerCached : List (MgrAction 2) :=
  let advance : MgrAction 2 := .advance (Fin.last 1) ⟨⟨1, 1⟩, ⟨[], 0⟩, 0⟩
  [.query 0 0 playerRequest 0, .push 0, advance, advance, advance]

/-- Two workers, and a player that the second one has cached. -/
theorem cached_by_one_worker_onePlayerCached :
    let th := (Runs.run (CDbThreadMgr.step PlayerBase.runtime fun _ =>
      Server.constant (.done 0 1)) (CDbThreadMgr.init 1000 60 fun _ => ⟨true, (), 0, []⟩)
        onePlayerCached).m_vecDbThread 1
    (∀ nID pObject : Nat, th.store.m_dbCacheMgr.m_mapCache[nID]? = some pObject ∨
      th.store.m_dbCacheMgr.m_mapDirtyCache[nID]? = some pObject →
        (1 : Fin 2).val = nID % 2 ^ 32 % 2) ∧
    ∀ input, ∀ w ∈ (th.advance PlayerBase.runtime (Server.constant (.done 0 1)) input).2.writes,
      (1 : Fin 2).val = w.nID % 2 ^ 32 % 2 :=
  cached_by_one_worker PlayerBase.runtime PlayerBase.FindMessageTypeByName
    (fun _ => Server.constant (.done 0 1)) 1000 60 (fun _ => ⟨true, (), 0, []⟩)
    (by
      intro caller nServiceID pRequest nTime hin
      simp only [onePlayerCached, List.mem_cons, MgrAction.query.injEq, List.not_mem_nil,
        or_false, reduceCtorEq] at hin
      exact hin.2.2.1 ▸ playerRequest_issued) 1

end Db
