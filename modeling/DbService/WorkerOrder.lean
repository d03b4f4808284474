import DbService.BatchQueue
import DbService.PreCacheRerun
import DbService.DbProxy

/-!
# Order and completeness of a worker's processing

A worker's lists are a `BatchQueue`: the batch loop finishes the head of the batch or,
when a command comes back lost, puts the rest of the batch back.  `CDbThread.Tracks`
relates the two, `advance_tracks` says what one step of the worker's thread does to the
queue, and the order theorems of the queue then speak about the worker.

The elements of the queue may carry more than the command; `f` reads the command off an
element.  For the workers of an instance the elements are the pushes of the callers.

* `advance_tracks`, `step_ordered` -- a worker is a batch queue, and every step keeps the account
  of the calls;
* `finished_in_call_order` -- what is finished are the first calls, in the order they were made;
* `finished_of_join` -- nothing is left behind by `join`;
* `processed_in_order` -- these, and what a pre-step does that runs again.
-/

namespace Db

open Reflection ByteText BatchQueue

namespace CDbThread

variable {σ : Type} (pb : Runtime) (srv : Server σ)

/-- The worker is out of its loop. -/
def HasLeft (th : CDbThread σ) : Prop := th.phase = .leaving ∨ th.phase = .closed

/-- The worker's lists are those of a batch queue, and only the batch loop and the step
after a lost command have a batch. -/
structure Tracks {α : Type} (f : α → SDbCommand) (th : CDbThread σ) (q : BatchQueue α) :
    Prop where
  queue : th.m_listCommand = q.queue.map f
  batch : th.listCommand = q.batch.map f
  pushed : th.pushed = q.pushed.map f
  finished : th.finished = q.finished.map f
  idle : th.phase ≠ .batch → th.phase ≠ .requeue → q.batch = []

/-- What one round of the batch loop does to the lists: the command is finished, or it
came back lost and everything stays for the next step. -/
theorem processHead_lists (th : CDbThread σ) (sDbCommand : SDbCommand)
    (rest : List SDbCommand) (input : Input) :
    let th' := (th.processHead pb srv sDbCommand rest input).1
    th'.m_listCommand = th.m_listCommand ∧ th'.pushed = th.pushed ∧
      ((th'.phase = .requeue ∧ th'.listCommand = th.listCommand ∧
          th'.finished = th.finished) ∨
        (th'.phase = th.phase ∧ th'.listCommand = rest ∧
          th'.finished = th.finished ++ [sDbCommand])) := by
  unfold processHead
  rcases th.store.process pb srv sDbCommand input.clock with ⟨store, outcome, writes⟩
  cases outcome with
  | lost => exact ⟨rfl, rfl, .inl ⟨rfl, rfl, rfl⟩⟩
  | expired => exact ⟨rfl, rfl, .inr ⟨rfl, rfl, rfl⟩⟩
  | flushed => exact ⟨rfl, rfl, .inr ⟨rfl, rfl, rfl⟩⟩
  | handled nErrorCode pMessage => exact ⟨rfl, rfl, .inr ⟨rfl, rfl, rfl⟩⟩

variable {α : Type} {f : α → SDbCommand} {th : CDbThread σ} {q : BatchQueue α}

theorem init_tracks (nMaxCacheSize nWritebackTime : Nat) (conn : CDbConnection σ) :
    Tracks f (init nMaxCacheSize nWritebackTime conn) BatchQueue.empty :=
  ⟨rfl, rfl, rfl, rfl, fun _ _ => rfl⟩

/-- A push of `f a` is a push of `a`. -/
theorem query_tracks (h : Tracks f th q) (a : α) : Tracks f (th.query (f a)) (q.push a) where
  queue := by simp [query, push, h.queue]
  batch := h.batch
  pushed := by simp [query, push, h.pushed]
  finished := h.finished
  idle := h.idle

theorem join_tracks (h : Tracks f th q) : Tracks f th.join q :=
  ⟨h.queue, h.batch, h.pushed, h.finished, h.idle⟩

/-- **One step of the worker's thread** takes the queue as a batch, finishes the head of
the batch, puts the batch back, or leaves the lists alone; and it leaves the loop only
when nothing is queued and no batch is under way. -/
theorem advance_tracks (h : Tracks f th q) (input : Input) :
    ∃ q', Tracks f (th.advance pb srv input).1 q' ∧ q'.pushed = q.pushed ∧
      q.finished <+: q'.finished ∧
      (HasLeft (th.advance pb srv input).1 → ¬ HasLeft th → q'.finished = q'.pushed) := by
  unfold advance HasLeft
  cases hphase : th.phase with
  | top =>
      have hbatch : q.batch = [] := h.idle (by simp [hphase]) (by simp [hphase])
      refine ⟨q, ?_, rfl, List.prefix_rfl, ?_⟩
      · simp only
        split
        · exact ⟨h.queue, h.batch, h.pushed, h.finished, fun _ _ => hbatch⟩
        · exact ⟨h.queue, h.batch, h.pushed, h.finished, fun _ _ => hbatch⟩
      · simp only
        split <;> simp
  | waiting =>
      have hbatch : q.batch = [] := h.idle (by simp [hphase]) (by simp [hphase])
      cases hempty : th.m_listCommand.isEmpty with
      | true =>
          exact ⟨q, ⟨h.queue, h.batch, h.pushed, h.finished, fun _ _ => hbatch⟩, rfl,
            List.prefix_rfl, by simp⟩
      | false =>
          refine ⟨q.take, ⟨rfl, ?_, h.pushed, h.finished, by simp⟩, rfl, List.prefix_rfl,
            by simp⟩
          simp [take, h.queue, hbatch]
  | batch =>
      cases hlist : th.listCommand with
      | nil =>
          have hbatch : q.batch = [] := by simpa [hlist] using h.batch.symm
          exact ⟨q, ⟨h.queue, by simp [hbatch], h.pushed, h.finished, fun _ _ => hbatch⟩,
            rfl, List.prefix_rfl, by simp⟩
      | cons sDbCommand rest =>
          obtain ⟨hqueue, hpushed, hcases⟩ :=
            processHead_lists pb srv th sDbCommand rest input
          rcases hcases with ⟨hphase', hbatch', hfinished'⟩ | ⟨hphase', hbatch', hfinished'⟩
          · refine ⟨q, ⟨?_, ?_, ?_, ?_, ?_⟩, rfl, List.prefix_rfl, ?_⟩
            · exact hqueue.trans h.queue
            · exact hbatch'.trans h.batch
            · exact hpushed.trans h.pushed
            · exact hfinished'.trans h.finished
            · exact fun _ hne => absurd hphase' hne
            · simp [hphase']
          · have hbatch := h.batch
            rw [hlist] at hbatch
            obtain ⟨a, as, hq⟩ : ∃ a as, q.batch = a :: as := by
              cases hq : q.batch with
              | nil => simp [hq] at hbatch
              | cons a as => exact ⟨a, as, rfl⟩
            simp only [hq, List.map_cons, List.cons.injEq] at hbatch
            refine ⟨q.finish, ⟨?_, ?_, ?_, ?_, ?_⟩, rfl, List.prefix_append _ _, ?_⟩
            · exact hqueue.trans h.queue
            · exact hbatch'.trans (by simp [finish, hq, hbatch.2])
            · exact hpushed.trans h.pushed
            · exact hfinished'.trans (by simp [finish, hq, h.finished, hbatch.1])
            · exact fun hne => absurd (hphase'.trans hphase) hne
            · simp [hphase', hphase]
  | requeue =>
      refine ⟨q.putBack, ⟨?_, rfl, h.pushed, h.finished, fun _ _ => rfl⟩, rfl,
        List.prefix_rfl, by simp⟩
      simp [putBack, h.queue, h.batch]
  | check =>
      have hbatch : q.batch = [] := h.idle (by simp [hphase]) (by simp [hphase])
      by_cases hquit : (th.m_quit && th.m_listCommand.isEmpty) = true
      · have hqueue : q.queue = [] := by
          have hempty := (Bool.and_eq_true _ _ ▸ hquit).2
          simpa [h.queue] using hempty
        refine ⟨q, ?_, rfl, List.prefix_rfl, fun _ _ => finished_eq_pushed hbatch hqueue⟩
        simp only [hquit, if_true]
        exact ⟨h.queue, h.batch, h.pushed, h.finished, fun _ _ => hbatch⟩
      · refine ⟨q, ?_, rfl, List.prefix_rfl, ?_⟩
        · simp only [hquit]
          exact ⟨h.queue, h.batch, h.pushed, h.finished, fun _ _ => hbatch⟩
        · simp [hquit]
  | leaving =>
      have hbatch : q.batch = [] := h.idle (by simp [hphase]) (by simp [hphase])
      exact ⟨q, ⟨h.queue, h.batch, h.pushed, h.finished, fun _ _ => hbatch⟩, rfl,
        List.prefix_rfl, by simp⟩
  | closed =>
      have hbatch : q.batch = [] := h.idle (by simp [hphase]) (by simp [hphase])
      exact ⟨q, ⟨h.queue, h.batch, h.pushed, h.finished, fun _ _ => hbatch⟩, rfl,
        List.prefix_rfl, by simp [hphase]⟩

end CDbThread

/-! ## The workers of an instance -/

/-- A request that `CDbProxy` sends for the record with id `nID`. -/
inductive IssuedFor (pb : Runtime) (nID : Nat) : Request → Prop
  | select {proxy env pDbClient szTableName nTimeout nContext callback r}
      (h : (CDbProxy.select pb proxy env pDbClient nID szTableName nTimeout nContext
        callback).2.1 = some r) : IssuedFor pb nID r
  | update {proxy env pMessage r} (hid : getPrimaryValue pMessage = some nID)
      (h : (CDbProxy.update pb proxy env pMessage).2.1 = some r) : IssuedFor pb nID r
  | update_r {proxy env pDbClient pMessage nTimeout nContext callback r}
      (hid : getPrimaryValue pMessage = some nID)
      (h : (CDbProxy.update_r pb proxy env pDbClient pMessage nTimeout nContext
        callback).2.1 = some r) : IssuedFor pb nID r
  | insert {proxy env pMessage r} (hid : getPrimaryValue pMessage = some nID)
      (h : (CDbProxy.insert pb proxy env pMessage).2.1 = some r) : IssuedFor pb nID r
  | insert_r {proxy env pDbClient pMessage nTimeout nContext callback r}
      (hid : getPrimaryValue pMessage = some nID)
      (h : (CDbProxy.insert_r pb proxy env pDbClient pMessage nTimeout nContext
        callback).2.1 = some r) : IssuedFor pb nID r
  | remove {proxy env szTableName r}
      (h : (CDbProxy.remove pb proxy env nID szTableName).2.1 = some r) : IssuedFor pb nID r
  | remove_r {proxy env pDbClient szTableName nTimeout nContext callback r}
      (h : (CDbProxy.remove_r pb proxy env pDbClient nID szTableName nTimeout nContext
        callback).2.1 = some r) : IssuedFor pb nID r
  | flush {proxy env pDbClient eType r}
      (h : (CDbProxy.flush pb proxy env pDbClient nID eType).2.1 = some r) :
      IssuedFor pb nID r

/-- **The id decides the worker.**  Every request for an id carries its low 32 bits. -/
theorem IssuedFor.associate_id {pb : Runtime} {nID : Nat} {r : Request}
    (h : IssuedFor pb nID r) : r.associate_id = some (nID % 2 ^ 32) := by
  cases h with
  | @select _ _ pDbClient _ _ _ _ _ h =>
      by_cases hnull : pDbClient = 0
      · simp [CDbProxy.select, hnull] at h
      · simp only [CDbProxy.select, hnull, if_false, CDbProxy.request_r,
          Option.some.injEq] at h
        exact h ▸ rfl
  | update hid h =>
      simp only [CDbProxy.update, hid, CDbProxy.request_n, Option.some.injEq] at h
      exact h ▸ rfl
  | @update_r _ _ pDbClient _ _ _ _ _ hid h =>
      by_cases hnull : pDbClient = 0
      · simp [CDbProxy.update_r, hnull] at h
      · simp only [CDbProxy.update_r, hnull, if_false, hid, CDbProxy.request_r,
          Option.some.injEq] at h
        exact h ▸ rfl
  | insert hid h =>
      simp only [CDbProxy.insert, hid, CDbProxy.request_n, Option.some.injEq] at h
      exact h ▸ rfl
  | @insert_r _ _ pDbClient _ _ _ _ _ hid h =>
      by_cases hnull : pDbClient = 0
      · simp [CDbProxy.insert_r, hnull] at h
      · simp only [CDbProxy.insert_r, hnull, if_false, hid, CDbProxy.request_r,
          Option.some.injEq] at h
        exact h ▸ rfl
  | remove h =>
      simp only [CDbProxy.remove, CDbProxy.request_n, Option.some.injEq] at h
      exact h ▸ rfl
  | @remove_r _ _ pDbClient _ _ _ _ _ h =>
      by_cases hnull : pDbClient = 0
      · simp [CDbProxy.remove_r, hnull] at h
      · simp only [CDbProxy.remove_r, hnull, if_false, CDbProxy.request_r,
          Option.some.injEq] at h
        exact h ▸ rfl
  | @flush _ _ pDbClient _ _ h =>
      by_cases hnull : pDbClient = 0
      · simp [CDbProxy.flush, hnull] at h
      · simp only [CDbProxy.flush, hnull, if_false, CDbProxy.request_n,
          Option.some.injEq] at h
        exact h ▸ rfl

/-- `db::query` passes the associate id on as the worker index. -/
theorem IssuedFor.query_index {pb : Runtime} {nID : Nat} {r : Request}
    (h : IssuedFor pb nID r) {nServiceID nTime nThreadIndex : Nat} {sDbCommand : SDbCommand}
    (hquery : Db.query pb nServiceID r nTime = some (nThreadIndex, sDbCommand)) :
    nThreadIndex = nID % 2 ^ 32 := by
  unfold Db.query at hquery
  split at hquery
  · cases hquery
  · simp only [Option.some.injEq, Prod.mk.injEq, h.associate_id, Option.getD_some] at hquery
    exact hquery.1.symm

namespace CDbThreadMgr

variable {n : Nat} {σ : Type} {pb : Runtime} {srv : Fin n → Server σ}

/-- The worker an index selects is a target of every call with that index, once. -/
theorem query_filter_worker (call : Call) {i : Fin n}
    (hi : i.val = call.nThreadIndex % n) :
    (query n call).filter (fun p => p.worker = i) = [⟨call, i⟩] := by
  have hmem : i ∈ targets n call.nThreadIndex call.sDbCommand.nType := by
    simp [targets, hi]
  have hnodup : (targets n call.nThreadIndex call.sDbCommand.nType).Nodup :=
    (List.nodup_finRange n).filter _
  have hone : (targets n call.nThreadIndex call.sDbCommand.nType).filter (· = i) = [i] := by
    rw [List.filter_eq, List.count_eq_one_of_mem hnodup hmem, List.replicate_one]
  rw [query, List.filter_map]
  simp only [Function.comp_def, hone, List.map_cons, List.map_nil]

/-- Every push of a call carries the call. -/
theorem call_of_mem_query {call : Call} {p : Push n} (h : p ∈ query n call) :
    p.call = call := by
  simp only [query, List.mem_map] at h
  obtain ⟨i, _, rfl⟩ := h
  rfl

/-- Of the pushes of some calls, those of chosen calls with one index that go to the
worker of that index are one for each chosen call, in order. -/
theorem flatMap_query_filter (calls : List Call) (mine : Call → Bool) {i : Fin n}
    (hmine : ∀ call, mine call = true → i.val = call.nThreadIndex % n) :
    (((calls.flatMap (query n)).filter (fun p => p.worker = i)).map Push.call).filter mine =
      calls.filter mine := by
  induction calls with
  | nil => rfl
  | cons call rest ih =>
      rw [List.flatMap_cons, List.filter_append, List.map_append, List.filter_append, ih]
      cases hcall : mine call with
      | true => simp [query_filter_worker call (hmine call hcall), hcall]
      | false =>
          have hnone : (((query n call).filter (fun p => p.worker = i)).map Push.call).filter
              mine = [] := by
            rw [List.filter_eq_nil_iff]
            intro call' hmem
            obtain ⟨p, hp, rfl⟩ := List.mem_map.mp hmem
            rw [call_of_mem_query (List.mem_of_mem_filter hp), hcall]
            simp
          rw [hnone, List.filter_cons_of_neg (by simp [hcall]), List.nil_append]

/-- The pushes made are the pushes of the calls made, but for those a caller still has to
make, and every worker's lists account for the pushes to it. -/
structure Ordered (mgr : CDbThreadMgr n σ) : Prop where
  workers : ∀ i, ∃ q : BatchQueue (Push n),
    CDbThread.Tracks (fun p => p.call.sDbCommand) (mgr.m_vecDbThread i) q ∧
      q.pushed = mgr.pushes.filter (fun p => p.worker = i)
  callers : ∀ caller, mgr.pushes.filter (fun p => p.call.caller = caller) ++ mgr.calls caller =
    (mgr.submitted.filter (fun call => call.caller = caller)).flatMap (query n)

theorem init_ordered (nMaxCacheSize nWritebackTime : Nat) (conn : Fin n → CDbConnection σ) :
    Ordered (init nMaxCacheSize nWritebackTime conn) :=
  ⟨fun _ => ⟨BatchQueue.empty, CDbThread.init_tracks _ _ _, rfl⟩, fun _ => rfl⟩

/-- A call is submitted behind the earlier ones. -/
theorem submit_ordered {mgr : CDbThreadMgr n σ} (h : Ordered mgr) (call : Call) :
    Ordered (mgr.submit call) := by
  unfold submit
  split
  · rename_i hidle
    refine ⟨h.workers, ?_⟩
    intro caller
    have hcaller := h.callers caller
    by_cases heq : caller = call.caller
    · subst heq
      have hnil : mgr.calls call.caller = [] := by simpa using hidle
      rw [hnil, List.append_nil] at hcaller
      simp [List.filter_append, hcaller]
    · simp [List.filter_append, Function.update_of_ne heq, hcaller, Ne.symm heq]
  · exact h

/-- The pushes a caller has still to make are its own. -/
theorem Ordered.caller_of_mem {mgr : CDbThreadMgr n σ} (h : Ordered mgr) {caller : Nat}
    {p : Push n} (hp : p ∈ mgr.calls caller) : p.call.caller = caller := by
  have hmem : p ∈ (mgr.submitted.filter (fun call => call.caller = caller)).flatMap
      (query n) := by
    rw [← h.callers caller]
    exact List.mem_append_right _ hp
  obtain ⟨call, hcall, hpcall⟩ := List.mem_flatMap.mp hmem
  rw [call_of_mem_query hpcall]
  simpa using (List.mem_filter.mp hcall).2

/-- The commands of a call are pushed in their order. -/
theorem push_ordered {mgr : CDbThreadMgr n σ} (h : Ordered mgr) (caller : Nat) :
    Ordered (mgr.push caller) := by
  unfold push
  split
  · exact h
  · rename_i p rest hcalls
    have hown : p.call.caller = caller := h.caller_of_mem (by simp [hcalls])
    constructor
    · intro i
      obtain ⟨q, htracks, hpushed⟩ := h.workers i
      by_cases heq : i = p.worker
      · subst heq
        refine ⟨q.push p, ?_, ?_⟩
        · simp only [Function.update_self]
          exact CDbThread.query_tracks htracks p
        · simp [BatchQueue.push, List.filter_append, hpushed]
      · refine ⟨q, ?_, ?_⟩
        · simp only [Function.update_of_ne heq]
          exact htracks
        · simp [List.filter_append, hpushed, Ne.symm heq]
    · intro caller'
      have hcaller := h.callers caller'
      by_cases heq : caller' = caller
      · subst heq
        rw [hcalls] at hcaller
        simp [List.filter_append, hown, hcaller]
      · have hne : p.call.caller ≠ caller' := by
          rw [hown]
          exact Ne.symm heq
        simp [List.filter_append, Function.update_of_ne heq, hne, hcaller]

/-- A worker finishes commands in the order they were pushed. -/
theorem advance_ordered {mgr : CDbThreadMgr n σ} (h : Ordered mgr) (i : Fin n)
    (input : Input) : Ordered (mgr.advance pb srv i input) := by
  obtain ⟨hthreads, hcalls, hsubmitted, hpushes⟩ :=
    advance_parts pb srv mgr i input
  constructor
  · intro j
    rw [hthreads, hpushes]
    obtain ⟨q, htracks, hpushed⟩ := h.workers j
    by_cases heq : j = i
    · subst heq
      obtain ⟨q', htracks', hpushed', _⟩ :=
        CDbThread.advance_tracks pb (srv j) htracks input
      exact ⟨q', by rwa [Function.update_self], hpushed'.trans hpushed⟩
    · exact ⟨q, by rwa [Function.update_of_ne heq], hpushed⟩
  · rw [hcalls, hsubmitted, hpushes]
    exact h.callers

/-- Telling a worker to leave changes none of the lists. -/
theorem join_ordered {mgr : CDbThreadMgr n σ} (h : Ordered mgr) (i : Fin n) :
    Ordered (mgr.join i) := by
  refine ⟨?_, h.callers⟩
  intro j
  obtain ⟨q, htracks, hpushed⟩ := h.workers j
  refine ⟨q, ?_, hpushed⟩
  by_cases heq : j = i
  · subst heq
    simp only [join, Function.update_self]
    exact CDbThread.join_tracks htracks
  · simp only [join, Function.update_of_ne heq]
    exact htracks

/-- **The step lemma.**  Whatever caller, worker or reader makes the next step, the
accounting stays exact. -/
theorem step_ordered {mgr : CDbThreadMgr n σ} (h : Ordered mgr) (action : MgrAction n) :
    Ordered (mgr.step pb srv action).1 := by
  cases action with
  | query caller nServiceID pRequest nTime =>
      simp only [step]
      cases Db.query pb nServiceID pRequest nTime with
      | none => exact h
      | some command => exact submit_ordered h _
  | flushCache caller nID nStack => exact submit_ordered h _
  | push caller => exact push_ordered h caller
  | advance i input => exact advance_ordered h i input
  | join i => exact join_ordered h i
  | getResultInfo => exact ⟨h.workers, h.callers⟩

/-- The accounting is exact after every run. -/
theorem run_ordered (pb : Runtime) (srv : Fin n → Server σ) (nMaxCacheSize nWritebackTime : Nat)
    (conn : Fin n → CDbConnection σ) (actions : List (MgrAction n)) :
    Ordered (Runs.run (step pb srv) (init nMaxCacheSize nWritebackTime conn) actions) :=
  Runs.run_preserves Ordered (fun _ action h => step_ordered h action)
    (init_ordered nMaxCacheSize nWritebackTime conn) actions

/-- Everything in `before` has been pushed to the worker and, once the worker has left its
loop, is finished. -/
def Drains (i : Fin n) (before : List SDbCommand) (mgr : CDbThreadMgr n σ) : Prop :=
  before <+: (mgr.m_vecDbThread i).pushed ∧
    ((mgr.m_vecDbThread i).HasLeft → before <+: (mgr.m_vecDbThread i).finished)

/-- No step undoes that. -/
theorem step_drains {mgr : CDbThreadMgr n σ} {i : Fin n} {before : List SDbCommand}
    (hordered : Ordered mgr) (h : Drains i before mgr) (action : MgrAction n) :
    Drains i before (mgr.step pb srv action).1 := by
  have hsubmit : ∀ call, Drains i before (mgr.submit call) := by
    intro call
    unfold submit
    split
    · exact h
    · exact h
  cases action with
  | query caller nServiceID pRequest nTime =>
      simp only [step]
      cases Db.query pb nServiceID pRequest nTime with
      | none => exact h
      | some command => exact hsubmit _
  | flushCache caller nID nStack => exact hsubmit _
  | push caller =>
      simp only [step, push]
      split
      · exact h
      · rename_i p rest _
        by_cases heq : i = p.worker
        · subst heq
          simp only [Drains, Function.update_self, CDbThread.query]
          exact ⟨h.1.trans (List.prefix_append _ _), h.2⟩
        · simp only [Drains, Function.update_of_ne heq]
          exact h
  | advance j input =>
      simp only [step, Drains, (advance_parts pb srv mgr j input).1]
      by_cases heq : i = j
      · subst heq
        rw [Function.update_self]
        obtain ⟨q, htracks, _⟩ := hordered.workers i
        obtain ⟨q', htracks', hpushed, hfinished, hleft⟩ :=
          CDbThread.advance_tracks pb (srv i) htracks input
        have hbefore : before <+: ((mgr.m_vecDbThread i).advance pb (srv i) input).1.pushed := by
          rw [htracks'.pushed, hpushed, ← htracks.pushed]
          exact h.1
        refine ⟨hbefore, ?_⟩
        intro hnow
        by_cases hearlier : (mgr.m_vecDbThread i).HasLeft
        · rw [htracks'.finished]
          apply (h.2 hearlier).trans
          rw [htracks.finished]
          exact hfinished.map _
        · rw [htracks'.finished, hleft hnow hearlier, ← htracks'.pushed]
          exact hbefore
      · rw [Function.update_of_ne heq]
        exact h
  | join j =>
      by_cases heq : i = j
      · subst heq
        simp only [step, Drains, join, Function.update_self]
        exact h
      · simp only [step, Drains, join, Function.update_of_ne heq]
        exact h
  | getResultInfo => exact h

/-- **Nothing pushed before `join` is left behind.**  A worker that was still in its loop
when it was joined has finished, once it is out of the loop, all that was pushed before. -/
theorem finished_of_join (nMaxCacheSize nWritebackTime : Nat) (conn : Fin n → CDbConnection σ)
    (i : Fin n) (before after : List (MgrAction n)) :
    let atJoin := Runs.run (step pb srv) (init nMaxCacheSize nWritebackTime conn) before
    let atEnd := Runs.run (step pb srv) (atJoin.join i) after
    ¬ (atJoin.m_vecDbThread i).HasLeft → (atEnd.m_vecDbThread i).HasLeft →
      (atJoin.m_vecDbThread i).pushed <+: (atEnd.m_vecDbThread i).finished := by
  intro atJoin atEnd hinside hleft
  have hordered : Ordered (atJoin.join i) :=
    join_ordered (run_ordered pb srv nMaxCacheSize nWritebackTime conn before) i
  have hstart : Drains i (atJoin.m_vecDbThread i).pushed (atJoin.join i) := by
    simp only [Drains, join, Function.update_self, CDbThread.join]
    exact ⟨List.prefix_rfl, fun hleft => absurd hleft hinside⟩
  have hrun : Ordered atEnd ∧ Drains i (atJoin.m_vecDbThread i).pushed atEnd :=
    Runs.run_preserves (fun mgr => Ordered mgr ∧ Drains i (atJoin.m_vecDbThread i).pushed mgr)
      (fun _ action h => ⟨step_ordered h.1 action, step_drains h.1 h.2 action⟩)
      ⟨hordered, hstart⟩ after
  exact hrun.2.2 hleft

/-- The calls whose commands a worker has finished: those behind the first pushes to it, as
many as it has finished commands. -/
def finishedCalls (mgr : CDbThreadMgr n σ) (i : Fin n) : List Call :=
  ((mgr.pushes.filter fun p => p.worker = i).take
    (mgr.m_vecDbThread i).finished.length).map Push.call

/-- They are the calls of what the worker's queue has finished. -/
theorem finishedCalls_eq {mgr : CDbThreadMgr n σ} {i : Fin n} {q : BatchQueue (Push n)}
    (htracks : CDbThread.Tracks (fun p => p.call.sDbCommand) (mgr.m_vecDbThread i) q)
    (hpushed : q.pushed = mgr.pushes.filter fun p => p.worker = i) :
    mgr.finishedCalls i = q.finished.map Push.call := by
  have hlength : (mgr.m_vecDbThread i).finished.length = q.finished.length := by
    rw [htracks.finished, List.length_map]
  rw [finishedCalls, hlength, ← hpushed, ← List.prefix_iff_eq_take.mp q.finished_prefix]

/-- **One id, one order.**  The commands a worker has finished are those of the first calls
pushed to it; and of the calls of one thread with the index of an id, these are the first ones
made, in the order made. -/
theorem finished_in_call_order (nMaxCacheSize nWritebackTime : Nat)
    (conn : Fin n → CDbConnection σ) (actions : List (MgrAction n)) (caller nIndex : Nat)
    (i : Fin n) (hi : i.val = nIndex % n) :
    let mgr := Runs.run (step pb srv) (init nMaxCacheSize nWritebackTime conn) actions
    let mine := fun call : Call => call.caller == caller && call.nThreadIndex == nIndex
    (mgr.m_vecDbThread i).finished = (mgr.finishedCalls i).map Call.sDbCommand ∧
      (mgr.finishedCalls i).filter mine <+: mgr.submitted.filter mine := by
  intro mgr mine
  have hordered : Ordered mgr := run_ordered pb srv nMaxCacheSize nWritebackTime conn actions
  obtain ⟨q, htracks, hpushed⟩ := hordered.workers i
  rw [finishedCalls_eq htracks hpushed]
  refine ⟨by simp [htracks.finished], ?_⟩
  have hmine : ∀ call, mine call = true → call.caller = caller ∧ call.nThreadIndex = nIndex := by
    intro call h
    simpa [mine] using h
  -- Only the pushes of this caller count, and those are a prefix of the pushes of its calls.
  have hcaller : ∀ pushes : List (Push n),
      (pushes.map Push.call).filter mine =
        ((pushes.filter (fun p => p.call.caller = caller)).map Push.call).filter mine := by
    intro pushes
    induction pushes with
    | nil => rfl
    | cons p rest ih =>
        by_cases heq : p.call.caller = caller
        · simp only [List.map_cons, List.filter_cons, heq, decide_true, if_true, ih]
        · have hnot : mine p.call = false := by
            cases h : mine p.call with
            | false => rfl
            | true => exact absurd (hmine _ h).1 heq
          simp [heq, hnot, ih]
  have hdone : (q.finished.map Push.call).filter mine <+:
      (q.pushed.map Push.call).filter mine := (q.finished_prefix.map _).filter _
  have hpushes : (q.pushed.map Push.call).filter mine =
      (((mgr.pushes.filter (fun p => p.call.caller = caller)).filter
        (fun p => p.worker = i)).map Push.call).filter mine := by
    rw [hpushed, hcaller, List.filter_filter, List.filter_filter]
    simp only [Bool.and_comm]
  have hextends : mgr.pushes.filter (fun p => p.call.caller = caller) <+:
      (mgr.submitted.filter (fun call => call.caller = caller)).flatMap (query n) := by
    rw [← hordered.callers caller]
    exact List.prefix_append _ _
  have hcalls : (((((mgr.submitted.filter (fun call => call.caller = caller)).flatMap
      (query n)).filter (fun p => p.worker = i)).map Push.call).filter mine) =
      mgr.submitted.filter mine := by
    rw [flatMap_query_filter _ mine fun call h => by rw [hi, (hmine call h).2],
      List.filter_filter]
    congr 1
    funext call
    cases h : mine call with
    | false => simp
    | true => simp [(hmine call h).1]
  rw [hpushes] at hdone
  apply hdone.trans
  rw [← hcalls]
  exact ((hextends.filter _).map _).filter _

end CDbThreadMgr

/-- **In order, exactly once.**  For every number of workers, every server and every
interleaving of callers, workers and reader:

* each worker's pushed sequence is its finished sequence, then its batch, then its queue,
  so the finished one is a prefix of the pushed one at every moment;
* the pre-step of a command that came back lost changes nothing when it runs again at once;
  when the worker takes the command again, one tick has been made in between, and the pre-step
  changes nothing either, unless the tick evicted the id of an INSERT or UPDATE, whose row is
  then cached for the id;
* a worker that is out of its loop has finished what was pushed before it was joined;
* the requests for one id go to one worker;
* the commands a worker has finished are those of the first calls pushed to it, and of the
  calls of one thread for one id these are the first ones made, in the order made. -/
theorem processed_in_order {n : Nat} {σ : Type} (pb : Runtime) (srv : Fin n → Server σ)
    (nMaxCacheSize nWritebackTime : Nat) (conn : Fin n → CDbConnection σ) :
    (∀ (actions : List (MgrAction n)) (i : Fin n),
      let th := (Runs.run (CDbThreadMgr.step pb srv)
        (CDbThreadMgr.init nMaxCacheSize nWritebackTime conn) actions).m_vecDbThread i
      th.pushed = th.finished ++ (th.listCommand ++ th.m_listCommand) ∧
        th.finished <+: th.pushed) ∧
    (∀ (actions later : List (MgrAction n)) (i : Fin n) (input : Input)
        (sDbCommand : SDbCommand) (rest : List SDbCommand),
      let mgr := Runs.run (CDbThreadMgr.step pb srv)
        (CDbThreadMgr.init nMaxCacheSize nWritebackTime conn) actions
      let lost := mgr.advance pb srv i input
      let back := Runs.run (CDbThreadMgr.step pb srv) lost later
      let mgr₁ := (lost.m_vecDbThread i).store.m_dbCacheMgr
      let mgr₂ := (back.m_vecDbThread i).store.m_dbCacheMgr
      (mgr.m_vecDbThread i).phase = .batch →
      (mgr.m_vecDbThread i).listCommand = sDbCommand :: rest →
      (lost.m_vecDbThread i).phase = .requeue →
      Runs.Guarded (CDbThreadMgr.step pb srv)
        (fun mgr _ => (mgr.m_vecDbThread i).phase ≠ .batch) lost later →
      (back.m_vecDbThread i).phase = .batch →
        (∃ pMessage, CDbThread.onPreCache pb (mgr.m_vecDbThread i).store.m_dbCacheMgr
          sDbCommand.nType sDbCommand.pMessage input.clock.nSetTime = (false, pMessage, mgr₁)) ∧
        (∀ nSetTime, CDbThread.onPreCache pb mgr₁ sDbCommand.nType sDbCommand.pMessage nSetTime =
          (false, none, mgr₁)) ∧
        (∃ rest', (back.m_vecDbThread i).listCommand = sDbCommand :: rest') ∧
        CDbThread.Ticked pb (srv i) mgr₁ mgr₂ ∧
        ∀ nSetTime, CDbThread.Rerun pb mgr₁ mgr₂ sDbCommand.nType sDbCommand.pMessage
          (CDbThread.onPreCache pb mgr₂ sDbCommand.nType sDbCommand.pMessage nSetTime)) ∧
    (∀ (i : Fin n) (before after : List (MgrAction n)),
      let atJoin := Runs.run (CDbThreadMgr.step pb srv)
        (CDbThreadMgr.init nMaxCacheSize nWritebackTime conn) before
      let atEnd := Runs.run (CDbThreadMgr.step pb srv) (atJoin.join i) after
      ¬ (atJoin.m_vecDbThread i).HasLeft → (atEnd.m_vecDbThread i).HasLeft →
        (atJoin.m_vecDbThread i).pushed <+: (atEnd.m_vecDbThread i).finished) ∧
    (∀ (nID : Nat) (r : Request), IssuedFor pb nID r →
      ∀ nServiceID nTime nThreadIndex sDbCommand,
        Db.query pb nServiceID r nTime = some (nThreadIndex, sDbCommand) →
          nThreadIndex = nID % 2 ^ 32) ∧
    (∀ (actions : List (MgrAction n)) (caller nID : Nat) (i : Fin n),
      i.val = nID % 2 ^ 32 % n →
      let mgr := Runs.run (CDbThreadMgr.step pb srv)
        (CDbThreadMgr.init nMaxCacheSize nWritebackTime conn) actions
      let mine := fun call : Call =>
        call.caller == caller && call.nThreadIndex == nID % 2 ^ 32
      (mgr.m_vecDbThread i).finished = (mgr.finishedCalls i).map Call.sDbCommand ∧
        (mgr.finishedCalls i).filter mine <+: mgr.submitted.filter mine) := by
  refine ⟨?_, ?_, ?_, ?_, ?_⟩
  · intro actions i th
    obtain ⟨q, htracks, _⟩ :=
      (CDbThreadMgr.run_ordered pb srv nMaxCacheSize nWritebackTime conn
        actions).workers i
    have hconserved : th.pushed = th.finished ++ (th.listCommand ++ th.m_listCommand) := by
      rw [htracks.pushed, htracks.finished, htracks.batch, htracks.queue, q.conserved]
      simp
    exact ⟨hconserved, hconserved ▸ List.prefix_append _ _⟩
  · exact CDbThreadMgr.rerun_of_lost nMaxCacheSize nWritebackTime conn
  · exact CDbThreadMgr.finished_of_join nMaxCacheSize nWritebackTime conn
  · intro nID r h nServiceID nTime nThreadIndex sDbCommand hquery
    exact h.query_index hquery
  · intro actions caller nID i hi
    exact CDbThreadMgr.finished_in_call_order nMaxCacheSize nWritebackTime conn actions caller
      (nID % 2 ^ 32) i hi

/-! ## A row that is evicted before the pre-step runs again -/

/-- A write of player 5, as a proxy sends it. -/
def playerWrite (nType : EOperatorType) (szName : Bytes) : Request where
  session_id := some 0
  associate_id := some 5
  type := some nType
  timeout := none
  content := some (packFrom PlayerBase.runtime (.row (PlayerBase.player 5 szName)))

theorem playerWrite_issued :
    IssuedFor PlayerBase.runtime 5 (playerWrite .kOT_INSERT [66]) :=
  @IssuedFor.insert _ _ CDbProxy.init ⟨0, true⟩ (.row (PlayerBase.player 5 [66])) _ rfl rfl

/-- A server that fails every statement with the number the handlers take for a lost
connection. -/
def losingServer : Server Unit := Server.constant (.failed kMET_LostConnection)

/-- What a step of the only worker reads: the clock at 1, and the ids an eviction samples. -/
def sampling (vecElement : List Nat) : Input := ⟨⟨1, 1⟩, ⟨vecElement, 0⟩, 0⟩

/-- The one worker makes a step, with a sample to evict from. -/
def onlyAdvance (vecElement : List Nat) : MgrAction 1 := .advance (Fin.last 0) (sampling vecElement)

/-- An UPDATE of player 5 waits for the worker. -/
def oneWrite : List (MgrAction 1) :=
  [.query 0 0 (playerWrite .kOT_UPDATE [65]) 0, .push 0]

/-- The worker takes it and an INSERT of player 5 as one batch, and its cache answers the
UPDATE. -/
def twoWrites : List (MgrAction 1) :=
  oneWrite ++ [.query 0 0 (playerWrite .kOT_INSERT [66]) 0, .push 0,
    onlyAdvance [], onlyAdvance [], onlyAdvance []]

/-- The batch is put back, the loop entered again, a tick made that samples id 5, and the
batch taken again. -/
def backInBatch : List (MgrAction 1) :=
  [onlyAdvance [], onlyAdvance [], onlyAdvance [5], onlyAdvance []]

/-- An instance with one worker whose cache may hold 8 bytes. -/
def smallCache : CDbThreadMgr 1 Unit := CDbThreadMgr.init 8 60 fun _ => ⟨true, (), 0, []⟩

/-- The state in which the INSERT is lost, with the command in front. -/
theorem twoWrites_head :
    ∃ sDbCommand, ((Runs.run (CDbThreadMgr.step PlayerBase.runtime fun _ => losingServer)
      smallCache twoWrites).m_vecDbThread (Fin.last 0)).listCommand = [sDbCommand] :=
  List.length_eq_one_iff.mp (by decide +kernel)

/-- An UPDATE that the cache answers and an INSERT that is lost: the INSERT is put back, its
record is evicted before it runs again, and both are finished in the end. -/
theorem processed_in_order_twoWrites :
    let run := Runs.run (CDbThreadMgr.step PlayerBase.runtime fun _ => losingServer)
    let only : Fin 1 := Fin.last 0
    let lost := (run smallCache twoWrites).advance PlayerBase.runtime (fun _ => losingServer) only
      (sampling [])
    let mgr₁ := (lost.m_vecDbThread only).store.m_dbCacheMgr
    let mgr₂ := ((run lost backInBatch).m_vecDbThread only).store.m_dbCacheMgr
    let atJoin := run smallCache oneWrite
    let atEnd := run (atJoin.join only) (List.replicate 5 (onlyAdvance []))
    let mine := fun call : Call => call.caller == 0 && call.nThreadIndex == 5 % 2 ^ 32
    (∃ sDbCommand : SDbCommand,
      ((run smallCache twoWrites).m_vecDbThread only).listCommand = [sDbCommand] ∧
      CDbThread.Ticked PlayerBase.runtime losingServer mgr₁ mgr₂ ∧
      CDbThread.Rerun PlayerBase.runtime mgr₁ mgr₂ sDbCommand.nType sDbCommand.pMessage
        (CDbThread.onPreCache PlayerBase.runtime mgr₂ sDbCommand.nType sDbCommand.pMessage 1)) ∧
    (atJoin.m_vecDbThread only).pushed <+: (atEnd.m_vecDbThread only).finished ∧
    (∃ command, query PlayerBase.runtime 0 (playerWrite .kOT_INSERT [66]) 0 = some command ∧
      command.1 = 5 % 2 ^ 32) ∧
    ((run smallCache twoWrites).finishedCalls only).filter mine <+:
      (run smallCache twoWrites).submitted.filter mine := by
  obtain ⟨_, hrerun, hjoin, hworker, horder⟩ := processed_in_order PlayerBase.runtime
    (fun _ => losingServer) 8 60 (fun _ : Fin 1 => ⟨true, (), 0, []⟩)
  refine ⟨?_, ?_, ?_, (horder twoWrites 0 5 (Fin.last 0) (by decide)).2⟩
  · obtain ⟨sDbCommand, hhead⟩ := twoWrites_head
    obtain ⟨_, _, _, hticked, hagain⟩ := hrerun twoWrites backInBatch (Fin.last 0) (sampling [])
      sDbCommand [] (by decide +kernel) hhead (by decide +kernel) (by decide +kernel)
      (by decide +kernel)
    exact ⟨sDbCommand, hhead, hticked, hagain 1⟩
  · refine hjoin (Fin.last 0) oneWrite (List.replicate 5 (onlyAdvance [])) ?_ (.inl ?_)
    · unfold CDbThread.HasLeft
      decide +kernel
    · decide +kernel
  · obtain ⟨command, hquery⟩ := Option.isSome_iff_exists.mp (show (query PlayerBase.runtime 0
      (playerWrite .kOT_INSERT [66]) 0).isSome = true by decide +kernel)
    exact ⟨command, hquery, hworker 5 _ playerWrite_issued 0 0 command.1 command.2 hquery⟩

/-- After the eviction the pre-step caches the row of the INSERT, which is neither what its
first run left for player 5 nor what the tick made of it. -/
theorem evicted_row_cached_again :
    ¬ ∀ (n : Nat) (σ : Type) (pb : Runtime) (srv : Fin n → Server σ)
      (nMaxCacheSize nWritebackTime : Nat) (conn : Fin n → CDbConnection σ)
      (actions later : List (MgrAction n)) (i : Fin n) (input : Input)
      (sDbCommand : SDbCommand) (rest : List SDbCommand) (nSetTime : Nat),
      let mgr := Runs.run (CDbThreadMgr.step pb srv)
        (CDbThreadMgr.init nMaxCacheSize nWritebackTime conn) actions
      let lost := mgr.advance pb srv i input
      let back := Runs.run (CDbThreadMgr.step pb srv) lost later
      let mgr₁ := (lost.m_vecDbThread i).store.m_dbCacheMgr
      let mgr₂ := (back.m_vecDbThread i).store.m_dbCacheMgr
      let mgr₃ := (CDbThread.onPreCache pb mgr₂ sDbCommand.nType sDbCommand.pMessage
        nSetTime).2.2
      (mgr.m_vecDbThread i).phase = .batch →
      (mgr.m_vecDbThread i).listCommand = sDbCommand :: rest →
      (lost.m_vecDbThread i).phase = .requeue →
      Runs.Guarded (CDbThreadMgr.step pb srv)
        (fun mgr _ => (mgr.m_vecDbThread i).phase ≠ .batch) lost later →
      (back.m_vecDbThread i).phase = .batch →
        mgr₃.record = mgr₁.record ∨ mgr₃.record = mgr₂.record := by
  intro hcase
  obtain ⟨sDbCommand, hhead⟩ := twoWrites_head
  -- What the three states have for player 5: the name of the UPDATE, nothing, that of the INSERT.
  have hfirst : (((Runs.run (CDbThreadMgr.step PlayerBase.runtime fun _ => losingServer)
      smallCache (twoWrites ++ [onlyAdvance []])).m_vecDbThread
        (Fin.last 0)).store.m_dbCacheMgr.record 5 1).map SCacheInfo.szData =
      some [13, 5, 0, 0, 0, 18, 1, 65] := by decide +kernel
  have hticked : (((Runs.run (CDbThreadMgr.step PlayerBase.runtime fun _ => losingServer)
      smallCache (twoWrites ++ onlyAdvance [] :: backInBatch)).m_vecDbThread
        (Fin.last 0)).store.m_dbCacheMgr.record 5 1).map SCacheInfo.szData = none := by
    decide +kernel
  have hagain : (((Runs.run (CDbThreadMgr.step PlayerBase.runtime fun _ => losingServer)
      smallCache twoWrites).m_vecDbThread (Fin.last 0)).listCommand.map fun sDbCommand =>
        ((CDbThread.onPreCache PlayerBase.runtime
          ((Runs.run (CDbThreadMgr.step PlayerBase.runtime fun _ => losingServer)
            smallCache (twoWrites ++ onlyAdvance [] :: backInBatch)).m_vecDbThread
              (Fin.last 0)).store.m_dbCacheMgr sDbCommand.nType sDbCommand.pMessage
          1).2.2.record 5 1).map SCacheInfo.szData) =
      [some [13, 5, 0, 0, 0, 18, 1, 66]] := by decide +kernel
  rw [hhead, List.map_singleton, List.cons.injEq] at hagain
  rw [Runs.run_append] at hfirst hticked hagain
  rcases hcase 1 Unit PlayerBase.runtime (fun _ => losingServer) 8 60
    (fun _ => ⟨true, (), 0, []⟩) twoWrites backInBatch (Fin.last 0) (sampling []) sDbCommand [] 1
    (by decide +kernel) hhead (by decide +kernel) (by decide +kernel) (by decide +kernel) with
    hsame | hsame
  · have hrecord := congrArg (Option.map SCacheInfo.szData) (congrFun (congrFun hsame 5) 1)
    exact absurd (hagain.1.symm.trans (hrecord.trans hfirst)) (by decide)
  · have hrecord := congrArg (Option.map SCacheInfo.szData) (congrFun (congrFun hsame 5) 1)
    exact absurd (hagain.1.symm.trans (hrecord.trans hticked)) (by decide)

end Db
