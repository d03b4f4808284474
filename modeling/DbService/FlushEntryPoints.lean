import DbService.DbProxy
import DbService.DirtyMap

/-!
# The two ways to flush

`db::flushCache` and `CDbProxy::flush` both push a FLUSH, but the first builds its message
and never puts it into the command, and it passes the instance id where the key belongs.
`Backlog` is a worker with the commands still before it; what its thread does on the way
is a run of `Backlog.step`.  A FLUSH at the end of the queue is reached with the same store
whichever command it is, so the two ways differ in one last step.

* `run_backlog` -- what a worker's thread does is a run of its backlog;
* `last_flush_same_iff` -- against a worker that does nothing, a FLUSH must find nothing;
* `flush_entry_points_agree_iff` -- the two deliveries, to workers in any state;
* `direct_flush_keeps_player` -- a player that only one of them drops.
-/

namespace Db

open Reflection ByteText

/-! ## A worker and the commands before it -/

/-- What moves a worker on. -/
inductive WorkStep
  /-- the start of a round -/
  | top (nCurTime : Nat) (sample : Sample)
  /-- one round of the batch loop -/
  | next (clock : Clock)

/-- A worker's store and the commands still before it: its batch, then its queue. -/
structure Backlog (σ : Type) where
  store : Store σ
  queue : List SDbCommand

namespace Backlog

variable {σ : Type} (pb : Runtime) (srv : Server σ)

/-- The start of a round: `update()`, or another try to connect. -/
def top (b : Backlog σ) (nCurTime : Nat) (sample : Sample) : Backlog σ × List WriteEvent :=
  if b.store.m_dbConnection.isConnect then
    let (store, writes) := b.store.update pb srv nCurTime sample
    (⟨store, b.queue⟩, writes)
  else
    (⟨⟨b.store.m_dbCacheMgr, b.store.m_dbConnection.close.connect srv⟩, b.queue⟩, [])

/-- The first command is processed.  A lost one stays where it is. -/
def next (b : Backlog σ) (clock : Clock) : Backlog σ × List WriteEvent :=
  match b.queue with
  | [] => (b, [])
  | sDbCommand :: rest =>
      let (store, outcome, writes) := b.store.process pb srv sDbCommand clock
      match outcome with
      | .lost => (⟨store, sDbCommand :: rest⟩, writes)
      | _ => (⟨store, rest⟩, writes)

/-- One step, with the writes it sends. -/
def step (b : Backlog σ) : WorkStep → Backlog σ × List WriteEvent
  | .top nCurTime sample => b.top pb srv nCurTime sample
  | .next clock => b.next pb srv clock

/-- The batch loop runs only while there are commands. -/
def Due (b : Backlog σ) : WorkStep → Prop
  | .top _ _ => True
  | .next _ => b.queue ≠ []

/-- The steps work off exactly the commands that are there. -/
def WorkedOff (b : Backlog σ) (steps : List WorkStep) : Prop :=
  Runs.Guarded (step pb srv) Due b steps ∧ (Runs.run (step pb srv) b steps).queue = []

/-- The write-back UPDATEs of some steps, in order. -/
def writes (b : Backlog σ) (steps : List WorkStep) : List WriteEvent :=
  (Runs.outputs (step pb srv) b steps).flatten

/-- Worked off by the same steps, the two workers have the same caches and have sent the
same UPDATEs. -/
def SameOnceDrained (b b' : Backlog σ) (steps : List WorkStep) : Prop :=
  let after := Runs.run (step pb srv) b steps
  let after' := Runs.run (step pb srv) b' steps
  after.queue = [] ∧ after'.queue = [] ∧
    after.store.m_dbCacheMgr.m_mapCache = after'.store.m_dbCacheMgr.m_mapCache ∧
    after.store.m_dbCacheMgr.m_mapDirtyCache = after'.store.m_dbCacheMgr.m_mapDirtyCache ∧
    after.store.m_dbCacheMgr.objects = after'.store.m_dbCacheMgr.objects ∧
    b.writes pb srv steps = b'.writes pb srv steps

variable {pb srv}

@[simp] theorem writes_cons (b : Backlog σ) (s : WorkStep) (steps : List WorkStep) :
    b.writes pb srv (s :: steps) =
      (b.step pb srv s).2 ++ (b.step pb srv s).1.writes pb srv steps := rfl

/-- The writes of two parts of a run follow one another. -/
theorem writes_append (b : Backlog σ) (left right : List WorkStep) :
    b.writes pb srv (left ++ right) =
      b.writes pb srv left ++ (Runs.run (step pb srv) b left).writes pb srv right := by
  simp [writes, Runs.outputs_append]

/-- **What stands behind the commands that are worked off has no part in it.** -/
theorem step_append (pb : Runtime) (srv : Server σ) {b : Backlog σ} {s : WorkStep}
    (hdue : Due b s) (extra : List SDbCommand) :
    step pb srv ⟨b.store, b.queue ++ extra⟩ s =
      (⟨(b.step pb srv s).1.store, (b.step pb srv s).1.queue ++ extra⟩,
        (b.step pb srv s).2) := by
  obtain ⟨store, queue⟩ := b
  cases s with
  | top nCurTime sample =>
      simp only [step, top]
      split <;> rfl
  | next clock =>
      cases queue with
      | nil => exact absurd rfl hdue
      | cons sDbCommand rest =>
          simp only [step, next, List.cons_append]
          rcases store.process pb srv sDbCommand clock with ⟨store', outcome, writes⟩
          cases outcome <;> rfl

/-- Commands behind those a run comes to are left as they are, and change nothing. -/
theorem run_append {b : Backlog σ} {steps : List WorkStep}
    (hdue : Runs.Guarded (step pb srv) Due b steps) (extra : List SDbCommand) :
    Runs.run (step pb srv) ⟨b.store, b.queue ++ extra⟩ steps =
        ⟨(Runs.run (step pb srv) b steps).store,
          (Runs.run (step pb srv) b steps).queue ++ extra⟩ ∧
      writes pb srv ⟨b.store, b.queue ++ extra⟩ steps = b.writes pb srv steps := by
  induction steps generalizing b with
  | nil => exact ⟨rfl, rfl⟩
  | cons s rest ih =>
      obtain ⟨hhead, htail⟩ := hdue
      have hstep := step_append pb srv hhead extra
      obtain ⟨hrun, hwrites⟩ := ih htail
      constructor
      · rw [Runs.run, hstep]
        exact hrun
      · rw [writes_cons, writes_cons, hstep, hwrites]

end Backlog

/-! ## The worker's thread works off its backlog -/

namespace CDbThread

variable {σ : Type} {pb : Runtime} {srv : Server σ}

/-- What a worker has in hand and what waits behind it. -/
def backlog (th : CDbThread σ) : Backlog σ := ⟨th.store, th.listCommand ++ th.m_listCommand⟩

@[simp] theorem query_backlog (th : CDbThread σ) (sDbCommand : SDbCommand) :
    (th.query sDbCommand).backlog = ⟨th.backlog.store, th.backlog.queue ++ [sDbCommand]⟩ := by
  simp [backlog, query]

/-- A worker nobody has joined.  Outside the batch loop it has no batch. -/
structure Working (th : CDbThread σ) : Prop where
  quit : th.m_quit = false
  inLoop : th.phase ≠ .leaving
  idle : th.phase ≠ .batch → th.phase ≠ .requeue → th.listCommand = []

/-- A worker that is done with the head of its batch goes on working, -/
theorem processHead_working {th : CDbThread σ} (h : th.Working) (hphase : th.phase = .batch)
    (sDbCommand : SDbCommand) (rest : List SDbCommand) (input : Input) :
    (th.processHead pb srv sDbCommand rest input).1.Working := by
  unfold processHead
  rcases th.store.process pb srv sDbCommand input.clock with ⟨store, outcome, writes⟩
  cases outcome with
  | lost => exact ⟨h.quit, nofun, fun _ hrequeue => absurd rfl hrequeue⟩
  | expired => exact ⟨h.quit, h.inLoop, fun hbatch => absurd hphase hbatch⟩
  | flushed => exact ⟨h.quit, h.inLoop, fun hbatch => absurd hphase hbatch⟩
  | handled nErrorCode pMessage => exact ⟨h.quit, h.inLoop, fun hbatch => absurd hphase hbatch⟩

/-- and its backlog is one command shorter, unless the command is put back. -/
theorem processHead_backlog {th : CDbThread σ} {sDbCommand : SDbCommand}
    {rest : List SDbCommand} (hlist : th.listCommand = sDbCommand :: rest) (input : Input) :
    th.backlog.next pb srv input.clock =
      ((th.processHead pb srv sDbCommand rest input).1.backlog,
        (th.processHead pb srv sDbCommand rest input).2.writes) := by
  simp only [Backlog.next, backlog, hlist, List.cons_append, processHead]
  rcases th.store.process pb srv sDbCommand input.clock with ⟨store, outcome, writes⟩
  cases outcome <;> simp

/-- **A step of the thread** leaves the backlog alone, or is a step of it. -/
theorem advance_backlog (pb : Runtime) (srv : Server σ) {th : CDbThread σ} (h : th.Working)
    (input : Input) :
    (th.advance pb srv input).1.Working ∧
      (((th.advance pb srv input).1.backlog = th.backlog ∧
          (th.advance pb srv input).2.writes = []) ∨
        ∃ s, th.backlog.Due s ∧ th.backlog.step pb srv s =
          ((th.advance pb srv input).1.backlog, (th.advance pb srv input).2.writes)) := by
  unfold advance
  cases hphase : th.phase with
  | top =>
      have hlist := h.idle (by simp [hphase]) (by simp [hphase])
      simp only
      split
      · rename_i hconnect
        refine ⟨⟨h.quit, nofun, fun _ _ => hlist⟩,
          .inr ⟨.top input.clock.nCurTime input.sample, trivial, ?_⟩⟩
        simp [Backlog.step, Backlog.top, backlog, hconnect]
      · rename_i hconnect
        refine ⟨⟨h.quit, nofun, fun _ _ => hlist⟩,
          .inr ⟨.top input.clock.nCurTime input.sample, trivial, ?_⟩⟩
        simp [Backlog.step, Backlog.top, backlog, hconnect, ThreadOutput.silent]
  | waiting =>
      have hlist := h.idle (by simp [hphase]) (by simp [hphase])
      simp only
      split
      · exact ⟨⟨h.quit, nofun, fun _ _ => hlist⟩, .inl ⟨rfl, rfl⟩⟩
      · refine ⟨⟨h.quit, nofun, fun hbatch => absurd rfl hbatch⟩, .inl ⟨?_, rfl⟩⟩
        simp [backlog, hlist]
  | batch =>
      cases hlist : th.listCommand with
      | nil => exact ⟨⟨h.quit, nofun, fun _ _ => rfl⟩, .inl ⟨by simp [backlog, hlist], rfl⟩⟩
      | cons sDbCommand rest =>
          refine ⟨processHead_working h hphase sDbCommand rest input,
            .inr ⟨.next input.clock, ?_, processHead_backlog hlist input⟩⟩
          simp [Backlog.Due, backlog, hlist]
  | requeue =>
      refine ⟨⟨h.quit, nofun, fun _ _ => rfl⟩, .inl ⟨?_, rfl⟩⟩
      simp [backlog]
  | check =>
      have hlist := h.idle (by simp [hphase]) (by simp [hphase])
      simp only [h.quit, Bool.false_and, Bool.false_eq_true, if_false]
      exact ⟨⟨rfl, nofun, fun _ _ => hlist⟩, .inl ⟨rfl, rfl⟩⟩
  | leaving => exact absurd hphase h.inLoop
  | closed => exact ⟨h, .inl ⟨rfl, rfl⟩⟩

/-- **What the thread does to its store is a run of its backlog.** -/
theorem run_backlog {th : CDbThread σ} (h : th.Working) (inputs : List Input) :
    ∃ steps, Runs.Guarded (Backlog.step pb srv) Backlog.Due th.backlog steps ∧
      Runs.run (Backlog.step pb srv) th.backlog steps =
        (Runs.run (advance pb srv) th inputs).backlog ∧
      th.backlog.writes pb srv steps =
        ((Runs.outputs (advance pb srv) th inputs).map ThreadOutput.writes).flatten := by
  induction inputs generalizing th with
  | nil => exact ⟨[], trivial, rfl, rfl⟩
  | cons input rest ih =>
      obtain ⟨hworking, hstep⟩ := advance_backlog pb srv h input
      obtain ⟨steps, hdue, hrun, hwrites⟩ := ih hworking
      rcases hstep with ⟨hsame, hsilent⟩ | ⟨s, hs, hstep⟩
      · refine ⟨steps, hsame ▸ hdue, ?_, ?_⟩
        · rw [← hsame]
          exact hrun
        · rw [← hsame, hwrites]
          simp [Runs.outputs, hsilent]
      · refine ⟨s :: steps, ⟨hs, ?_⟩, ?_, ?_⟩
        · rw [hstep]
          exact hdue
        · rw [Runs.run, hstep]
          exact hrun
        · rw [Backlog.writes_cons, hstep]
          simp only [hwrites]
          simp [Runs.outputs]

end CDbThread

/-! ## What the last step does -/

namespace CDbCacheMgr

variable {σ : Type} {mgr : CDbCacheMgr}

/-- A FLUSH of the key finds nothing to write and nothing to drop. -/
def NothingToFlush (mgr : CDbCacheMgr) (nKey : Nat) : Prop :=
  mgr.isDisabled = true ∨
    if nKey ≠ 0 then mgr.m_mapCache[nKey]? = none
    else mgr.m_mapCache = ∅ ∧ (mgr.isPaced 0 = true ∨ mgr.m_mapDirtyCache = ∅)

/-- An empty dirty map is written back without an UPDATE. -/
theorem writeback_nothing (pb : Runtime) (srv : Server σ) (hdirty : mgr.m_mapDirtyCache = ∅)
    (nTime : Nat) (conn : CDbConnection σ) :
    (mgr.writeback pb srv nTime conn).1.m_mapDirtyCache = ∅ ∧
      (mgr.writeback pb srv nTime conn).2.1 = [] := by
  rcases writeback_cases pb srv mgr nTime conn with ⟨_, heq⟩ | ⟨_, _, heq⟩
  · rw [heq]
    exact ⟨hdirty, rfl⟩
  · have hlist : mgr.m_mapDirtyCache.toList = [] := by
      rw [hdirty]
      rfl
    rw [heq, hlist]
    exact ⟨hdirty, rfl⟩

/-- **When a FLUSH leaves the caches as they are** and sends nothing. -/
theorem flushCache_same_iff (pb : Runtime) (srv : Server σ) (mgr : CDbCacheMgr) (nKey : Nat)
    (bDel : Bool) (conn : CDbConnection σ) :
    (mgr.m_mapCache = (mgr.flushCache pb srv nKey bDel conn).1.m_mapCache ∧
      mgr.m_mapDirtyCache = (mgr.flushCache pb srv nKey bDel conn).1.m_mapDirtyCache ∧
      mgr.objects = (mgr.flushCache pb srv nKey bDel conn).1.objects ∧
      (mgr.flushCache pb srv nKey bDel conn).2.1 = []) ↔
    mgr.NothingToFlush nKey := by
  have hobjects := (flushCache_sameRecords pb srv mgr nKey bDel conn).objects
  unfold NothingToFlush
  rcases flushCache_cases pb srv mgr nKey bDel conn with
    ⟨hnothing, heq⟩ | ⟨pObject, hdisabled, hkey, hcached, heq⟩ | ⟨hdisabled, rfl, heq⟩
  · rw [heq]
    refine ⟨fun _ => ?_, fun _ => ⟨rfl, rfl, rfl, rfl⟩⟩
    rcases hnothing with hdisabled | ⟨hkey, huncached⟩
    · exact .inl hdisabled
    · rw [if_pos hkey]
      exact .inr huncached
  · rw [heq, if_pos hkey, hcached]
    constructor
    · intro hsame
      -- The id is gone from the cache map.
      have hgone := congrArg (fun map : Std.ExtTreeMap Nat Nat => map[nKey]?) hsame.1
      simp [hcached] at hgone
    · intro hcase
      rcases hcase with hcase | hcase
      · rw [hdisabled] at hcase
        cases hcase
      · cases hcase
  · rw [heq] at hobjects ⊢
    simp only [ne_eq, not_true, if_false, hdisabled, Bool.false_eq_true, false_or]
    constructor
    · intro hsame
      obtain ⟨hcache, hdirty, _, _⟩ := hsame
      refine ⟨hcache, ?_⟩
      cases hpaced : mgr.isPaced 0 with
      | true => exact .inl rfl
      | false => exact .inr (hdirty.trans (writeback_forced_dirty hdisabled hpaced conn))
    · intro hcase
      obtain ⟨hcache, hpaced | hdirty⟩ := hcase
      · have hskip : mgr.writeback pb srv 0 conn = (mgr, [], conn) := by
          simp [writeback, hpaced]
        rw [hskip]
        exact ⟨hcache, rfl, rfl, rfl⟩
      · obtain ⟨hempty, hwrites⟩ := writeback_nothing pb srv hdirty 0 conn
        exact ⟨hcache, hdirty.trans hempty.symm, hobjects.symm, hwrites⟩

end CDbCacheMgr

namespace Backlog

variable {σ : Type} {pb : Runtime} {srv : Server σ}

/-- A last FLUSH without its message changes nothing. -/
theorem step_flush_nothing (store : Store σ) {sDbCommand : SDbCommand}
    (htype : sDbCommand.nType = .kOT_FLUSH) (hmessage : sDbCommand.pMessage = none)
    (clock : Clock) :
    step pb srv ⟨store, [sDbCommand]⟩ (.next clock) = (⟨store, []⟩, []) := by
  simp [step, next, Store.process, htype, hmessage]

/-- A FLUSH command flushes what `flushCache` flushes. -/
theorem step_flush (pb : Runtime) (srv : Server σ) (store : Store σ)
    {sDbCommand : SDbCommand} {id type : Nat} (htype : sDbCommand.nType = .kOT_FLUSH)
    (hmessage : sDbCommand.pMessage = some (.flush_command id type)) (clock : Clock) :
    step pb srv ⟨store, [sDbCommand]⟩ (.next clock) =
      let result := store.m_dbCacheMgr.flushCache pb srv id
        (type == EFlushCacheType.kFCT_DEL.code) store.m_dbConnection
      (⟨⟨result.1, result.2.2⟩, []⟩, result.2.1) := by
  simp [step, next, Store.process, htype, hmessage]

/-- **Only what is reached last tells two workers apart** that work off the same commands
before. -/
theorem sameOnceDrained_iff {b : Backlog σ} {steps : List WorkStep}
    (hworked : b.WorkedOff pb srv steps) (extra extra' : List SDbCommand) (s : WorkStep) :
    SameOnceDrained pb srv ⟨b.store, b.queue ++ extra⟩ ⟨b.store, b.queue ++ extra'⟩
        (steps ++ [s]) ↔
      SameOnceDrained pb srv ⟨(Runs.run (step pb srv) b steps).store, extra⟩
        ⟨(Runs.run (step pb srv) b steps).store, extra'⟩ [s] := by
  obtain ⟨hdue, hempty⟩ := hworked
  obtain ⟨hrun, hwrites⟩ := run_append hdue extra
  obtain ⟨hrun', hwrites'⟩ := run_append hdue extra'
  rw [hempty, List.nil_append] at hrun hrun'
  simp only [SameOnceDrained, Runs.run_append, writes_append, hrun, hrun', hwrites, hwrites',
    List.append_cancel_left_eq]

/-- **Against a worker that does nothing, a FLUSH must find nothing.** -/
theorem last_flush_same_iff (store : Store σ) {idle : List SDbCommand} {clock : Clock}
    (hidle : step pb srv ⟨store, idle⟩ (.next clock) = (⟨store, []⟩, []))
    {sDbCommand : SDbCommand} {id type : Nat} (htype : sDbCommand.nType = .kOT_FLUSH)
    (hmessage : sDbCommand.pMessage = some (.flush_command id type)) {p : Prop} [Decidable p] :
    SameOnceDrained pb srv ⟨store, idle⟩ ⟨store, if p then [sDbCommand] else []⟩
        [.next clock] ↔
      (p → store.m_dbCacheMgr.NothingToFlush id) := by
  by_cases hp : p
  · have hflush := step_flush pb srv store htype hmessage clock
    rw [← CDbCacheMgr.flushCache_same_iff pb srv store.m_dbCacheMgr id
      (type == EFlushCacheType.kFCT_DEL.code) store.m_dbConnection]
    simp only [SameOnceDrained, Runs.run, hidle, hp, if_true, hflush, writes, Runs.outputs,
      List.flatten_cons, List.flatten_nil, List.append_nil, true_and, true_imp_iff]
    refine and_congr_right fun _ => and_congr_right fun _ => and_congr_right fun _ => eq_comm
  · have hnone : step pb srv ⟨store, []⟩ (.next clock) = (⟨store, []⟩, []) := rfl
    simp [SameOnceDrained, Runs.run, hidle, hp, hnone, writes, Runs.outputs]

end Backlog

/-! ## Delivery -/

namespace CDbThreadMgr

variable {n : Nat} {σ : Type} {pb : Runtime} {srv : Fin n → Server σ}

/-- A thread makes a call and all its pushes. -/
def deliver (pb : Runtime) (srv : Fin n → Server σ) (mgr : CDbThreadMgr n σ) (caller : Nat)
    (action : MgrAction n) : CDbThreadMgr n σ :=
  Runs.run (step pb srv) mgr (action :: List.replicate n (.push caller))

/-- The pushes of a call reach its workers, each of them once. -/
theorem run_pushes (call : Call) {workers : List (Fin n)} (hnodup : workers.Nodup) {k : Nat}
    (hk : workers.length ≤ k) {mgr : CDbThreadMgr n σ} {caller : Nat}
    (hcalls : mgr.calls caller = workers.map fun i => ⟨call, i⟩) (i : Fin n) :
    (Runs.run (step pb srv) mgr (List.replicate k (.push caller))).m_vecDbThread i =
      if i ∈ workers then (mgr.m_vecDbThread i).query call.sDbCommand
      else mgr.m_vecDbThread i := by
  induction k generalizing mgr workers with
  | zero =>
      obtain rfl := List.length_eq_zero_iff.mp (Nat.le_zero.mp hk)
      rfl
  | succ k ih =>
      rw [List.replicate_succ, Runs.run]
      cases workers with
      | nil =>
          have hidle : (step pb srv mgr (.push caller)).1 = mgr := by
            simp [step, push, hcalls]
          rw [hidle]
          exact ih List.nodup_nil (by simp) hcalls
      | cons w rest =>
          have hpush : (step pb srv mgr (.push caller)).1 =
              { mgr with
                m_vecDbThread := Function.update mgr.m_vecDbThread w
                  ((mgr.m_vecDbThread w).query call.sDbCommand)
                calls := Function.update mgr.calls caller (rest.map fun i => ⟨call, i⟩)
                pushes := mgr.pushes ++ [⟨call, w⟩] } := by
            simp [step, push, hcalls]
          obtain ⟨hfresh, hnodup'⟩ := List.nodup_cons.mp hnodup
          rw [hpush, ih hnodup' (by simpa using hk) (by simp)]
          by_cases hi : i = w
          · subst hi
            simp [hfresh]
          · simp [hi]

/-- **After a call each of its workers has the command, and no other worker does.** -/
theorem deliver_worker {mgr : CDbThreadMgr n σ} {call : Call}
    (hfree : mgr.calls call.caller = []) {action : MgrAction n}
    (hcall : (step pb srv mgr action).1 = mgr.submit call) (i : Fin n) :
    (mgr.deliver pb srv call.caller action).m_vecDbThread i =
      if i ∈ targets n call.nThreadIndex call.sDbCommand.nType then
        (mgr.m_vecDbThread i).query call.sDbCommand
      else mgr.m_vecDbThread i := by
  have hnodup : (targets n call.nThreadIndex call.sDbCommand.nType).Nodup :=
    (List.nodup_finRange n).filter _
  have hlength : (targets n call.nThreadIndex call.sDbCommand.nType).length ≤ n := by
    have hle := List.length_filter_le (fun i : Fin n =>
      (call.sDbCommand.nType == .kOT_FLUSH && call.nThreadIndex == 0) ||
        i.val == call.nThreadIndex % n) (List.finRange n)
    simpa [targets] using hle
  rw [deliver, Runs.run, hcall]
  have hsubmit : mgr.submit call =
      { mgr with
        calls := Function.update mgr.calls call.caller (query n call)
        submitted := mgr.submitted ++ [call] } := by
    simp [submit, hfree]
  rw [hsubmit, run_pushes call hnodup hlength (by simp [query])]

/-- What a delivery adds to a worker's commands. -/
theorem deliver_backlog {mgr : CDbThreadMgr n σ} {caller nThreadIndex : Nat}
    {sDbCommand : SDbCommand} (hfree : mgr.calls caller = []) {action : MgrAction n}
    (hcall : (step pb srv mgr action).1 = mgr.submit ⟨caller, nThreadIndex, sDbCommand⟩)
    (i : Fin n) :
    ((mgr.deliver pb srv caller action).m_vecDbThread i).backlog =
      ⟨(mgr.m_vecDbThread i).backlog.store, (mgr.m_vecDbThread i).backlog.queue ++
        if i ∈ targets n nThreadIndex sDbCommand.nType then [sDbCommand] else []⟩ := by
  have hworker := @deliver_worker n σ pb srv mgr ⟨caller, nThreadIndex, sDbCommand⟩ hfree action
    hcall i
  rw [hworker]
  split
  · exact CDbThread.query_backlog _ _
  · rw [List.append_nil]

end CDbThreadMgr

/-- The runtime knows the type of the message and parses back what it serialises. -/
structure Runtime.Carries (pb : Runtime) (m : Message) : Prop where
  known : (pb.FindMessageTypeByName m.GetTypeName).isSome
  parse : ∃ szData, pb.SerializeToString m = some szData ∧
    pb.ParseFromString m.GetTypeName szData = some m

/-- **The command a flush request stands for** has the key as its index, cut to 32 bits,
and the message the client built. -/
theorem query_flush {pb : Runtime} {proxy : CDbProxy} {env : Environment}
    {pDbClient nKey : Nat} {eType : EFlushCacheType} {pRequest : Request}
    (hcarries : pb.Carries (.flush_command nKey eType.code))
    (hrequest : (proxy.flush pb env pDbClient nKey eType).2.1 = some pRequest)
    (nServiceID nTime : Nat) :
    query pb nServiceID pRequest nTime = some (nKey % 2 ^ 32,
      { nServiceID := nServiceID
        nType := .kOT_FLUSH
        nSessionID := 0
        nTimeout := 0
        pMessage := some (.flush_command nKey eType.code) }) := by
  unfold CDbProxy.flush at hrequest
  split at hrequest
  · cases hrequest
  · obtain rfl := Option.some.inj hrequest
    obtain ⟨szData, hdata, hparse⟩ := hcarries.parse
    have hunpack := (unpack_packFrom hcarries.known hdata).trans hparse
    simp [query, hunpack]

/-- **The two flushes, exactly.**  Delivered to workers in any state, and worked off with
whatever each of them did before, `db::flushCache` and a flush request leave the same caches
and send the same UPDATEs if and only if every worker the request goes to reaches it with
nothing to flush for the key. -/
theorem flush_entry_points_agree_iff {n : Nat} {σ : Type} {pb : Runtime} {srv : Fin n → Server σ}
    {mgr : CDbThreadMgr n σ} {caller : Nat} (hfree : mgr.calls caller = [])
    {proxy : CDbProxy} {env : Environment} {pDbClient nKey : Nat} {eType : EFlushCacheType}
    {pRequest : Request} (hcarries : pb.Carries (.flush_command nKey eType.code))
    (hrequest : (proxy.flush pb env pDbClient nKey eType).2.1 = some pRequest)
    (nID : Nat) (nStack : Int) (nServiceID nTime : Nat) {steps : Fin n → List WorkStep}
    (hworked : ∀ i, (mgr.m_vecDbThread i).backlog.WorkedOff pb (srv i) (steps i))
    (clock : Fin n → Clock) :
    (∀ i, Backlog.SameOnceDrained pb (srv i)
      ((mgr.deliver pb srv caller (.flushCache caller nID nStack)).m_vecDbThread i).backlog
      ((mgr.deliver pb srv caller
        (.query caller nServiceID pRequest nTime)).m_vecDbThread i).backlog
      (steps i ++ [.next (clock i)])) ↔
    ∀ i ∈ CDbThreadMgr.targets n (nKey % 2 ^ 32) .kOT_FLUSH,
      (Runs.run (Backlog.step pb (srv i)) (mgr.m_vecDbThread i).backlog
        (steps i)).store.m_dbCacheMgr.NothingToFlush nKey := by
  have hquery := query_flush hcarries hrequest nServiceID nTime
  have hdirect : (CDbThreadMgr.step pb srv mgr (.flushCache caller nID nStack)).1 =
      mgr.submit ⟨caller, (flushCache nID nStack).1, (flushCache nID nStack).2⟩ := rfl
  refine forall_congr' fun i => ?_
  rw [CDbThreadMgr.deliver_backlog hfree hdirect,
    CDbThreadMgr.deliver_backlog hfree (by rw [CDbThreadMgr.step, hquery]),
    Backlog.sameOnceDrained_iff (hworked i)]
  refine Backlog.last_flush_same_iff _ ?_ rfl rfl
  -- The FLUSH of `db::flushCache`, where it arrives, has no message.
  split
  · exact Backlog.step_flush_nothing _ rfl rfl _
  · rfl

/-! ## Two workers -/

/-- `flush_command` -/
def flush_command : Descriptor where
  full_name := "proto.db.flush_command"
  primary_key := ""
  fields :=
    [{ name := "id", type := .TYPE_UINT64, label := .LABEL_REQUIRED, default_value := .int 0
       serialize_type := 0, message_type := "", default_fits := by decide },
      { name := "type", type := .TYPE_UINT32, label := .LABEL_REQUIRED, default_value := .int 0
        serialize_type := 0, message_type := "", default_fits := by decide }]
  names_nodup := by decide

/-- The runtime of the test program, which knows `flush_command` too.  Numbers from 128 on
take more than one byte and do not serialise here. -/
def flushRuntime : Runtime :=
  { PlayerBase.runtime with
    FindMessageTypeByName := fun szName =>
      if szName = flush_command.full_name then some flush_command
      else PlayerBase.FindMessageTypeByName szName
    SerializeToString := fun m =>
      match m with
      | .flush_command id type =>
          if id < 128 ∧ type < 128 then some [8, .ofNat id, 16, .ofNat type] else none
      | m => PlayerBase.SerializeToString m
    ParseFromString := fun szName szData =>
      if szName = flush_command.full_name then
        match szData with
        | [8, id, 16, type] =>
            if id < 128 ∧ type < 128 then some (.flush_command id.toNat type.toNat) else none
        | _ => none
      else PlayerBase.ParseFromString szName szData }

theorem flushRuntime_carries : flushRuntime.Carries (.flush_command 5 0) where
  known := by decide
  parse := ⟨[8, 5, 16, 0], by decide, rfl⟩

/-- What a client sends to flush player 5. -/
def flushFive : Request where
  session_id := some 0
  associate_id := some 5
  type := some .kOT_FLUSH
  timeout := none
  content := some (packFrom flushRuntime (.flush_command 5 0))

/-- A client sends it. -/
def sendFlush : MgrAction 2 := .query 1 0 flushFive 100

/-- Two workers with empty caches. -/
def emptyCaches : CDbThreadMgr 2 Unit := .init 2000 60 fun _ => ⟨true, (), 0, []⟩

/-- The second worker, to which odd ids go, has the player in its cache. -/
def playerCached (nID : Nat) : CDbThreadMgr 2 Unit :=
  let th := emptyCaches.m_vecDbThread 1
  let (_, mgr) :=
    th.store.m_dbCacheMgr.addData flushRuntime nID (PlayerBase.player nID [97])
  { emptyCaches with
    m_vecDbThread := Function.update emptyCaches.m_vecDbThread 1
      { th with store := ⟨mgr, th.store.m_dbConnection⟩ } }

/-- With player 7 in the cache of their worker the two flushes of player 5 agree. -/
theorem other_player_flushed_alike :
    let srv : Fin 2 → Server Unit := fun _ => .constant (.done 0 1)
    ((playerCached 7).m_vecDbThread 1).store.m_dbCacheMgr.m_mapCache[7]? = some 0 ∧
      ∀ i, Backlog.SameOnceDrained flushRuntime (srv i)
        (((playerCached 7).deliver flushRuntime srv 1 (.flushCache 1 3 0)).m_vecDbThread i).backlog
        (((playerCached 7).deliver flushRuntime srv 1 sendFlush).m_vecDbThread i).backlog
        ([] ++ [.next ⟨100, 100⟩]) := by
  have hrequest : (CDbProxy.init.flush flushRuntime ⟨0, true⟩ 1 5 .kFCT_NORMAL).2.1 =
      some flushFive := rfl
  intro srv
  have hworked : ∀ i, ((playerCached 7).m_vecDbThread i).backlog.WorkedOff flushRuntime (srv i)
      [] :=
    fun i => ⟨trivial, match i with | 0 => rfl | 1 => rfl⟩
  refine ⟨by decide, (flush_entry_points_agree_iff rfl flushRuntime_carries hrequest 3 0 0 100
    hworked fun _ => ⟨100, 100⟩).mpr ?_⟩
  intro i hin
  obtain rfl : i = 1 := Fin.ext (by simpa [CDbThreadMgr.targets] using hin)
  exact .inr (by decide)

/-- `db::flushCache` leaves player 5 in the cache; the request drops it. -/
theorem direct_flush_keeps_player :
    ¬ ∀ (n : Nat) (σ : Type) (pb : Runtime) (srv : Fin n → Server σ) (mgr : CDbThreadMgr n σ)
        (caller : Nat), mgr.calls caller = [] →
      ∀ (proxy : CDbProxy) (env : Environment) (pDbClient nKey : Nat)
        (eType : EFlushCacheType) (pRequest : Request),
        pb.Carries (.flush_command nKey eType.code) →
        (proxy.flush pb env pDbClient nKey eType).2.1 = some pRequest →
      ∀ (nID : Nat) (nStack : Int) (nServiceID nTime : Nat) (steps : Fin n → List WorkStep),
        (∀ i, (mgr.m_vecDbThread i).backlog.WorkedOff pb (srv i) (steps i)) →
      ∀ (clock : Fin n → Clock) (i : Fin n), Backlog.SameOnceDrained pb (srv i)
        ((mgr.deliver pb srv caller (.flushCache caller nID nStack)).m_vecDbThread i).backlog
        ((mgr.deliver pb srv caller
          (.query caller nServiceID pRequest nTime)).m_vecDbThread i).backlog
        (steps i ++ [.next (clock i)]) := by
  intro h
  let srv : Fin 2 → Server Unit := fun _ => .constant (.done 0 1)
  have hrequest : (CDbProxy.init.flush flushRuntime ⟨0, true⟩ 1 5 .kFCT_NORMAL).2.1 =
      some flushFive := rfl
  have hsame := h 2 Unit flushRuntime srv (playerCached 5) 1 rfl .init ⟨0, true⟩ 1 5
    .kFCT_NORMAL flushFive flushRuntime_carries hrequest 3 0 0 100 (fun _ => [])
    (fun i => ⟨trivial, match i with | 0 => rfl | 1 => rfl⟩) (fun _ => ⟨100, 100⟩) 1
  obtain ⟨_, _, hcache, _⟩ := hsame
  have hkept : (Runs.run (Backlog.step flushRuntime (srv 1))
      (((playerCached 5).deliver flushRuntime srv 1 (.flushCache 1 3 0)).m_vecDbThread 1).backlog
      [.next ⟨100, 100⟩]).store.m_dbCacheMgr.m_mapCache[5]? = some 0 := by
    decide
  have hdropped : (Runs.run (Backlog.step flushRuntime (srv 1))
      (((playerCached 5).deliver flushRuntime srv 1 sendFlush).m_vecDbThread 1).backlog
      [.next ⟨100, 100⟩]).store.m_dbCacheMgr.m_mapCache[5]? = none := by
    decide
  have hboth := congrArg (fun map : Std.ExtTreeMap Nat Nat => map[5]?) hcache
  exact absurd (hkept.symm.trans (hboth.trans hdropped)) (by decide)

end Db
