import DbService.StoreRuns
import DbService.DbThreadMgr

/-!
# The stores of the workers

A worker's thread touches its store in four ways: a command, a tick, a new connection and the
last flush; nothing else that happens in an instance touches it.  `StoreMoves` lists them and
`run_stores` is the rule for what every store of an instance keeps.
-/

namespace Db

namespace CDbThread

variable {σ : Type} (pb : Runtime) (srv : Server σ)

/-- What a step of the thread does to the store. -/
inductive StoreMoves (th : CDbThread σ) (input : Input) : Store σ → Prop
  | same : StoreMoves th input th.store
  | command (sDbCommand : SDbCommand) (rest : List SDbCommand) (hphase : th.phase = .batch)
      (hhead : th.listCommand = sDbCommand :: rest) :
      StoreMoves th input (th.store.step pb srv (.command sDbCommand input.clock)).1
  | tick : StoreMoves th input
      (th.store.step pb srv (.tick input.clock.nCurTime input.sample)).1
  | reconnected (hclosed : th.store.m_dbConnection.isConnect = false) :
      StoreMoves th input
        { th.store with m_dbConnection := th.store.m_dbConnection.close.connect srv }
  | finished : StoreMoves th input
      { (th.store.step pb srv .finish).1 with
        m_dbConnection := (th.store.step pb srv .finish).1.m_dbConnection.close }

/-- A round of the batch loop leaves the store as the command did. -/
theorem processHead_store (th : CDbThread σ) (sDbCommand : SDbCommand) (rest : List SDbCommand)
    (input : Input) : (th.processHead pb srv sDbCommand rest input).1.store =
      (th.store.process pb srv sDbCommand input.clock).1 := by
  unfold processHead
  rcases th.store.process pb srv sDbCommand input.clock with ⟨store, outcome, writes⟩
  cases outcome <;> rfl

/-- A step of the worker's thread moves its store in one of these ways. -/
theorem advance_store (th : CDbThread σ) (input : Input) :
    StoreMoves pb srv th input (th.advance pb srv input).1.store := by
  unfold advance
  split
  · split
    · exact .tick
    · rename_i hclosed
      exact .reconnected (by simpa using hclosed)
  · split <;> exact .same
  · rename_i hphase
    split
    · exact .same
    · rename_i sDbCommand rest hhead
      have hstore : (th.processHead pb srv sDbCommand rest input).1.store =
          (th.store.step pb srv (.command sDbCommand input.clock)).1 :=
        processHead_store pb srv th sDbCommand rest input
      rw [hstore]
      exact .command sDbCommand rest hphase hhead
  · exact .same
  · split <;> exact .same
  · exact .finished
  · exact .same

end CDbThread

namespace CDbThreadMgr

variable {n : Nat} {σ : Type} {pb : Runtime} {srv : Fin n → Server σ}

/-- A step of one worker's thread leaves the other workers, the callers and the pushes
alone. -/
theorem advance_parts (pb : Runtime) (srv : Fin n → Server σ) (mgr : CDbThreadMgr n σ) (i : Fin n)
    (input : Input) :
    (mgr.advance pb srv i input).m_vecDbThread =
        Function.update mgr.m_vecDbThread i
          ((mgr.m_vecDbThread i).advance pb (srv i) input).1 ∧
      (mgr.advance pb srv i input).calls = mgr.calls ∧
      (mgr.advance pb srv i input).submitted = mgr.submitted ∧
      (mgr.advance pb srv i input).pushes = mgr.pushes := by
  unfold advance
  rcases (mgr.m_vecDbThread i).advance pb (srv i) input with ⟨th, result, writes, answerDue⟩
  cases result <;> exact ⟨rfl, rfl, rfl, rfl⟩

/-- **What a step of the instance does to a worker:** nothing, a push, a join, or a step of its
thread. -/
inductive WorkerMoves (pb : Runtime) (srv : Fin n → Server σ) (mgr : CDbThreadMgr n σ)
    (action : MgrAction n) (i : Fin n) : CDbThread σ → Prop
  | same : WorkerMoves pb srv mgr action i (mgr.m_vecDbThread i)
  | pushed (p : Push n) (rest : List (Push n)) (caller : Nat)
      (hcalls : mgr.calls caller = p :: rest) (hworker : p.worker = i) :
      WorkerMoves pb srv mgr action i ((mgr.m_vecDbThread i).query p.call.sDbCommand)
  | joined (haction : action = .join i) :
      WorkerMoves pb srv mgr action i (mgr.m_vecDbThread i).join
  | advanced (input : Input) (haction : action = .advance i input) :
      WorkerMoves pb srv mgr action i ((mgr.m_vecDbThread i).advance pb (srv i) input).1

variable (pb srv) in
/-- A step of the instance moves a worker in one of these ways. -/
theorem step_worker (mgr : CDbThreadMgr n σ) (action : MgrAction n) (i : Fin n) :
    WorkerMoves pb srv mgr action i ((mgr.step pb srv action).1.m_vecDbThread i) := by
  have hsubmit : ∀ call action', WorkerMoves pb srv mgr action' i
      ((mgr.submit call).m_vecDbThread i) := by
    intro call action'
    unfold submit
    split <;> exact .same
  cases action with
  | query caller nServiceID pRequest nTime =>
      simp only [step]
      cases Db.query pb nServiceID pRequest nTime with
      | none => exact .same
      | some command => exact hsubmit _ _
  | flushCache caller nID nStack => exact hsubmit _ _
  | push caller =>
      simp only [step, push]
      split
      · exact .same
      · rename_i p rest hcalls
        dsimp only
        by_cases heq : i = p.worker
        · subst heq
          rw [Function.update_self]
          exact .pushed p rest caller hcalls rfl
        · rw [Function.update_of_ne heq]
          exact .same
  | advance j input =>
      simp only [step, (advance_parts pb srv mgr j input).1]
      by_cases heq : i = j
      · subst heq
        rw [Function.update_self]
        exact .advanced input rfl
      · rw [Function.update_of_ne heq]
        exact .same
  | join j =>
      simp only [step, join]
      by_cases heq : i = j
      · subst heq
        rw [Function.update_self]
        exact .joined rfl
      · rw [Function.update_of_ne heq]
        exact .same
  | getResultInfo => exact .same

/-- **A property of the stores,** kept by what their workers do, holds in every run. -/
theorem run_stores {p : Fin n → Store σ → Prop}
    (hstep : ∀ i st action, p i st → p i (st.step pb (srv i) action).1)
    (hconnect : ∀ i st, p i st →
      p i { st with m_dbConnection := st.m_dbConnection.close.connect (srv i) })
    (hclose : ∀ i st, p i st → p i { st with m_dbConnection := st.m_dbConnection.close })
    {mgr : CDbThreadMgr n σ} (h : ∀ i, p i (mgr.m_vecDbThread i).store)
    (actions : List (MgrAction n)) (i : Fin n) :
    p i ((Runs.run (step pb srv) mgr actions).m_vecDbThread i).store := by
  refine Runs.run_preserves (fun mgr : CDbThreadMgr n σ => ∀ i, p i (mgr.m_vecDbThread i).store)
    ?_ h actions i
  intro mgr action hmgr j
  have hmoves := step_worker pb srv mgr action j
  generalize (mgr.step pb srv action).1.m_vecDbThread j = th at hmoves
  cases hmoves with
  | same => exact hmgr j
  | pushed => exact hmgr j
  | joined => exact hmgr j
  | advanced input =>
      have hstore := CDbThread.advance_store pb (srv j) (mgr.m_vecDbThread j) input
      generalize ((mgr.m_vecDbThread j).advance pb (srv j) input).1.store = st at hstore
      cases hstore with
      | same => exact hmgr j
      | command => exact hstep j _ _ (hmgr j)
      | tick => exact hstep j _ _ (hmgr j)
      | reconnected => exact hconnect j _ (hmgr j)
      | finished => exact hclose j _ (hstep j _ _ (hmgr j))

end CDbThreadMgr

end Db
