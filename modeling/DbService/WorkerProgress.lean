import DbService.WorkerOrder
import DbService.WorkerStores
import DbService.PlayerBase

/-!
# How long a worker takes

A worker that has the connection makes five steps of its thread at most for each command: the
step that finishes it, and four from the end of a batch to the next one.  A command that comes
back lost and each attempt to connect again cost five steps more.  Nothing else holds it up,
whatever is pushed meanwhile and whatever the other workers do: what it was given it finishes in
a bounded number of its own steps (`commands_finish_in_time`), and once it is told to quit, it
leaves in a number of steps that the commands it was given bound (`joined_worker_leaves`).

* `advance_nearer`, `advance_stepsToLeave` -- a step of the worker brings the goal nearer;
* `commands_finish_in_time` -- so commands are finished after a bounded number of its steps;
* `joined_worker_leaves` -- and a worker that was joined leaves.
-/

namespace Db

open Reflection ByteText

namespace CDbThread

variable {σ : Type} (pb : Runtime) (srv : Server σ)

/-- The step connects again, or the command under way comes back lost. -/
def isSetback (th : CDbThread σ) (input : Input) : Bool :=
  match th.phase with
  | .top => !th.store.m_dbConnection.isConnect
  | .batch => (th.advance pb srv input).1.phase == .requeue
  | _ => false

/-- The commands that were pushed and are not finished. -/
def remaining (th : CDbThread σ) : Nat := th.listCommand.length + th.m_listCommand.length

/-- The steps to the next command, or to the next batch at the end of one. -/
def stage (th : CDbThread σ) : Nat :=
  match th.phase with
  | .batch => if th.listCommand.isEmpty then 4 else 0
  | .requeue => 4
  | .check => 3
  | .top => 2
  | .waiting => 1
  | .leaving | .closed => 0

/-- The steps in which a worker that quits leaves, if nothing more is pushed. -/
def stepsToLeave (th : CDbThread σ) : Nat :=
  match th.phase with
  | .closed => 0
  | .leaving => 1
  | .check => if th.remaining = 0 then 2 else 5 * th.remaining + 2
  | .batch | .requeue => if th.remaining = 0 then 3 else 5 * th.remaining + th.stage - 1
  | .waiting => if th.remaining = 0 then 3 else 5 * th.remaining
  | .top => if th.remaining = 0 then 4 else 5 * th.remaining + 1

theorem stage_le (th : CDbThread σ) : th.stage ≤ 4 := by
  unfold stage
  split
  · split <;> omega
  all_goals omega

theorem stepsToLeave_le (th : CDbThread σ) : th.stepsToLeave ≤ 5 * th.remaining + 4 := by
  have hstage := th.stage_le
  unfold stepsToLeave
  split
  · omega
  · omega
  all_goals split <;> omega

section Lists

variable {pb srv} {th : CDbThread σ} {α : Type} {f : α → SDbCommand} {q : BatchQueue α}

variable (pb srv th) in
/-- Other threads alone push to a worker and tell it to quit. -/
theorem advance_keeps (input : Input) :
    (th.advance pb srv input).1.m_quit = th.m_quit ∧
      (th.advance pb srv input).1.pushed = th.pushed := by
  unfold advance
  split
  · split <;> exact ⟨rfl, rfl⟩
  · split <;> exact ⟨rfl, rfl⟩
  · split
    · exact ⟨rfl, rfl⟩
    · rename_i sDbCommand rest _
      unfold processHead
      rcases th.store.process pb srv sDbCommand input.clock with ⟨store, outcome, writes⟩
      cases outcome <;> exact ⟨rfl, rfl⟩
  · exact ⟨rfl, rfl⟩
  · split <;> exact ⟨rfl, rfl⟩
  · exact ⟨rfl, rfl⟩
  · exact ⟨rfl, rfl⟩

/-- What was pushed is finished or still there. -/
theorem Tracks.remaining (h : Tracks f th q) :
    th.pushed.length = th.finished.length + th.remaining := by
  have hlengths := congrArg List.length q.conserved
  simp only [List.length_append] at hlengths
  simp only [CDbThread.remaining, h.pushed, h.finished, h.batch, h.queue, List.length_map]
  exact hlengths

/-- Between two batches all that is there is in the queue. -/
theorem Tracks.idle_list (h : Tracks f th q) (hbatch : th.phase ≠ .batch)
    (hrequeue : th.phase ≠ .requeue) : th.listCommand = [] := by
  rw [h.batch, h.idle hbatch hrequeue, List.map_nil]

/-- Of what was pushed first, the commands that are not finished are at the end. -/
theorem Tracks.unfinished (h : Tracks f th q) {before : List SDbCommand}
    (hgiven : before <+: th.pushed) (hunfinished : ¬ before <+: th.finished) :
    th.finished.length < before.length := by
  by_contra hlength
  have hfinished : th.finished <+: th.pushed := by
    rw [h.finished, h.pushed]
    exact q.finished_prefix.map f
  exact hunfinished (List.prefix_of_prefix_length_le hgiven hfinished (not_lt.mp hlength))

variable (pb srv) in
/-- **A step before the commands are finished** brings the next one nearer, unless it is a
setback. -/
theorem advance_nearer (h : Tracks f th q) {before : List SDbCommand}
    (hgiven : before <+: th.pushed) (hunfinished : ¬ before <+: th.finished)
    (hstaying : ¬ HasLeft th) (input : Input) :
    5 * (before.length - (th.advance pb srv input).1.finished.length) +
        (th.advance pb srv input).1.stage + 1 ≤
      5 * (before.length - th.finished.length) + th.stage +
        5 * (th.isSetback pb srv input).toNat := by
  have hsome := h.unfinished hgiven hunfinished
  have hqueue : th.phase ≠ .batch → th.phase ≠ .requeue → th.m_listCommand ≠ [] := by
    intro hbatch hrequeue hnone
    have hremaining := h.remaining
    have hlength := hgiven.length_le
    simp only [CDbThread.remaining, h.idle_list hbatch hrequeue, hnone,
      List.length_nil] at hremaining
    omega
  cases hphase : th.phase with
  | top =>
      cases hopen : th.store.m_dbConnection.isConnect with
      | true => simp [advance, hphase, hopen, stage]
      | false => simp [advance, hphase, hopen, stage, isSetback]
  | waiting =>
      have hnext := hqueue (by simp [hphase]) (by simp [hphase])
      simp [advance, hphase, hnext, stage]
  | batch =>
      cases hlist : th.listCommand with
      | nil => simp [advance, hphase, hlist, stage]
      | cons sDbCommand rest =>
          have hhead : (th.advance pb srv input).1 =
              (th.processHead pb srv sDbCommand rest input).1 := by
            simp [advance, hphase, hlist]
          have hsetback : th.isSetback pb srv input =
              ((th.processHead pb srv sDbCommand rest input).1.phase == .requeue) := by
            simp [isSetback, hphase, hhead]
          have hstage : th.stage = 0 := by simp [stage, hphase, hlist]
          obtain ⟨_, _, hcases⟩ := processHead_lists pb srv th sDbCommand rest input
          rw [hhead, hsetback]
          rcases hcases with ⟨hphase', _, hfinished'⟩ | ⟨hphase', _, hfinished'⟩
          · have hstage' : (th.processHead pb srv sDbCommand rest input).1.stage = 4 := by
              simp [stage, hphase']
            simp [hfinished', hstage', hphase']
          · have hstage' := (th.processHead pb srv sDbCommand rest input).1.stage_le
            rw [hfinished', List.length_append, List.length_singleton]
            omega
  | requeue => simp [advance, hphase, stage]
  | check =>
      have hnext := hqueue (by simp [hphase]) (by simp [hphase])
      simp [advance, hphase, hnext, stage]
  | leaving => exact absurd (.inl hphase) hstaying
  | closed => exact absurd (.inr hphase) hstaying

variable (th) in
/-- A push puts the end off by the five steps of its command. -/
theorem query_stepsToLeave (sDbCommand : SDbCommand) :
    (th.query sDbCommand).stepsToLeave ≤ th.stepsToLeave + 5 := by
  have hremaining : (th.query sDbCommand).remaining = th.remaining + 1 := by
    simp [remaining, query, Nat.add_assoc]
  have hstage : (th.query sDbCommand).stage = th.stage := rfl
  have hle := th.stage_le
  have hphase : (th.query sDbCommand).phase = th.phase := rfl
  simp only [stepsToLeave, hremaining, hstage, hphase, Nat.add_one_ne_zero, if_false]
  split
  · omega
  · omega
  all_goals split <;> omega

variable (pb srv) in
/-- **A step of a worker that quits** brings its end nearer, unless it is a setback. -/
theorem advance_stepsToLeave (h : Tracks f th q) (hquit : th.m_quit = true)
    (hopen : th.phase ≠ .closed) (input : Input) :
    (th.advance pb srv input).1.stepsToLeave + 1 ≤
      th.stepsToLeave + 5 * (th.isSetback pb srv input).toNat := by
  cases hphase : th.phase with
  | top =>
      cases hconnect : th.store.m_dbConnection.isConnect with
      | true =>
          have hnext : (th.advance pb srv input).1.stepsToLeave =
              if th.remaining = 0 then 3 else 5 * th.remaining := by
            simp [advance, hphase, hconnect, stepsToLeave, remaining]
          rw [hnext, stepsToLeave, hphase]
          dsimp only
          split_ifs <;> omega
      | false => simp [advance, hphase, hconnect, stepsToLeave, remaining, isSetback]
  | waiting =>
      have hlist := h.idle_list (by simp [hphase]) (by simp [hphase])
      cases hqueue : th.m_listCommand with
      | nil => simp [advance, hphase, hqueue, stepsToLeave, remaining, hlist]
      | cons sDbCommand rest =>
          have hbefore : th.stepsToLeave = 5 * (rest.length + 1) := by
            simp [stepsToLeave, hphase, remaining, hlist, hqueue]
          have hnext : (th.advance pb srv input).1.stepsToLeave = 5 * (rest.length + 1) - 1 := by
            simp [advance, hphase, hqueue, stepsToLeave, remaining, stage]
          omega
  | batch =>
      cases hlist : th.listCommand with
      | nil =>
          simp only [advance, hphase, hlist, stepsToLeave, remaining, stage, List.isEmpty_nil,
            if_true]
          split_ifs <;> omega
      | cons sDbCommand rest =>
          have hhead : (th.advance pb srv input).1 =
              (th.processHead pb srv sDbCommand rest input).1 := by
            simp [advance, hphase, hlist]
          have hsetback : th.isSetback pb srv input =
              ((th.processHead pb srv sDbCommand rest input).1.phase == .requeue) := by
            simp [isSetback, hphase, hhead]
          have hbefore : th.stepsToLeave = 5 * (rest.length + 1 + th.m_listCommand.length) - 1 := by
            simp only [stepsToLeave, hphase, remaining, hlist, stage]
            simp
          obtain ⟨hqueue, _, hcases⟩ := processHead_lists pb srv th sDbCommand rest input
          rw [hhead, hsetback, hbefore]
          rcases hcases with ⟨hphase', hlist', _⟩ | ⟨hphase', hlist', _⟩
          · simp only [stepsToLeave, hphase', remaining, hlist', hlist, hqueue, stage,
              List.length_cons, BEq.rfl, Bool.toNat_true]
            split_ifs <;> omega
          · have hstage := (th.processHead pb srv sDbCommand rest input).1.stage_le
            simp only [stepsToLeave, hphase', hphase, remaining, hlist', hqueue]
            split_ifs <;> omega
  | requeue =>
      simp only [advance, hphase, stepsToLeave, remaining, stage, List.length_append,
        List.length_nil]
      split_ifs <;> omega
  | check =>
      have hlist := h.idle_list (by simp [hphase]) (by simp [hphase])
      cases hqueue : th.m_listCommand with
      | nil => simp [advance, hphase, hquit, hqueue, stepsToLeave, remaining, hlist]
      | cons sDbCommand rest =>
          simp [advance, hphase, hquit, hqueue, stepsToLeave, remaining, hlist]
  | leaving => simp [advance, hphase, stepsToLeave]
  | closed => exact absurd hphase hopen

end Lists

end CDbThread

/-- A step of the thread of worker `i`. -/
def MgrAction.isStepOf {n : Nat} (i : Fin n) : MgrAction n → Bool
  | .advance j _ => j == i
  | _ => false

namespace CDbThreadMgr

variable {n : Nat} {σ : Type} (pb : Runtime) (srv : Fin n → Server σ)

/-- The step is one of worker `i` that sets it back. -/
def isSetback (i : Fin n) (mgr : CDbThreadMgr n σ) : MgrAction n → Bool
  | .advance j input => j == i && (mgr.m_vecDbThread i).isSetback pb (srv i) input
  | _ => false

/-- The setbacks of worker `i` in a run. -/
def setbacks (i : Fin n) (mgr : CDbThreadMgr n σ) (actions : List (MgrAction n)) : Nat :=
  Runs.total (step pb srv) (fun mgr action => (mgr.isSetback pb srv i action).toNat) mgr actions

section Steps

variable {pb srv} {mgr : CDbThreadMgr n σ} {i : Fin n} {nCount : Nat}

/-- A step of the instance is one of the worker's thread or leaves that thread where it is. -/
theorem step_own (mgr : CDbThreadMgr n σ) (action : MgrAction n) (i : Fin n) :
    (∃ input, action = .advance i input ∧ (mgr.step pb srv action).1.m_vecDbThread i =
        ((mgr.m_vecDbThread i).advance pb (srv i) input).1) ∨
      (action.isStepOf i = false ∧
        ((mgr.step pb srv action).1.m_vecDbThread i = mgr.m_vecDbThread i ∨
          (∃ sDbCommand, (mgr.step pb srv action).1.m_vecDbThread i =
            (mgr.m_vecDbThread i).query sDbCommand) ∨
          action = .join i ∧
            (mgr.step pb srv action).1.m_vecDbThread i = (mgr.m_vecDbThread i).join)) := by
  by_cases hown : action.isStepOf i = true
  · left
    cases action with
    | advance j input =>
        obtain rfl : j = i := by simpa [MgrAction.isStepOf] using hown
        refine ⟨input, rfl, ?_⟩
        simp only [step, (advance_parts pb srv mgr j input).1, Function.update_self]
    | query | flushCache | push | join | getResultInfo => simp [MgrAction.isStepOf] at hown
  · right
    refine ⟨by simpa using hown, ?_⟩
    have hmoves := step_worker pb srv mgr action i
    generalize (mgr.step pb srv action).1.m_vecDbThread i = th at hmoves
    cases hmoves with
    | same => exact .inl rfl
    | pushed p => exact .inr (.inl ⟨p.call.sDbCommand, rfl⟩)
    | joined haction => exact .inr (.inr ⟨haction, rfl⟩)
    | advanced input haction => simp [haction, MgrAction.isStepOf] at hown

/-- What is finished stays finished. -/
theorem step_finished (h : Ordered mgr) (action : MgrAction n) :
    (mgr.m_vecDbThread i).finished <+: ((mgr.step pb srv action).1.m_vecDbThread i).finished := by
  rcases step_own mgr action i with ⟨input, _, hnext⟩ | ⟨_, hnext | ⟨_, hnext⟩ | ⟨_, hnext⟩⟩
  · obtain ⟨q, htracks, _⟩ := h.workers i
    obtain ⟨q', htracks', _, hfinished, _⟩ :=
      CDbThread.advance_tracks pb (srv i) htracks input
    rw [hnext, htracks.finished, htracks'.finished]
    exact hfinished.map _
  · exact hnext ▸ List.prefix_rfl
  · exact hnext ▸ List.prefix_rfl
  · exact hnext ▸ List.prefix_rfl

/-- **A step of the instance** brings the next command of the worker nearer if it is one of the
worker and no setback, and puts it off only if it is a setback. -/
theorem step_nearer (h : Ordered mgr) {before : List SDbCommand} (hdrains : Drains i before mgr)
    (hunfinished : ¬ before <+: (mgr.m_vecDbThread i).finished) (action : MgrAction n) :
    5 * (before.length - ((mgr.step pb srv action).1.m_vecDbThread i).finished.length) +
        ((mgr.step pb srv action).1.m_vecDbThread i).stage + (action.isStepOf i).toNat ≤
      5 * (before.length - (mgr.m_vecDbThread i).finished.length) +
        (mgr.m_vecDbThread i).stage + 5 * (mgr.isSetback pb srv i action).toNat := by
  rcases step_own mgr action i with ⟨input, rfl, hnext⟩ | ⟨hown, hnext⟩
  · obtain ⟨q, htracks, _⟩ := h.workers i
    have hnearer := CDbThread.advance_nearer pb (srv i) htracks hdrains.1
      hunfinished (fun hleft => hunfinished (hdrains.2 hleft)) input
    rw [hnext]
    simpa [MgrAction.isStepOf, isSetback] using hnearer
  · rw [hown]
    rcases hnext with hnext | ⟨sDbCommand, hnext⟩ | ⟨_, hnext⟩
    all_goals
      rw [hnext]
      exact Nat.le_add_right _ _

theorem step_quit (h : (mgr.m_vecDbThread i).m_quit = true) (action : MgrAction n) :
    ((mgr.step pb srv action).1.m_vecDbThread i).m_quit = true := by
  rcases step_own mgr action i with ⟨input, _, hnext⟩ | ⟨_, hnext | ⟨_, hnext⟩ | ⟨_, hnext⟩⟩
  all_goals rw [hnext]
  · rw [(CDbThread.advance_keeps pb (srv i) _ input).1, h]
  · exact h
  · exact h
  · rfl

theorem step_closed (h : (mgr.m_vecDbThread i).phase = .closed) (action : MgrAction n) :
    ((mgr.step pb srv action).1.m_vecDbThread i).phase = .closed := by
  rcases step_own mgr action i with ⟨input, _, hnext⟩ | ⟨_, hnext | ⟨_, hnext⟩ | ⟨_, hnext⟩⟩
  all_goals rw [hnext]
  · simp [CDbThread.advance, h]
  · exact h
  · exact h
  · exact h

variable (pb srv) in
theorem step_pushed (mgr : CDbThreadMgr n σ) (action : MgrAction n) (i : Fin n) :
    (mgr.m_vecDbThread i).pushed.length ≤
      ((mgr.step pb srv action).1.m_vecDbThread i).pushed.length := by
  rcases step_own mgr action i with ⟨input, _, hnext⟩ | ⟨_, hnext | ⟨_, hnext⟩ | ⟨_, hnext⟩⟩
  all_goals rw [hnext]
  · rw [(CDbThread.advance_keeps pb (srv i) _ input).2]
  · simp [CDbThread.query]
  · rfl

/-- **A step of the instance** brings the end of a worker that quits nearer if it is one of the
worker and no setback, and puts it off only if it is a setback or a push. -/
theorem step_stepsToLeave (h : Ordered mgr) (hquit : (mgr.m_vecDbThread i).m_quit = true)
    (hopen : (mgr.m_vecDbThread i).phase ≠ .closed) (action : MgrAction n) :
    ((mgr.step pb srv action).1.m_vecDbThread i).stepsToLeave + (action.isStepOf i).toNat ≤
      (mgr.m_vecDbThread i).stepsToLeave + (5 * (mgr.isSetback pb srv i action).toNat +
        5 * (((mgr.step pb srv action).1.m_vecDbThread i).pushed.length -
          (mgr.m_vecDbThread i).pushed.length)) := by
  rcases step_own mgr action i with ⟨input, rfl, hnext⟩ | ⟨hown, hnext⟩
  · obtain ⟨q, htracks, _⟩ := h.workers i
    have hnearer := CDbThread.advance_stepsToLeave pb (srv i) htracks hquit hopen
      input
    rw [hnext, (CDbThread.advance_keeps pb (srv i) _ input).2]
    simpa [MgrAction.isStepOf, isSetback] using hnearer
  · rw [hown]
    rcases hnext with hnext | ⟨sDbCommand, hnext⟩ | ⟨_, hnext⟩
    all_goals rw [hnext]
    · exact Nat.le_add_right _ _
    · have hpush := CDbThread.query_stepsToLeave (mgr.m_vecDbThread i) sDbCommand
      simp only [CDbThread.query, List.length_append, List.length_singleton] at hpush ⊢
      simp
      omega
    · exact Nat.le_add_right _ _

end Steps

/-- **What a worker was given it finishes in time.** -/
theorem Ordered.finished_in_time {mgr : CDbThreadMgr n σ} (h : Ordered mgr) {i : Fin n}
    (hstaying : ¬ (mgr.m_vecDbThread i).HasLeft) {actions : List (MgrAction n)}
    (hsteps : 5 * (mgr.m_vecDbThread i).remaining + 4 + 5 * mgr.setbacks pb srv i actions <
      actions.countP (MgrAction.isStepOf i)) :
    (mgr.m_vecDbThread i).pushed <+:
      ((Runs.run (step pb srv) mgr actions).m_vecDbThread i).finished := by
  let given := (mgr.m_vecDbThread i).pushed
  by_contra hunfinished
  have hgain := Runs.total_gain_le (fun mgr => Ordered mgr ∧ Drains i given mgr)
    (fun mgr => given <+: (mgr.m_vecDbThread i).finished)
    (fun mgr => 5 * (given.length - (mgr.m_vecDbThread i).finished.length) +
      (mgr.m_vecDbThread i).stage)
    (fun mgr action h => ⟨step_ordered h.1 action, step_drains h.1 h.2 action⟩)
    (fun mgr action h hdone => hdone.trans (step_finished h.1 action))
    (fun mgr action h hnot => step_nearer h.1 h.2 hnot action)
    ⟨h, List.prefix_rfl, fun hleft => absurd hleft hstaying⟩ hunfinished
  rw [Runs.total_countP, Runs.total_mul] at hgain
  change _ ≤ _ + 5 * mgr.setbacks pb srv i actions at hgain
  have hgiven : given.length = (mgr.m_vecDbThread i).pushed.length := rfl
  obtain ⟨q, htracks, _⟩ := h.workers i
  have hremaining := htracks.remaining
  have hstage := (mgr.m_vecDbThread i).stage_le
  omega

/-- **What a worker was given it finishes in a bounded number of its own steps:** five for each
command and each setback, and four more, whatever else happens meanwhile. -/
theorem commands_finish_in_time (nMaxCacheSize nWritebackTime : Nat)
    (conn : Fin n → CDbConnection σ) (i : Fin n) (before after : List (MgrAction n)) :
    let mgr := Runs.run (step pb srv) (init nMaxCacheSize nWritebackTime conn) before
    ¬ (mgr.m_vecDbThread i).HasLeft →
    5 * (mgr.m_vecDbThread i).remaining + 4 + 5 * mgr.setbacks pb srv i after <
      after.countP (MgrAction.isStepOf i) →
    (mgr.m_vecDbThread i).pushed <+:
      ((Runs.run (step pb srv) mgr after).m_vecDbThread i).finished := by
  intro mgr hstaying hsteps
  exact (run_ordered pb srv nMaxCacheSize nWritebackTime conn before).finished_in_time pb srv
    hstaying hsteps

/-- Two workers without a connection, and the flush of id 1 pushed to its worker. -/
def flushPushed : CDbThreadMgr 2 Unit :=
  Runs.run (step PlayerBase.runtime fun _ => Server.constant (.done 0 1))
    (init 0 1 fun _ => ⟨false, (), 0, []⟩) [.flushCache 0 1 0, .push 0]

/-- A number of steps of the second worker. -/
def ownSteps (nCount : Nat) : List (MgrAction 2) :=
  List.replicate nCount (.advance (Fin.last 1) ⟨⟨101, 101⟩, ⟨[], 0⟩, 7⟩)

/-- The flush is finished in fifteen steps, one of which connects. -/
theorem commands_finish_in_time_oneFlush :
    [(flushCache 1 0).2] <+: ((Runs.run
      (step PlayerBase.runtime fun _ => Server.constant (.done 0 1)) flushPushed
      (ownSteps 15)).m_vecDbThread 1).finished :=
  commands_finish_in_time PlayerBase.runtime (fun _ => Server.constant (.done 0 1)) 0 1
    (fun _ => ⟨false, (), 0, []⟩) 1 [.flushCache 0 1 0, .push 0] (ownSteps 15)
    (by unfold CDbThread.HasLeft; decide) (by decide)

/-- **A joined worker leaves in a bounded number of its own steps:** five for each command it is
given and each setback, and four more.  Then all that it was given before is finished. -/
theorem joined_worker_leaves (nMaxCacheSize nWritebackTime : Nat) (conn : Fin n → CDbConnection σ)
    (i : Fin n) (before after : List (MgrAction n)) :
    let atJoin := Runs.run (step pb srv) (init nMaxCacheSize nWritebackTime conn) before
    let atEnd := Runs.run (step pb srv) (atJoin.join i) after
    5 * ((atEnd.m_vecDbThread i).pushed.length - (atJoin.m_vecDbThread i).finished.length) + 4 +
        5 * (atJoin.join i).setbacks pb srv i after < after.countP (MgrAction.isStepOf i) →
      (atEnd.m_vecDbThread i).phase = .closed ∧
        (¬ (atJoin.m_vecDbThread i).HasLeft →
          (atJoin.m_vecDbThread i).pushed <+: (atEnd.m_vecDbThread i).finished) := by
  intro atJoin atEnd hsteps
  have hclosed : (atEnd.m_vecDbThread i).phase = .closed := by
    by_contra hopen
    have hordered : Ordered (atJoin.join i) :=
      join_ordered (run_ordered pb srv nMaxCacheSize nWritebackTime conn before) i
    have hquit : ((atJoin.join i).m_vecDbThread i).m_quit = true := by
      simp [join, CDbThread.join]
    have hgain := Runs.total_gain_le
      (fun mgr => Ordered mgr ∧ (mgr.m_vecDbThread i).m_quit = true)
      (fun mgr => (mgr.m_vecDbThread i).phase = .closed)
      (fun mgr => (mgr.m_vecDbThread i).stepsToLeave)
      (fun mgr action h => ⟨step_ordered h.1 action, step_quit h.2 action⟩)
      (fun mgr action _ hdone => step_closed hdone action)
      (fun mgr action h hnot => step_stepsToLeave h.1 h.2 hnot action)
      ⟨hordered, hquit⟩ hopen
    rw [Runs.total_countP, Runs.total_add, Runs.total_mul, Runs.total_mul] at hgain
    change _ ≤ _ + (5 * (atJoin.join i).setbacks pb srv i after +
      5 * Runs.total (step pb srv) _ _ after) at hgain
    have hpushes := Runs.total_growth (f := fun mgr => (mgr.m_vecDbThread i).pushed.length)
      (fun mgr action => step_pushed pb srv mgr action i) (s := atJoin.join i) after
    beta_reduce at hpushes
    obtain ⟨q, htracks, _⟩ := hordered.workers i
    have hremaining := htracks.remaining
    have hstart := ((atJoin.join i).m_vecDbThread i).stepsToLeave_le
    have hfinished : ((atJoin.join i).m_vecDbThread i).finished =
        (atJoin.m_vecDbThread i).finished := by
      simp [join, CDbThread.join]
    rw [hfinished] at hremaining
    change _ + _ = (atEnd.m_vecDbThread i).pushed.length at hpushes
    omega
  exact ⟨hclosed, fun hinside => finished_of_join nMaxCacheSize nWritebackTime conn i before after
    hinside (.inr hclosed)⟩

/-- So is the flush before a join, and the worker has left. -/
theorem joined_worker_leaves_oneFlush :
    let atEnd := Runs.run (step PlayerBase.runtime fun _ => Server.constant (.done 0 1))
      (flushPushed.join 1) (ownSteps 15)
    (atEnd.m_vecDbThread 1).phase = .closed ∧
      [(flushCache 1 0).2] <+: (atEnd.m_vecDbThread 1).finished :=
  have hleft := joined_worker_leaves PlayerBase.runtime (fun _ => Server.constant (.done 0 1)) 0 1
    (fun _ => ⟨false, (), 0, []⟩) 1 [.flushCache 0 1 0, .push 0] (ownSteps 15) (by decide)
  ⟨hleft.1, hleft.2 (by unfold CDbThread.HasLeft; decide)⟩

end CDbThreadMgr

end Db
