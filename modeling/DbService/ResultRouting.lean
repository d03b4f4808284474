import DbService.Runs
import DbService.DbThreadMgr
import DbService.PlayerBase

/-!
# Which requester a result goes to

Every result a worker adds is made from the command it just finished, in the same step, so
results and finished requests run in step.  What a result does not carry is the
`nServiceID` of the command: `makeResultInfo` leaves it to the stack.  `Routed` is what the
requesters rely on; a run has it in every state exactly when the stack happens to hold the
right number each time and no FLUSH asks for an answer.

* `step_routed_iff` -- one step;
* `results_routed_iff` -- whole runs, whatever the unassigned `nServiceID` holds;
* `results_not_always_routed` -- a result that goes to another service.
-/

namespace Db

open Reflection ByteText

namespace CDbThread

variable {σ : Type} (pb : Runtime) (srv : Server σ)

/-- A FLUSH is flushed, and only a FLUSH is. -/
theorem process_flushed (st : Store σ) (sDbCommand : SDbCommand) (clock : Clock) :
    (sDbCommand.nType = .kOT_FLUSH → (st.process pb srv sDbCommand clock).2.1 = .flushed) ∧
      ((st.process pb srv sDbCommand clock).2.1 = .flushed → sDbCommand.nType = .kOT_FLUSH) := by
  have hprocessed := Store.process_cases pb srv st sDbCommand clock
  generalize st.process pb srv sDbCommand clock = result at hprocessed
  cases hprocessed with
  | flush _ _ htype => exact ⟨fun _ => rfl, fun _ => htype⟩
  | flushNothing htype => exact ⟨fun _ => rfl, fun _ => htype⟩
  | expired htype => exact ⟨fun h => absurd h htype, fun h => nomatch h⟩
  | executed htype _ st' outcome hexecuted =>
      refine ⟨fun h => absurd h htype, fun h => ?_⟩
      cases hexecuted <;> cases h

/-- **What a step answers.**  It adds no result and no request is due one; or it finishes a
request and adds the result made from it; or it finishes a FLUSH without a result. -/
theorem advance_answer (th : CDbThread σ) (input : Input) :
    let output := (th.advance pb srv input).2
    (output.result = none ∧ output.answerDue = none) ∨
      (∃ sDbCommand nErrorCode pMessage, sDbCommand.nType ≠ .kOT_FLUSH ∧
        output.answerDue = some sDbCommand ∧
        output.result =
          some (makeResultInfo pb sDbCommand nErrorCode pMessage input.nStack)) ∨
      ∃ sDbCommand, sDbCommand.nType = .kOT_FLUSH ∧
        output.answerDue = some sDbCommand ∧ output.result = none := by
  have hhead : ∀ sDbCommand rest,
      let output := (th.processHead pb srv sDbCommand rest input).2
      (output.result = none ∧ output.answerDue = none) ∨
        (∃ sDbCommand nErrorCode pMessage, sDbCommand.nType ≠ .kOT_FLUSH ∧
          output.answerDue = some sDbCommand ∧
          output.result =
            some (makeResultInfo pb sDbCommand nErrorCode pMessage input.nStack)) ∨
        ∃ sDbCommand, sDbCommand.nType = .kOT_FLUSH ∧
          output.answerDue = some sDbCommand ∧ output.result = none := by
    intro sDbCommand rest
    obtain ⟨hflush, hflushed⟩ := process_flushed pb srv th.store sDbCommand input.clock
    unfold processHead
    rcases hprocess : th.store.process pb srv sDbCommand input.clock with
      ⟨store, outcome, writes⟩
    rw [hprocess] at hflush hflushed
    by_cases hsession : sDbCommand.nSessionID = 0
    · cases outcome <;> simp [hsession]
    · cases outcome with
      | lost => simp
      | expired => simp
      | flushed => exact .inr (.inr ⟨sDbCommand, hflushed rfl, by simp [hsession], rfl⟩)
      | handled nErrorCode pMessage =>
          have htype : sDbCommand.nType ≠ .kOT_FLUSH := fun h => by cases hflush h
          exact .inr (.inl ⟨sDbCommand, nErrorCode, pMessage, htype, by simp [hsession],
            by simp [hsession]⟩)
  unfold advance
  split
  · split <;> exact .inl ⟨rfl, rfl⟩
  · split <;> exact .inl ⟨rfl, rfl⟩
  · split
    · exact .inl ⟨rfl, rfl⟩
    · exact hhead _ _
  · exact .inl ⟨rfl, rfl⟩
  · split <;> exact .inl ⟨rfl, rfl⟩
  · exact .inl ⟨rfl, rfl⟩
  · exact .inl ⟨rfl, rfl⟩

end CDbThread

namespace CDbThreadMgr

variable {n : Nat} {σ : Type} (pb : Runtime) (srv : Fin n → Server σ)

/-- The pair a result is routed by, for the results of worker `i`. -/
def resultKeys (mgr : CDbThreadMgr n σ) (i : Fin n) : List (Nat × Nat) :=
  (mgr.added.filter fun result => result.1 = i).map fun result =>
    (result.2.nServiceID, result.2.pResponse.session_id)

/-- The pair of each request with a session that worker `i` finished without discarding
it. -/
def requestKeys (mgr : CDbThreadMgr n σ) (i : Fin n) : List (Nat × Nat) :=
  (mgr.answerDue.filter fun request => request.1 = i).map fun request =>
    (request.2.nServiceID, request.2.nSessionID)

/-- What was handed out or waits to be is what the workers added, and each worker added,
in order, exactly one result for each of its finished requests, under the pair of that
request. -/
structure Routed (mgr : CDbThreadMgr n σ) : Prop where
  handed : mgr.handed ++ mgr.m_listResultInfo = mgr.added.map Prod.snd
  answers : ∀ i, mgr.resultKeys i = mgr.requestKeys i

/-- The request that the step of worker `i` finishes is no FLUSH, and the stack holds its
service id. -/
def StackHoldsService (mgr : CDbThreadMgr n σ) : MgrAction n → Prop
  | .advance i input =>
      ∀ sDbCommand, ((mgr.m_vecDbThread i).advance pb (srv i) input).2.answerDue =
        some sDbCommand →
      sDbCommand.nType ≠ .kOT_FLUSH ∧ input.nStack = sDbCommand.nServiceID
  | _ => True

variable {mgr : CDbThreadMgr n σ}

/-- What `advance` appends to the two histories. -/
theorem advance_keys (mgr : CDbThreadMgr n σ) (i j : Fin n) (input : Input) :
    let output := ((mgr.m_vecDbThread i).advance pb (srv i) input).2
    (mgr.advance pb srv i input).resultKeys j = mgr.resultKeys j ++
        (if i = j then (output.result.map fun r =>
          (r.nServiceID, r.pResponse.session_id)).toList else []) ∧
      (mgr.advance pb srv i input).requestKeys j = mgr.requestKeys j ++
        (if i = j then (output.answerDue.map fun c =>
          (c.nServiceID, c.nSessionID)).toList else []) := by
  unfold advance resultKeys requestKeys
  rcases (mgr.m_vecDbThread i).advance pb (srv i) input with ⟨th, result, writes, due⟩
  by_cases heq : i = j
  · cases result <;> cases due <;> simp [addResultInfo, heq]
  · cases result <;> cases due <;> simp [addResultInfo, heq]

theorem advance_handed (h : mgr.handed ++ mgr.m_listResultInfo = mgr.added.map Prod.snd)
    (i : Fin n) (input : Input) :
    (mgr.advance pb srv i input).handed ++ (mgr.advance pb srv i input).m_listResultInfo =
      (mgr.advance pb srv i input).added.map Prod.snd := by
  unfold advance
  rcases (mgr.m_vecDbThread i).advance pb (srv i) input with ⟨th, result, writes, due⟩
  cases result with
  | none => exact h
  | some sResultInfo => simp [addResultInfo, ← h]

/-- **The exact step condition.**  From a routed state a step leads to a routed state if
and only if the request it finishes, if any, is no FLUSH and finds its own service id on
the stack. -/
theorem step_routed_iff (h : Routed mgr) (action : MgrAction n) :
    Routed (mgr.step pb srv action).1 ↔ StackHoldsService pb srv mgr action := by
  have hsubmit : ∀ call, Routed (mgr.submit call) := by
    intro call
    unfold submit
    split
    · exact ⟨h.handed, h.answers⟩
    · exact h
  cases action with
  | query caller nServiceID pRequest nTime =>
      refine iff_of_true ?_ trivial
      simp only [step]
      cases Db.query pb nServiceID pRequest nTime with
      | none => exact h
      | some command => exact hsubmit _
  | flushCache caller nID nStack => exact iff_of_true (hsubmit _) trivial
  | push caller =>
      refine iff_of_true ?_ trivial
      simp only [step, push]
      split
      · exact h
      · exact ⟨h.handed, h.answers⟩
  | join i => exact iff_of_true ⟨h.handed, h.answers⟩ trivial
  | getResultInfo =>
      refine iff_of_true ⟨?_, h.answers⟩ trivial
      simpa [step, getResultInfo] using h.handed
  | advance i input =>
      have hiff : Routed (mgr.advance pb srv i input) ↔
          (mgr.advance pb srv i input).resultKeys i =
            (mgr.advance pb srv i input).requestKeys i := by
        refine ⟨fun hrouted => hrouted.answers i, fun hkeys => ⟨?_, ?_⟩⟩
        · exact advance_handed pb srv h.handed i input
        · intro j
          by_cases heq : i = j
          · exact heq ▸ hkeys
          · obtain ⟨hresult, hrequest⟩ := advance_keys pb srv mgr i j input
            rw [hresult, hrequest, h.answers j]
            simp [heq]
      obtain ⟨hresult, hrequest⟩ := advance_keys pb srv mgr i i input
      simp only [step, StackHoldsService]
      rw [hiff, hresult, hrequest, h.answers i, List.append_cancel_left_eq]
      rcases CDbThread.advance_answer pb (srv i) (mgr.m_vecDbThread i) input with
        ⟨hres, hdue⟩ | ⟨cmd, nErrorCode, pMessage, htype, hdue, hres⟩ | ⟨cmd, htype, hdue, hres⟩
      · simp [hres, hdue]
      · simp [hres, hdue, makeResultInfo, htype]
      · simp [hres, hdue, htype]

theorem init_routed (nMaxCacheSize nWritebackTime : Nat) (conn : Fin n → CDbConnection σ) :
    Routed (init nMaxCacheSize nWritebackTime conn) :=
  ⟨rfl, fun _ => rfl⟩

end CDbThreadMgr

/-- **Routing of the results, exactly.**  In a run of an instance, every state is routed if
and only if every request with a session that a worker finishes without discarding it is
no FLUSH and finds its service id in the unassigned `nServiceID`. -/
theorem results_routed_iff {n : Nat} {σ : Type} (pb : Runtime) (srv : Fin n → Server σ)
    (nMaxCacheSize nWritebackTime : Nat) (conn : Fin n → CDbConnection σ)
    (actions : List (MgrAction n)) :
    Runs.Always (CDbThreadMgr.step pb srv) CDbThreadMgr.Routed
        (CDbThreadMgr.init nMaxCacheSize nWritebackTime conn) actions ↔
      Runs.Guarded (CDbThreadMgr.step pb srv) (CDbThreadMgr.StackHoldsService pb srv)
        (CDbThreadMgr.init nMaxCacheSize nWritebackTime conn) actions :=
  Runs.always_iff_guarded CDbThreadMgr.Routed (fun _ => True) (fun _ _ _ => trivial)
    (fun _ action _ h => CDbThreadMgr.step_routed_iff pb srv h action) trivial
    (CDbThreadMgr.init_routed nMaxCacheSize nWritebackTime conn) actions

/-- A service with id 7 sends one nop with session 1, and the stack holds 0. -/
def oneNop : List (MgrAction 1) :=
  let input : Input := ⟨⟨1, 1⟩, ⟨[], 0⟩, 0⟩
  [.query 0 7
    { session_id := some 1
      associate_id := some 0
      type := some .kOT_NOP
      timeout := none
      content := some (packFrom PlayerBase.runtime .nop_command) } 1,
    .push 0, .advance 0 input, .advance 0 input, .advance 0 input]

/-- The result of that nop goes to service 0: the results are not always routed. -/
theorem results_not_always_routed :
    ¬ ∀ (n : Nat) (σ : Type) (pb : Runtime) (srv : Fin n → Server σ)
        (nMaxCacheSize nWritebackTime : Nat) (conn : Fin n → CDbConnection σ)
        (actions : List (MgrAction n)),
      Runs.Always (CDbThreadMgr.step pb srv) CDbThreadMgr.Routed
        (CDbThreadMgr.init nMaxCacheSize nWritebackTime conn) actions := by
  intro h
  have hlast := (h 1 Unit PlayerBase.runtime (fun _ => Server.constant (.done 0 1)) 0 1
    (fun _ => ⟨true, (), 0, []⟩) oneNop).last
  have hkeys : [(0, 1)] = [(7, 1)] := hlast.answers 0
  exact absurd hkeys (by decide)

end Db
