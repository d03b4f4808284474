import DbService.AnswerOrigins
import DbService.SharedDatabase

/-!
# What the clients of a shared database see

The service in the process of its clients, with its workers on one database.  Caches, batches and
the order in which the workers get on are invisible to the clients: a SELECT is answered as if the
requests had been run one after another, in the order in which they were made, on one table in
memory (`answers_of_one_table`).

* `step_observes` -- every step keeps what the client sees and what the service does together;
* `discarded_of_history` -- what has no answer in the history was discarded, or is a FLUSH;
* `answers_of_one_table` -- each SELECT is answered by the earlier requests in their order.
-/

namespace Db

open Reflection ByteText CDbCacheMgr

namespace CMyDbProxy

variable {n : Nat} {σ : Type} {pb : Runtime} {generated_pool : String → Option Descriptor}
  {srv : Fin n → Server σ} {my : CMyDbProxy n σ}

/-- The process with its workers' connections leading to a server in another state. -/
def withServer (my : CMyDbProxy n σ) (server : σ) : CMyDbProxy n σ :=
  { my with mgr := my.mgr.withServer server }

/-- The books of both sides do not look at the database. -/
theorem Reads.withServer (h : my.Reads pb generated_pool) (server : σ) :
    (my.withServer server).Reads pb generated_pool where
  toLedger :=
    { toTickets :=
        { numbered := h.numbered
          ordered := h.ordered.withServer server
          caller := h.caller
          increasing := h.increasing
          drawn := h.drawn
          single := h.single
          handed := h.handed
          added := h.added
          answers := h.answers
          callbacks := h.callbacks }
      books := h.books
      linked := h.linked
      answered := h.answered
      settled := h.settled
      timed := h.timed }
  read := h.read

end CMyDbProxy

/-! ## Clients and service -/

/-- The service in the process of its clients, with its workers on one database. -/
structure SharedMyDb (n : Nat) (σ : Type) where
  my : CMyDbProxy n σ
  history : List (Fin n × SDbCommand × Answer)

namespace SharedMyDb

variable {n : Nat} {σ : Type} (pb : Runtime) (generated_pool : String → Option Descriptor)
  (srv : Server σ)

/-- The service alone. -/
def shared (s : SharedMyDb n σ) : SharedDb n σ := ⟨s.my.mgr, s.history⟩

/-- A proxy without requests, and workers without a history. -/
def init (nMaxCacheSize nWritebackTime : Nat) (server : σ) : SharedMyDb n σ where
  my := CMyDbProxy.init nMaxCacheSize nWritebackTime fun _ => ⟨true, server, 0, []⟩
  history := []

/-- A step of a worker leaves the database in a state that the others find. -/
def step (s : SharedMyDb n σ) : MyAction n → SharedMyDb n σ × Unit
  | .advance i input =>
      let db := (s.shared.step pb srv (.advance i input)).1
      ({ my := { s.my with mgr := db.mgr }, history := db.history }, ())
  | action => ({ s with my := (s.my.step pb generated_pool (fun _ => srv) action).1 }, ())

/-- Messages come through, and the workers' steps are orderly. -/
def Orderly (tables : Tables) (rows : σ → Rows) (s : SharedMyDb n σ) : MyAction n → Prop
  | .request action _ => ∀ pMessage, action.pMessage = some pMessage → pb.Carries pMessage
  | .advance i input => (s.my.mgr.m_vecDbThread i).Orderly pb tables rows input
  | _ => True

variable {pb generated_pool srv} {tables : Tables} {rows : σ → Rows} {initial : Rows}
  {s : SharedMyDb n σ}

variable (pb generated_pool) in
/-- What a step is to the service alone. -/
def serviceAction (s : SharedMyDb n σ) : MyAction n → Option (MgrAction n)
  | .request action nTime =>
      if action.env.isSome && s.my.isFree then
        (s.my.proxy.step (pb.withPool generated_pool) action).2.map fun pRequest =>
          .query 0 0 pRequest nTime
      else none
  | .push => some (.push 0)
  | .advance i input => some (.advance i input)
  | .getResultInfo => if s.my.isBetween then some .getResultInfo else none
  | _ => none

/-- What is orderly for the process is so for the service in it. -/
theorem orderly_serviceAction {action : MyAction n} (h : s.Orderly pb tables rows action)
    {action' : MgrAction n} (hservice : s.serviceAction pb generated_pool action = some action') :
    s.shared.Orderly pb tables rows generated_pool action' := by
  cases action with
  | request action nTime =>
      simp only [serviceAction] at hservice
      split at hservice
      · obtain ⟨pRequest, hsent, rfl⟩ := Option.map_eq_some_iff.mp hservice
        exact ⟨s.my.proxy, action, hsent, h⟩
      · cases hservice
  | push =>
      obtain rfl := Option.some.inj hservice
      trivial
  | advance i input =>
      obtain rfl := Option.some.inj hservice
      exact h
  | getResultInfo =>
      simp only [serviceAction] at hservice
      split at hservice
      · obtain rfl := Option.some.inj hservice
        trivial
      · cases hservice
  | nextResult | onTimer | timerNext | removeClient => cases hservice

variable (pb generated_pool srv) in
/-- **The service makes this step,** or none. -/
theorem shared_step (s : SharedMyDb n σ) (action : MyAction n) :
    (s.step pb generated_pool srv action).1.shared =
      match s.serviceAction pb generated_pool action with
      | none => s.shared
      | some action' => (s.shared.step pb srv action').1 := by
  cases action with
  | request action nTime =>
      simp only [step, CMyDbProxy.step, CMyDbProxy.act, serviceAction]
      cases action.env.isSome <;> cases s.my.isFree <;> try rfl
      cases (s.my.proxy.step (pb.withPool generated_pool) action).2 <;> rfl
  | push => rfl
  | advance i input => rfl
  | getResultInfo =>
      simp only [step, CMyDbProxy.step, serviceAction]
      split <;> rfl
  | nextResult =>
      simp only [step, CMyDbProxy.step, serviceAction]
      split
      · rfl
      · split <;> rfl
  | onTimer nCurTime =>
      simp only [step, CMyDbProxy.step, CMyDbProxy.act, serviceAction]
      split
      · split <;> rfl
      · rfl
  | timerNext =>
      simp only [step, CMyDbProxy.step, CMyDbProxy.act, serviceAction]
      split <;> rfl
  | removeClient pDbClient =>
      simp only [step, CMyDbProxy.step, serviceAction]
      split <;> rfl

variable (pb generated_pool srv) in
/-- Clients and service make the step they make without a shared database, then the others find
the database changed. -/
theorem step_my (s : SharedMyDb n σ) (action : MyAction n) :
    (s.step pb generated_pool srv action).1.my =
        (s.my.step pb generated_pool (fun _ => srv) action).1 ∨
      ∃ server, (s.step pb generated_pool srv action).1.my =
        (s.my.step pb generated_pool (fun _ => srv) action).1.withServer server := by
  cases action with
  | advance i input => exact .inr ⟨_, rfl⟩
  | _ => exact .inl rfl

/-! ## What an answer is made from -/

/-- The history has the command that a worker handles. -/
theorem finishing_of_handles {my : CMyDbProxy n σ} {i : Fin n} {input : Input}
    {sDbCommand : SDbCommand} {nErrorCode : EResultCode} {pMessage : Option Message}
    (h : my.Handles pb (fun _ => srv) i input sDbCommand nErrorCode pMessage) :
    (my.mgr.m_vecDbThread i).finishing pb srv input =
      [(sDbCommand, some (nErrorCode, pMessage))] := by
  obtain ⟨rest, hhead⟩ := h.head
  simp only [CDbThread.finishing, h.batch, hhead, h.outcome]

variable (pb generated_pool srv) in
/-- A step adds to the history. -/
theorem step_history (s : SharedMyDb n σ) (action : MyAction n) :
    s.history <+: (s.step pb generated_pool srv action).1.history := by
  cases action with
  | advance i input => exact List.prefix_append _ _
  | _ => exact List.prefix_rfl

variable (pb) in
/-- The result was made from a command that its worker finished. -/
def Made (s : SharedMyDb n σ) (result : Fin n × SDbResultInfo) : Prop :=
  ∃ sDbCommand nErrorCode pMessage nStack,
    (result.1, sDbCommand, some (nErrorCode, pMessage)) ∈ s.history ∧
      result.2 = makeResultInfo pb sDbCommand nErrorCode pMessage nStack

variable (pb generated_pool tables rows) in
/-- **The books, the results and the table.** -/
structure Observes (initial : Rows) (s : SharedMyDb n σ) : Prop where
  serves : s.shared.ServesTable pb tables rows initial
  reads : s.my.Reads pb generated_pool
  results : ∀ result ∈ s.my.mgr.added, s.Made pb result

/-- At first nothing was read that could differ from the table. -/
theorem init_observes {nMaxCacheSize : Nat} (hlimit : 0 < toInt64 (nMaxCacheSize / n))
    (nWritebackTime : Nat) (server : σ) :
    (init nMaxCacheSize nWritebackTime server : SharedMyDb n σ).Observes pb generated_pool tables
      rows (rows server) where
  serves := SharedDb.init_servesTable hlimit nWritebackTime server
  reads := CMyDbProxy.init_reads
  results := by simp [init, CMyDbProxy.init, CDbThreadMgr.init]

/-- What only the last state of a run is known to meet: session ids are left and no statement has
failed. -/
def Healthy (s : SharedMyDb n σ) : Prop :=
  s.my.proxy.sessionCount < 2 ^ 64 ∧ s.shared.Succeeded

/-- **Every step** keeps the books and the table in agreement: a request or a tick of the proxy
leaves the stores as they are, and a step of a worker adds to the history the reading that the
client's result is made of. -/
theorem step_observes (hpb : pb.Lawful) (hsrv : srv.Keeps pb tables rows)
    (h : s.Observes pb generated_pool tables rows initial) {action : MyAction n}
    (horderly : s.Orderly pb tables rows action)
    (hhealthy : (s.step pb generated_pool srv action).1.Healthy) :
    (s.step pb generated_pool srv action).1.Observes pb generated_pool tables rows initial := by
  obtain ⟨hcount, hsucceeded⟩ := hhealthy
  have hmy := step_my pb generated_pool srv s action
  refine ⟨?_, ?_, ?_⟩
  · have hshared := shared_step pb generated_pool srv s action
    cases hservice : s.serviceAction pb generated_pool action with
    | none =>
        simp only [hservice] at hshared
        exact hshared ▸ h.serves
    | some action' =>
        simp only [hservice] at hshared
        rw [hshared] at hsucceeded ⊢
        exact SharedDb.step_servesTable hpb hsrv h.serves
          (orderly_serviceAction horderly hservice) hsucceeded
  · rcases hmy with hsame | ⟨server, hsame⟩
    · rw [hsame] at hcount ⊢
      exact CMyDbProxy.step_reads h.reads action hcount
    · rw [hsame] at hcount ⊢
      exact (CMyDbProxy.step_reads h.reads action hcount).withServer server
  · have hhistory := (step_history pb generated_pool srv s action).subset
    have hold : ∀ result ∈ s.my.mgr.added, (s.step pb generated_pool srv action).1.Made pb
        result := by
      intro result hin
      obtain ⟨sDbCommand, nErrorCode, pMessage, nStack, hfinished, hmade⟩ := h.results result hin
      exact ⟨sDbCommand, nErrorCode, pMessage, nStack, hhistory hfinished, hmade⟩
    have hadded : (s.step pb generated_pool srv action).1.my.mgr.added =
        (s.my.step pb generated_pool (fun _ => srv) action).1.mgr.added := by
      rcases hmy with hsame | ⟨server, hsame⟩
      · rw [hsame]
      · rw [hsame]
        rfl
    intro result hin
    rw [hadded] at hin
    rcases CMyDbProxy.step_added pb generated_pool (fun _ => srv) s.my action with
      hsame | ⟨i, input, sDbCommand, nErrorCode, pMessage, rfl, hhandles, _, hnew⟩
    · exact hold result (hsame ▸ hin)
    · rw [hnew] at hin
      rcases List.mem_append.mp hin with hbefore | hlast
      · exact hold result hbefore
      · rw [List.mem_singleton.mp hlast]
        refine ⟨sDbCommand, nErrorCode, pMessage, input.nStack, ?_, rfl⟩
        have hnow : (s.step pb generated_pool srv (.advance i input)).1.history = s.history ++
            ((s.my.mgr.m_vecDbThread i).finishing pb srv input).map fun op => (i, op) := rfl
        simp [hnow, finishing_of_handles hhandles]

/-- What a worker finishes without an answer is a FLUSH, or discarded. -/
theorem discards_of_finishing {th : CDbThread σ} {input : Input} {sDbCommand : SDbCommand}
    (h : (sDbCommand, none) ∈ th.finishing pb srv input) :
    sDbCommand.nType = .kOT_FLUSH ∨ th.Discards input sDbCommand := by
  unfold CDbThread.finishing at h
  split at h
  · rename_i cmd rest hphase hlist
    obtain ⟨hflushed, hexpired⟩ := CDbThread.process_dropped pb srv th.store cmd input.clock
    generalize (th.store.process pb srv cmd input.clock).2.1 = outcome at h hflushed hexpired
    cases outcome with
    | handled nErrorCode pMessage => simp at h
    | lost => cases h
    | flushed =>
        obtain rfl : sDbCommand = cmd := by simpa using h
        exact .inl (hflushed rfl)
    | expired =>
        obtain rfl : sDbCommand = cmd := by simpa using h
        exact .inr ⟨hphase, ⟨rest, hlist⟩, hexpired rfl⟩
  · cases h

variable (pb generated_pool srv) in
/-- The command was discarded as expired in a step of the run from this state. -/
def Discarded (s : SharedMyDb n σ) (actions : List (MyAction n)) (sDbCommand : SDbCommand) :
    Prop :=
  ∃ earlier i input later, actions = earlier ++ .advance i input :: later ∧
    ((Runs.run (step pb generated_pool srv) s earlier).my.mgr.m_vecDbThread i).Discards input
      sDbCommand

/-- **Over whole runs:** what is in the history without an answer is a FLUSH, or was discarded. -/
theorem discarded_of_history {nMaxCacheSize nWritebackTime : Nat} {server : σ}
    (actions : List (MyAction n)) {i : Fin n} {sDbCommand : SDbCommand}
    (h : (i, sDbCommand, none) ∈ (Runs.run (step pb generated_pool srv)
      (init nMaxCacheSize nWritebackTime server) actions).history) :
    sDbCommand.nType = .kOT_FLUSH ∨ Discarded pb generated_pool srv
      (init nMaxCacheSize nWritebackTime server) actions sDbCommand := by
  induction actions using List.reverseRecOn with
  | nil => cases h
  | append_singleton actions action ih =>
      have hsnoc : Runs.run (step pb generated_pool srv)
          (init nMaxCacheSize nWritebackTime server) (actions ++ [action]) =
          ((Runs.run (step pb generated_pool srv) (init nMaxCacheSize nWritebackTime server)
            actions).step pb generated_pool srv action).1 := by
        simp only [Runs.run_append, Runs.run]
      have hold : (i, sDbCommand, none) ∈ (Runs.run (step pb generated_pool srv)
            (init nMaxCacheSize nWritebackTime server) actions).history →
          sDbCommand.nType = .kOT_FLUSH ∨ Discarded pb generated_pool srv
            (init nMaxCacheSize nWritebackTime server) (actions ++ [action]) sDbCommand := by
        intro hbefore
        rcases ih hbefore with hflush | ⟨earlier, j, input, later, rfl, hdiscards⟩
        · exact .inl hflush
        · exact .inr ⟨earlier, j, input, later ++ [action], by simp, hdiscards⟩
      rw [hsnoc] at h
      cases action with
      | advance j input =>
          rcases List.mem_append.mp h with hbefore | hnew
          · exact hold hbefore
          · obtain ⟨op, hfinishing, heq⟩ := List.mem_map.mp hnew
            obtain ⟨rfl, rfl⟩ := Prod.mk.inj heq
            rcases discards_of_finishing hfinishing with hflush | hdiscards
            · exact .inl hflush
            · exact .inr ⟨actions, j, input, [], rfl, hdiscards⟩
      | _ => exact hold h

/-- What is wrong stays wrong. -/
theorem healthy_of_step (s : SharedMyDb n σ) (action : MyAction n)
    (h : (s.step pb generated_pool srv action).1.Healthy) : s.Healthy := by
  obtain ⟨hcount, hsucceeded⟩ := h
  constructor
  · have hgrows := @CMyDbProxy.sessionCount_step n σ pb generated_pool (fun _ => srv) s.my action
    refine Nat.lt_of_le_of_lt hgrows.1 ?_
    rcases step_my pb generated_pool srv s action with hsame | ⟨server, hsame⟩
    · exact hsame ▸ hcount
    · rw [hsame] at hcount
      exact hcount
  · rw [shared_step] at hsucceeded
    split at hsucceeded
    · exact hsucceeded
    · exact SharedDb.succeeded_of_step _ hsucceeded

section Answers

variable (h : s.Observes pb generated_pool tables rows initial) {i : Fin n}

include h

/-- The commands in the history are those that the workers finished. -/
theorem Observes.finished_of_mem {op : Fin n × SDbCommand × Answer} (hin : op ∈ s.history) :
    op.2.1 ∈ (s.my.mgr.m_vecDbThread op.1).finished := by
  have hfinished := h.serves.finished op.1
  rw [show (s.my.mgr.m_vecDbThread op.1).finished = _ from hfinished.symm]
  exact List.mem_map.mpr ⟨op, List.mem_filter.mpr ⟨hin, by simp⟩, rfl⟩

/-- A command that is for an id was finished by the worker of the id. -/
theorem Observes.key_of_finished {sDbCommand : SDbCommand}
    (hin : sDbCommand ∈ (s.my.mgr.m_vecDbThread i).finished) {nID : Nat}
    (hkey : CDbThread.cacheKey sDbCommand.nType sDbCommand.pMessage = some nID) :
    i.val = nID % 2 ^ 32 % n := by
  have hgiven := ((h.reads.ordered.finished_prefix i).trans
    (h.reads.ordered.pushed_prefix h.reads.caller i)).subset hin
  obtain ⟨p, hp, rfl⟩ := List.mem_map.mp hgiven
  obtain ⟨hpushed, hworker⟩ := List.mem_filter.mp hp
  obtain ⟨call, hcall, hpcall⟩ := List.mem_flatMap.mp hpushed
  obtain rfl := CDbThreadMgr.call_of_mem_query hpcall
  obtain rfl : p.worker = i := by simpa using hworker
  have hflush : p.call.sDbCommand.nType ≠ .kOT_FLUSH := by
    intro heq
    simp [heq, CDbThread.cacheKey] at hkey
  rw [← h.serves.homed.placed p.call hcall nID hkey]
  exact CDbThreadMgr.worker_of_mem_query hpcall hflush

variable {earlier later : List Call} {call : Call} {left right : List (Fin n × SDbCommand × Answer)}
  {answer : Answer}

/-- **Before a command with a session its worker finished what had gone to it before.** -/
theorem Observes.finished_before (hne : call.sDbCommand.nSessionID ≠ 0)
    (hsplit : s.history = left ++ (i, call.sDbCommand, answer) :: right)
    (hbarrier : ((earlier.flatMap (CDbThreadMgr.query n)).filter fun p => p.worker = i).map
        (fun p => p.call.sDbCommand) ++ [call.sDbCommand] <+:
      (s.my.mgr.m_vecDbThread i).finished) :
    (left.filter fun op => op.1 = i).map (fun op => op.2.1) =
      ((earlier.flatMap (CDbThreadMgr.query n)).filter fun p => p.worker = i).map
        fun p => p.call.sDbCommand := by
  have hfinished : (s.history.filter fun op => op.1 = i).map (fun op => op.2.1) =
      (s.my.mgr.m_vecDbThread i).finished := h.serves.finished i
  rw [hsplit, List.filter_append, List.filter_cons_of_pos (by simp), List.map_append,
    List.map_cons] at hfinished
  have hincreasing := h.reads.increasing.sublist
    (h.reads.ordered.tickets_sublist h.reads.caller i)
  rw [← hfinished] at hincreasing
  obtain ⟨hbefore, hafter⟩ := tickets_alone hincreasing hne
  obtain ⟨rest, hrest⟩ := hbarrier
  rw [← hfinished, List.append_assoc, List.singleton_append] at hrest
  exact ((List.append_cons_inj_of_notMem (fun hin => hbefore _ hin rfl)
    (fun hin => hafter _ hin rfl)).mp hrest.symm).1

/-- So the commands of an id were finished in the order of the requests. -/
theorem Observes.own_before (hne : call.sDbCommand.nSessionID ≠ 0)
    (hsubmitted : s.my.mgr.submitted = earlier ++ call :: later)
    (hsplit : s.history = left ++ (i, call.sDbCommand, answer) :: right)
    (hbarrier : ((earlier.flatMap (CDbThreadMgr.query n)).filter fun p => p.worker = i).map
        (fun p => p.call.sDbCommand) ++ [call.sDbCommand] <+:
      (s.my.mgr.m_vecDbThread i).finished) {nID : Nat} (hi : i.val = nID % 2 ^ 32 % n) :
    (left.map fun op => op.2.1).filter
        (fun cmd => CDbThread.cacheKey cmd.nType cmd.pMessage = some nID) =
      (earlier.map Call.sDbCommand).filter
        fun cmd => CDbThread.cacheKey cmd.nType cmd.pMessage = some nID := by
  let own (cmd : SDbCommand) : Bool :=
    decide (CDbThread.cacheKey cmd.nType cmd.pMessage = some nID)
  let mine (call : Call) : Bool :=
    decide (own call.sDbCommand ∧ call.nThreadIndex = nID % 2 ^ 32)
  have hmine : ∀ call' ∈ earlier, mine call' = own call'.sDbCommand := by
    intro call' hin
    have hplaced := h.serves.homed.placed call' (by simp [shared, hsubmitted, hin]) nID
    simpa [mine, own] using hplaced
  have hworker : ∀ op ∈ left, (own op.2.1 && decide (op.1 = i)) = own op.2.1 := by
    intro op hin
    have hfinished := h.finished_of_mem (show op ∈ s.history by simp [hsplit, hin])
    have hhome : own op.2.1 → op.1.val = nID % 2 ^ 32 % n := fun hkey =>
      h.key_of_finished hfinished (of_decide_eq_true hkey)
    simpa using fun hkey => Fin.ext ((hhome hkey).trans hi.symm)
  calc (left.map fun op => op.2.1).filter own
      = ((left.filter fun op => op.1 = i).map fun op => op.2.1).filter own := by
        rw [List.filter_map, List.filter_map, List.filter_filter]
        exact congrArg _ (List.filter_congr fun op hin => (hworker op hin).symm)
    _ = ((((earlier.flatMap (CDbThreadMgr.query n)).filter fun p => p.worker = i).map
          Push.call).map Call.sDbCommand).filter own := by
        rw [h.finished_before hne hsplit hbarrier, List.map_map]
        rfl
    _ = (((((earlier.flatMap (CDbThreadMgr.query n)).filter fun p => p.worker = i).map
          Push.call).filter mine).map Call.sDbCommand) := by
        rw [List.filter_map]
        refine congrArg _ (List.filter_congr fun call' hin => (hmine call' ?_).symm)
        exact (CDbThreadMgr.pushes_sublist earlier i).subset hin
    _ = (earlier.filter mine).map Call.sDbCommand := by
        rw [CDbThreadMgr.flatMap_query_filter earlier mine fun call' hcall' => ?_]
        have hindex : call'.nThreadIndex = nID % 2 ^ 32 := by
          have hboth : own call'.sDbCommand ∧ call'.nThreadIndex = nID % 2 ^ 32 := by
            simpa [mine] using hcall'
          exact hboth.2
        rw [hindex, hi]
    _ = (earlier.map Call.sDbCommand).filter own := by
        rw [List.filter_map]
        exact congrArg _ (List.filter_congr hmine)

end Answers

end SharedMyDb

/-- **Answers of one table.**  In a run where the messages come through, every worker's step is
orderly and no statement fails, a SELECT is answered as one table in memory answers it when it has
run the earlier requests on the id, one after another in the order they were made; only those that
were discarded as expired are missing. -/
theorem answers_of_one_table {n : Nat} {σ : Type} {pb : Runtime}
    {generated_pool : String → Option Descriptor} {srv : Server σ} {tables : Tables}
    {rows : σ → Rows} (hpb : pb.Lawful) (hsrv : srv.Keeps pb tables rows) {nMaxCacheSize : Nat}
    (hlimit : 0 < toInt64 (nMaxCacheSize / n)) (nWritebackTime : Nat) (server : σ)
    {actions : List (MyAction n)}
    (horderly : Runs.Guarded (SharedMyDb.step pb generated_pool srv)
      (SharedMyDb.Orderly pb tables rows)
      (SharedMyDb.init nMaxCacheSize nWritebackTime server) actions)
    (hhealthy : (Runs.run (SharedMyDb.step pb generated_pool srv)
      (SharedMyDb.init nMaxCacheSize nWritebackTime server) actions).Healthy) :
    let s := Runs.run (SharedMyDb.step pb generated_pool srv)
      (SharedMyDb.init nMaxCacheSize nWritebackTime server) actions
    ∀ invocation ∈ s.my.proxy.invoked, invocation.isAnswer = true →
      ∃ earlier call later, s.my.mgr.submitted = earlier ++ call :: later ∧
        call.sDbCommand.nSessionID = invocation.nRequest + 1 ∧
        ∀ id table_name, call.sDbCommand.nType = .kOT_SELECT →
          call.sDbCommand.pMessage = some (.select_command id table_name) →
          ∃ own nStack,
            own.map Prod.fst = (earlier.map Call.sDbCommand).filter
              (fun cmd => CDbThread.cacheKey cmd.nType cmd.pMessage = some id) ∧
            (∀ op ∈ own, op.2 = none → SharedMyDb.Discarded pb generated_pool srv
              (SharedMyDb.init nMaxCacheSize nWritebackTime server) actions op.1) ∧
            let answer := selectAnswer pb tables table_name
              (Runs.stateAfter (tableStep pb tables) (rows server) own (table_name, id))
            (invocation.nErrCode, invocation.pMessage) =
              CDbProxy.readResponse (pb.withPool generated_pool)
                (makeResultInfo pb call.sDbCommand answer.1 answer.2 nStack).pResponse := by
  intro s invocation hinvoked hanswer
  have h : s.Observes pb generated_pool tables rows (rows server) := by
    refine Runs.run_invariant_of_last (SharedMyDb.Observes pb generated_pool tables rows
      (rows server)) (p := SharedMyDb.Healthy) SharedMyDb.healthy_of_step
      (fun _ _ h hok hnext => SharedMyDb.step_observes hpb hsrv h hok hnext)
      (SharedMyDb.init_observes hlimit nWritebackTime server) horderly hhealthy
  -- The answer was read from a result, and that was made from a command of the history.
  obtain ⟨_, sResultInfo, hdelivered, hsession, hread⟩ := h.reads.read invocation hinvoked hanswer
  obtain ⟨⟨i, sResultInfo'⟩, hadded, rfl⟩ :=
    List.mem_map.mp (h.reads.delivered_prefix.subset hdelivered)
  obtain ⟨sDbCommand, nErrorCode, pMessage, nStack, hmade, hresult⟩ := h.results _ hadded
  obtain rfl : sResultInfo' = _ := hresult
  have hticket : sDbCommand.nSessionID = invocation.nRequest + 1 := hsession
  have hne : sDbCommand.nSessionID ≠ 0 := hticket ▸ Nat.succ_ne_zero _
  obtain ⟨call, hcall, rfl, hi⟩ := h.reads.call_of_finished (h.finished_of_mem hmade) hne
  obtain ⟨earlier, later, hsubmitted⟩ := List.append_of_mem hcall
  refine ⟨earlier, call, later, hsubmitted, hticket, fun id table_name hselect hmessage => ?_⟩
  -- The history is legal up to that command and at it.
  obtain ⟨left, right, hsplit⟩ := List.append_of_mem hmade
  have hlegal := h.serves.legal
  rw [show s.shared.history = _ from hsplit, List.map_append, List.map_cons] at hlegal
  obtain ⟨hbefore, hanswers, _⟩ := Runs.legal_append.mp hlegal
  have hrow := hanswers hselect id table_name hmessage
  have hbarrier := h.reads.answer_finished hinvoked hanswer hsubmitted hticket hi
  have hkey : CDbThread.cacheKey call.sDbCommand.nType call.sDbCommand.pMessage = some id := by
    rw [hselect, hmessage]
    rfl
  have hhome := h.key_of_finished (h.finished_of_mem hmade) hkey
  refine ⟨(left.map Prod.snd).filter fun op =>
    CDbThread.cacheKey op.1.nType op.1.pMessage = some id, nStack, ?_, ?_, ?_⟩
  · rw [← h.own_before hne hsubmitted hsplit hbarrier hhome]
    simp [List.filter_map, Function.comp_def]
  · rintro ⟨cmd, answer⟩ hin rfl
    obtain ⟨hleft, hown⟩ := List.mem_filter.mp hin
    obtain ⟨⟨j, op⟩, hop, rfl⟩ := List.mem_map.mp hleft
    have hhistory : (j, cmd, none) ∈ s.history := hsplit ▸ List.mem_append_left _ hop
    refine (SharedMyDb.discarded_of_history actions hhistory).resolve_left fun hflush => ?_
    have hflush' : cmd.nType = .kOT_FLUSH := hflush
    simp [hflush', CDbThread.cacheKey] at hown
  · rw [← stateAfter_own (left.map Prod.snd) rfl]
    have hanswer : (nErrorCode, pMessage) = _ := hrow
    rw [← hanswer]
    exact hread.symm

/-! ## Player 5 is read, deleted and read again -/

/-- A client asks for player 5, deletes it, asks again and is answered twice. -/
def readDeleteRead : List (MyAction 2) :=
  let advance : MyAction 2 := .advance (Fin.last 1) ⟨⟨1, 1⟩, ⟨[], 0⟩, 0⟩
  [.request readFive 1, .push, .request deleteFive 1, .push, .request readFive 1, .push,
    advance, advance, advance, advance, advance, .getResultInfo, .nextResult, .nextResult]

/-- The client and the service before, with player 5 in the database. -/
def playerStored : SharedMyDb 2 TableServer.State :=
  SharedMyDb.init 1000 60 (storedPlayer [65]).server

/-- The client and the service when it is answered. -/
def readAnswered : SharedMyDb 2 TableServer.State :=
  Runs.run (SharedMyDb.step testRuntime testRuntime.FindMessageTypeByName testServer)
    playerStored readDeleteRead

/-- The steps of the workers are those on player 5. -/
def SharedMyDb.ServesFive (s : SharedMyDb 2 TableServer.State) : MyAction 2 → Prop
  | .advance i input => (s.my.mgr.m_vecDbThread i).ServesFive input
  | _ => True

instance (s : SharedMyDb 2 TableServer.State) : ∀ action, Decidable (s.ServesFive action)
  | .advance i input =>
      inferInstanceAs (Decidable ((s.my.mgr.m_vecDbThread i).ServesFive input))
  | .request .. | .push | .getResultInfo | .nextResult | .onTimer _ | .timerNext
  | .removeClient _ => inferInstanceAs (Decidable True)

/-- Every step of the run is orderly. -/
theorem readDeleteRead_orderly :
    Runs.Guarded (SharedMyDb.step testRuntime testRuntime.FindMessageTypeByName testServer)
      (SharedMyDb.Orderly testRuntime playerTables TableServer.rows) playerStored
      readDeleteRead := by
  have hserves : Runs.Guarded (SharedMyDb.step testRuntime testRuntime.FindMessageTypeByName
      testServer) SharedMyDb.ServesFive playerStored readDeleteRead := by
    decide +kernel
  have hcarries : ∀ action ∈ readDeleteRead, ∀ proxyAction nTime,
      action = .request proxyAction nTime → ∀ pMessage,
      proxyAction.pMessage = some pMessage → testRuntime.Carries pMessage := by
    rintro _ hin proxyAction nTime rfl
    simp only [readDeleteRead, List.mem_cons, MyAction.request.injEq, List.not_mem_nil, or_false,
      reduceCtorEq, false_or] at hin
    rcases hin with ⟨rfl, _⟩ | ⟨rfl, _⟩ | ⟨rfl, _⟩
    · exact readFive_carries
    · exact deleteFive_carries
    · exact readFive_carries
  refine (hserves.and_forall hcarries).imp fun s action h => ?_
  obtain ⟨hrequest, hstep⟩ := h
  cases action with
  | request proxyAction nTime => exact hrequest _ _ rfl
  | advance i input => exact CDbThread.ServesFive.orderly hstep
  | _ => trivial

/-- Both SELECTs are answered as the table answers them, the second after the DELETE. -/
theorem answers_of_one_table_readDeleteRead :
    readAnswered.my.proxy.invoked.map Invocation.isAnswer = [true, true] ∧
      readAnswered.my.mgr.submitted.map (fun call => call.sDbCommand.nType) =
        [.kOT_SELECT, .kOT_DELETE, .kOT_SELECT] ∧
      ∀ invocation ∈ readAnswered.my.proxy.invoked, invocation.isAnswer = true →
        ∃ earlier call later, readAnswered.my.mgr.submitted = earlier ++ call :: later ∧
          call.sDbCommand.nSessionID = invocation.nRequest + 1 ∧
          ∀ id table_name, call.sDbCommand.nType = .kOT_SELECT →
            call.sDbCommand.pMessage = some (.select_command id table_name) →
            ∃ own nStack,
              own.map Prod.fst = (earlier.map Call.sDbCommand).filter
                (fun cmd => CDbThread.cacheKey cmd.nType cmd.pMessage = some id) ∧
              (∀ op ∈ own, op.2 = none → SharedMyDb.Discarded testRuntime
                testRuntime.FindMessageTypeByName testServer playerStored readDeleteRead op.1) ∧
              let answer := selectAnswer testRuntime playerTables table_name
                (Runs.stateAfter (tableStep testRuntime playerTables)
                  (TableServer.rows (storedPlayer [65]).server) own (table_name, id))
              (invocation.nErrCode, invocation.pMessage) =
                CDbProxy.readResponse (testRuntime.withPool testRuntime.FindMessageTypeByName)
                  (makeResultInfo testRuntime call.sDbCommand answer.1 answer.2
                    nStack).pResponse :=
  ⟨by decide +kernel, by decide +kernel,
    answers_of_one_table testRuntime_lawful (TableServer.server_keeps testRuntime playerTables)
      (show 0 < toInt64 (1000 / 2) by decide) 60 (storedPlayer [65]).server readDeleteRead_orderly
      (show readAnswered.Healthy from ⟨by decide +kernel, by decide +kernel⟩)⟩

end Db
