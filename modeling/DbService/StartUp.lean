import DbService.DbThreadMgr

/-!
# Start-up and teardown of the workers (`db_thread_mgr.cpp`, `db::create`, `db::release`)

`CDbThreadMgr::init` resizes the vector of workers to null pointers and creates them one after the
other; a worker whose `CDbThread::init` fails stays in its slot without a thread, and the slots
behind it stay null.  `exit` joins and deletes the slots in order and was written for the full
vector: after a failure it comes to the worker without a thread, whose `join` throws.  The
exception leaves the destructor, which ends the process.

* `init_fails`, `init_succeeds` -- how `init` ends;
* `failed_start_up_never_undone` -- what becomes of an instance that did not start, and of a
  second `exit`;
* `third_worker_refuses_join` -- three workers, the third without a connection.
-/

namespace Db

variable {σ : Type}

/-- The results of the calls of `CDbThread::init`, and the connection `connectDb(true)` leaves. -/
structure InitCalls (σ : Type) where
  bHandlerProxy : Bool
  bCacheMgr : Bool
  conn : CDbConnection σ

/-- `CDbThread::init` returns true, which is when it has started the thread. -/
def InitCalls.succeeds (calls : InitCalls σ) : Bool :=
  calls.bHandlerProxy && calls.bCacheMgr && calls.conn.isConnect

/-- A `CDbThread` on the heap. -/
structure WorkerObject (σ : Type) where
  /-- the round of `CDbThreadMgr::init` that created it -/
  nIndex : Nat
  worker : CDbThread σ
  /-- `m_thread` holds a thread -/
  joinable : Bool

inductive WorkerEvent
  | created (nIndex : Nat)
  /-- `join` on a worker with a thread, up to the end of the thread -/
  | joined (nIndex : Nat)
  /-- `join` on a worker without a thread, which throws `std::system_error` -/
  | joinRefused (nIndex : Nat)
  | deleted (nIndex : Nat)
  deriving DecidableEq

/-- `m_vecDbThread`, and what happened to the workers so far. -/
structure WorkerVector (σ : Type) where
  m_vecDbThread : List (Option (WorkerObject σ))
  events : List WorkerEvent

/-- How `exit` ends. -/
inductive ExitOutcome (σ : Type)
  | returned (vec : WorkerVector σ)
  /-- An exception leaves `exit`. -/
  | thrown (events : List WorkerEvent)
  /-- `join` is called on a null pointer. -/
  | nullPointer (events : List WorkerEvent)

namespace WorkerVector

def empty : WorkerVector σ := ⟨[], []⟩

/-- One round of the loop of `CDbThreadMgr::init`. -/
def create (vec : WorkerVector σ) (nIndex nMaxCacheSize nWritebackTime : Nat)
    (calls : InitCalls σ) : WorkerVector σ where
  m_vecDbThread := vec.m_vecDbThread.set nIndex
    (some ⟨nIndex, CDbThread.init nMaxCacheSize nWritebackTime calls.conn, calls.succeeds⟩)
  events := vec.events ++ [.created nIndex]

/-- The loop of `CDbThreadMgr::init` from round `nIndex` on, with the rounds left. -/
def initFrom (calls : Nat → InitCalls σ) (nMaxCacheSize nWritebackTime : Nat) :
    Nat → Nat → WorkerVector σ → Bool × WorkerVector σ
  | 0, _, vec => (true, vec)
  | nRounds + 1, nIndex, vec =>
      let vec := vec.create nIndex nMaxCacheSize nWritebackTime (calls nIndex)
      if (calls nIndex).succeeds then
        initFrom calls nMaxCacheSize nWritebackTime nRounds (nIndex + 1) vec
      else (false, vec)

/-- `CDbThreadMgr::init` -/
def init (calls : Nat → InitCalls σ) (nDbThreadCount nMaxCacheSize nWritebackTime : Nat) :
    Bool × WorkerVector σ :=
  if nDbThreadCount = 0 ∨ nWritebackTime = 0 then (false, empty)
  else
    initFrom calls (nMaxCacheSize / nDbThreadCount) nWritebackTime nDbThreadCount 0
      ⟨List.replicate nDbThreadCount none, []⟩

/-- The loop of `exit`, and the `clear` behind it. -/
def exitFrom : List (Option (WorkerObject σ)) → List WorkerEvent → ExitOutcome σ
  | [], events => .returned ⟨[], events⟩
  | none :: _, events => .nullPointer events
  | some object :: rest, events =>
      if object.joinable then
        exitFrom rest (events ++ [.joined object.nIndex, .deleted object.nIndex])
      else .thrown (events ++ [.joinRefused object.nIndex])

/-- `CDbThreadMgr::exit`, which is also the whole of the destructor. -/
def exit (vec : WorkerVector σ) : ExitOutcome σ := exitFrom vec.m_vecDbThread vec.events

/-- `db::release`: `exit`, then the destructor. -/
def release (vec : WorkerVector σ) : ExitOutcome σ :=
  match vec.exit with
  | .returned vec => vec.exit
  | outcome => outcome

end WorkerVector

/-- `db::create` after `importProtobuf`: the vector of the new instance, or how the teardown of
the failed one ends. -/
def create (calls : Nat → InitCalls σ) (nDbThreadCount nMaxCacheSize nWritebackTime : Nat) :
    ExitOutcome σ ⊕ WorkerVector σ :=
  match WorkerVector.init calls nDbThreadCount nMaxCacheSize nWritebackTime with
  | (true, vec) => .inr vec
  | (false, vec) => .inl vec.exit

namespace WorkerVector

variable (calls : Nat → InitCalls σ) (nMaxCacheSize nWritebackTime : Nat)

/-- What round `nIndex` of the start-up puts into its slot. -/
def object (nIndex : Nat) : WorkerObject σ :=
  ⟨nIndex, CDbThread.init nMaxCacheSize nWritebackTime (calls nIndex).conn,
    (calls nIndex).succeeds⟩

/-- The vector of `nSize` slots after `nRounds` rounds of the start-up. -/
def filled (nRounds nSize : Nat) : WorkerVector σ where
  m_vecDbThread :=
    (List.range nRounds).map (fun j => some (object calls nMaxCacheSize nWritebackTime j)) ++
      List.replicate (nSize - nRounds) none
  events := (List.range nRounds).map .created

/-- The events of the teardown of the workers below `nRounds`, in their order. -/
def torndown (nRounds : Nat) : List WorkerEvent :=
  (List.range nRounds).flatMap fun j => [.joined j, .deleted j]

/-- A round fills the next slot. -/
theorem filled_create {nIndex nSize : Nat} (hindex : nIndex < nSize) :
    (filled calls nMaxCacheSize nWritebackTime nIndex nSize).create nIndex nMaxCacheSize
        nWritebackTime (calls nIndex) =
      filled calls nMaxCacheSize nWritebackTime (nIndex + 1) nSize := by
  have hrest : nSize - nIndex = nSize - (nIndex + 1) + 1 := by omega
  simp [create, filled, object, hrest, List.replicate_succ, List.range_succ]

/-- The rounds go on while the workers start. -/
theorem initFrom_starts (nRounds nIndex nStarted : Nat)
    (hstarted : ∀ j, nIndex ≤ j → j < nIndex + nStarted → (calls j).succeeds = true)
    (hrounds : nStarted ≤ nRounds) :
    initFrom calls nMaxCacheSize nWritebackTime nRounds nIndex
        (filled calls nMaxCacheSize nWritebackTime nIndex (nIndex + nRounds)) =
      initFrom calls nMaxCacheSize nWritebackTime (nRounds - nStarted) (nIndex + nStarted)
        (filled calls nMaxCacheSize nWritebackTime (nIndex + nStarted) (nIndex + nRounds)) := by
  induction nStarted generalizing nRounds nIndex with
  | zero => simp
  | succ k ih =>
    obtain ⟨r, rfl⟩ : ∃ r, nRounds = r + 1 := ⟨nRounds - 1, by omega⟩
    have hnow : (calls nIndex).succeeds = true := hstarted nIndex le_rfl (by omega)
    have hlater : ∀ j, nIndex + 1 ≤ j → j < nIndex + 1 + k → (calls j).succeeds = true :=
      fun j hle hlt => hstarted j (by omega) (by omega)
    have hrest := ih r (nIndex + 1) hlater (by omega)
    have hsize : nIndex + 1 + r = nIndex + (r + 1) := by omega
    have hindex : nIndex + 1 + k = nIndex + (k + 1) := by omega
    have hleft : r - k = r + 1 - (k + 1) := by omega
    rw [hsize, hindex, hleft] at hrest
    rw [initFrom, filled_create calls nMaxCacheSize nWritebackTime (by omega), if_pos hnow, hrest]

/-- `exit` takes down the workers with a thread before it comes to the others. -/
theorem exitFrom_joinable {objects : List (WorkerObject σ)}
    (hjoinable : ∀ object ∈ objects, object.joinable = true)
    (rest : List (Option (WorkerObject σ))) (events : List WorkerEvent) :
    exitFrom (objects.map some ++ rest) events =
      exitFrom rest (events ++ objects.flatMap fun object =>
        [.joined object.nIndex, .deleted object.nIndex]) := by
  induction objects generalizing events with
  | nil => simp
  | cons object objects ih =>
    have hfirst : object.joinable = true := hjoinable object (List.mem_cons_self ..)
    have hothers := fun o ho => hjoinable o (List.mem_cons_of_mem object ho)
    rw [List.map_cons, List.cons_append, exitFrom, if_pos hfirst, ih hothers]
    simp

theorem exitFrom_filled {nStarted : Nat} (hstarted : ∀ j < nStarted, (calls j).succeeds = true)
    (rest : List (Option (WorkerObject σ))) (events : List WorkerEvent) :
    exitFrom ((List.range nStarted).map
        (fun j => some (object calls nMaxCacheSize nWritebackTime j)) ++ rest) events =
      exitFrom rest (events ++ torndown nStarted) := by
  have hmap : (List.range nStarted).map
      (fun j => some (object calls nMaxCacheSize nWritebackTime j)) =
      ((List.range nStarted).map (object calls nMaxCacheSize nWritebackTime)).map some := by
    simp
  have hjoinable : ∀ o ∈ (List.range nStarted).map (object calls nMaxCacheSize nWritebackTime),
      o.joinable = true := by
    intro o ho
    obtain ⟨j, hj, rfl⟩ := List.mem_map.mp ho
    exact hstarted j (List.mem_range.mp hj)
  rw [hmap, exitFrom_joinable hjoinable, List.flatMap_map]
  rfl

/-- After an `exit` that returned there is nothing left to take down. -/
theorem exit_idempotent {vec vec' : WorkerVector σ} (hexit : vec.exit = .returned vec') :
    vec'.exit = .returned vec' := by
  obtain ⟨slots, events⟩ := vec
  simp only [exit] at hexit
  induction slots generalizing events with
  | nil =>
    rw [exitFrom, ExitOutcome.returned.injEq] at hexit
    subst hexit
    rfl
  | cons slot slots ih =>
    cases slot with
    | none => cases hexit
    | some object =>
      rw [exitFrom] at hexit
      split at hexit
      · exact ih _ hexit
      · cases hexit

/-- A start-up that fails in round `i` stops behind it. -/
theorem init_fails {n i : Nat} (hi : i < n) (hwriteback : nWritebackTime ≠ 0)
    (hbefore : ∀ j < i, (calls j).succeeds = true) (hfails : (calls i).succeeds = false) :
    init calls n nMaxCacheSize nWritebackTime =
      (false, filled calls (nMaxCacheSize / n) nWritebackTime (i + 1) n) := by
  have hn : ¬ (n = 0 ∨ nWritebackTime = 0) := by omega
  have hrun := initFrom_starts calls (nMaxCacheSize / n) nWritebackTime n 0 i
    (fun j _ hj => hbefore j (by omega)) hi.le
  obtain ⟨r, hr⟩ : ∃ r, n - i = r + 1 := ⟨n - i - 1, by omega⟩
  simp only [Nat.zero_add] at hrun
  rw [init, if_neg hn]
  calc initFrom calls (nMaxCacheSize / n) nWritebackTime n 0 ⟨List.replicate n none, []⟩
      = initFrom calls (nMaxCacheSize / n) nWritebackTime n 0
          (filled calls (nMaxCacheSize / n) nWritebackTime 0 n) := by simp [filled]
    _ = initFrom calls (nMaxCacheSize / n) nWritebackTime (r + 1) i
          (filled calls (nMaxCacheSize / n) nWritebackTime i n) := by rw [hrun, hr]
    _ = (false, filled calls (nMaxCacheSize / n) nWritebackTime (i + 1) n) := by
        rw [initFrom, filled_create calls (nMaxCacheSize / n) nWritebackTime hi]
        simp [hfails]

/-- A start-up without a failure fills every slot. -/
theorem init_succeeds {n : Nat} (hn : n ≠ 0) (hwriteback : nWritebackTime ≠ 0)
    (hstarts : ∀ j < n, (calls j).succeeds = true) :
    init calls n nMaxCacheSize nWritebackTime =
      (true, filled calls (nMaxCacheSize / n) nWritebackTime n n) := by
  have hrun := initFrom_starts calls (nMaxCacheSize / n) nWritebackTime n 0 n
    (fun j _ hj => hstarts j (by omega)) le_rfl
  simp only [Nat.zero_add, Nat.sub_self, initFrom] at hrun
  rw [init, if_neg (by omega), ← hrun]
  simp [filled]

end WorkerVector

/-- The workers of a start-up without a failure are those of the running service. -/
theorem create_workers {calls : Nat → InitCalls σ} {n nMaxCacheSize nWritebackTime : Nat}
    (hn : n ≠ 0) (hwriteback : nWritebackTime ≠ 0)
    (hstarts : ∀ j < n, (calls j).succeeds = true) :
    ∃ vec, create calls n nMaxCacheSize nWritebackTime = .inr vec ∧
      ∀ i : Fin n, vec.m_vecDbThread[i.val]? = some (some ⟨i,
        (CDbThreadMgr.init nMaxCacheSize nWritebackTime
          fun j : Fin n => (calls j).conn).m_vecDbThread i, true⟩) := by
  refine ⟨_, by rw [create, WorkerVector.init_succeeds calls _ _ hn hwriteback hstarts], ?_⟩
  intro i
  simp [WorkerVector.filled, WorkerVector.object, CDbThreadMgr.init, hstarts i i.isLt]

/-- The regular way down joins and deletes every worker once. -/
theorem create_release {calls : Nat → InitCalls σ} {n nMaxCacheSize nWritebackTime : Nat}
    (hn : n ≠ 0) (hwriteback : nWritebackTime ≠ 0)
    (hstarts : ∀ j < n, (calls j).succeeds = true) :
    ∃ vec, create calls n nMaxCacheSize nWritebackTime = .inr vec ∧
      vec.release =
        .returned ⟨[], (List.range n).map .created ++ WorkerVector.torndown n⟩ := by
  refine ⟨_, by rw [create, WorkerVector.init_succeeds calls _ _ hn hwriteback hstarts], ?_⟩
  have hexit := WorkerVector.exitFrom_filled calls (nMaxCacheSize / n) nWritebackTime hstarts []
    ((List.range n).map .created)
  simp only [List.append_nil, WorkerVector.exitFrom] at hexit
  have hfirst : (WorkerVector.filled calls (nMaxCacheSize / n) nWritebackTime n n).exit =
      .returned ⟨[], (List.range n).map .created ++ WorkerVector.torndown n⟩ := by
    simpa [WorkerVector.exit, WorkerVector.filled] using hexit
  simp only [WorkerVector.release, hfirst]
  exact WorkerVector.exit_idempotent hfirst

/-- A failed start-up is undone: the teardown returns, has joined the workers below the failing
one and no other, and has deleted once each worker that was created. -/
structure Undone (i : Nat) (events : List WorkerEvent) : Prop where
  joined : ∀ j, events.count (.joined j) = if j < i then 1 else 0
  deleted : ∀ j, events.count (.deleted j) = events.count (.created j)
  refused : ∀ j, .joinRefused j ∉ events

/-- **A failed start-up ends the process.**  At whichever worker `init` fails, the teardown takes
down the workers before it and then joins that worker, which has no thread: the exception leaves
the destructor, and the worker is not deleted.  What `exit` leaves when it returns, a second
`exit` leaves as it is. -/
theorem failed_start_up_never_undone {calls : Nat → InitCalls σ}
    {n i nMaxCacheSize nWritebackTime : Nat} (hi : i < n) (hwriteback : nWritebackTime ≠ 0)
    (hbefore : ∀ j < i, (calls j).succeeds = true) (hfails : (calls i).succeeds = false) :
    create calls n nMaxCacheSize nWritebackTime =
        .inl (.thrown ((List.range (i + 1)).map .created ++ WorkerVector.torndown i ++
          [.joinRefused i])) ∧
      (¬ ∃ vec, create calls n nMaxCacheSize nWritebackTime = .inl (.returned vec) ∧
        Undone i vec.events) ∧
      ∀ vec vec' : WorkerVector σ, vec.exit = .returned vec' → vec'.exit = .returned vec' := by
  have hcreate : create calls n nMaxCacheSize nWritebackTime =
      .inl (.thrown ((List.range (i + 1)).map .created ++ WorkerVector.torndown i ++
        [.joinRefused i])) := by
    have hslots : (WorkerVector.filled calls (nMaxCacheSize / n) nWritebackTime
        (i + 1) n).m_vecDbThread =
        (List.range i).map (fun j =>
            some (WorkerVector.object calls (nMaxCacheSize / n) nWritebackTime j)) ++
          some (WorkerVector.object calls (nMaxCacheSize / n) nWritebackTime i) ::
            List.replicate (n - (i + 1)) none := by
      simp [WorkerVector.filled, List.range_succ]
    rw [create, WorkerVector.init_fails calls _ _ hi hwriteback hbefore hfails]
    simp only [WorkerVector.exit]
    rw [hslots, WorkerVector.exitFrom_filled calls (nMaxCacheSize / n) nWritebackTime hbefore,
      WorkerVector.exitFrom, if_neg (by simp [WorkerVector.object, hfails])]
    rfl
  refine ⟨hcreate, ?_, fun vec vec' => WorkerVector.exit_idempotent⟩
  rintro ⟨vec, hreturned, -⟩
  rw [hcreate] at hreturned
  cases hreturned

/-- The third of four workers finds no server. -/
def thirdUnconnected (j : Nat) : InitCalls Unit := ⟨true, true, ⟨j ≠ 2, (), 0, []⟩⟩

theorem failed_start_up_never_undone_thirdUnconnected :
    create thirdUnconnected 4 0 300 =
        .inl (.thrown ((List.range 3).map .created ++ WorkerVector.torndown 2 ++
          [.joinRefused 2])) ∧
      (¬ ∃ vec, create thirdUnconnected 4 0 300 = .inl (.returned vec) ∧ Undone 2 vec.events) ∧
      ∀ vec vec' : WorkerVector Unit, vec.exit = .returned vec' → vec'.exit = .returned vec' :=
  failed_start_up_never_undone (by decide) (by decide) (by decide) rfl

/-- Two workers are joined and deleted, the third is joined without a thread and never deleted. -/
theorem third_worker_refuses_join :
    ∃ events, create thirdUnconnected 4 0 300 = .inl (.thrown events) ∧
      .joinRefused 2 ∈ events ∧ .created 2 ∈ events ∧ .deleted 2 ∉ events ∧
      ¬ Undone 2 events := by
  refine ⟨_, rfl, by decide, by decide, by decide, fun hundone => ?_⟩
  exact hundone.refused 2 (by decide)

end Db
