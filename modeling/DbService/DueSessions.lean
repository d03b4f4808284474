import DbService.TimerRounds

/-!
# What `onTimer` leaves

While no session id was given twice, `onTimer` calls back what was due when it started, once and
with a timeout, and takes it out of all containers; what is not due at some moment of the call is
as it was when the call ends (`onTimer_fires_due`).  With an id given twice the entry of the old
session takes the record of the new one (`reused_id_fires_early`).

* `Fate.step`, `Fate.run` -- what may become of a session during a call;
* `firedDue` -- a call that is over has fired what was due;
* `onTimer_fires_due` -- it is over after finitely many rounds, whatever its callbacks request;
* `reused_id_fires_early` -- an id that is used again after `2 ^ 64` sessions.
-/

namespace Db

open Reflection ByteText

namespace CDbProxy

/-- The record points to an entry that is due. -/
def Due (proxy : CDbProxy) (nCurTime : Int) (info : SPendingResponseInfo) : Prop :=
  ∃ node ∈ proxy.m_listTimeout, info.iterTimeout = some node.1 ∧ node.2.nTimeout ≤ nCurTime

/-- The call of a record that timed out. -/
def timeOut (info : SPendingResponseInfo) : Invocation :=
  ⟨info.nRequest, info.callback, EResultCode.kRC_TIME_OUT.code, none, info.nContext⟩

/-- The calls of the request of a record. -/
def callsOf (proxy : CDbProxy) (info : SPendingResponseInfo) : List Invocation :=
  proxy.invoked.filter fun call => call.nRequest == info.nRequest

/-- The session is in none of the containers. -/
structure Gone (proxy : CDbProxy) (nSessionID : Nat) : Prop where
  pending : proxy.m_mapPendingResponseInfo[nSessionID]? = none
  sessions : ∀ pDbClient, nSessionID ∉ proxy.sessionsOf pDbClient
  entries : ∀ node ∈ proxy.m_listTimeout, node.2.nSessionID ≠ nSessionID

/-- The session is as it was in `earlier`, and was not called back. -/
structure Untouched (earlier proxy : CDbProxy) (nSessionID : Nat) (info : SPendingResponseInfo) :
    Prop where
  pending : proxy.m_mapPendingResponseInfo[nSessionID]? = some info
  sessions : nSessionID ∈ proxy.sessionsOf info.pDbClient
  entries : ∀ node ∈ earlier.m_listTimeout, info.iterTimeout = some node.1 →
    node ∈ proxy.m_listTimeout
  silent : proxy.callsOf info = []

variable (pb : Runtime)

/-- **What `n` rounds have done:** the sessions that were due are gone, each after one call, and
those that are not due after some of the rounds stay. -/
structure FiredDue (behaviour : Nat → List ProxyAction) (nCurTime : Int) (n : Nat)
    (proxy : CDbProxy) : Prop where
  due : ∀ (nSessionID : Nat) info, proxy.m_mapPendingResponseInfo[nSessionID]? = some info →
    proxy.Due nCurTime info →
    (onTimer pb behaviour nCurTime n proxy).Gone nSessionID ∧
      (onTimer pb behaviour nCurTime n proxy).callsOf info = [timeOut info]
  notDue : ∀ m ≤ n, ∀ (nSessionID : Nat) info,
    (onTimer pb behaviour nCurTime m proxy).m_mapPendingResponseInfo[nSessionID]? = some info →
    ¬ (onTimer pb behaviour nCurTime m proxy).Due nCurTime info →
    Untouched (onTimer pb behaviour nCurTime m proxy) (onTimer pb behaviour nCurTime n proxy)
      nSessionID info

section

variable {pb} {proxy : CDbProxy} {nCurTime : Int}

/-! ## One action of the loop -/

/-- A step of the loop, or a request of a callback. -/
def InLoop (nCurTime : Int) (action : ProxyAction) : Prop :=
  action = .timerNext ∨ RequestSince nCurTime action

/-- The loop compares with `nCurTime`. -/
def AtClock (proxy : CDbProxy) (nCurTime : Int) : Prop :=
  ∀ nTime iter, proxy.timer = some (nTime, iter) → nTime = nCurTime

/-- **What a step of the loop does to the records:** nothing, or it takes out that of an entry
that is due and calls back. -/
inductive Expiry (proxy : CDbProxy) (nCurTime : Int) (proxy' : CDbProxy) : Prop
  | kept (hpending : proxy'.m_mapPendingResponseInfo = proxy.m_mapPendingResponseInfo)
      (hinvoked : proxy'.invoked = proxy.invoked)
  | expired (node : Nat × STimeoutInfo) (info : SPendingResponseInfo)
      (hnode : node ∈ proxy.m_listTimeout) (hdue : node.2.nTimeout ≤ nCurTime)
      (hpending : proxy.m_mapPendingResponseInfo[node.2.nSessionID]? = some info)
      (herased : proxy'.m_mapPendingResponseInfo =
        proxy.m_mapPendingResponseInfo.erase node.2.nSessionID)
      (hinvoked : proxy'.invoked = proxy.invoked ++ [timeOut info])

/-- A round with the clock at `nCurTime` expires what is due then. -/
theorem timerNext_expiry (hclock : AtClock proxy nCurTime) :
    Expiry proxy nCurTime proxy.timerNext := by
  unfold timerNext
  split
  · exact .kept rfl rfl
  · exact .kept rfl rfl
  · rename_i nTime iter htimer
    obtain rfl := hclock nTime _ htimer
    cases hfind : proxy.m_listTimeout.find? (fun node => node.1 == iter) with
    | none => exact .kept rfl rfl
    | some node =>
        obtain ⟨iter', entry⟩ := node
        have hnode := List.mem_of_find?_eq_some hfind
        simp only
        split
        · exact .kept rfl rfl
        · rename_i hdue
          cases hpending : proxy.m_mapPendingResponseInfo[entry.nSessionID]? with
          | none => exact .kept rfl rfl
          | some info =>
              exact .expired (iter', entry) info hnode (Int.not_lt.mp hdue) hpending rfl rfl

/-- **The loop under way since `start`,** while session ids are left. -/
structure InCall (start : CDbProxy) (nCurTime : Int) (proxy : CDbProxy) : Prop where
  consistent : Consistent proxy
  serial : Serial proxy
  clock : AtClock proxy nCurTime
  node : start.nNextNode ≤ proxy.nNextNode
  entries : ∀ node ∈ proxy.m_listTimeout, node.1 < start.nNextNode → node ∈ start.m_listTimeout
  count : start.sessionCount ≤ proxy.sessionCount

theorem InCall.refl (hconsistent : Consistent proxy) (hserial : Serial proxy)
    (hclock : AtClock proxy nCurTime) : InCall proxy nCurTime proxy :=
  ⟨hconsistent, hserial, hclock, Nat.le_refl _, fun _ hin _ => hin, Nat.le_refl _⟩

variable {start : CDbProxy} {action : ProxyAction}

/-- The clock of a call is read once, -/
theorem timerNext_atClock (h : AtClock proxy nCurTime) : AtClock proxy.timerNext nCurTime := by
  unfold timerNext
  split
  · exact h
  · exact fun nTime iter htimer => by cases htimer
  · rename_i nTime iter hrunning
    obtain rfl := h nTime _ hrunning
    split
    · exact fun nTime iter htimer => by cases htimer
    · split
      · exact fun nTime iter htimer => by cases htimer
      · simp only
        split
        · exact fun nTime iter htimer => (Prod.mk.inj (Option.some.inj htimer)).1.symm
        · exact fun nTime iter htimer => (Prod.mk.inj (Option.some.inj htimer)).1.symm

/-- and nothing that happens during it changes the reading. -/
theorem step_atClock (haction : InLoop nCurTime action) (h : AtClock proxy nCurTime) :
    AtClock (proxy.step pb action).1 nCurTime := by
  rcases haction with rfl | ⟨env, henv, _⟩
  · exact timerNext_atClock h
  · rcases request_opens pb proxy henv with
      hkept | ⟨nType, pDbClient, deadline?, nContext, callback, _, _, hopened⟩
    · rw [hkept]
      exact h
    · rw [hopened, AtClock, openSession_timer]
      exact h

/-- A step within the call stays within it. -/
theorem InCall.step (h : InCall start nCurTime proxy) (haction : InLoop nCurTime action)
    (hcount : (proxy.step pb action).1.sessionCount < 2 ^ 64) :
    InCall start nCurTime (proxy.step pb action).1 := by
  have hallowed : Allowed proxy action := by
    rcases haction with rfl | ⟨env, henv, _⟩
    · trivial
    · cases action <;> trivial
  have hentries := step_entries pb action h.node
  refine ⟨?_, step_serial pb h.serial action, step_atClock haction h.clock, hentries.1, ?_,
    Nat.le_trans h.count (sessionCount_step proxy action)⟩
  · exact step_consistent pb h.consistent action
      (step_sound pb h.consistent.toSound action hallowed) hcount
  · exact fun node hin hlt => h.entries node (hentries.2 node hin hlt) hlt

/-! ## What becomes of a session -/

/-- **A session that was pending at `start`** waits, or it was due then and has been called. -/
inductive Fate (start : CDbProxy) (nCurTime : Int) (nSessionID : Nat)
    (info : SPendingResponseInfo) (proxy : CDbProxy) : Prop
  | waiting (hpending : proxy.m_mapPendingResponseInfo[nSessionID]? = some info)
      (hsilent : proxy.callsOf info = [])
  | called (hdue : start.Due nCurTime info)
      (hgone : proxy.m_mapPendingResponseInfo[nSessionID]? = none)
      (hcalled : proxy.callsOf info = [timeOut info])

/-- A pending request has not been called. -/
theorem Serial.callsOf_pending (h : Serial proxy) {nSessionID : Nat}
    {info : SPendingResponseInfo}
    (hpending : proxy.m_mapPendingResponseInfo[nSessionID]? = some info) :
    proxy.callsOf info = [] := by
  apply List.filter_eq_nil_iff.mpr
  intro call hcall heq
  exact h.not_called _ _ hpending (List.mem_map.mpr ⟨call, hcall, by simpa using heq⟩)

/-- The entry the loop takes belongs to a session that was due at `start`. -/
theorem InCall.due (h : InCall start nCurTime proxy) (hstart : Sound start) {nSessionID : Nat}
    {info : SPendingResponseInfo}
    (hsome : start.m_mapPendingResponseInfo[nSessionID]? = some info)
    (hpending : proxy.m_mapPendingResponseInfo[nSessionID]? = some info)
    {node : Nat × STimeoutInfo} (hnode : node ∈ proxy.m_listTimeout)
    (hid : node.2.nSessionID = nSessionID) (hdue : node.2.nTimeout ≤ nCurTime) :
    start.Due nCurTime info := by
  have hiter := (h.consistent.entry_iff hpending hnode).mp hid
  rcases hstart.own_entry nSessionID info hsome with ⟨_, hnone⟩ | ⟨_, node', hnode', hiter', _⟩
  · rw [hnone] at hiter
    cases hiter
  · have heq : node.1 = node'.1 := Option.some.inj (hiter.symm.trans hiter')
    have hlt : node.1 < start.nNextNode := heq ▸ hstart.node_lt node' hnode'
    exact ⟨node, h.entries node hnode hlt, hiter, hdue⟩

/-- A round keeps the fate of a record: it is as it was, or its callback was called as it was due.
-/
theorem Fate.timerNext (h : InCall start nCurTime proxy) (hstart : Consistent start)
    {nSessionID : Nat} {info : SPendingResponseInfo}
    (hsome : start.m_mapPendingResponseInfo[nSessionID]? = some info)
    (hfate : Fate start nCurTime nSessionID info proxy) :
    Fate start nCurTime nSessionID info proxy.timerNext := by
  cases timerNext_expiry h.clock with
  | kept hpending hinvoked =>
      have hcalls : proxy.timerNext.callsOf info = proxy.callsOf info := by
        rw [callsOf, hinvoked, callsOf]
      cases hfate with
      | waiting hwaiting hsilent => exact .waiting (hpending ▸ hwaiting) (hcalls.trans hsilent)
      | called hdue hgone hcalled => exact .called hdue (hpending ▸ hgone) (hcalls.trans hcalled)
  | expired node info' hnode hdue hexpired herased hinvoked =>
      have hcalls : proxy.timerNext.callsOf info = proxy.callsOf info ++
          [timeOut info'].filter fun call => call.nRequest == info.nRequest := by
        rw [callsOf, hinvoked, List.filter_append, callsOf]
      -- Another request is called.
      have hother : info'.nRequest ≠ info.nRequest →
          proxy.timerNext.callsOf info = proxy.callsOf info := by
        intro hne
        rw [hcalls, List.filter_cons_of_neg (by simpa [timeOut] using hne)]
        exact List.append_nil _
      cases hfate with
      | waiting hwaiting hsilent =>
          by_cases hid : node.2.nSessionID = nSessionID
          · subst hid
            obtain rfl : info' = info := Option.some.inj (hexpired.symm.trans hwaiting)
            refine .called (h.due hstart.toSound hsome hwaiting hnode rfl hdue) ?_ ?_
            · simp [herased]
            · rw [hcalls, hsilent]
              simp [timeOut]
          · refine .waiting ?_ ((hother fun heq => hid ?_).trans hsilent)
            · simpa [herased, Std.ExtTreeMap.getElem?_erase, hid] using hwaiting
            · exact h.serial.pending_once _ _ _ _ hexpired hwaiting heq
      | called hdue' hgone hcalled =>
          refine .called hdue' ?_ ((hother fun heq => ?_).trans hcalled)
          · simp [herased, Std.ExtTreeMap.getElem?_erase, hgone]
          · have hsilent := h.serial.callsOf_pending hexpired
            rw [callsOf, heq, ← callsOf, hcalled] at hsilent
            cases hsilent

/-- What a callback does keeps it too, until the session ids wrap. -/
theorem Fate.step (h : InCall start nCurTime proxy) (hstart : Consistent start)
    {nSessionID : Nat} {info : SPendingResponseInfo}
    (hsome : start.m_mapPendingResponseInfo[nSessionID]? = some info)
    (hfate : Fate start nCurTime nSessionID info proxy) (haction : InLoop nCurTime action)
    (hcount : (proxy.step pb action).1.sessionCount < 2 ^ 64) :
    Fate start nCurTime nSessionID info (proxy.step pb action).1 := by
  rcases haction with rfl | ⟨env, henv, _⟩
  · exact hfate.timerNext h hstart hsome
  · rcases request_opens pb proxy henv with
      hkept | ⟨nType, pDbClient, deadline?, nContext, callback, _, _, hopened⟩
    · rw [hkept]
      exact hfate
    · -- The new session has an id that was not given before.
      rw [hopened] at hcount ⊢
      have hnext := h.consistent.next_eq (by simpa [sessionCount] using hcount)
      have hfresh : proxy.m_nNextSessionID ≠ nSessionID := by
        have hle := (hstart.ids nSessionID info hsome).2
        have := h.count
        omega
      have hcalls : (proxy.openSession nType pDbClient deadline? nContext callback).2.callsOf info =
          proxy.callsOf info := by
        rw [callsOf, openSession_invoked]
        rfl
      cases hfate with
      | waiting hpending hsilent =>
          refine .waiting ?_ (hcalls.trans hsilent)
          simpa [Std.ExtTreeMap.getElem?_insert, hfresh] using hpending
      | called hdue hgone hcalled =>
          refine .called hdue ?_ (hcalls.trans hcalled)
          simpa [Std.ExtTreeMap.getElem?_insert, hfresh] using hgone

/-- **The loop since `start`,** as a run. -/
theorem InCall.run (pb : Runtime) (h : InCall start nCurTime proxy) (actions : List ProxyAction)
    (hactions : ∀ action ∈ actions, InLoop nCurTime action)
    (hcount : (Runs.run (CDbProxy.step pb) proxy actions).sessionCount < 2 ^ 64) :
    InCall start nCurTime (Runs.run (CDbProxy.step pb) proxy actions) := by
  induction actions generalizing proxy with
  | nil => exact h
  | cons action rest ih =>
      have hle := sessionCount_run pb (proxy.step pb action).1 rest
      exact ih (h.step (hactions action List.mem_cons_self) (Nat.lt_of_le_of_lt hle hcount))
        (fun action' hin => hactions action' (List.mem_cons_of_mem _ hin)) hcount

/-- So does all that happens in a call. -/
theorem Fate.run (h : InCall start nCurTime proxy) (hstart : Consistent start)
    {nSessionID : Nat} {info : SPendingResponseInfo}
    (hsome : start.m_mapPendingResponseInfo[nSessionID]? = some info)
    (hfate : Fate start nCurTime nSessionID info proxy) (actions : List ProxyAction)
    (hactions : ∀ action ∈ actions, InLoop nCurTime action)
    (hcount : (Runs.run (CDbProxy.step pb) proxy actions).sessionCount < 2 ^ 64) :
    Fate start nCurTime nSessionID info (Runs.run (CDbProxy.step pb) proxy actions) := by
  induction actions generalizing proxy with
  | nil => exact hfate
  | cons action rest ih =>
      have hle := sessionCount_run pb (proxy.step pb action).1 rest
      have hcount' := Nat.lt_of_le_of_lt hle hcount
      have haction := hactions action List.mem_cons_self
      exact ih (h.step haction hcount') (hfate.step h hstart hsome haction hcount')
        (fun action' hin => hactions action' (List.mem_cons_of_mem _ hin)) hcount

variable {behaviour : Nat → List ProxyAction}

/-- The rounds of a call, with what its callbacks do, are a run. -/
theorem rounds_eq_run (pb : Runtime)
    (hbehaviour : ∀ n, ∀ action ∈ behaviour n, RequestSince nCurTime action)
    (n : Nat) (proxy : CDbProxy) :
    ∃ actions, (timerRound pb behaviour)^[n] proxy = Runs.run (CDbProxy.step pb) proxy actions ∧
      ∀ action ∈ actions, InLoop nCurTime action := by
  induction n generalizing proxy with
  | zero => exact ⟨[], rfl, by simp⟩
  | succ n ih =>
      obtain ⟨requests, hround, hrequests⟩ := timerRound_eq_run pb behaviour proxy
      obtain ⟨actions, hrest, hactions⟩ := ih (timerRound pb behaviour proxy)
      refine ⟨.timerNext :: (requests ++ actions), ?_, ?_⟩
      · rw [Function.iterate_succ_apply, hrest, hround, Runs.run, Runs.run_append]
        rfl
      · intro action hin
        rcases List.mem_cons.mp hin with rfl | hin
        · exact .inl rfl
        · rcases List.mem_append.mp hin with hin | hin
          · rcases hrequests with rfl | ⟨m, rfl⟩
            · cases hin
            · exact .inr (hbehaviour m action hin)
          · exact hactions action hin

/-- From one moment of the call to a later one. -/
theorem onTimer_inCall (hconsistent : Consistent proxy) (hserial : Serial proxy)
    (hidle : proxy.timer = none)
    (hbehaviour : ∀ n, ∀ action ∈ behaviour n, RequestSince nCurTime action) {n : Nat}
    (hcount : (onTimer pb behaviour nCurTime n proxy).sessionCount < 2 ^ 64) {m : Nat}
    (hle : m ≤ n) :
    Consistent (onTimer pb behaviour nCurTime m proxy) ∧
      InCall (onTimer pb behaviour nCurTime m proxy) nCurTime
        (onTimer pb behaviour nCurTime n proxy) ∧
      ∀ (nSessionID : Nat) info,
        (onTimer pb behaviour nCurTime m proxy).m_mapPendingResponseInfo[nSessionID]? = some info →
        Fate (onTimer pb behaviour nCurTime m proxy) nCurTime nSessionID info
          (onTimer pb behaviour nCurTime n proxy) := by
  obtain ⟨first, hfirst, hinFirst⟩ := rounds_eq_run pb hbehaviour m
    (proxy.timerStart nCurTime)
  obtain ⟨later, hlater, hinLater⟩ := rounds_eq_run pb hbehaviour (n - m)
    (onTimer pb behaviour nCurTime m proxy)
  have hend : onTimer pb behaviour nCurTime n proxy =
      Runs.run (step pb) (onTimer pb behaviour nCurTime m proxy) later := by
    rw [← hlater, onTimer, onTimer, ← Function.iterate_add_apply, Nat.sub_add_cancel hle]
  have hfirst' : onTimer pb behaviour nCurTime m proxy =
      Runs.run (step pb) (proxy.timerStart nCurTime) first := hfirst
  rw [hend] at hcount ⊢
  have hcount' := Nat.lt_of_le_of_lt (sessionCount_run pb _ later) hcount
  rw [hfirst'] at hcount'
  have hstart : Consistent (proxy.timerStart nCurTime) :=
    step_consistent pb hconsistent (.timerStart nCurTime)
      (step_sound pb hconsistent.toSound (.timerStart nCurTime) hidle)
      (Nat.lt_of_le_of_lt (sessionCount_run pb _ first) hcount')
  have hclock : AtClock (proxy.timerStart nCurTime) nCurTime := by
    intro nTime iter htimer
    exact (Prod.mk.inj (Option.some.inj htimer)).1.symm
  have hinCall := (InCall.refl hstart (step_serial pb hserial (.timerStart nCurTime))
    hclock).run pb first hinFirst hcount'
  rw [← hfirst'] at hinCall
  have hrefl := InCall.refl hinCall.consistent hinCall.serial hinCall.clock
  refine ⟨hinCall.consistent, hrefl.run pb later hinLater hcount, fun nSessionID info hsome => ?_⟩
  exact Fate.run hrefl hinCall.consistent hsome
    (.waiting hsome (hinCall.serial.callsOf_pending hsome)) later hinLater hcount

/-- The entry of a session that waits is the one it had. -/
theorem InCall.entry_kept (h : InCall start nCurTime proxy) (hstart : Sound start)
    {nSessionID : Nat} {info : SPendingResponseInfo}
    (hpending : proxy.m_mapPendingResponseInfo[nSessionID]? = some info)
    {node : Nat × STimeoutInfo} (hnode : node ∈ start.m_listTimeout)
    (hiter : info.iterTimeout = some node.1) : node ∈ proxy.m_listTimeout := by
  rcases h.consistent.own_entry nSessionID info hpending with
    ⟨_, hnone⟩ | ⟨_, node', hnode', hiter', _⟩
  · rw [hnone] at hiter
    cases hiter
  · have heq : node'.1 = node.1 := Option.some.inj (hiter'.symm.trans hiter)
    have hlt : node'.1 < start.nNextNode := heq ▸ hstart.node_lt node hnode
    have hold := h.entries node' hnode' hlt
    rw [← hstart.toLinked.node_inj hold hnode heq]
    exact hnode'

/-- Without a record a session is gone. -/
theorem Consistent.gone (h : Consistent proxy) {nSessionID : Nat}
    (hpending : proxy.m_mapPendingResponseInfo[nSessionID]? = none) : Gone proxy nSessionID where
  pending := hpending
  sessions := by
    intro pDbClient hin
    obtain ⟨info, hsome, _⟩ := h.only_pending pDbClient nSessionID hin
    rw [hpending] at hsome
    cases hsome
  entries := by
    intro node hin heq
    obtain ⟨info, hsome, _⟩ := h.only_entry node hin
    rw [heq, hpending] at hsome
    cases hsome

/-- **A call that is over has fired what was due.** -/
theorem firedDue (hconsistent : Consistent proxy) (hserial : Serial proxy)
    (hidle : proxy.timer = none)
    (hbehaviour : ∀ n, ∀ action ∈ behaviour n, RequestSince nCurTime action) {n : Nat}
    (hvisited : Visited nCurTime proxy.nNextNode (onTimer pb behaviour nCurTime n proxy))
    (hcount : (onTimer pb behaviour nCurTime n proxy).sessionCount < 2 ^ 64) :
    FiredDue pb behaviour nCurTime n proxy where
  due := by
    intro nSessionID info hsome hdue
    obtain ⟨hstart, hinCall, hfate⟩ := onTimer_inCall hconsistent hserial hidle hbehaviour hcount
      (Nat.zero_le n)
    cases hfate nSessionID info hsome with
    | waiting hwaiting =>
        obtain ⟨node, hnode, hiter, hle⟩ := hdue
        have hkept := hinCall.entry_kept hstart.toSound hwaiting hnode hiter
        have hlater := hvisited.later node hkept (hconsistent.node_lt node hnode)
        omega
    | called _ hgone hcalled => exact ⟨hinCall.consistent.gone hgone, hcalled⟩
  notDue := by
    intro m hle nSessionID info hsome hnotDue
    obtain ⟨hstart, hinCall, hfate⟩ := onTimer_inCall hconsistent hserial hidle hbehaviour hcount
      hle
    cases hfate nSessionID info hsome with
    | waiting hwaiting hsilent =>
        refine ⟨hwaiting, hinCall.consistent.own_client _ _ hwaiting, ?_, hsilent⟩
        exact fun node hnode hiter => hinCall.entry_kept hstart.toSound hwaiting hnode hiter
    | called hdue => exact absurd hdue hnotDue

end

/-- Orderly, and every client is destroyed safely. -/
def Proper (proxy : CDbProxy) (action : ProxyAction) : Prop :=
  Orderly proxy action ∧ DestroysSafely proxy action

/-- A proper action keeps the proxy sound. -/
theorem step_sound_of_proper (pb : Runtime) (proxy : CDbProxy) (action : ProxyAction)
    (h : Sound proxy) (hproper : Proper proxy action) : Sound (proxy.step pb action).1 := by
  have hlive := (step_timerLive_iff pb h.toLinked ⟨h.timer_entry, h.defined⟩ action hproper.1).mpr
    hproper.2
  exact (step_linked pb h.toLinked action).sound hlive.1 hlive.2

end CDbProxy

/-- **`onTimer` fires exactly what is due and ends,** whatever its callbacks request: every
session that was due is called back once and gone, and one that is not due at some moment of the
call stays, while fewer than `2 ^ 64` sessions are created; the list stays sorted always. -/
theorem onTimer_fires_due (pb : Runtime) (actions : List ProxyAction)
    (hproper : Runs.Guarded (CDbProxy.step pb) CDbProxy.Proper CDbProxy.init actions)
    (hidle : (Runs.run (CDbProxy.step pb) CDbProxy.init actions).timer = none)
    (nCurTime : Int) (behaviour : Nat → List ProxyAction)
    (hbehaviour : ∀ n, ∀ action ∈ behaviour n, CDbProxy.RequestSince nCurTime action) :
    ∃ n, (CDbProxy.onTimer pb behaviour nCurTime n
          (Runs.run (CDbProxy.step pb) CDbProxy.init actions)).timer = none ∧
      ((CDbProxy.onTimer pb behaviour nCurTime n (Runs.run (CDbProxy.step pb) CDbProxy.init
          actions)).m_listTimeout.Pairwise fun lhs rhs => lhs.2.nTimeout ≤ rhs.2.nTimeout) ∧
      ((CDbProxy.onTimer pb behaviour nCurTime n
          (Runs.run (CDbProxy.step pb) CDbProxy.init actions)).sessionCount < 2 ^ 64 →
        CDbProxy.FiredDue pb behaviour nCurTime n
          (Runs.run (CDbProxy.step pb) CDbProxy.init actions)) := by
  have hserial := CDbProxy.run_serial pb actions
  have hordered := CDbProxy.run_ordered pb
    ⟨CDbProxy.init_sound.toLinked, List.Pairwise.nil⟩ actions
  have hconsistent := CDbProxy.run_consistent (CDbProxy.step_sound_of_proper pb)
    CDbProxy.init_consistent actions hproper
  generalize Runs.run (CDbProxy.step pb) CDbProxy.init actions = proxy at *
  obtain ⟨n, hvisited⟩ := CDbProxy.timerRounds_end pb hbehaviour hordered
  obtain ⟨rounds, hrounds, _⟩ := CDbProxy.rounds_eq_run pb hbehaviour n
    (proxy.timerStart nCurTime)
  have hrun : CDbProxy.onTimer pb behaviour nCurTime n proxy =
      Runs.run (CDbProxy.step pb) proxy (.timerStart nCurTime :: rounds) := hrounds
  refine ⟨n, hvisited.timer, ?_, fun hcount => ?_⟩
  · rw [hrun]
    exact (CDbProxy.run_ordered pb hordered _).sorted
  · have hle := CDbProxy.sessionCount_run pb proxy (.timerStart nCurTime :: rounds)
    rw [← hrun] at hle
    exact CDbProxy.firedDue (hconsistent (Nat.lt_of_le_of_lt hle hcount)) hserial hidle hbehaviour
      hvisited hcount

/-- Two requests, the second with a later deadline. -/
def twoSelects : List ProxyAction :=
  [.select ⟨100, true⟩ 1 5 "player_base" 10 7 0, .select ⟨100, true⟩ 2 6 "player_base" 500 8 1]

/-- Every callback asks again, with a deadline that is due at once. -/
def asksAgain (_ : Nat) : List ProxyAction := [.select ⟨200, true⟩ 1 5 "player_base" 0 9 2]

/-- The theorem at that run and that callback. -/
theorem onTimer_fires_due_twoSelects :
    ∃ n, (CDbProxy.onTimer PlayerBase.runtime asksAgain 200 n
          (Runs.run (CDbProxy.step PlayerBase.runtime) CDbProxy.init twoSelects)).timer = none ∧
      ((CDbProxy.onTimer PlayerBase.runtime asksAgain 200 n
          (Runs.run (CDbProxy.step PlayerBase.runtime) CDbProxy.init
            twoSelects)).m_listTimeout.Pairwise fun lhs rhs => lhs.2.nTimeout ≤ rhs.2.nTimeout) ∧
      ((CDbProxy.onTimer PlayerBase.runtime asksAgain 200 n
          (Runs.run (CDbProxy.step PlayerBase.runtime) CDbProxy.init
            twoSelects)).sessionCount < 2 ^ 64 →
        CDbProxy.FiredDue PlayerBase.runtime asksAgain 200 n
          (Runs.run (CDbProxy.step PlayerBase.runtime) CDbProxy.init twoSelects)) :=
  onTimer_fires_due PlayerBase.runtime twoSelects
    ⟨⟨trivial, trivial⟩, ⟨trivial, trivial⟩, trivial⟩ rfl 200 asksAgain
    fun _ action hin => ⟨⟨200, true⟩, by rw [List.mem_singleton.mp hin]; rfl, Int.le_refl _⟩

namespace CDbProxy

/-- What nops leave alone, and the counter after them. -/
theorem run_nops_rest (pb : Runtime) (n : Nat) (proxy : CDbProxy)
    (hnext : proxy.m_nNextSessionID < 2 ^ 64) :
    let proxy' := Runs.run (step pb) proxy (List.replicate n oneClientNop)
    proxy'.m_nNextSessionID = (proxy.m_nNextSessionID + n) % 2 ^ 64 ∧
      proxy'.m_listTimeout = proxy.m_listTimeout ∧ proxy'.nNextNode = proxy.nNextNode ∧
      proxy'.timer = proxy.timer := by
  induction n with
  | zero => exact ⟨(Nat.mod_eq_of_lt hnext).symm, rfl, rfl, rfl⟩
  | succ n ih =>
      obtain ⟨hcounter, hlist, hnode, htimer⟩ := ih
      rw [List.replicate_succ', Runs.run_append]
      generalize Runs.run (step pb) proxy (List.replicate n oneClientNop) = proxy' at *
      refine ⟨?_, hlist, hnode, htimer⟩
      show (proxy'.m_nNextSessionID + 1) % 2 ^ 64 = _
      rw [hcounter]
      omega

/-- A select that expires at 10, nops, and a select that expires at 1000.  With `2 ^ 64 - 1` nops
the ids start again, and it has the id of the first. -/
def selectAgain (nops : Nat) : List ProxyAction :=
  .select ⟨0, true⟩ 1 5 "player_base" 10 7 0 ::
    (List.replicate nops oneClientNop ++ [.select ⟨0, true⟩ 1 6 "player_base" 1000 8 1])

/-- Every action of the run is proper. -/
theorem selectAgain_proper (pb : Runtime) (nops : Nat) :
    Runs.Guarded (step pb) Proper init (selectAgain nops) := by
  have hnops : ∀ n (proxy : CDbProxy),
      Runs.Guarded (step pb) Proper proxy (List.replicate n oneClientNop) := by
    intro n
    induction n with
    | zero => exact fun _ => trivial
    | succ n ih => exact fun proxy => ⟨⟨trivial, trivial⟩, ih _⟩
  exact ⟨⟨trivial, trivial⟩, Runs.guarded_append.mpr ⟨hnops _ _, ⟨trivial, trivial⟩, trivial⟩⟩

/-- The proxy after that run: two entries under one id, and the record of the later one. -/
theorem run_selectAgain (pb : Runtime) {nops : Nat} (hwrap : (2 + nops) % 2 ^ 64 = 1) :
    let proxy := Runs.run (step pb) init (selectAgain nops)
    proxy.timer = none ∧ proxy.m_listTimeout = [(0, ⟨1, 10⟩), (1, ⟨1, 1000⟩)] ∧
      ∃ info, proxy.m_mapPendingResponseInfo[1]? = some info ∧ info.iterTimeout = some 1 := by
  obtain ⟨hnext, hlist, hnode, htimer⟩ := run_nops_rest pb nops
    (init.openSession .kOT_SELECT 1 (some 10) 7 0).2 (by decide)
  have hrun : Runs.run (step pb) init (selectAgain nops) =
      ((Runs.run (step pb) (init.openSession .kOT_SELECT 1 (some 10) 7 0).2
        (List.replicate nops oneClientNop)).openSession .kOT_SELECT 1 (some 1000) 8 1).2 :=
    Runs.run_append _ _
  simp only [hrun]
  generalize Runs.run (step pb) (init.openSession .kOT_SELECT 1 (some 10) 7 0).2
    (List.replicate nops oneClientNop) = proxy at *
  have hid : proxy.m_nNextSessionID = 1 := hnext.trans hwrap
  refine ⟨(openSession_timer ..).trans htimer, ?_,
    proxy.newInfo .kOT_SELECT 1 (some 1000) 8 1, ?_, ?_⟩
  · rw [openSession_listTimeout]
    simp only [hlist, hnode, hid]
    rfl
  · rw [openSession_pending, hid]
    exact Std.ExtTreeMap.getElem?_insert_self
  · simp only [newInfo, hnode]
    rfl

/-- A round whose callback does nothing. -/
theorem timerRound_silent (pb : Runtime) (proxy : CDbProxy) :
    timerRound pb (fun _ => []) proxy = proxy.timerNext := by
  unfold timerRound
  split <;> rfl

/-- Rounds whose callbacks do nothing enter no record. -/
theorem pending_of_rounds (pb : Runtime) (n : Nat) {proxy : CDbProxy} {nSessionID : Nat}
    (hnone : proxy.m_mapPendingResponseInfo[nSessionID]? = none) :
    ((timerRound pb fun _ => [])^[n] proxy).m_mapPendingResponseInfo[nSessionID]? = none := by
  induction n generalizing proxy with
  | zero => exact hnone
  | succ n ih =>
      rw [Function.iterate_succ_apply]
      apply ih
      rw [timerRound_silent, Option.eq_none_iff_forall_not_mem]
      intro info hsome
      have hold : proxy.m_mapPendingResponseInfo[nSessionID]? = some info := by
        have houtcome : TimerOutcome proxy proxy.timerNext := timerNext_outcome
        generalize proxy.timerNext = proxy' at houtcome hsome
        cases houtcome with
        | idle | done | dead | stale => exact hsome
        | expired => exact (erase_left hsome).2
      rw [hnone] at hold
      cases hold

/-- The first round takes the record of the second request for the entry of the first. -/
theorem selectAgain_not_fired (pb : Runtime) {nops : Nat} (hwrap : (2 + nops) % 2 ^ 64 = 1)
    {n : Nat}
    (hended : (onTimer pb (fun _ => []) 10 n (Runs.run (step pb) init (selectAgain nops))).timer =
      none) :
    ¬ FiredDue pb (fun _ => []) 10 n (Runs.run (step pb) init (selectAgain nops)) := by
  obtain ⟨htimer, hlist, info, hsome, hiter⟩ := run_selectAgain pb hwrap
  generalize Runs.run (step pb) init (selectAgain nops) = proxy at *
  intro hfired
  have hnotDue : ¬ (proxy.timerStart 10).Due 10 info := by
    intro hdue
    obtain ⟨node, hnode, hiter', hle⟩ := hdue
    have hin : node ∈ [((0 : Nat), (⟨1, 10⟩ : STimeoutInfo)), (1, ⟨1, 1000⟩)] := hlist ▸ hnode
    rw [hiter, Option.some.injEq] at hiter'
    rcases List.mem_cons.mp hin with rfl | hin
    · cases hiter'
    · rw [List.mem_singleton.mp hin] at hle
      exact absurd hle (by decide)
  have huntouched := hfired.notDue 0 (Nat.zero_le n) 1 info hsome hnotDue
  cases n with
  | zero => cases hended
  | succ n =>
      have hvisiting := timerStart_visiting 10 proxy
      rw [hlist] at hvisiting
      have hnext := hvisiting.timerNext_expired (by simp [hvisiting.list])
        (Int.le_refl _) hsome
      have hgone : (timerRound pb (fun _ => [])
          (proxy.timerStart 10)).m_mapPendingResponseInfo[1]? = none := by
        rw [timerRound_silent, hnext]
        exact Std.ExtTreeMap.getElem?_erase_self
      have hnone := pending_of_rounds pb n hgone
      have hstays := huntouched.pending
      rw [onTimer, Function.iterate_succ_apply, hnone] at hstays
      cases hstays

end CDbProxy

/-- With an id given twice a session is called back before its deadline. -/
theorem reused_id_fires_early :
    ¬ ∀ (pb : Runtime) (actions : List ProxyAction),
      Runs.Guarded (CDbProxy.step pb) CDbProxy.Proper CDbProxy.init actions →
      (Runs.run (CDbProxy.step pb) CDbProxy.init actions).timer = none →
      ∀ (nCurTime : Int) (behaviour : Nat → List ProxyAction),
        (∀ n, ∀ action ∈ behaviour n, CDbProxy.RequestSince nCurTime action) →
        ∃ n, (CDbProxy.onTimer pb behaviour nCurTime n
              (Runs.run (CDbProxy.step pb) CDbProxy.init actions)).timer = none ∧
          CDbProxy.FiredDue pb behaviour nCurTime n
            (Runs.run (CDbProxy.step pb) CDbProxy.init actions) := by
  intro h
  have hwrap : (2 + (2 ^ 64 - 1)) % 2 ^ 64 = 1 := by omega
  generalize 2 ^ 64 - 1 = nops at hwrap
  obtain ⟨htimer, _⟩ := CDbProxy.run_selectAgain PlayerBase.runtime hwrap
  obtain ⟨n, hended, hfired⟩ := h PlayerBase.runtime (CDbProxy.selectAgain nops)
    (CDbProxy.selectAgain_proper _ _) htimer 10 (fun _ => []) (by simp)
  exact CDbProxy.selectAgain_not_fired PlayerBase.runtime hwrap hended hfired

end Db
