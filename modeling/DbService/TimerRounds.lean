import DbService.Walks
import DbService.ClientDestruction
import DbService.ProxyRequests
import DbService.SessionTable

/-!
# `onTimer` and its callbacks

A round of `onTimer` erases one entry, goes on to the next one and calls back; the callback makes
requests, whose entries go into the list under the loop.  The loop ends (`timerRounds_end`), since
their deadlines are not before the clock the loop compares with.

* `step_sorted` -- the list is sorted after every action;
* `Visiting.round` -- what a round of the loop does;
* `timerRounds_end` -- the loop ends.
-/

namespace Db

open Reflection ByteText

namespace CDbProxy

variable (pb : Runtime)

/-- A request made at `nCurTime` or later. -/
def RequestSince (nCurTime : Int) (action : ProxyAction) : Prop :=
  ∃ env, action.env = some env ∧ nCurTime ≤ env.nTime

/-- One round of `onTimer` with the callback it ends in.  `behaviour n` is what the callback with
`n` calls before it does. -/
def timerRound (behaviour : Nat → List ProxyAction) (proxy : CDbProxy) : CDbProxy :=
  if proxy.timerNext.invoked.length = proxy.invoked.length then proxy.timerNext
  else Runs.run (step pb) proxy.timerNext (behaviour proxy.invoked.length)

/-- `onTimer` at clock `nCurTime`, for `n` rounds. -/
def onTimer (behaviour : Nat → List ProxyAction) (nCurTime : Int) (n : Nat) (proxy : CDbProxy) :
    CDbProxy :=
  (timerRound pb behaviour)^[n] (proxy.timerStart nCurTime)

/-! ## Where the loop stands -/

/-- **The loop is under way:** it has `rest` before it, and what is in front of that was entered
since the node numbers were at `nNode`. -/
structure Visiting (nCurTime : Int) (nNode : Nat) (proxy : CDbProxy)
    (fresh rest : List (Nat × STimeoutInfo)) : Prop where
  timer : proxy.timer = some (nCurTime, rest.head?.map Prod.fst)
  list : proxy.m_listTimeout = fresh ++ rest
  entered : ∀ node ∈ fresh, nNode ≤ node.1
  node : nNode ≤ proxy.nNextNode

/-- **The loop is over:** the entries left from before are not due. -/
structure Visited (nCurTime : Int) (nNode : Nat) (proxy : CDbProxy) : Prop where
  timer : proxy.timer = none
  later : ∀ node ∈ proxy.m_listTimeout, node.1 < nNode → nCurTime < node.2.nTimeout

section

variable {pb} {proxy : CDbProxy} {nCurTime : Int} {nNode : Nat}
  {fresh rest : List (Nat × STimeoutInfo)}

theorem timerStart_visiting (nCurTime : Int) (proxy : CDbProxy) :
    Visiting nCurTime proxy.nNextNode (proxy.timerStart nCurTime) [] proxy.m_listTimeout :=
  ⟨rfl, rfl, by simp, Nat.le_refl _⟩

/-- The deadline of an entry. -/
def deadlineOf (node : Nat × STimeoutInfo) : Int := node.2.nTimeout

theorem notAfter_iff (lhs rhs : Nat × STimeoutInfo) :
    notAfter lhs rhs ↔ deadlineOf lhs ≤ deadlineOf rhs := Iff.rfl

/-- A new session goes in front of the loop, or behind entries that come before the clock. -/
theorem Visiting.openSession (h : Visiting nCurTime nNode proxy fresh rest)
    (nType : EOperatorType) (pDbClient : Nat) {deadline? : Option Int}
    (hlater : ∀ deadline, deadline? = some deadline → nCurTime ≤ deadline)
    (nContext callback : Nat) :
    ∃ fresh' rest', Visiting nCurTime nNode
        (proxy.openSession nType pDbClient deadline? nContext callback).2 fresh' rest' ∧
      Walks.before deadlineOf nCurTime rest' = Walks.before deadlineOf nCurTime rest ∧
      (Walks.before deadlineOf nCurTime rest = 0 →
        Walks.upTo deadlineOf nCurTime rest' = Walks.upTo deadlineOf nCurTime rest) := by
  cases deadline? with
  | none => exact ⟨fresh, rest, ⟨h.timer, h.list, h.entered, h.node⟩, rfl, fun _ => rfl⟩
  | some deadline =>
      obtain ⟨fresh', rest', hlist, hhead, hfresh, hcounts⟩ :=
        Walks.insert_split (a := (proxy.nNextNode, ⟨proxy.m_nNextSessionID, deadline⟩))
          notAfter_iff (hlater deadline rfl) fresh rest
      refine ⟨fresh', rest', ⟨?_, ?_, ?_, Nat.le_succ_of_le h.node⟩, hcounts⟩
      · rw [openSession_timer, h.timer, hhead]
      · rw [openSession_listTimeout]
        simp only [h.list, hlist]
      · intro node hin
        rcases hfresh node hin with rfl | hold
        · exact h.node
        · exact h.entered node hold

/-- A request opens a session with a deadline from its clock on, or leaves the proxy alone. -/
theorem request_opens (pb : Runtime) (proxy : CDbProxy) {action : ProxyAction}
    {env : Environment} (henv : action.env = some env) :
    (proxy.step pb action).1 = proxy ∨
      ∃ nType pDbClient deadline? nContext callback, (deadline? = none ↔ nType = .kOT_NOP) ∧
        (∀ deadline, deadline? = some deadline → env.nTime ≤ deadline) ∧
        (proxy.step pb action).1 =
          (proxy.openSession nType pDbClient deadline? nContext callback).2 := by
  obtain ⟨result, hresult⟩ := exists_operate pb proxy henv
  rw [step_of_operate hresult]
  cases operated henv hresult with
  | unregistered => exact .inl rfl
  | registered nType pDbClient nAssociateID timeout content nContext callback _ hnop =>
      refine .inr ⟨nType, pDbClient, timeout.map fun t : Nat => env.nTime + t, nContext, callback,
        Option.map_eq_none_iff.trans hnop, ?_, by cases timeout <;> rfl⟩
      intro deadline heq
      obtain ⟨t, _, rfl⟩ := Option.map_eq_some_iff.mp heq
      omega

/-- **What a callback does to the loop.** -/
theorem Visiting.requests (pb : Runtime) (h : Visiting nCurTime nNode proxy fresh rest)
    {actions : List ProxyAction} (hrequests : ∀ action ∈ actions, RequestSince nCurTime action) :
    ∃ fresh' rest', Visiting nCurTime nNode (Runs.run (step pb) proxy actions) fresh' rest' ∧
      Walks.before deadlineOf nCurTime rest' = Walks.before deadlineOf nCurTime rest ∧
      (Walks.before deadlineOf nCurTime rest = 0 →
        Walks.upTo deadlineOf nCurTime rest' = Walks.upTo deadlineOf nCurTime rest) := by
  induction actions generalizing proxy fresh rest with
  | nil => exact ⟨fresh, rest, h, rfl, fun _ => rfl⟩
  | cons action actions ih =>
      obtain ⟨env, henv, hclock⟩ := hrequests action List.mem_cons_self
      have hrest : ∀ action ∈ actions, RequestSince nCurTime action :=
        fun action hin => hrequests action (List.mem_cons_of_mem _ hin)
      rcases request_opens pb proxy henv with
        hkept | ⟨nType, pDbClient, deadline?, nContext, callback, _, hlater, hopened⟩
      · rw [Runs.run, hkept]
        exact ih h hrest
      · rw [Runs.run, hopened]
        obtain ⟨fresh₁, rest₁, h₁, hbefore₁, hupTo₁⟩ := h.openSession nType pDbClient
          (fun deadline heq => Int.le_trans hclock (hlater deadline heq)) nContext callback
        obtain ⟨fresh₂, rest₂, h₂, hbefore₂, hupTo₂⟩ := ih h₁ hrest
        refine ⟨fresh₂, rest₂, h₂, hbefore₂.trans hbefore₁, fun hnone => ?_⟩
        exact (hupTo₂ (hbefore₁.trans hnone)).trans (hupTo₁ hnone)

/-! ## One round -/

/-- The entry the loop stands at is found, is erased alone, and the next one is behind it. -/
theorem nodes_at {node : Nat × STimeoutInfo}
    (hnodes : ((fresh ++ node :: rest).map Prod.fst).Nodup) :
    ((fresh ++ node :: rest).find? fun node' => node'.1 == node.1) = some node ∧
      eraseNode (fresh ++ node :: rest) node.1 = fresh ++ rest ∧
      nextNode (fresh ++ node :: rest) node.1 = rest.head?.map Prod.fst := by
  induction fresh with
  | nil =>
      have hrest : ∀ node' ∈ rest, node'.1 ≠ node.1 := by
        intro node' hin heq
        simp only [List.nil_append, List.map_cons, List.nodup_cons] at hnodes
        exact hnodes.1 (heq ▸ List.mem_map_of_mem hin)
      refine ⟨by simp, ?_, by simp [nextNode]⟩
      rw [eraseNode, List.nil_append, List.filter_cons_of_neg (by simp), List.nil_append]
      exact List.filter_eq_self.mpr fun node' hin => by simpa using hrest node' hin
  | cons first fresh ih =>
      simp only [List.cons_append, List.map_cons, List.nodup_cons] at hnodes
      obtain ⟨hfind, herase, hnext⟩ := ih hnodes.2
      have hne : first.1 ≠ node.1 := fun heq => hnodes.1 (by simp [heq])
      refine ⟨?_, ?_, ?_⟩
      · rw [List.cons_append, List.find?_cons_of_neg (by simpa using hne)]
        exact hfind
      · unfold eraseNode at herase ⊢
        rw [List.cons_append, List.filter_cons_of_pos (by simpa using hne), herase]
        rfl
      · rw [List.cons_append, nextNode, if_neg hne]
        exact hnext

/-- The loop ends at the end of the list or at an entry that is not due. -/
theorem Visiting.timerNext_done (h : Visiting nCurTime nNode proxy fresh rest)
    (hnodes : (proxy.m_listTimeout.map Prod.fst).Nodup)
    (hdone : ∀ node, rest.head? = some node → nCurTime < node.2.nTimeout) :
    proxy.timerNext = { proxy with timer := none } := by
  unfold timerNext
  cases rest with
  | nil => simp [h.timer]
  | cons node rest =>
      obtain ⟨hfind, _, _⟩ := nodes_at (h.list ▸ hnodes)
      simp only [h.timer, List.head?_cons, Option.map_some]
      rw [h.list, hfind]
      simp only [if_pos (hdone node rfl)]

/-- Then nothing is left that was due. -/
theorem Visiting.visited (h : Visiting nCurTime nNode proxy fresh rest)
    (hsorted : proxy.m_listTimeout.Pairwise notAfter)
    (hdone : ∀ node, rest.head? = some node → nCurTime < node.2.nTimeout) :
    Visited nCurTime nNode { proxy with timer := none } := by
  refine ⟨rfl, fun node hin hold => ?_⟩
  have hsplit : node ∈ fresh ++ rest := h.list ▸ hin
  rcases List.mem_append.mp hsplit with hfresh | hrest
  · exact absurd hold (Nat.not_lt.mpr (h.entered node hfresh))
  · cases rest with
    | nil => cases hrest
    | cons first rest =>
        have hfirst := hdone first rfl
        rcases List.mem_cons.mp hrest with rfl | hbehind
        · exact hfirst
        · rw [h.list] at hsorted
          have hle := List.rel_of_pairwise_cons (List.pairwise_append.mp hsorted).2.1 hbehind
          exact Int.lt_of_lt_of_le hfirst hle

/-- The loop has erased the entry it stood at and goes on with `rest`. -/
def goneOn (proxy : CDbProxy) (nCurTime : Int) (fresh rest : List (Nat × STimeoutInfo)) :
    CDbProxy :=
  { proxy with
    m_listTimeout := fresh ++ rest
    timer := some (nCurTime, rest.head?.map Prod.fst) }

/-- **The round of a due entry:** it is erased, and where it has a record, that is called back. -/
theorem Visiting.timerNext_due {node : Nat × STimeoutInfo}
    (h : Visiting nCurTime nNode proxy fresh (node :: rest))
    (hnodes : (proxy.m_listTimeout.map Prod.fst).Nodup) (hdue : node.2.nTimeout ≤ nCurTime) :
    proxy.timerNext =
      match proxy.m_mapPendingResponseInfo[node.2.nSessionID]? with
      | none => proxy.goneOn nCurTime fresh rest
      | some info =>
          ((proxy.goneOn nCurTime fresh rest).closeSession node.2.nSessionID info).invoke info
            EResultCode.kRC_TIME_OUT.code none := by
  obtain ⟨hfind, herase, hnext⟩ := nodes_at (h.list ▸ hnodes)
  unfold timerNext
  simp only [h.timer, List.head?_cons, Option.map_some]
  rw [h.list, hfind]
  simp only [if_neg (Int.not_lt.mpr hdue), herase, hnext]
  cases proxy.m_mapPendingResponseInfo[node.2.nSessionID]? <;> rfl

/-- An entry without a record is erased. -/
theorem Visiting.timerNext_stale {node : Nat × STimeoutInfo}
    (h : Visiting nCurTime nNode proxy fresh (node :: rest))
    (hnodes : (proxy.m_listTimeout.map Prod.fst).Nodup) (hdue : node.2.nTimeout ≤ nCurTime)
    (hpending : proxy.m_mapPendingResponseInfo[node.2.nSessionID]? = none) :
    proxy.timerNext = proxy.goneOn nCurTime fresh rest := by
  rw [h.timerNext_due hnodes hdue, hpending]

/-- An entry with a record closes its session and calls back. -/
theorem Visiting.timerNext_expired {node : Nat × STimeoutInfo}
    (h : Visiting nCurTime nNode proxy fresh (node :: rest))
    (hnodes : (proxy.m_listTimeout.map Prod.fst).Nodup) (hdue : node.2.nTimeout ≤ nCurTime)
    {info : SPendingResponseInfo}
    (hpending : proxy.m_mapPendingResponseInfo[node.2.nSessionID]? = some info) :
    proxy.timerNext = ((proxy.goneOn nCurTime fresh rest).closeSession node.2.nSessionID
      info).invoke info EResultCode.kRC_TIME_OUT.code none := by
  rw [h.timerNext_due hnodes hdue, hpending]

/-- A round visits the first entry that is due, and the rest is to be visited. -/
theorem Visiting.next {node : Nat × STimeoutInfo}
    (h : Visiting nCurTime nNode proxy fresh (node :: rest))
    (hnodes : (proxy.m_listTimeout.map Prod.fst).Nodup) (hdue : node.2.nTimeout ≤ nCurTime) :
    Visiting nCurTime nNode proxy.timerNext fresh rest := by
  cases hpending : proxy.m_mapPendingResponseInfo[node.2.nSessionID]? with
  | none =>
      rw [h.timerNext_stale hnodes hdue hpending]
      exact ⟨rfl, rfl, h.entered, h.node⟩
  | some info =>
      rw [h.timerNext_expired hnodes hdue hpending]
      exact ⟨rfl, rfl, h.entered, h.node⟩

/-! ## The loop ends -/

/-- **What an action does to the list:** it takes entries out, or enters one under a fresh node
number. -/
inductive ListStep (proxy proxy' : CDbProxy) : Prop
  | shrunk (hlist : proxy'.m_listTimeout.Sublist proxy.m_listTimeout)
      (hnode : proxy'.nNextNode = proxy.nNextNode)
  | entered (entry : STimeoutInfo)
      (hlist : proxy'.m_listTimeout =
        proxy.m_listTimeout.orderedInsert notAfter (proxy.nNextNode, entry))
      (hnode : proxy'.nNextNode = proxy.nNextNode + 1)

/-- An action changes the list in one of these ways. -/
theorem step_list (pb : Runtime) (proxy : CDbProxy) (action : ProxyAction) :
    ListStep proxy (proxy.step pb action).1 := by
  have hkind := step_kind pb proxy action
  generalize (proxy.step pb action).1 = proxy' at hkind
  cases hkind with
  | idle | timerStart => exact .shrunk (List.Sublist.refl _) rfl
  | opened _ nType pDbClient deadline? nContext callback =>
      cases deadline? with
      | none => exact .shrunk (List.Sublist.refl _) rfl
      | some deadline => exact .entered _ rfl rfl
  | message pResponse =>
      cases hpending : proxy.m_mapPendingResponseInfo[pResponse.session_id]? with
      | none =>
          rw [onMessage_of_unknown hpending]
          exact .shrunk (List.Sublist.refl _) rfl
      | some info =>
          rw [onMessage_of_pending hpending]
          unfold withoutEntry
          cases info.iterTimeout with
          | none => exact .shrunk (List.Sublist.refl _) rfl
          | some iter => exact .shrunk List.filter_sublist rfl
  | timerNext =>
      have houtcome : TimerOutcome proxy proxy.timerNext := timerNext_outcome
      generalize proxy.timerNext = proxy' at houtcome
      cases houtcome with
      | idle | done | dead => exact .shrunk (List.Sublist.refl _) rfl
      | stale | expired => exact .shrunk List.filter_sublist rfl
  | removal pDbClient =>
      by_cases hclient : pDbClient = 0
      · rw [removePendingResponseInfo, if_pos hclient]
        exact .shrunk (List.Sublist.refl _) rfl
      · have hremoval := removePendingResponseInfo_removal proxy hclient
        exact .shrunk (hremoval.entries ▸ List.filter_sublist) hremoval.node

/-- **The list is sorted after every action,** however often the session ids have wrapped. -/
theorem step_sorted (pb : Runtime) (h : proxy.m_listTimeout.Pairwise notAfter)
    (action : ProxyAction) : (proxy.step pb action).1.m_listTimeout.Pairwise notAfter := by
  cases step_list pb proxy action with
  | shrunk hlist => exact h.sublist hlist
  | entered entry hlist =>
      rw [hlist]
      exact List.Pairwise.orderedInsert _ _ h

/-- No action enters an entry under an old node number. -/
theorem step_entries (pb : Runtime) (action : ProxyAction) {nNode : Nat}
    (hnode : nNode ≤ proxy.nNextNode) :
    nNode ≤ (proxy.step pb action).1.nNextNode ∧
      ∀ node ∈ (proxy.step pb action).1.m_listTimeout, node.1 < nNode →
        node ∈ proxy.m_listTimeout := by
  cases step_list pb proxy action with
  | shrunk hlist hsame => exact ⟨hsame ▸ hnode, fun node hin _ => hlist.subset hin⟩
  | entered entry hlist hnext =>
      refine ⟨hnext ▸ Nat.le_succ_of_le hnode, fun node hin hlt => ?_⟩
      rw [hlist, List.mem_orderedInsert] at hin
      rcases hin with rfl | hold
      · exact absurd hlt (Nat.not_lt.mpr hnode)
      · exact hold

/-- What the loop needs of the list, kept by every action. -/
structure Ordered (proxy : CDbProxy) : Prop extends Linked proxy where
  sorted : proxy.m_listTimeout.Pairwise notAfter

theorem step_ordered (pb : Runtime) (h : Ordered proxy) (action : ProxyAction) :
    Ordered (proxy.step pb action).1 :=
  ⟨step_linked pb h.toLinked action, step_sorted pb h.sorted action⟩

/-- Every run keeps the list sorted. -/
theorem run_ordered (pb : Runtime) {proxy : CDbProxy} (h : Ordered proxy)
    (actions : List ProxyAction) :
    Ordered (Runs.run (step pb) proxy actions) :=
  Runs.run_preserves Ordered (fun _ action h => step_ordered pb h action) h actions

variable {behaviour : Nat → List ProxyAction}

/-- A round is a run: a step of the loop and the requests of the callback. -/
theorem timerRound_eq_run (pb : Runtime) (behaviour : Nat → List ProxyAction)
    (proxy : CDbProxy) :
    ∃ actions, timerRound pb behaviour proxy = Runs.run (step pb) proxy.timerNext actions ∧
      (actions = [] ∨ ∃ n, actions = behaviour n) := by
  unfold timerRound
  split
  · exact ⟨[], rfl, .inl rfl⟩
  · exact ⟨_, rfl, .inr ⟨_, rfl⟩⟩

/-- **A round of the loop** ends it, or takes an entry below the clock, or one at the clock when
there are none below it. -/
theorem Visiting.round (pb : Runtime)
    (hbehaviour : ∀ n, ∀ action ∈ behaviour n, RequestSince nCurTime action)
    (h : Visiting nCurTime nNode proxy fresh rest) (hordered : Ordered proxy) :
    Visited nCurTime nNode (timerRound pb behaviour proxy) ∨
      ∃ fresh' rest', Visiting nCurTime nNode (timerRound pb behaviour proxy) fresh' rest' ∧
        (Walks.before deadlineOf nCurTime rest' < Walks.before deadlineOf nCurTime rest ∨
          Walks.before deadlineOf nCurTime rest' = Walks.before deadlineOf nCurTime rest ∧
          Walks.upTo deadlineOf nCurTime rest' < Walks.upTo deadlineOf nCurTime rest) := by
  by_cases hdone : ∀ node, rest.head? = some node → nCurTime < node.2.nTimeout
  · refine .inl ?_
    have hnext := h.timerNext_done hordered.nodes hdone
    rw [timerRound, hnext, if_pos rfl]
    exact h.visited hordered.sorted hdone
  · cases rest with
    | nil => simp at hdone
    | cons node rest =>
        have hdue : node.2.nTimeout ≤ nCurTime := by simpa using hdone
        obtain ⟨actions, hround, hactions⟩ := timerRound_eq_run pb behaviour proxy
        have hrequests : ∀ action ∈ actions, RequestSince nCurTime action := by
          rcases hactions with rfl | ⟨n, rfl⟩
          · simp
          · exact hbehaviour n
        obtain ⟨fresh', rest', hvisiting, hbefore, hupTo⟩ :=
          (h.next hordered.nodes hdue).requests pb hrequests
        rw [hround]
        refine .inr ⟨fresh', rest', hvisiting, ?_⟩
        by_cases hbelow : node.2.nTimeout < nCurTime
        · refine .inl ?_
          rw [hbefore]
          simp [Walks.before, deadlineOf, hbelow]
        · -- The list is sorted, so no entry is below the clock any more.
          have hnone : Walks.before deadlineOf nCurTime rest = 0 := by
            have hsorted := hordered.sorted
            rw [h.list] at hsorted
            apply List.countP_eq_zero.mpr
            intro node' hin hlt
            have hle := List.rel_of_pairwise_cons (List.pairwise_append.mp hsorted).2.1 hin
            exact hbelow (Int.lt_of_le_of_lt hle (of_decide_eq_true hlt))
          refine .inr ⟨?_, ?_⟩
          · rw [hbefore]
            simp [Walks.before, deadlineOf, hbelow]
          · rw [hupTo hnone]
            simp [Walks.upTo, deadlineOf, hdue]

/-- A round keeps the list sorted, with what its callback does. -/
theorem timerRound_ordered (h : Ordered proxy) : Ordered (timerRound pb behaviour proxy) := by
  obtain ⟨actions, hround, _⟩ := timerRound_eq_run pb behaviour proxy
  rw [hround]
  exact run_ordered pb (step_ordered pb h .timerNext) actions

/-- **The loop ends.** -/
theorem timerRounds_end (pb : Runtime)
    (hbehaviour : ∀ n, ∀ action ∈ behaviour n, RequestSince nCurTime action)
    (hordered : Ordered proxy) :
    ∃ n, Visited nCurTime proxy.nNextNode (onTimer pb behaviour nCurTime n proxy) := by
  refine Walks.ends_of_decreasing (timerRound pb behaviour) (Visited nCurTime proxy.nNextNode)
    (fun proxy' first second => ∃ fresh rest, Visiting nCurTime proxy.nNextNode proxy' fresh rest ∧
      Ordered proxy' ∧ Walks.before deadlineOf nCurTime rest = first ∧
      Walks.upTo deadlineOf nCurTime rest = second) ?_
    ⟨_, _, timerStart_visiting nCurTime proxy, step_ordered pb hordered (.timerStart nCurTime),
      rfl, rfl⟩
  intro proxy' first second hcase
  obtain ⟨fresh, rest, hvisiting, hordered', rfl, rfl⟩ := hcase
  rcases hvisiting.round pb hbehaviour hordered' with
    hdone | ⟨fresh', rest', hnext, hless⟩
  · exact .inl hdone
  · exact .inr ⟨_, _, ⟨fresh', rest', hnext, timerRound_ordered hordered', rfl, rfl⟩, hless⟩

end

end CDbProxy

end Db
