import DbService.ProxyIterators
import DbService.PlayerBase

/-!
# The three containers of a proxy agree

`SessionTable` is what the operations rely on: the pending records, the clients' id sets
and the timeout list describe the same sessions.  `Consistent` is the invariant behind it,
with the counters that make new session ids and list nodes fresh.  Every operation either
enters one session everywhere or takes a set of sessions out everywhere, so two lemmas,
`openSession_consistent` and `Consistent.without`, carry the whole argument.

* `Consistent.sessionTable` -- the invariant gives the table;
* `step_consistent` -- an action keeps it, while session ids are left;
* `session_table_consistent` -- whole runs;
* `session_ids_not_below_counter` -- the counter has wrapped after `2 ^ 64 - 1` sessions.
-/

namespace Db

open Reflection ByteText

namespace CDbProxy

/-- The number of sessions created so far. -/
def sessionCount (proxy : CDbProxy) : Nat := proxy.registered.length

/-- (a) The pending sessions are the ids in the clients' sets, each under its own client;
(b) the timeout list holds one entry for each pending session but the nops, the record
points to it, and no dead iterator was ever used; (c) the list is sorted by deadline;
(d) pending ids are not 0 and below the counter, which has wrapped to 0 once `2 ^ 64 - 1`
sessions were created. -/
structure SessionTable (proxy : CDbProxy) : Prop where
  clients : ∀ nSessionID pDbClient, nSessionID ∈ proxy.sessionsOf pDbClient ↔
    ∃ info, proxy.m_mapPendingResponseInfo[nSessionID]? = some info ∧
      info.pDbClient = pDbClient
  timeouts : ∀ nSessionID info,
    proxy.m_mapPendingResponseInfo[nSessionID]? = some info →
    if info.nType = .kOT_NOP then
      proxy.m_listTimeout.filter (fun node => node.2.nSessionID == nSessionID) = []
    else
      ∃ node, proxy.m_listTimeout.filter (fun node => node.2.nSessionID == nSessionID) =
        [node] ∧ info.iterTimeout = some node.1
  live : ∀ node ∈ proxy.m_listTimeout,
    (proxy.m_mapPendingResponseInfo[node.2.nSessionID]?).isSome
  defined : proxy.undefined = false
  sorted : proxy.m_listTimeout.Pairwise fun lhs rhs => lhs.2.nTimeout ≤ rhs.2.nTimeout
  ids : ∀ nSessionID info, proxy.m_mapPendingResponseInfo[nSessionID]? = some info →
    nSessionID ≠ 0 ∧ (nSessionID < proxy.m_nNextSessionID ∨
      proxy.sessionCount = 2 ^ 64 - 1 ∧ proxy.m_nNextSessionID = 0)

/-- The invariant behind it: a sound proxy whose set members and entries all have their
record, whose list is sorted and whose counter is ahead of the ids in use. -/
structure Consistent (proxy : CDbProxy) : Prop extends Sound proxy where
  only_pending : ∀ pDbClient nSessionID, nSessionID ∈ proxy.sessionsOf pDbClient →
    ∃ info, proxy.m_mapPendingResponseInfo[nSessionID]? = some info ∧
      info.pDbClient = pDbClient
  only_entry : ∀ node ∈ proxy.m_listTimeout, ∃ info,
    proxy.m_mapPendingResponseInfo[node.2.nSessionID]? = some info ∧
      info.iterTimeout = some node.1
  sorted : proxy.m_listTimeout.Pairwise notAfter
  ids : ∀ nSessionID info, proxy.m_mapPendingResponseInfo[nSessionID]? = some info →
    nSessionID ≠ 0 ∧ nSessionID ≤ proxy.sessionCount
  next : proxy.m_nNextSessionID = (1 + proxy.sessionCount) % 2 ^ 64

theorem init_consistent : Consistent init where
  toSound := init_sound
  only_pending := by simp [init, sessionsOf]
  only_entry := by simp [init]
  sorted := by simp [init]
  ids := by simp [init]
  next := by simp [init, sessionCount]

section

variable {proxy : CDbProxy}

/-- An entry belongs to a pending session exactly when the record points to it. -/
theorem Consistent.entry_iff (h : Consistent proxy) {nSessionID : Nat}
    {info : SPendingResponseInfo}
    (hpending : proxy.m_mapPendingResponseInfo[nSessionID]? = some info)
    {node : Nat × STimeoutInfo} (hnode : node ∈ proxy.m_listTimeout) :
    node.2.nSessionID = nSessionID ↔ info.iterTimeout = some node.1 := by
  constructor
  · intro heq
    subst heq
    obtain ⟨info', hpending', hiter⟩ := h.only_entry node hnode
    rw [hpending] at hpending'
    exact Option.some.inj hpending' ▸ hiter
  · intro hiter
    rcases h.own_entry nSessionID info hpending with ⟨_, hnone⟩ | ⟨_, node', hnode', hiter', hid⟩
    · rw [hnone] at hiter
      cases hiter
    · have heq : node = node' := by
        apply List.inj_on_of_nodup_map h.nodes hnode hnode'
        rw [hiter] at hiter'
        exact Option.some.inj hiter'
      exact heq ▸ hid

/-- **The invariant gives the table.** -/
theorem Consistent.sessionTable (h : Consistent proxy) (hcount : proxy.sessionCount < 2 ^ 64) :
    SessionTable proxy where
  clients := by
    intro nSessionID pDbClient
    constructor
    · exact h.only_pending pDbClient nSessionID
    · intro hcase
      obtain ⟨info, hpending, rfl⟩ := hcase
      exact h.own_client nSessionID info hpending
  timeouts := by
    intro nSessionID info hpending
    rcases h.own_entry nSessionID info hpending with ⟨hnop, hnone⟩ | ⟨hnop, node, hnode, hiter, hid⟩
    · rw [if_pos hnop, List.filter_eq_nil_iff]
      intro node hnode hid
      have hiter := (h.entry_iff hpending hnode).mp (by simpa using hid)
      rw [hnone] at hiter
      cases hiter
    · rw [if_neg hnop]
      refine ⟨node, ?_, hiter⟩
      have hfilter : proxy.m_listTimeout.filter (fun node => node.2.nSessionID == nSessionID) =
          proxy.m_listTimeout.filter (· = node) := by
        apply List.filter_congr
        intro node' hnode'
        have hsame : node'.2.nSessionID = nSessionID ↔ node' = node := by
          rw [h.entry_iff hpending hnode', hiter, Option.some.injEq]
          constructor
          · intro hfst
            exact List.inj_on_of_nodup_map h.nodes hnode' hnode hfst.symm
          · intro heq
            subst heq
            rfl
        rw [Bool.eq_iff_iff, beq_iff_eq, decide_eq_true_eq, hsame]
      rw [hfilter, List.filter_eq, List.count_eq_one_of_mem h.nodes.of_map hnode,
        List.replicate_one]
  live := by
    intro node hnode
    obtain ⟨info, hpending, _⟩ := h.only_entry node hnode
    simp [hpending]
  defined := h.defined
  sorted := h.sorted
  ids := by
    intro nSessionID info hpending
    obtain ⟨hzero, hle⟩ := h.ids nSessionID info hpending
    refine ⟨hzero, ?_⟩
    rw [h.next]
    omega

/-- **Taking sessions out.**  When the records, the set members and the entries of the
sessions in `gone` disappear together, the invariant stays. -/
theorem Consistent.without (h : Consistent proxy) {proxy' : CDbProxy} (hsound : Sound proxy')
    (gone : Nat → Bool)
    (hpending : ∀ nSessionID : Nat, proxy'.m_mapPendingResponseInfo[nSessionID]? =
      if gone nSessionID then none else proxy.m_mapPendingResponseInfo[nSessionID]?)
    (hsessions : ∀ pDbClient nSessionID, nSessionID ∈ proxy'.sessionsOf pDbClient →
      nSessionID ∈ proxy.sessionsOf pDbClient ∧ gone nSessionID = false)
    (hlist : proxy'.m_listTimeout =
      proxy.m_listTimeout.filter fun node => !gone node.2.nSessionID)
    (hregistered : proxy'.registered = proxy.registered)
    (hnext : proxy'.m_nNextSessionID = proxy.m_nNextSessionID) : Consistent proxy' where
  toSound := hsound
  only_pending := by
    intro pDbClient nSessionID hin
    obtain ⟨hin', hgone⟩ := hsessions _ _ hin
    obtain ⟨info, hsome, hclient⟩ := h.only_pending pDbClient nSessionID hin'
    exact ⟨info, by simp [hpending, hgone, hsome], hclient⟩
  only_entry := by
    intro node hin
    rw [hlist] at hin
    obtain ⟨hin', hgone⟩ := List.mem_filter.mp hin
    obtain ⟨info, hsome, hiter⟩ := h.only_entry node hin'
    exact ⟨info, by simp only [Bool.not_eq_true'] at hgone; simp [hpending, hgone, hsome], hiter⟩
  sorted := by
    rw [hlist]
    exact h.sorted.sublist List.filter_sublist
  ids := by
    intro nSessionID info hsome
    rw [sessionCount, hregistered]
    apply h.ids nSessionID info
    rw [hpending] at hsome
    split at hsome
    · cases hsome
    · exact hsome
  next := by
    rw [hnext, sessionCount, hregistered]
    exact h.next

/-- Erasing the node a record points to erases the entries of its session. -/
theorem Consistent.eraseNode_eq (h : Consistent proxy) {nSessionID : Nat}
    {info : SPendingResponseInfo}
    (hpending : proxy.m_mapPendingResponseInfo[nSessionID]? = some info) {iter : Nat}
    (hiter : info.iterTimeout = some iter) :
    eraseNode proxy.m_listTimeout iter =
      proxy.m_listTimeout.filter fun node => !(node.2.nSessionID == nSessionID) := by
  apply List.filter_congr
  intro node hnode
  have hiff := h.entry_iff hpending hnode
  rw [hiter, Option.some.injEq] at hiff
  by_cases heq : node.1 = iter
  · simp [heq, hiff.mpr heq.symm]
  · have hne : node.2.nSessionID ≠ nSessionID := fun hid => heq (hiff.mp hid).symm
    rw [bne, beq_eq_false_iff_ne.mpr heq, beq_eq_false_iff_ne.mpr hne]

/-- A record without an entry has none under its session either. -/
theorem Consistent.filter_eq_self (h : Consistent proxy) {nSessionID : Nat}
    {info : SPendingResponseInfo}
    (hpending : proxy.m_mapPendingResponseInfo[nSessionID]? = some info)
    (hiter : info.iterTimeout = none) :
    (proxy.m_listTimeout.filter fun node => !(node.2.nSessionID == nSessionID)) =
      proxy.m_listTimeout := by
  apply List.filter_eq_self.mpr
  intro node hnode
  have hiff := h.entry_iff hpending hnode
  rw [hiter] at hiff
  simpa using hiff

/-- **Closing one session:** the record, the set member and the entry go together. -/
theorem Consistent.close (h : Consistent proxy) {nSessionID : Nat}
    {info : SPendingResponseInfo}
    (hpending : proxy.m_mapPendingResponseInfo[nSessionID]? = some info) {proxy' : CDbProxy}
    (hsound : Sound proxy')
    (hmap : proxy'.m_mapPendingResponseInfo =
      (proxy.closeSession nSessionID info).m_mapPendingResponseInfo)
    (hclients : proxy'.m_mapPendingResponseInfoByDbClient =
      (proxy.closeSession nSessionID info).m_mapPendingResponseInfoByDbClient)
    (hlist : proxy'.m_listTimeout =
      match info.iterTimeout with
      | none => proxy.m_listTimeout
      | some iter => eraseNode proxy.m_listTimeout iter)
    (hregistered : proxy'.registered = proxy.registered)
    (hnext : proxy'.m_nNextSessionID = proxy.m_nNextSessionID) : Consistent proxy' := by
  refine h.without hsound (fun id => id == nSessionID) ?_ ?_ ?_ hregistered hnext
  · intro id
    rw [hmap]
    simp only [closeSession, Std.ExtTreeMap.getElem?_erase, beq_iff_eq]
    by_cases heq : id = nSessionID
    · simp [heq]
    · simp [heq, Ne.symm heq]
  · intro pDbClient id hin
    rw [sessionsOf, hclients, ← sessionsOf, mem_closeSession_sessionsOf] at hin
    refine ⟨hin.1, ?_⟩
    obtain ⟨info', hpending', hclient⟩ := h.only_pending pDbClient id hin.1
    rw [beq_eq_false_iff_ne]
    intro heq
    subst heq
    rw [hpending] at hpending'
    exact hin.2 ⟨by rw [← hclient, Option.some.inj hpending'], rfl⟩
  · rw [hlist]
    cases hiter : info.iterTimeout with
    | none => exact (h.filter_eq_self hpending hiter).symm
    | some iter => exact h.eraseNode_eq hpending hiter

/-! ## The operations keep it -/

/-- While session ids are left, the next one is the number of sessions plus one. -/
theorem Consistent.next_eq (h : Consistent proxy)
    (hcount : proxy.sessionCount + 1 < 2 ^ 64) :
    proxy.m_nNextSessionID = proxy.sessionCount + 1 := by
  rw [h.next]
  omega

/-- **Entering one session:** the id is fresh, so nothing is overwritten. -/
theorem openSession_consistent (h : Consistent proxy)
    (hcount : proxy.sessionCount + 1 < 2 ^ 64) {nType : EOperatorType}
    {nTimeout : Option Int} (hnop : nTimeout = none ↔ nType = .kOT_NOP)
    (pDbClient nContext callback : Nat) :
    Consistent (proxy.openSession nType pDbClient nTimeout nContext callback).2 := by
  have hnext := h.next_eq hcount
  have hold : ∀ (nSessionID : Nat) info,
      proxy.m_mapPendingResponseInfo[nSessionID]? = some info →
      proxy.m_nNextSessionID ≠ nSessionID := by
    intro nSessionID info hsome heq
    subst heq
    have hle := (h.ids _ info hsome).2
    omega
  refine ⟨openSession_sound h.toSound hnop pDbClient nContext callback, ?_, ?_, ?_, ?_, ?_⟩
  · intro pDbClient' nSessionID hin
    rw [openSession_sessionsOf] at hin
    rw [openSession_pending]
    by_cases hid : proxy.m_nNextSessionID = nSessionID
    · subst hid
      by_cases hclient : pDbClient = pDbClient'
      · exact ⟨_, Std.ExtTreeMap.getElem?_insert_self, hclient⟩
      · simp only [hclient, if_false] at hin
        obtain ⟨info, hsome, _⟩ := h.only_pending pDbClient' _ hin
        exact absurd rfl (hold _ info hsome)
    · have hin' : nSessionID ∈ proxy.sessionsOf pDbClient' := by
        by_cases hclient : pDbClient = pDbClient'
        · subst hclient
          simpa [hid] using hin
        · simpa [hclient] using hin
      obtain ⟨info, hsome, hclient⟩ := h.only_pending pDbClient' nSessionID hin'
      exact ⟨info, by simpa [Std.ExtTreeMap.getElem?_insert, hid] using hsome, hclient⟩
  · intro node hin
    rw [openSession_listTimeout] at hin
    rw [openSession_pending]
    have hcases : node ∈ proxy.m_listTimeout ∨ ∃ deadline, nTimeout = some deadline ∧
        node = (proxy.nNextNode, ⟨proxy.m_nNextSessionID, deadline⟩) := by
      cases nTimeout with
      | none => exact .inl hin
      | some deadline => simpa [List.mem_orderedInsert, or_comm] using hin
    rcases hcases with hin' | ⟨deadline, hdeadline, rfl⟩
    · obtain ⟨info, hsome, hiter⟩ := h.only_entry node hin'
      refine ⟨info, ?_, hiter⟩
      simpa [Std.ExtTreeMap.getElem?_insert, hold _ info hsome] using hsome
    · exact ⟨_, Std.ExtTreeMap.getElem?_insert_self, by simp [newInfo, hdeadline]⟩
  · rw [openSession_listTimeout]
    cases nTimeout with
    | none => exact h.sorted
    | some deadline => exact List.Pairwise.orderedInsert _ _ h.sorted
  · intro nSessionID info hsome
    rw [openSession_pending, Std.ExtTreeMap.getElem?_insert] at hsome
    simp only [sessionCount, openSession_registered, List.length_append, List.length_singleton]
    by_cases heq : proxy.m_nNextSessionID = nSessionID
    · rw [← heq, hnext]
      exact ⟨by omega, Nat.le_refl _⟩
    · obtain ⟨hzero, hle⟩ := h.ids nSessionID info (by simpa [heq] using hsome)
      exact ⟨hzero, Nat.le_succ_of_le hle⟩
  · simp only [sessionCount, openSession_registered, List.length_append, List.length_singleton,
      openSession_nextSession, hnext]
    omega

theorem onMessage_consistent (h : Consistent proxy) (pb : Runtime) (pResponse : Response)
    (hsound : Sound (proxy.onMessage pb pResponse)) :
    Consistent (proxy.onMessage pb pResponse) := by
  cases hpending : proxy.m_mapPendingResponseInfo[pResponse.session_id]? with
  | none =>
      rw [onMessage_of_unknown hpending]
      exact h
  | some info =>
      rw [onMessage_of_pending hpending] at hsound ⊢
      unfold withoutEntry at hsound ⊢
      cases hiter : info.iterTimeout with
      | none =>
          rw [hiter] at hsound
          exact h.close hpending hsound rfl rfl (by rw [hiter]; rfl) rfl rfl
      | some iter =>
          rw [hiter] at hsound
          exact h.close hpending hsound rfl rfl (by rw [hiter]; rfl) rfl rfl

theorem timerNext_consistent (h : Consistent proxy) : Consistent proxy.timerNext := by
  have hsound := timerNext_sound h.toSound
  have houtcome : TimerOutcome proxy proxy.timerNext := timerNext_outcome
  generalize proxy.timerNext = proxy' at houtcome hsound
  cases houtcome with
  | idle => exact h
  | done => exact ⟨hsound, h.only_pending, h.only_entry, h.sorted, h.ids, h.next⟩
  | dead nCurTime iter htimer hdead =>
      exact ⟨hsound, h.only_pending, h.only_entry, h.sorted, h.ids, h.next⟩
  | stale nCurTime node hnode hunknown =>
      obtain ⟨info, hpending, _⟩ := h.only_entry node hnode
      rw [hunknown] at hpending
      cases hpending
  | expired nCurTime node info hnode hpending =>
      obtain ⟨info', hpending', hiter⟩ := h.only_entry node hnode
      obtain rfl : info = info' := by
        rw [hpending] at hpending'
        exact Option.some.inj hpending'
      exact h.close hpending hsound rfl rfl (by rw [hiter]; rfl) rfl rfl

/-- An entry is pointed to by the records of its own session alone. -/
theorem Consistent.pointedBy_eq (h : Consistent proxy) (ids : List Nat)
    {node : Nat × STimeoutInfo} (hnode : node ∈ proxy.m_listTimeout) :
    proxy.pointedBy ids (some node.1) = decide (node.2.nSessionID ∈ ids) := by
  rw [Bool.eq_iff_iff, decide_eq_true_eq, pointedBy_eq_true]
  constructor
  · intro hcase
    obtain ⟨nSessionID, hin, info, hpending, hiter⟩ := hcase
    exact (h.entry_iff hpending hnode).mpr hiter ▸ hin
  · intro hin
    obtain ⟨info, hpending, hiter⟩ := h.only_entry node hnode
    exact ⟨_, hin, info, hpending, hiter⟩

theorem removePendingResponseInfo_consistent (h : Consistent proxy) {pDbClient : Nat}
    (hsound : Sound (proxy.removePendingResponseInfo pDbClient)) :
    Consistent (proxy.removePendingResponseInfo pDbClient) := by
  by_cases hclient : pDbClient = 0
  · rw [removePendingResponseInfo, if_pos hclient]
    exact h
  · have hremoval := removePendingResponseInfo_removal proxy hclient
    refine h.without hsound (fun nSessionID => decide (nSessionID ∈ proxy.sessionsOf pDbClient))
      ?_ ?_ ?_ hremoval.registered hremoval.next
    · simpa using hremoval.pending
    · intro pDbClient' nSessionID hin
      rw [hremoval.sessions] at hin
      split at hin
      · simp at hin
      · rename_i hne
        refine ⟨hin, ?_⟩
        rw [decide_eq_false_iff_not]
        intro hin'
        obtain ⟨info, hsome, hclient'⟩ := h.only_pending pDbClient' nSessionID hin
        obtain ⟨info', hsome', hclient''⟩ := h.only_pending pDbClient nSessionID hin'
        rw [hsome] at hsome'
        exact hne (hclient'.symm.trans (Option.some.inj hsome' ▸ hclient''))
    · rw [hremoval.entries]
      apply List.filter_congr
      intro node hnode
      rw [h.pointedBy_eq _ hnode]
      simp

end

/-! ## Runs -/

variable {pb : Runtime}

/-- Sessions are only ever added to the count. -/
theorem sessionCount_step (proxy : CDbProxy) (action : ProxyAction) :
    proxy.sessionCount ≤ (proxy.step pb action).1.sessionCount := by
  have hkind := step_kind pb proxy action
  generalize (proxy.step pb action).1 = proxy' at hkind
  cases hkind with
  | idle => exact Nat.le_refl _
  | opened => simp [sessionCount]
  | message pResponse =>
      cases hpending : proxy.m_mapPendingResponseInfo[pResponse.session_id]? with
      | none => rw [onMessage_of_unknown hpending]
      | some info =>
          rw [onMessage_of_pending hpending]
          unfold withoutEntry
          cases info.iterTimeout <;> exact Nat.le_refl _
  | timerStart => exact Nat.le_refl _
  | timerNext =>
      have houtcome : TimerOutcome proxy proxy.timerNext := timerNext_outcome
      generalize proxy.timerNext = proxy' at houtcome
      cases houtcome <;> exact Nat.le_refl _
  | removal pDbClient =>
      unfold removePendingResponseInfo
      split
      · exact Nat.le_refl _
      · split
        · exact Nat.le_refl _
        · rename_i setSessionID _
          simp [sessionCount, (foldl_removed proxy setSessionID.toList).registered]

/-- **The step lemma.**  While session ids are left, an action that leaves the proxy sound keeps
the invariant. -/
theorem step_consistent (pb : Runtime) {proxy : CDbProxy} (h : Consistent proxy)
    (action : ProxyAction)
    (hsound : Sound (proxy.step pb action).1)
    (hcount : (proxy.step pb action).1.sessionCount < 2 ^ 64) :
    Consistent (proxy.step pb action).1 := by
  have hkind := step_kind pb proxy action
  generalize (proxy.step pb action).1 = proxy' at hkind hcount hsound
  cases hkind with
  | idle => exact h
  | opened _ nType pDbClient nTimeout nContext callback hnop =>
      refine openSession_consistent h ?_ hnop pDbClient nContext callback
      simpa [sessionCount] using hcount
  | message pResponse => exact onMessage_consistent h pb pResponse hsound
  | timerStart nCurTime =>
      exact ⟨hsound, h.only_pending, h.only_entry, h.sorted, h.ids, h.next⟩
  | timerNext => exact timerNext_consistent h
  | removal pDbClient => exact removePendingResponseInfo_consistent h hsound

/-- The count of a run bounds the count on the way. -/
theorem sessionCount_run (pb : Runtime) (proxy : CDbProxy) (actions : List ProxyAction) :
    proxy.sessionCount ≤ (Runs.run (step pb) proxy actions).sessionCount :=
  Runs.run_preserves (fun proxy' => proxy.sessionCount ≤ proxy'.sessionCount)
    (fun proxy' action hle => Nat.le_trans hle (sessionCount_step proxy' action))
    (Nat.le_refl _) actions

/-- A run whose actions meet a condition that keeps the proxy sound. -/
theorem run_consistent {ok : CDbProxy → ProxyAction → Prop}
    (hok : ∀ proxy action, Sound proxy → ok proxy action → Sound (proxy.step pb action).1)
    {proxy : CDbProxy} (h : Consistent proxy) (actions : List ProxyAction)
    (hguarded : Runs.Guarded (step pb) ok proxy actions)
    (hcount : (Runs.run (step pb) proxy actions).sessionCount < 2 ^ 64) :
    Consistent (Runs.run (step pb) proxy actions) := by
  induction actions generalizing proxy with
  | nil => exact h
  | cons action rest ih =>
      have hle := sessionCount_run pb (proxy.step pb action).1 rest
      exact ih (step_consistent pb h action (hok proxy action h.toSound hguarded.1)
        (Nat.lt_of_le_of_lt hle hcount)) hguarded.2 hcount

end CDbProxy

/-- **The containers agree.**  After every allowed run that creates fewer than `2 ^ 64`
sessions the records, the clients' sets and the timeout list describe the same sessions. -/
theorem session_table_consistent (pb : Runtime) (actions : List ProxyAction)
    (hallowed : Runs.Guarded (CDbProxy.step pb) CDbProxy.Allowed CDbProxy.init actions)
    (hcount : (Runs.run (CDbProxy.step pb) CDbProxy.init actions).sessionCount < 2 ^ 64) :
    CDbProxy.SessionTable (Runs.run (CDbProxy.step pb) CDbProxy.init actions) :=
  (CDbProxy.run_consistent (fun _ action h hok => CDbProxy.step_sound pb h action hok)
    CDbProxy.init_consistent actions hallowed hcount).sessionTable hcount

/-- A select, a nop, a timer that expires the select, and a late answer for it. -/
def selectAndNop : List ProxyAction :=
  [.select ⟨100, true⟩ 1 5 "player_base" 10 7 0, .nop ⟨100, true⟩ 2 0 8 1,
    .timerStart 110, .timerNext, .timerNext, .onMessage ⟨1, 0, none, none⟩]

/-- The table after that run. -/
theorem session_table_consistent_selectAndNop :
    CDbProxy.SessionTable
      (Runs.run (CDbProxy.step PlayerBase.runtime) CDbProxy.init selectAndNop) :=
  session_table_consistent PlayerBase.runtime selectAndNop
    ⟨trivial, trivial, rfl, trivial, trivial, rfl, trivial⟩ (by decide)

namespace CDbProxy

/-- A nop of client 1. -/
def oneClientNop : ProxyAction := .nop ⟨0, true⟩ 1 0 0 0

/-- After `n` nops the last session has the id `n` and is pending. -/
theorem run_nops (pb : Runtime) (n : Nat) (hn : n < 2 ^ 64) :
    let proxy := Runs.run (step pb) init (List.replicate n oneClientNop)
    Consistent proxy ∧ proxy.sessionCount = n ∧
      (n ≠ 0 → (proxy.m_mapPendingResponseInfo[n]?).isSome) := by
  induction n with
  | zero => exact ⟨init_consistent, rfl, fun h => absurd rfl h⟩
  | succ n ih =>
      obtain ⟨hconsistent, hcount, _⟩ := ih (by omega)
      rw [List.replicate_succ', Runs.run_append]
      generalize Runs.run (step pb) init (List.replicate n oneClientNop) = proxy at *
      have hnext := hconsistent.next_eq (by omega)
      have hafter : (proxy.step pb oneClientNop).1.sessionCount = n + 1 := by
        simp [step, oneClientNop, nop, request_r, sessionCount, hcount.symm]
      have hsound := step_sound pb hconsistent.toSound oneClientNop trivial
      refine ⟨step_consistent pb hconsistent _ hsound (by omega), hafter, fun _ => ?_⟩
      have hid : n + 1 = proxy.m_nNextSessionID := by omega
      rw [hid]
      simp [Runs.run, step, oneClientNop, nop, request_r]

end CDbProxy

/-- With `2 ^ 64 - 1` sessions the counter is back at 0, and no id is below it. -/
theorem session_ids_not_below_counter :
    ¬ ∀ (pb : Runtime) (actions : List ProxyAction),
      Runs.Guarded (CDbProxy.step pb) CDbProxy.Allowed CDbProxy.init actions →
      (Runs.run (CDbProxy.step pb) CDbProxy.init actions).sessionCount < 2 ^ 64 →
      ∀ (nSessionID : Nat) info,
        (Runs.run (CDbProxy.step pb) CDbProxy.init
          actions).m_mapPendingResponseInfo[nSessionID]? = some info →
        nSessionID ≠ 0 ∧ nSessionID <
          (Runs.run (CDbProxy.step pb) CDbProxy.init actions).m_nNextSessionID := by
  intro h
  obtain ⟨hconsistent, hcount, hpending⟩ :=
    CDbProxy.run_nops PlayerBase.runtime (2 ^ 64 - 1) (by omega)
  have hallowed : ∀ n (proxy : CDbProxy), Runs.Guarded (CDbProxy.step PlayerBase.runtime)
      CDbProxy.Allowed proxy (List.replicate n CDbProxy.oneClientNop) := by
    intro n
    induction n with
    | zero => exact fun _ => trivial
    | succ n ih => exact fun proxy => ⟨trivial, ih _⟩
  obtain ⟨info, hsome⟩ := Option.isSome_iff_exists.mp (hpending (by omega))
  have hbelow := (h PlayerBase.runtime _ (hallowed _ _) (by omega) _ info hsome).2
  have hnext := hconsistent.next
  rw [hcount] at hnext
  omega

end Db
