import Mathlib.Data.List.Induction
import DbService.Runs
import DbService.DbProxy

/-!
# Records, iterators and entries of a proxy

`Sound` is what keeps the iterators of a proxy alive: every pending record is in its
client's set and points to an entry of its own session, or is a nop's and points to none,
and a running `onTimer` stands at an entry.  It holds in every allowed run, however many
sessions there are; no counter needs to be fresh.  What it says of records and entries
(`Linked`) every action keeps; only the iterators in use need allowed actions.

Main results:
* `step_linked` -- every action, allowed or not, keeps the links;
* `step_sound` -- every allowed action keeps the iterators alive;
* `removePendingResponseInfo_removal` -- what the removal of a client leaves.
-/

namespace Db

open Reflection ByteText

namespace CDbProxy

/-- The pending records, their clients and their entries belong together: every record is in the
set of its client and points to an entry of its own session, or is a nop's and points to none. -/
structure Linked (proxy : CDbProxy) : Prop where
  own_client : ∀ nSessionID info,
    proxy.m_mapPendingResponseInfo[nSessionID]? = some info →
    nSessionID ∈ proxy.sessionsOf info.pDbClient
  own_entry : ∀ nSessionID info,
    proxy.m_mapPendingResponseInfo[nSessionID]? = some info →
    info.nType = .kOT_NOP ∧ info.iterTimeout = none ∨
      info.nType ≠ .kOT_NOP ∧ ∃ node ∈ proxy.m_listTimeout,
        info.iterTimeout = some node.1 ∧ node.2.nSessionID = nSessionID
  nodes : (proxy.m_listTimeout.map Prod.fst).Nodup
  node_lt : ∀ node ∈ proxy.m_listTimeout, node.1 < proxy.nNextNode

/-- Besides, the iterators in use are valid: a running `onTimer` stands at an entry, and no
operation has gone through an iterator that was erased. -/
structure Sound (proxy : CDbProxy) : Prop extends Linked proxy where
  timer_entry : ∀ nCurTime iter, proxy.timer = some (nCurTime, some iter) →
    ∃ node ∈ proxy.m_listTimeout, node.1 = iter
  defined : proxy.undefined = false

/-- A new proxy is sound. -/
theorem init_sound : Sound init where
  own_client := by simp [init]
  own_entry := by simp [init]
  nodes := by simp [init]
  node_lt := by simp [init]
  timer_entry := by simp [init]
  defined := rfl

/-- A running `onTimer` stands at an entry or at the end of the list. -/
def CursorLive (proxy : CDbProxy) : Prop :=
  ∀ nCurTime iter, proxy.timer = some (nCurTime, some iter) →
    ∃ node ∈ proxy.m_listTimeout, node.1 = iter

theorem Linked.sound {proxy : CDbProxy} (h : Linked proxy) (hcursor : CursorLive proxy)
    (hdefined : proxy.undefined = false) : Sound proxy :=
  ⟨h, hcursor, hdefined⟩

/-- Without an `onTimer` under way there is no cursor to be alive. -/
theorem cursorLive_of_idle {proxy : CDbProxy} (htimer : proxy.timer = none) :
    CursorLive proxy := by
  intro nCurTime iter hrunning
  rw [htimer] at hrunning
  cases hrunning

/-- The cursor lives on while the timer and the entries stay. -/
theorem CursorLive.mono {proxy proxy' : CDbProxy} (h : CursorLive proxy)
    (htimer : proxy'.timer = proxy.timer)
    (hlist : ∀ node ∈ proxy.m_listTimeout, node ∈ proxy'.m_listTimeout) :
    CursorLive proxy' := by
  intro nCurTime iter hrunning
  obtain ⟨node, hin, heq⟩ := h nCurTime iter (htimer ▸ hrunning)
  exact ⟨node, hlist node hin, heq⟩

/-- Some session in the client's set is a pending nop. -/
def HasOutstandingNop (proxy : CDbProxy) (pDbClient : Nat) : Prop :=
  ∃ (nSessionID : Nat) (info : SPendingResponseInfo),
    nSessionID ∈ proxy.sessionsOf pDbClient ∧
    proxy.m_mapPendingResponseInfo[nSessionID]? = some info ∧ info.nType = .kOT_NOP

/-- What the owner of the proxy keeps to: `onTimer` runs to its end, with only requests
from its callbacks in between, and a client is removed without an outstanding nop. -/
def Allowed (proxy : CDbProxy) : ProxyAction → Prop
  | .onMessage _ | .timerStart _ => proxy.timer = none
  | .removePendingResponseInfo pDbClient =>
      proxy.timer = none ∧ ¬ HasOutstandingNop proxy pDbClient
  | _ => True

section

variable {proxy : CDbProxy}

/-- The entries after a session is entered: the old ones and, with a deadline, the new one. -/
theorem mem_openSession_listTimeout (proxy : CDbProxy) (nType : EOperatorType) (pDbClient : Nat)
    (nTimeout : Option Int) (nContext callback : Nat) (node : Nat × STimeoutInfo) :
    node ∈ (proxy.openSession nType pDbClient nTimeout nContext callback).2.m_listTimeout ↔
      node ∈ proxy.m_listTimeout ∨ ∃ deadline, nTimeout = some deadline ∧
        node = (proxy.nNextNode, ⟨proxy.m_nNextSessionID, deadline⟩) := by
  cases nTimeout with
  | none => simp
  | some deadline => simp [List.mem_orderedInsert, or_comm]

/-- **Entering a session** adds a record and, with a deadline, a fresh node. -/
theorem openSession_linked (h : Linked proxy) {nType : EOperatorType} {nTimeout : Option Int}
    (hnop : nTimeout = none ↔ nType = .kOT_NOP) (pDbClient nContext callback : Nat) :
    Linked (proxy.openSession nType pDbClient nTimeout nContext callback).2 := by
  have hmem := mem_openSession_listTimeout proxy nType pDbClient nTimeout nContext
    callback
  constructor
  · intro nSessionID info hsome
    rw [openSession_pending, Std.ExtTreeMap.getElem?_insert] at hsome
    rw [openSession_sessionsOf]
    by_cases heq : proxy.m_nNextSessionID = nSessionID
    · subst heq
      obtain rfl : _ = info := by simpa using hsome
      simp [newInfo]
    · have hin := h.own_client nSessionID info (by simpa [heq] using hsome)
      by_cases hclient : pDbClient = info.pDbClient
      · simp [hclient, hin]
      · simp [hclient, hin]
  · intro nSessionID info hsome
    rw [openSession_pending, Std.ExtTreeMap.getElem?_insert] at hsome
    by_cases heq : proxy.m_nNextSessionID = nSessionID
    · subst heq
      obtain rfl : _ = info := by simpa using hsome
      cases hdeadline : nTimeout with
      | none => exact .inl ⟨hnop.mp hdeadline, rfl⟩
      | some deadline =>
          refine .inr ⟨fun heq => ?_, (proxy.nNextNode, ⟨proxy.m_nNextSessionID, deadline⟩),
            ?_, rfl, rfl⟩
          · rw [hnop.mpr heq] at hdeadline
            cases hdeadline
          · rw [← hdeadline]
            exact (hmem _).mpr (.inr ⟨deadline, hdeadline, rfl⟩)
    · rcases h.own_entry nSessionID info (by simpa [heq] using hsome) with
        hnone | ⟨hne, node, hin, hiter, hid⟩
      · exact .inl hnone
      · exact .inr ⟨hne, node, (hmem node).mpr (.inl hin), hiter, hid⟩
  · rw [openSession_listTimeout]
    cases nTimeout with
    | none => exact h.nodes
    | some deadline =>
        have hperm := (List.perm_orderedInsert notAfter
          (proxy.nNextNode, (⟨proxy.m_nNextSessionID, deadline⟩ : STimeoutInfo))
          proxy.m_listTimeout).map Prod.fst
        refine hperm.nodup_iff.mpr (List.nodup_cons.mpr ⟨?_, h.nodes⟩)
        intro hin
        obtain ⟨node, hnode, heq⟩ := List.mem_map.mp hin
        have := h.node_lt node hnode
        omega
  · intro node hin
    rcases (hmem node).mp hin with hin' | ⟨deadline, hdeadline, rfl⟩
    · exact Nat.lt_of_lt_of_le (h.node_lt node hin') (openSession_nNextNode_le ..)
    · subst hdeadline
      exact Nat.lt_succ_self _

/-- A new session is sound: its record points to its own entry, or is a nop's and points to none.
-/
theorem openSession_sound (h : Sound proxy) {nType : EOperatorType} {nTimeout : Option Int}
    (hnop : nTimeout = none ↔ nType = .kOT_NOP) (pDbClient nContext callback : Nat) :
    Sound (proxy.openSession nType pDbClient nTimeout nContext callback).2 := by
  refine (openSession_linked h.toLinked hnop pDbClient nContext callback).sound ?_ ?_
  · refine CursorLive.mono h.timer_entry (openSession_timer ..) fun node hin => ?_
    exact (mem_openSession_listTimeout ..).mpr (.inl hin)
  · rw [openSession_undefined]
    exact h.defined

/-- **Taking records and entries out** keeps the rest sound when the entries of the records
that stay are kept. -/
theorem Linked.shrink (h : Linked proxy) {proxy' : CDbProxy}
    (keep : Nat × STimeoutInfo → Bool)
    (hpending : ∀ (nSessionID : Nat) info,
      proxy'.m_mapPendingResponseInfo[nSessionID]? = some info →
      proxy.m_mapPendingResponseInfo[nSessionID]? = some info)
    (hclient : ∀ (nSessionID : Nat) info,
      proxy'.m_mapPendingResponseInfo[nSessionID]? = some info →
      nSessionID ∈ proxy'.sessionsOf info.pDbClient)
    (hlist : proxy'.m_listTimeout = proxy.m_listTimeout.filter keep)
    (hkeep : ∀ (nSessionID : Nat) info,
      proxy'.m_mapPendingResponseInfo[nSessionID]? = some info →
      ∀ node ∈ proxy.m_listTimeout, info.iterTimeout = some node.1 →
        node.2.nSessionID = nSessionID → keep node = true)
    (hnode : proxy'.nNextNode = proxy.nNextNode) : Linked proxy' where
  own_client := hclient
  own_entry := by
    intro nSessionID info hsome
    rcases h.own_entry nSessionID info (hpending nSessionID info hsome) with
      hnop | ⟨hnop, node, hin, hiter, hid⟩
    · exact .inl hnop
    · refine .inr ⟨hnop, node, ?_, hiter, hid⟩
      rw [hlist]
      exact List.mem_filter.mpr ⟨hin, hkeep nSessionID info hsome node hin hiter hid⟩
  nodes := by
    rw [hlist]
    exact h.nodes.sublist (List.filter_sublist.map _)
  node_lt := by
    intro node hin
    rw [hlist] at hin
    rw [hnode]
    exact h.node_lt node (List.mem_filter.mp hin).1

/-- The records that are left after a session is closed were there. -/
theorem erase_left {nSessionID nSessionID' : Nat} {info' : SPendingResponseInfo}
    (hsome : (proxy.m_mapPendingResponseInfo.erase nSessionID)[nSessionID']? = some info') :
    nSessionID' ≠ nSessionID ∧
      proxy.m_mapPendingResponseInfo[nSessionID']? = some info' := by
  simp only [Std.ExtTreeMap.getElem?_erase, compare_eq_iff_eq] at hsome
  split at hsome
  · cases hsome
  · rename_i hne
    exact ⟨fun heq => hne heq.symm, hsome⟩

/-- A set member of another session stays when a session is closed. -/
theorem Linked.own_client_closeSession (h : Linked proxy) {nSessionID : Nat}
    {info : SPendingResponseInfo} {nSessionID' : Nat} {info' : SPendingResponseInfo}
    (hsome : (proxy.m_mapPendingResponseInfo.erase nSessionID)[nSessionID']? = some info') :
    nSessionID' ∈ (proxy.closeSession nSessionID info).sessionsOf info'.pDbClient := by
  obtain ⟨hne, hsome'⟩ := erase_left hsome
  exact (mem_closeSession_sessionsOf proxy _ _ _ _).mpr
    ⟨h.own_client _ _ hsome', fun hand => hne hand.2⟩

/-- The entry a record points to is in the list, so erasing it is defined. -/
theorem Linked.any_entry (h : Linked proxy) {nSessionID iter : Nat}
    {info : SPendingResponseInfo}
    (hpending : proxy.m_mapPendingResponseInfo[nSessionID]? = some info)
    (hiter : info.iterTimeout = some iter) :
    (proxy.m_listTimeout.any fun node => node.1 == iter) = true := by
  rcases h.own_entry nSessionID info hpending with ⟨_, hnone⟩ | ⟨_, node, hin, hiter', _⟩
  · rw [hnone] at hiter
    cases hiter
  · rw [hiter, Option.some.injEq] at hiter'
    exact List.any_eq_true.mpr ⟨node, hin, by simp [hiter']⟩

/-- Two entries with one node number are one entry. -/
theorem Linked.node_inj (h : Linked proxy) {node node' : Nat × STimeoutInfo}
    (hin : node ∈ proxy.m_listTimeout) (hin' : node' ∈ proxy.m_listTimeout)
    (heq : node.1 = node'.1) : node = node' :=
  List.inj_on_of_nodup_map h.nodes hin hin' heq

/-- An entry a record points to is one of its session. -/
theorem Linked.entry_id (h : Linked proxy) {nSessionID : Nat} {info : SPendingResponseInfo}
    (hpending : proxy.m_mapPendingResponseInfo[nSessionID]? = some info)
    {node : Nat × STimeoutInfo} (hnode : node ∈ proxy.m_listTimeout)
    (hiter : info.iterTimeout = some node.1) : node.2.nSessionID = nSessionID := by
  rcases h.own_entry nSessionID info hpending with ⟨_, hnone⟩ | ⟨_, node', hnode', hiter', hid⟩
  · rw [hnone] at hiter
    cases hiter
  · rw [hiter, Option.some.injEq] at hiter'
    rw [h.node_inj hnode hnode' hiter']
    exact hid

/-- A response keeps the links: the entry goes with its record. -/
theorem onMessage_linked (h : Linked proxy) (pb : Runtime) (pResponse : Response) :
    Linked (proxy.onMessage pb pResponse) := by
  cases hpending : proxy.m_mapPendingResponseInfo[pResponse.session_id]? with
  | none =>
      rw [onMessage_of_unknown hpending]
      exact h
  | some info =>
      rw [onMessage_of_pending hpending]
      unfold withoutEntry
      cases hiter : info.iterTimeout with
      | none =>
          refine h.shrink (fun _ => true) ?_ ?_ ?_ (fun _ _ _ _ _ _ _ => rfl) rfl
          · exact fun _ _ hsome => (erase_left hsome).2
          · exact fun _ _ hsome => h.own_client_closeSession hsome
          · exact (List.filter_eq_self.mpr (fun _ _ => rfl)).symm
      | some iter =>
          refine h.shrink (fun node => node.1 != iter) ?_ ?_ rfl ?_ rfl
          · exact fun _ _ hsome => (erase_left hsome).2
          · exact fun _ _ hsome => h.own_client_closeSession hsome
          · intro nSessionID info' hsome node hin _ hid
            obtain ⟨hne, _⟩ := erase_left hsome
            simp only [bne_iff_ne, ne_eq]
            intro heq
            exact hne (hid.symm.trans (h.entry_id hpending hin (heq ▸ hiter)))

/-- A response erases the entry of its session, which is in the list. -/
theorem onMessage_rest (h : Linked proxy) (pb : Runtime) (pResponse : Response) :
    (proxy.onMessage pb pResponse).timer = proxy.timer ∧
      (proxy.onMessage pb pResponse).undefined = proxy.undefined := by
  cases hpending : proxy.m_mapPendingResponseInfo[pResponse.session_id]? with
  | none =>
      rw [onMessage_of_unknown hpending]
      exact ⟨rfl, rfl⟩
  | some info =>
      rw [onMessage_of_pending hpending]
      unfold withoutEntry
      cases hiter : info.iterTimeout with
      | none => exact ⟨rfl, rfl⟩
      | some iter =>
          refine ⟨rfl, ?_⟩
          have hany := h.any_entry hpending hiter
          show (proxy.undefined || !(proxy.m_listTimeout.any fun node => node.1 == iter)) =
            proxy.undefined
          simp [hany]

/-- Between calls of `onTimer` it keeps the proxy sound. -/
theorem onMessage_sound (h : Sound proxy) (htimer : proxy.timer = none) (pb : Runtime)
    (pResponse : Response) : Sound (proxy.onMessage pb pResponse) := by
  obtain ⟨htimer', hdefined⟩ := onMessage_rest h.toLinked pb pResponse
  exact (onMessage_linked h.toLinked pb pResponse).sound
    (cursorLive_of_idle (htimer'.trans htimer)) (hdefined.trans h.defined)

/-- The node behind a node is in the list, and is another one. -/
theorem nextNode_mem {list : List (Nat × STimeoutInfo)} (hnodup : (list.map Prod.fst).Nodup)
    {iter iter' : Nat} (hnext : nextNode list iter = some iter') :
    ∃ node ∈ eraseNode list iter, node.1 = iter' := by
  induction list with
  | nil => cases hnext
  | cons node rest ih =>
      simp only [List.map_cons, List.nodup_cons] at hnodup
      unfold nextNode at hnext
      split at hnext
      · rename_i heq
        obtain ⟨node', hhead, rfl⟩ := Option.map_eq_some_iff.mp hnext
        have hin : node' ∈ rest := List.mem_of_head? hhead
        refine ⟨node', ?_, rfl⟩
        have hne : node'.1 ≠ iter := by
          intro heq'
          exact hnodup.1 (heq.trans heq'.symm ▸ List.mem_map_of_mem hin)
        simp [eraseNode, hin, hne]
      · obtain ⟨node', hin, hiter⟩ := ih hnodup.2 hnext
        refine ⟨node', ?_, hiter⟩
        unfold eraseNode at hin ⊢
        rw [List.filter_cons]
        split
        · exact List.mem_cons_of_mem _ hin
        · exact hin

/-- A round of `onTimer` keeps the links, -/
theorem timerNext_linked (h : Linked proxy) : Linked proxy.timerNext := by
  have houtcome : TimerOutcome proxy proxy.timerNext := timerNext_outcome
  generalize proxy.timerNext = proxy' at houtcome
  cases houtcome with
  | idle => exact h
  | done => exact ⟨h.own_client, h.own_entry, h.nodes, h.node_lt⟩
  | dead => exact ⟨h.own_client, h.own_entry, h.nodes, h.node_lt⟩
  | stale nCurTime node hnode hunknown =>
      refine h.shrink (fun node' => node'.1 != node.1) (fun _ _ hsome => hsome)
        h.own_client rfl ?_ rfl
      intro nSessionID info hsome node' hin _ hid
      simp only [bne_iff_ne, ne_eq]
      intro heq
      rw [← hid, h.node_inj hin hnode heq, hunknown] at hsome
      cases hsome
  | expired nCurTime node info hnode hpending =>
      refine h.shrink (fun node' => node'.1 != node.1) ?_ ?_ rfl ?_ rfl
      · exact fun _ _ hsome => (erase_left hsome).2
      · exact fun _ _ hsome => h.own_client_closeSession hsome
      · intro nSessionID info' hsome node' hin _ hid
        obtain ⟨hne, _⟩ := erase_left hsome
        simp only [bne_iff_ne, ne_eq]
        intro heq
        exact hne (hid.symm.trans (by rw [h.node_inj hin hnode heq]))

/-- and the cursor moves on before its entry goes. -/
theorem timerNext_sound (h : Sound proxy) : Sound proxy.timerNext := by
  have hlinked := timerNext_linked h.toLinked
  have houtcome : TimerOutcome proxy proxy.timerNext := timerNext_outcome
  generalize proxy.timerNext = proxy' at houtcome hlinked
  cases houtcome with
  | idle => exact h
  | done => exact hlinked.sound (cursorLive_of_idle rfl) h.defined
  | dead nCurTime iter htimer hdead =>
      obtain ⟨node, hin, heq⟩ := h.timer_entry nCurTime iter htimer
      exact absurd heq (hdead node hin)
  | stale nCurTime node hnode hunknown =>
      refine hlinked.sound ?_ h.defined
      intro nCurTime' iter htimer
      exact nextNode_mem h.nodes (Prod.mk.inj (Option.some.inj htimer)).2
  | expired nCurTime node info hnode hpending =>
      refine hlinked.sound ?_ h.defined
      intro nCurTime' iter htimer
      exact nextNode_mem h.nodes (Prod.mk.inj (Option.some.inj htimer)).2

/-! ## Removing a client -/

/-- What the loop of `removePendingResponseInfo` leaves after some of the ids: their
records are gone, and the sets, the counters, the timer and the history are as they
were. -/
structure Removed (proxy proxy' : CDbProxy) (ids : List Nat) : Prop where
  pending : ∀ nSessionID : Nat, proxy'.m_mapPendingResponseInfo[nSessionID]? =
    if nSessionID ∈ ids then none else proxy.m_mapPendingResponseInfo[nSessionID]?
  clients : proxy'.m_mapPendingResponseInfoByDbClient =
    proxy.m_mapPendingResponseInfoByDbClient
  next : proxy'.m_nNextSessionID = proxy.m_nNextSessionID
  node : proxy'.nNextNode = proxy.nNextNode
  timer : proxy'.timer = proxy.timer
  registered : proxy'.registered = proxy.registered
  invoked : proxy'.invoked = proxy.invoked

theorem Removed.start (proxy : CDbProxy) : Removed proxy proxy [] :=
  ⟨by simp, rfl, rfl, rfl, rfl, rfl, rfl⟩

/-- Each round removes one session more. -/
theorem Removed.removeSession {proxy' : CDbProxy} {ids : List Nat}
    (h : Removed proxy proxy' ids) (nSessionID : Nat) :
    Removed proxy (proxy'.removeSession nSessionID) (ids ++ [nSessionID]) := by
  unfold CDbProxy.removeSession
  cases hpending : proxy'.m_mapPendingResponseInfo[nSessionID]? with
  | none =>
      refine ⟨?_, h.clients, h.next, h.node, h.timer, h.registered, h.invoked⟩
      intro nSessionID'
      by_cases heq : nSessionID' = nSessionID
      · subst heq
        simp [hpending]
      · simp [h.pending, heq]
  | some info =>
      obtain ⟨hnext, hnode, htimer, hregistered, hinvoked⟩ :=
        erase_rest proxy' info.iterTimeout
      refine ⟨?_, ?_, hnext.trans h.next, hnode.trans h.node, htimer.trans h.timer,
        hregistered.trans h.registered, hinvoked.trans h.invoked⟩
      · intro nSessionID'
        simp only [Std.ExtTreeMap.getElem?_erase, erase_pending, h.pending]
        by_cases heq : nSessionID' = nSessionID
        · simp [heq]
        · simp [heq, Ne.symm heq]
      · exact (erase_byDbClient proxy' _).trans h.clients

/-- The loop over a client's ids. -/
theorem foldl_removed (proxy : CDbProxy) (ids : List Nat) :
    Removed proxy (ids.foldl CDbProxy.removeSession proxy) ids := by
  induction ids using List.reverseRecOn with
  | nil => exact .start proxy
  | append_singleton ids nSessionID ih =>
      rw [List.foldl_concat]
      exact ih.removeSession nSessionID

/-- The record of one of the ids points to `iter`. -/
def pointedBy (proxy : CDbProxy) (ids : List Nat) (iter : Option Nat) : Bool :=
  ids.any fun nSessionID =>
    (proxy.m_mapPendingResponseInfo[nSessionID]?).any fun info => info.iterTimeout == iter

/-- An iterator is pointed to by one of the records of the sessions. -/
theorem pointedBy_eq_true {ids : List Nat} {iter : Option Nat} :
    proxy.pointedBy ids iter = true ↔ ∃ nSessionID ∈ ids, ∃ info,
      proxy.m_mapPendingResponseInfo[nSessionID]? = some info ∧ info.iterTimeout = iter := by
  simp [pointedBy, Option.any_eq_true]

/-- With one session more it may be that session's record. -/
theorem pointedBy_concat (ids : List Nat) (nSessionID : Nat) (iter : Option Nat) :
    proxy.pointedBy (ids ++ [nSessionID]) iter = (proxy.pointedBy ids iter ||
      (proxy.m_mapPendingResponseInfo[nSessionID]?).any fun info => info.iterTimeout == iter) := by
  simp [pointedBy]

/-- An id that is done adds nothing. -/
theorem pointedBy_concat_of_mem {ids : List Nat} {nSessionID : Nat} (hdone : nSessionID ∈ ids)
    (iter : Option Nat) :
    proxy.pointedBy (ids ++ [nSessionID]) iter = proxy.pointedBy ids iter := by
  rw [pointedBy_concat, Bool.or_eq_left_iff_imp]
  intro hany
  exact List.any_eq_true.mpr ⟨nSessionID, hdone, hany⟩

/-- **The entries after the loop:** those no record of the ids points to. -/
theorem foldl_listTimeout (proxy : CDbProxy) (ids : List Nat) :
    (ids.foldl removeSession proxy).m_listTimeout =
      proxy.m_listTimeout.filter fun node => !proxy.pointedBy ids (some node.1) := by
  induction ids using List.reverseRecOn with
  | nil => exact (List.filter_eq_self.mpr (by simp [pointedBy])).symm
  | append_singleton ids nSessionID ih =>
      have hpending := (foldl_removed proxy ids).pending nSessionID
      rw [List.foldl_concat]
      generalize ids.foldl removeSession proxy = proxy' at ih hpending
      unfold removeSession
      by_cases hdone : nSessionID ∈ ids
      · simp only [hdone, if_true] at hpending
        simp only [hpending, ih, pointedBy_concat_of_mem hdone]
      · simp only [hdone, if_false] at hpending
        simp only [hpending, pointedBy_concat]
        cases hsome : proxy.m_mapPendingResponseInfo[nSessionID]? with
        | none => simp [ih]
        | some info =>
            cases hiter : info.iterTimeout with
            | none => simp [erase, hiter, ih]
            | some iter =>
                simp only [hiter, erase, ih, eraseNode, List.filter_filter, Option.any_some]
                apply List.filter_congr
                intro node _
                by_cases heq : node.1 = iter
                · simp [heq]
                · simp [bne, beq_eq_false_iff_ne.mpr heq, beq_eq_false_iff_ne.mpr (Ne.symm heq)]

/-- **The loop is undefined exactly if it meets a nop:** every other record it meets points to
an entry that no round before has erased. -/
theorem Linked.foldl_undefined (h : Linked proxy) (ids : List Nat) :
    (ids.foldl removeSession proxy).undefined =
      (proxy.undefined || proxy.pointedBy ids none) := by
  induction ids using List.reverseRecOn with
  | nil => simp [pointedBy]
  | append_singleton ids nSessionID ih =>
      have hpending := (foldl_removed proxy ids).pending nSessionID
      have hlist := foldl_listTimeout proxy ids
      rw [List.foldl_concat]
      generalize ids.foldl removeSession proxy = proxy' at ih hpending hlist
      unfold removeSession
      by_cases hdone : nSessionID ∈ ids
      · simp only [hdone, if_true] at hpending
        simp only [hpending, ih, pointedBy_concat_of_mem hdone]
      · simp only [hdone, if_false] at hpending
        simp only [hpending, pointedBy_concat]
        cases hsome : proxy.m_mapPendingResponseInfo[nSessionID]? with
        | none => simp [ih]
        | some info =>
            rcases h.own_entry nSessionID info hsome with
              ⟨_, hiter⟩ | ⟨_, node, hnode, hiter, hid⟩
            · simp [erase, hiter]
            · have hkept : node ∈ proxy'.m_listTimeout := by
                rw [hlist, List.mem_filter]
                refine ⟨hnode, ?_⟩
                rw [Bool.not_eq_true', Bool.eq_false_iff, Ne, pointedBy_eq_true]
                intro hcase
                obtain ⟨nSessionID', hin, info', hsome', hiter'⟩ := hcase
                have hid' := h.entry_id hsome' hnode hiter'
                exact hdone (hid.symm.trans hid' ▸ hin)
              have hany : (proxy'.m_listTimeout.any fun node' => node'.1 == node.1) = true :=
                List.any_eq_true.mpr ⟨node, hkept, by simp⟩
              simp [erase, hiter, ih, hany]

/-- **A removal,** as one loop. -/
theorem removePendingResponseInfo_eq (proxy : CDbProxy) {pDbClient : Nat}
    (hclient : pDbClient ≠ 0) :
    proxy.removePendingResponseInfo pDbClient =
      { (proxy.sessionsOf pDbClient).toList.foldl removeSession proxy with
        m_mapPendingResponseInfoByDbClient :=
          proxy.m_mapPendingResponseInfoByDbClient.erase pDbClient } := by
  unfold removePendingResponseInfo sessionsOf
  rw [if_neg hclient]
  cases hset : proxy.m_mapPendingResponseInfoByDbClient[pDbClient]? with
  | none =>
      have hself : proxy.m_mapPendingResponseInfoByDbClient.erase pDbClient =
          proxy.m_mapPendingResponseInfoByDbClient := by
        apply Std.ExtTreeMap.ext_getElem?
        intro pDbClient'
        by_cases heq : pDbClient = pDbClient'
        · simp [← heq, hset]
        · simp [Std.ExtTreeMap.getElem?_erase, heq]
      have hnone : (∅ : Std.ExtTreeSet Nat).toList = [] := Std.ExtTreeSet.toList_eq_nil_iff.mpr rfl
      simp only [Option.getD_none, hnone, List.foldl_nil, hself]
  | some setSessionID =>
      simp only [Option.getD_some, (foldl_removed proxy setSessionID.toList).clients]

/-- **What a removal leaves:** the records outside the client's set, the other clients' sets, the
entries none of its records points to, and the counters, the timer and the history. -/
structure Removal (proxy : CDbProxy) (pDbClient : Nat) (proxy' : CDbProxy) : Prop where
  pending : ∀ nSessionID : Nat, proxy'.m_mapPendingResponseInfo[nSessionID]? =
    if nSessionID ∈ proxy.sessionsOf pDbClient then none
    else proxy.m_mapPendingResponseInfo[nSessionID]?
  sessions : ∀ pDbClient', proxy'.sessionsOf pDbClient' =
    if pDbClient' = pDbClient then ∅ else proxy.sessionsOf pDbClient'
  entries : proxy'.m_listTimeout = proxy.m_listTimeout.filter fun node =>
    !proxy.pointedBy (proxy.sessionsOf pDbClient).toList (some node.1)
  next : proxy'.m_nNextSessionID = proxy.m_nNextSessionID
  node : proxy'.nNextNode = proxy.nNextNode
  timer : proxy'.timer = proxy.timer
  registered : proxy'.registered = proxy.registered
  invoked : proxy'.invoked = proxy.invoked

/-- **The removal of a client** takes out exactly its sessions, with their entries. -/
theorem removePendingResponseInfo_removal (proxy : CDbProxy) {pDbClient : Nat}
    (hclient : pDbClient ≠ 0) :
    Removal proxy pDbClient (proxy.removePendingResponseInfo pDbClient) := by
  have hremoved := foldl_removed proxy (proxy.sessionsOf pDbClient).toList
  rw [removePendingResponseInfo_eq proxy hclient]
  refine ⟨?_, ?_, foldl_listTimeout proxy _, hremoved.next, hremoved.node, hremoved.timer,
    hremoved.registered, hremoved.invoked⟩
  · simpa using hremoved.pending
  · intro pDbClient'
    by_cases heq : pDbClient' = pDbClient
    · simp [sessionsOf, heq]
    · simp [sessionsOf, Std.ExtTreeMap.getElem?_erase, heq, Ne.symm heq]

/-- It uses `end()` exactly if one of the records is a nop's. -/
theorem Linked.removal_undefined (h : Linked proxy) {pDbClient : Nat} (hclient : pDbClient ≠ 0) :
    (proxy.removePendingResponseInfo pDbClient).undefined =
      (proxy.undefined || proxy.pointedBy (proxy.sessionsOf pDbClient).toList none) := by
  rw [removePendingResponseInfo_eq proxy hclient]
  exact h.foldl_undefined _

/-- The removal of a client keeps the links. -/
theorem removePendingResponseInfo_linked (h : Linked proxy) (pDbClient : Nat) :
    Linked (proxy.removePendingResponseInfo pDbClient) := by
  by_cases hclient : pDbClient = 0
  · rw [removePendingResponseInfo, if_pos hclient]
    exact h
  · have hremoval := removePendingResponseInfo_removal proxy hclient
    generalize proxy.removePendingResponseInfo pDbClient = proxy' at hremoval
    -- A record that is left is outside the set.
    have hleft : ∀ (nSessionID : Nat) info,
        proxy'.m_mapPendingResponseInfo[nSessionID]? = some info →
        nSessionID ∉ proxy.sessionsOf pDbClient ∧
          proxy.m_mapPendingResponseInfo[nSessionID]? = some info := by
      intro nSessionID info hsome
      rw [hremoval.pending] at hsome
      split at hsome
      · cases hsome
      · rename_i hout
        exact ⟨hout, hsome⟩
    refine h.shrink _ (fun _ _ hsome => (hleft _ _ hsome).2) ?_ hremoval.entries ?_ hremoval.node
    · intro nSessionID info hsome
      obtain ⟨hout, hsome'⟩ := hleft _ _ hsome
      have hin := h.own_client nSessionID info hsome'
      have hne : info.pDbClient ≠ pDbClient := fun heq => hout (heq ▸ hin)
      rw [hremoval.sessions, if_neg hne]
      exact hin
    · intro nSessionID info hsome node hnode _ hid
      rw [Bool.not_eq_true', Bool.eq_false_iff, Ne, pointedBy_eq_true]
      intro hcase
      obtain ⟨nSessionID', hin, info', hsome', hiter⟩ := hcase
      obtain rfl := (h.entry_id hsome' hnode hiter).symm.trans hid
      exact (hleft _ _ hsome).1 (by simpa using hin)

/-- Without an outstanding nop no record in the client's set points to `end()`. -/
theorem Linked.pointedBy_none (h : Linked proxy) {pDbClient : Nat}
    (hnop : ¬ HasOutstandingNop proxy pDbClient) :
    proxy.pointedBy (proxy.sessionsOf pDbClient).toList none = false := by
  rw [Bool.eq_false_iff, Ne, pointedBy_eq_true]
  intro hcase
  obtain ⟨nSessionID, hin, info, hsome, hiter⟩ := hcase
  rcases h.own_entry nSessionID info hsome with ⟨hisnop, _⟩ | ⟨_, node, _, hiter', _⟩
  · exact hnop ⟨nSessionID, info, by simpa using hin, hsome, hisnop⟩
  · rw [hiter] at hiter'
    cases hiter'

/-- The removal of a client keeps the proxy sound where no nop of its is outstanding and no
`onTimer` is under way. -/
theorem removePendingResponseInfo_sound (h : Sound proxy) (htimer : proxy.timer = none)
    {pDbClient : Nat} (hnop : ¬ HasOutstandingNop proxy pDbClient) :
    Sound (proxy.removePendingResponseInfo pDbClient) := by
  have hlinked := removePendingResponseInfo_linked h.toLinked pDbClient
  by_cases hclient : pDbClient = 0
  · rw [removePendingResponseInfo, if_pos hclient]
    exact h
  · have hremoval := removePendingResponseInfo_removal proxy hclient
    refine hlinked.sound (cursorLive_of_idle (hremoval.timer.trans htimer)) ?_
    rw [h.toLinked.removal_undefined hclient, h.defined, h.toLinked.pointedBy_none hnop]
    rfl

/-- **Every action keeps the links.** -/
theorem step_linked (pb : Runtime) (h : Linked proxy) (action : ProxyAction) :
    Linked (proxy.step pb action).1 := by
  have hkind := step_kind pb proxy action
  generalize (proxy.step pb action).1 = proxy' at hkind
  cases hkind with
  | idle => exact h
  | opened _ nType pDbClient nTimeout nContext callback hnop =>
      exact openSession_linked h hnop pDbClient nContext callback
  | message pResponse => exact onMessage_linked h pb pResponse
  | timerStart nCurTime => exact ⟨h.own_client, h.own_entry, h.nodes, h.node_lt⟩
  | timerNext => exact timerNext_linked h
  | removal pDbClient => exact removePendingResponseInfo_linked h pDbClient

end

/-- **The step lemma.**  Every allowed action keeps the proxy sound. -/
theorem step_sound (pb : Runtime) {proxy : CDbProxy} (h : Sound proxy) (action : ProxyAction)
    (hallowed : Allowed proxy action) : Sound (proxy.step pb action).1 := by
  have hkind := step_kind pb proxy action
  generalize (proxy.step pb action).1 = proxy' at hkind
  cases hkind with
  | idle => exact h
  | opened _ nType pDbClient nTimeout nContext callback hnop =>
      exact openSession_sound h hnop pDbClient nContext callback
  | message pResponse => exact onMessage_sound h hallowed pb pResponse
  | timerStart nCurTime =>
      refine ⟨⟨h.own_client, h.own_entry, h.nodes, h.node_lt⟩, ?_, h.defined⟩
      intro nCurTime' iter htimer
      have hhead := (Prod.mk.inj (Option.some.inj htimer)).2
      obtain ⟨node, hnode, rfl⟩ := Option.map_eq_some_iff.mp hhead
      exact ⟨node, List.mem_of_head? hnode, rfl⟩
  | timerNext => exact timerNext_sound h
  | removal pDbClient => exact removePendingResponseInfo_sound h hallowed.1 hallowed.2

end CDbProxy

end Db
