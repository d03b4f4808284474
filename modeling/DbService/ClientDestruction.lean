import DbService.Callbacks

/-!
# Destroying clients

The destructor of a client takes its requests out of the proxy, outside of any callback or from
within one.  The loop erases what each record points to, also the `end()` of a nop
(`client_removal_safe_iff`); and it may erase the very entry `onTimer` goes on with
(`timer_survives_destruction_iff`).  Either way the records of the client are gone, so none of
its requests is called back.

* `Linked.removalSafe_iff` -- one removal;
* `client_removal_safe_iff` -- in every run, a removal is safe exactly if no nop is outstanding;
* `step_timerLive_iff` -- one action during `onTimer`;
* `timer_survives_destruction_iff` -- the whole call, and the silence of the destroyed clients;
* `destroyed_cursor_is_read`, `outstanding_nop_erases_end` -- the two ways it goes wrong.
-/

namespace Db

open Reflection ByteText

namespace CDbProxy

/-- `onMessage` and `onTimer` do not run inside `onTimer`; callbacks make requests and destroy
clients. -/
def Orderly (proxy : CDbProxy) : ProxyAction → Prop
  | .onMessage _ | .timerStart _ => proxy.timer = none
  | _ => True

section

variable {proxy : CDbProxy} {pDbClient : Nat}

theorem pointedBy_eq_false {ids : List Nat} {iter : Option Nat} :
    proxy.pointedBy ids iter = false ↔ ∀ nSessionID ∈ ids, ∀ info,
      proxy.m_mapPendingResponseInfo[nSessionID]? = some info → info.iterTimeout ≠ iter := by
  rw [Bool.eq_false_iff, Ne, pointedBy_eq_true]
  push Not
  rfl

/-! ## One removal -/

/-- The record of the entry is the client's and points to it. -/
def ownsEntry (proxy : CDbProxy) (pDbClient : Nat) (node : Nat × STimeoutInfo) : Bool :=
  (proxy.m_mapPendingResponseInfo[node.2.nSessionID]?).any fun info =>
    info.pDbClient == pDbClient && info.iterTimeout == some node.1

/-- **A safe removal:** only entries are erased, the client's records, set and entries are gone,
and those of the other clients are as they were. -/
structure RemovalSafe (proxy : CDbProxy) (pDbClient : Nat) : Prop where
  defined : (proxy.removePendingResponseInfo pDbClient).undefined = false
  pending : ∀ nSessionID : Nat,
    (proxy.removePendingResponseInfo pDbClient).m_mapPendingResponseInfo[nSessionID]? =
      (proxy.m_mapPendingResponseInfo[nSessionID]?).filter fun info => info.pDbClient != pDbClient
  sessions : ∀ pDbClient',
    (proxy.removePendingResponseInfo pDbClient).sessionsOf pDbClient' =
      if pDbClient' = pDbClient then ∅ else proxy.sessionsOf pDbClient'
  entries : (proxy.removePendingResponseInfo pDbClient).m_listTimeout =
    proxy.m_listTimeout.filter fun node => !proxy.ownsEntry pDbClient node

/-- The pending sessions in the client's set are its own, and none is a nop. -/
def Removable (proxy : CDbProxy) (pDbClient : Nat) : Prop :=
  ∀ nSessionID ∈ proxy.sessionsOf pDbClient, ∀ info,
    proxy.m_mapPendingResponseInfo[nSessionID]? = some info →
    info.pDbClient = pDbClient ∧ info.nType ≠ .kOT_NOP

/-- The entries such a client's records point to are those it owns. -/
theorem Linked.pointedBy_eq_ownsEntry (h : Linked proxy) (hremovable : Removable proxy pDbClient)
    {node : Nat × STimeoutInfo} (hnode : node ∈ proxy.m_listTimeout) :
    proxy.pointedBy (proxy.sessionsOf pDbClient).toList (some node.1) =
      proxy.ownsEntry pDbClient node := by
  rw [Bool.eq_iff_iff, pointedBy_eq_true, ownsEntry, Option.any_eq_true]
  constructor
  · intro hcase
    obtain ⟨nSessionID, hin, info, hsome, hiter⟩ := hcase
    obtain rfl := h.entry_id hsome hnode hiter
    have hown := (hremovable _ (by simpa using hin) info hsome).1
    exact ⟨info, hsome, by simp [hown, hiter]⟩
  · intro hcase
    obtain ⟨info, hsome, hboth⟩ := hcase
    obtain ⟨rfl, hiter⟩ : info.pDbClient = pDbClient ∧ info.iterTimeout = some node.1 := by
      simpa using hboth
    exact ⟨_, by simpa using h.own_client _ info hsome, info, hsome, hiter⟩

/-- **The step lemma for one removal.**  Erasing the records of the client's sessions goes wrong
in two ways only: a session of its set belongs to another client, or a nop has no entry to erase.
-/
theorem Linked.removalSafe_iff (h : Linked proxy) (hdefined : proxy.undefined = false)
    (hclient : pDbClient ≠ 0) : RemovalSafe proxy pDbClient ↔ Removable proxy pDbClient := by
  have hremoval := removePendingResponseInfo_removal proxy hclient
  have hundefined := h.removal_undefined hclient
  rw [hdefined, Bool.false_or] at hundefined
  constructor
  · intro hsafe nSessionID hin info hsome
    constructor
    · have hpending := hsafe.pending nSessionID
      rw [hremoval.pending, if_pos hin, hsome] at hpending
      by_contra hother
      simp [Option.filter, hother] at hpending
    · intro hnop
      have hnone := pointedBy_eq_false.mp (hundefined.symm.trans hsafe.defined) nSessionID
        (by simpa using hin) info hsome
      rcases h.own_entry nSessionID info hsome with ⟨_, hiter⟩ | ⟨hne, _⟩
      · exact hnone hiter
      · exact hne hnop
  · intro hremovable
    constructor
    · rw [hundefined]
      apply h.pointedBy_none
      intro hcase
      obtain ⟨nSessionID, info, hin, hsome, hnop⟩ := hcase
      exact (hremovable nSessionID hin info hsome).2 hnop
    · intro nSessionID
      rw [hremoval.pending]
      cases hsome : proxy.m_mapPendingResponseInfo[nSessionID]? with
      | none => simp
      | some info =>
          by_cases hown : info.pDbClient = pDbClient
          · have hin := h.own_client nSessionID info hsome
            rw [hown] at hin
            simp [hin, hown, Option.filter]
          · have hout : nSessionID ∉ proxy.sessionsOf pDbClient :=
              fun hin => hown (hremovable nSessionID hin info hsome).1
            simp [hout, hown, Option.filter]
    · exact hremoval.sessions
    · rw [hremoval.entries]
      apply List.filter_congr
      intro node hnode
      rw [h.pointedBy_eq_ownsEntry hremovable hnode]

/-! ## Removals inside of `onTimer` -/

/-- No dead iterator was used, and `onTimer` can go on. -/
def TimerLive (proxy : CDbProxy) : Prop := CursorLive proxy ∧ proxy.undefined = false

/-- A client is destroyed when each of its requests has an entry, and not the one at which
`onTimer` goes on. -/
def DestroysSafely (proxy : CDbProxy) : ProxyAction → Prop
  | .removePendingResponseInfo pDbClient => pDbClient = 0 ∨
      ∀ nSessionID ∈ proxy.sessionsOf pDbClient, ∀ info,
        proxy.m_mapPendingResponseInfo[nSessionID]? = some info →
        info.iterTimeout ≠ none ∧ ∀ nCurTime, proxy.timer ≠ some (nCurTime, info.iterTimeout)
  | _ => True

theorem removal_timerLive_iff (h : Linked proxy) (hlive : TimerLive proxy) :
    TimerLive (proxy.removePendingResponseInfo pDbClient) ↔
      DestroysSafely proxy (.removePendingResponseInfo pDbClient) := by
  by_cases hclient : pDbClient = 0
  · rw [removePendingResponseInfo, if_pos hclient]
    exact iff_of_true hlive (.inl hclient)
  · have hremoval := removePendingResponseInfo_removal proxy hclient
    have hundefined := h.removal_undefined hclient
    rw [hlive.2, Bool.false_or] at hundefined
    rw [TimerLive, CursorLive, hremoval.timer, hremoval.entries, hundefined, pointedBy_eq_false]
    simp only [List.mem_filter, Bool.not_eq_true', pointedBy_eq_false, Std.ExtTreeSet.mem_toList]
    constructor
    · intro hcase
      obtain ⟨hcursor, hnone⟩ := hcase
      refine .inr fun nSessionID hin info hsome => ⟨hnone nSessionID hin info hsome, ?_⟩
      intro nCurTime htimer
      cases hiter : info.iterTimeout with
      | none => exact hnone nSessionID hin info hsome hiter
      | some iter =>
          obtain ⟨node, ⟨_, hkept⟩, rfl⟩ := hcursor nCurTime iter (hiter ▸ htimer)
          exact hkept nSessionID hin info hsome hiter
    · intro hcase
      have hsafe := hcase.resolve_left hclient
      refine ⟨?_, fun nSessionID hin info hsome => (hsafe nSessionID hin info hsome).1⟩
      intro nCurTime iter htimer
      obtain ⟨node, hnode, rfl⟩ := hlive.1 nCurTime iter htimer
      refine ⟨node, ⟨hnode, fun nSessionID hin info hsome hiter => ?_⟩, rfl⟩
      exact (hsafe nSessionID hin info hsome).2 nCurTime (hiter ▸ htimer)

/-- **The step lemma:** an orderly action leaves `onTimer` alive exactly if it destroys safely. -/
theorem step_timerLive_iff (pb : Runtime) (h : Linked proxy) (hlive : TimerLive proxy)
    (action : ProxyAction) (horderly : Orderly proxy action) :
    TimerLive (proxy.step pb action).1 ↔ DestroysSafely proxy action := by
  by_cases hremoval : ∃ pDbClient, action = .removePendingResponseInfo pDbClient
  · obtain ⟨pDbClient, rfl⟩ := hremoval
    exact removal_timerLive_iff h hlive
  · have hboth : Allowed proxy action ∧ DestroysSafely proxy action := by
      cases action with
      | removePendingResponseInfo pDbClient => exact absurd ⟨pDbClient, rfl⟩ hremoval
      | onMessage _ | timerStart _ => exact ⟨horderly, trivial⟩
      | _ => exact ⟨trivial, trivial⟩
    have hsound := step_sound pb (h.sound hlive.1 hlive.2) action hboth.1
    exact iff_of_true ⟨hsound.timer_entry, hsound.defined⟩ hboth.2

end

theorem run_linked (pb : Runtime) (actions : List ProxyAction) :
    Linked (Runs.run (step pb) init actions) :=
  Runs.run_preserves Linked (fun _ action h => step_linked pb h action) init_sound.toLinked actions

/-- A removal anywhere in a run silences its client for the rest of it. -/
theorem run_silent_since (pb : Runtime) (before : List ProxyAction) (pDbClient : Nat)
    (after : List ProxyAction) :
    SilentSince (Runs.run (step pb) init before) pDbClient
      (Runs.run (step pb) init (before ++ .removePendingResponseInfo pDbClient :: after)) := by
  have hserial := run_serial pb before
  have hlinked := run_linked pb before
  rw [Runs.run_append]
  generalize Runs.run (step pb) init before = start at *
  exact (run_silenced pb (step_serial pb hserial (.removePendingResponseInfo pDbClient))
    (removal_silences _ hserial hlinked) after).calls

end CDbProxy

/-- **A removal is safe** exactly if no nop of the client is outstanding and its ids are still
its own. -/
theorem client_removal_safe_iff (pb : Runtime) (actions : List ProxyAction)
    (hdefined : (Runs.run (CDbProxy.step pb) CDbProxy.init actions).undefined = false)
    {pDbClient : Nat} (hclient : pDbClient ≠ 0) :
    CDbProxy.RemovalSafe (Runs.run (CDbProxy.step pb) CDbProxy.init actions) pDbClient ↔
      CDbProxy.Removable (Runs.run (CDbProxy.step pb) CDbProxy.init actions) pDbClient :=
  (CDbProxy.run_linked pb actions).removalSafe_iff hdefined hclient

/-- A select of client 1 and a nop of client 2. -/
def selectBesideNop : List ProxyAction :=
  [.select ⟨100, true⟩ 1 5 "player_base" 10 7 0, .nop ⟨100, true⟩ 2 0 8 1]

/-- The theorem at that run. -/
theorem client_removal_safe_selectBesideNop :
    CDbProxy.RemovalSafe
        (Runs.run (CDbProxy.step PlayerBase.runtime) CDbProxy.init selectBesideNop) 1 ↔
      CDbProxy.Removable
        (Runs.run (CDbProxy.step PlayerBase.runtime) CDbProxy.init selectBesideNop) 1 :=
  client_removal_safe_iff PlayerBase.runtime selectBesideNop rfl (by decide)

/-- A client with an outstanding nop: `end()` is erased. -/
theorem outstanding_nop_erases_end :
    ¬ ∀ (pb : Runtime) (actions : List ProxyAction) (pDbClient : Nat),
      (Runs.run (CDbProxy.step pb) CDbProxy.init actions).undefined = false → pDbClient ≠ 0 →
      CDbProxy.RemovalSafe (Runs.run (CDbProxy.step pb) CDbProxy.init actions) pDbClient := by
  intro h
  have hsafe := h PlayerBase.runtime [.nop ⟨100, true⟩ 1 0 8 1] 1 rfl (by decide)
  have hdefined : true = false := hsafe.defined
  cases hdefined

/-- **`onTimer` survives its callbacks** exactly if every client is destroyed safely; and no
request of a destroyed client is called back. -/
theorem timer_survives_destruction_iff (pb : Runtime) (actions : List ProxyAction)
    (horderly : Runs.Guarded (CDbProxy.step pb) CDbProxy.Orderly CDbProxy.init actions) :
    (Runs.Always (CDbProxy.step pb) CDbProxy.TimerLive CDbProxy.init actions ∧
        ∀ before pDbClient after,
          actions = before ++ .removePendingResponseInfo pDbClient :: after →
          CDbProxy.SilentSince (Runs.run (CDbProxy.step pb) CDbProxy.init before) pDbClient
            (Runs.run (CDbProxy.step pb) CDbProxy.init actions)) ↔
      Runs.Guarded (CDbProxy.step pb) CDbProxy.DestroysSafely CDbProxy.init actions := by
  have hexact := Runs.always_iff_guarded_within CDbProxy.TimerLive CDbProxy.Linked
    (fun _ action h => CDbProxy.step_linked pb h action)
    (fun _ action h hlive hok => CDbProxy.step_timerLive_iff pb h hlive action hok)
    CDbProxy.init_sound.toLinked ⟨CDbProxy.init_sound.timer_entry, rfl⟩ horderly
  rw [← hexact, and_iff_left_iff_imp]
  intro _ before pDbClient after heq
  subst heq
  exact CDbProxy.run_silent_since pb before pDbClient after

/-- Requests of two clients expire; the callback of the one destroys the other. -/
def destroyedByCallback : List ProxyAction :=
  [.select ⟨100, true⟩ 1 5 "player_base" 10 7 0, .select ⟨100, true⟩ 2 6 "player_base" 10 8 1,
    .timerStart 200, .timerNext, .removePendingResponseInfo 1, .timerNext]

/-- The theorem at that run. -/
theorem timer_survives_destroyedByCallback :
    (Runs.Always (CDbProxy.step PlayerBase.runtime) CDbProxy.TimerLive CDbProxy.init
          destroyedByCallback ∧
        ∀ before pDbClient after,
          destroyedByCallback = before ++ .removePendingResponseInfo pDbClient :: after →
          CDbProxy.SilentSince
            (Runs.run (CDbProxy.step PlayerBase.runtime) CDbProxy.init before) pDbClient
            (Runs.run (CDbProxy.step PlayerBase.runtime) CDbProxy.init destroyedByCallback)) ↔
      Runs.Guarded (CDbProxy.step PlayerBase.runtime) CDbProxy.DestroysSafely CDbProxy.init
        destroyedByCallback :=
  timer_survives_destruction_iff PlayerBase.runtime destroyedByCallback
    ⟨trivial, trivial, rfl, trivial, trivial, trivial, trivial⟩

/-- There the loop reads an entry that the removal has erased. -/
theorem destroyed_cursor_is_read :
    ¬ ∀ (pb : Runtime) (actions : List ProxyAction),
      Runs.Guarded (CDbProxy.step pb) CDbProxy.Orderly CDbProxy.init actions →
      Runs.Always (CDbProxy.step pb) CDbProxy.TimerLive CDbProxy.init actions := by
  intro h
  have hlive := (h PlayerBase.runtime destroyedByCallback
    ⟨trivial, trivial, rfl, trivial, trivial, trivial, trivial⟩).last
  have hdefined : true = false := hlive.2
  cases hdefined

end Db
