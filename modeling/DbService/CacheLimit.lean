import DbService.DbThreadMgr
import DbService.DirtyRecords
import DbService.PlayerBase

/-!
# Changing the cache limit

`setMaxCacheSize` assigns the limit and does nothing else.  Without a positive limit every
operation of the manager returns at once, its flushes included, and the two maps stay what they
were: what is dirty is not written, and when the limit is raised again, the old copies are back.
So a change loses nothing (`LimitLosesNothing`) as long as the cache is on for the last flush and no
statement goes past a copy (`LimitSafe`).

* `run_eachRecord`, `writtenBack_of_isDirty`, `unusedUntilRenewed_of_noCopy` -- what runs do to
  the records, to a dirty one and to one without a copy;
* `limit_change_loses_nothing` -- a change of the limit loses nothing if what follows is safe;
* `deletes_of_writtenBack` -- of a cache that stays off, only deleted records are not lost.
-/

namespace Db

open Reflection ByteText

/-- `CDbThread::setMaxCacheSize` -/
def CDbThread.setMaxCacheSize {σ : Type} (th : CDbThread σ) (nSize : Nat) : CDbThread σ :=
  { th with store := { th.store with m_dbCacheMgr := th.store.m_dbCacheMgr.setMaxCacheSize nSize } }

namespace CDbThreadMgr

variable {n : Nat} {σ : Type}

/-- `CDbThreadMgr::setMaxCacheSize`.  The source divides the number of workers by the size, which
fails for size 0. -/
def setMaxCacheSize (mgr : CDbThreadMgr n σ) (nSize : Nat) : Option (CDbThreadMgr n σ) :=
  if nSize = 0 then none
  else
    some { mgr with
      m_vecDbThread := fun i => (mgr.m_vecDbThread i).setMaxCacheSize (n / nSize) }

/-- A size above the number of workers switches every cache off. -/
theorem setMaxCacheSize_disables (mgr : CDbThreadMgr n σ) {nSize : Nat} (h : n < nSize) :
    ∃ mgr', mgr.setMaxCacheSize nSize = some mgr' ∧
      ∀ i, (mgr'.m_vecDbThread i).store.m_dbCacheMgr.isDisabled = true := by
  have hne : nSize ≠ 0 := by omega
  refine ⟨_, if_neg hne, fun i => ?_⟩
  have hshare : n / nSize = 0 := Nat.div_eq_of_lt h
  simp [CDbThread.setMaxCacheSize, CDbCacheMgr.setMaxCacheSize, CDbCacheMgr.isDisabled, hshare,
    CDbCacheMgr.toInt64]

end CDbThreadMgr

/-- What a worker is given. -/
def LimitAction.Sent (pb : Runtime) : LimitAction → Prop
  | .store action => action.Sent pb
  | .setMaxCacheSize _ => True

/-- The data name a command's pre-step looks up. -/
def CDbThread.cacheName (nType : EOperatorType) (pRequest : Option Message) : Option String :=
  match nType, pRequest with
  | .kOT_SELECT, some (.select_command _ table_name) => some (getMessageNameByTableName table_name)
  | .kOT_UPDATE, some (.row m) => some m.GetTypeName
  | .kOT_INSERT, some (.row m) => some m.GetTypeName
  | .kOT_DELETE, some (.delete_command _ table_name) => some (getMessageNameByTableName table_name)
  | _, _ => none

namespace Store

open CDbCacheMgr

variable {σ : Type} (pb : Runtime) (srv : Server σ)

/-- From `st` on the record is dirty until an UPDATE with it is accepted or a DELETE of it comes,
and one of these does come. -/
def WrittenBack (nID nDataID : Nat) (st : Store σ) : List LimitAction → Prop
  | [] => False
  | action :: rest =>
      ∃ pObject sCacheInfo, Scheduled st.m_dbCacheMgr nID pObject nDataID sCacheInfo ∧
        ((∃ w ∈ (st.stepLimit pb srv action).2.writes, w.nID = nID ∧ w.pDbCache = pObject ∧
            w.info.nDataID = nDataID ∧ w.info.szData = sCacheInfo.szData ∧
            w.info.nErrorCode = .kRC_OK) ∨
          (∃ storeAction, action = .store storeAction ∧ st.Deletes nID nDataID storeAction) ∨
          WrittenBack nID nDataID (st.stepLimit pb srv action).1 rest)

/-- The action executes an UPDATE or INSERT of the record on the database. -/
def WritesDirectly (st : Store σ) (nID nDataID : Nat) : LimitAction → Prop
  | .store (.command sDbCommand clock) =>
      (sDbCommand.nType = .kOT_UPDATE ∨ sDbCommand.nType = .kOT_INSERT) ∧
        sDbCommand.isExpired clock.nCurTime = false ∧
        (CDbThread.onPreCache pb st.m_dbCacheMgr sDbCommand.nType sDbCommand.pMessage
          clock.nSetTime).1 = false ∧
        ∃ m, sDbCommand.pMessage = some (.row m) ∧ getPrimaryValue (.row m) = some nID ∧
          st.m_dbCacheMgr.m_mapDataIndex[m.GetTypeName]? = some nDataID
  | _ => False

/-- The action answers a SELECT of the record from the cache. -/
def ServesCopy (st : Store σ) (nID nDataID : Nat) : LimitAction → Prop
  | .store (.command sDbCommand clock) =>
      sDbCommand.nType = .kOT_SELECT ∧ sDbCommand.isExpired clock.nCurTime = false ∧
        (CDbThread.onPreCache pb st.m_dbCacheMgr sDbCommand.nType sDbCommand.pMessage
          clock.nSetTime).1 = true ∧
        ∃ table_name, sDbCommand.pMessage = some (.select_command nID table_name) ∧
          st.m_dbCacheMgr.m_mapDataIndex[getMessageNameByTableName table_name]? = some nDataID
  | _ => False

/-- The action writes a copy of the record to the database, or answers with one. -/
def UsesCopy (st : Store σ) (nID nDataID : Nat) (action : LimitAction) : Prop :=
  (∃ w ∈ (st.stepLimit pb srv action).2.writes, w.nID = nID ∧ w.info.nDataID = nDataID) ∨
    ServesCopy pb st nID nDataID action

/-- No copy of the record is used before a command on its id makes one where there was none. -/
def UnusedUntilRenewed (nID nDataID : Nat) (st : Store σ) : List LimitAction → Prop
  | [] => True
  | action :: rest =>
      ¬ UsesCopy pb srv st nID nDataID action ∧
        ((¬ st.m_dbCacheMgr.HasCopy nID nDataID ∧ action.key = some nID ∧
            (st.stepLimit pb srv action).1.m_dbCacheMgr.HasCopy nID nDataID) ∨
          UnusedUntilRenewed nID nDataID (st.stepLimit pb srv action).1 rest)

/-- **A change of the limit loses nothing** in the run that follows it and ends with the last
flush: what is dirty is written, and what is written directly is not spoilt by an older copy. -/
structure LimitLosesNothing (st : Store σ) (nSize : Nat) (actions : List LimitAction) : Prop where
  written : ∀ nID nDataID, st.m_dbCacheMgr.IsDirty nID nDataID →
    WrittenBack pb srv nID nDataID (st.stepLimit pb srv (.setMaxCacheSize nSize)).1
      (actions ++ [.store .finish])
  unspoilt : ∀ before action after, actions ++ [.store .finish] = before ++ action :: after →
    ∀ nID nDataID,
      let st' := Runs.run (stepLimit pb srv) (st.stepLimit pb srv (.setMaxCacheSize nSize)).1
        before
      WritesDirectly pb st' nID nDataID action →
        UnusedUntilRenewed pb srv nID nDataID st' (action :: after)

/-- There is an index for the data name of the command, if it gets to the cache. -/
def HasRoom (st : Store σ) : LimitAction → Prop
  | .store (.command sDbCommand clock) =>
      st.m_dbCacheMgr.isDisabled = true ∨ sDbCommand.isExpired clock.nCurTime = true ∨
        ∀ szDataName, CDbThread.cacheName sDbCommand.nType sDbCommand.pMessage = some szDataName →
          st.m_dbCacheMgr.HasIndex szDataName
  | _ => True

/-- No dirty record is lost by the action. -/
def LimitKeepsDirty (st : Store σ) : LimitAction → Prop
  | .store action => st.KeepsDirtyRecords action
  | .setMaxCacheSize _ => True

/-- When a run that ends with the last flush loses nothing.  No action takes the place of a dirty
record, and what is written directly has no copy, or one that stays switched off. -/
structure LimitSafe (st : Store σ) (actions : List LimitAction) : Prop where
  keepsDirty : Runs.Guarded (stepLimit pb srv) LimitKeepsDirty st actions
  direct : ∀ before action after, actions = before ++ action :: after → ∀ nID nDataID,
    let st' := Runs.run (stepLimit pb srv) st before
    WritesDirectly pb st' nID nDataID action →
      ¬ st'.m_dbCacheMgr.HasCopy nID nDataID ∨
        st'.m_dbCacheMgr.isDisabled = true ∧
          ∀ nSize, LimitAction.setMaxCacheSize nSize ∈ after → toInt64 nSize ≤ 0

variable {pb srv} {st : Store σ}

/-! ## What holds in every state -/

/-- The answer of a SELECT is of the type its name names. -/
theorem selected_known (hpb : pb.Lawful) (h : EachRecord (KnownRecord pb) st.m_dbCacheMgr)
    {id : Nat} {table_name : String}
    (hroom : st.m_dbCacheMgr.HasIndex (getMessageNameByTableName table_name)) {m : RowMessage}
    (hselected : st.selected pb srv id table_name = some m) :
    pb.FindMessageTypeByName (getMessageNameByTableName table_name) = some m.descriptor := by
  rcases selected_cases hselected with hcache | ⟨_, d, rs, htype, _, hfill⟩
  · obtain ⟨szData, ⟨m', hholds⟩, hload⟩ := h.of_getData hroom hcache
    obtain rfl := Option.some.inj ((hholds.load hpb).symm.trans hload)
    exact hholds.known
  · have hd : m.descriptor = d := fillNormalMessage_descriptor hfill
    exact hd ▸ (rowType_eq_some.mp htype).1

theorem entersAction_of_sent (hpb : pb.Lawful) (h : EachRecord (KnownRecord pb) st.m_dbCacheMgr)
    (hon : st.m_dbCacheMgr.isDisabled = false) {action : StoreAction} (hsent : action.Sent pb)
    (hroom : st.HasRoom (.store action)) :
    st.EntersAction pb srv (fun _ _ => True) action := by
  cases action with
  | command sDbCommand clock =>
      rcases hroom with hoff | hexpired | hindex
      · exact absurd (hon.symm.trans hoff) Bool.false_ne_true
      · exact .inl hexpired
      · refine .inr fun _ => ?_
        obtain ⟨nServiceID, nType, nSessionID, nTimeout, pMessage⟩ := sDbCommand
        simp only at hindex ⊢
        split
        · have hname := hindex _ rfl
          exact ⟨hname, fun m hselected => ⟨selected_known hpb h hname hselected, trivial⟩⟩
        · exact ⟨hindex _ rfl, fun _ _ => ⟨hsent.2 _ rfl, trivial⟩⟩
        · exact ⟨hindex _ rfl, fun _ _ => ⟨hsent.2 _ rfl, trivial⟩⟩
        · exact hindex _ rfl
        · trivial
  | tick => trivial
  | finish => trivial

/-- **Step.**  The records can be read back whenever the cache is on: a change of the limit leaves
them alone, and a cache that is off takes nothing in. -/
theorem stepLimit_eachRecord (hpb : pb.Lawful)
    (h : EachRecord (KnownRecord pb) st.m_dbCacheMgr.switchedOn) {action : LimitAction}
    (hsent : action.Sent pb) (hroom : st.HasRoom action) :
    EachRecord (KnownRecord pb) (st.stepLimit pb srv action).1.m_dbCacheMgr.switchedOn := by
  refine stepLimit_entered hpb (knownRecord_rule hpb) h ?_
  cases action with
  | store action =>
      cases hdisabled : st.m_dbCacheMgr.isDisabled with
      | true => exact entersAction_disabled hdisabled _ action
      | false => exact entersAction_of_sent hpb (h.of_switchedOn hdisabled) hdisabled hsent hroom
  | setMaxCacheSize nSize => trivial

/-- **Runs.**  So they can after any sequence of commands, ticks and changes of the limit, as long
as what is sent can be written and the ids fit. -/
theorem run_eachRecord (hpb : pb.Lawful)
    (h : EachRecord (KnownRecord pb) st.m_dbCacheMgr.switchedOn) {actions : List LimitAction}
    (hsent : ∀ action ∈ actions, action.Sent pb)
    (hroom : Runs.Guarded (stepLimit pb srv) HasRoom st actions) :
    EachRecord (KnownRecord pb)
      (Runs.run (stepLimit pb srv) st actions).m_dbCacheMgr.switchedOn :=
  Runs.run_invariant
    (fun st : Store σ => EachRecord (KnownRecord pb) st.m_dbCacheMgr.switchedOn)
    (fun _ _ h hok => stepLimit_eachRecord hpb h hok.1 hok.2) h (hroom.and_forall hsent)

/-! ## What is dirty is written -/

/-- **Step.**  While the cache is off, nothing happens to a dirty record. -/
theorem stepLimit_isDirty (hpb : pb.Lawful)
    (h : EachRecord (KnownRecord pb) st.m_dbCacheMgr.switchedOn) {action : LimitAction}
    (hsent : action.Sent pb)
    (hkeeps : st.LimitKeepsDirty action)
    (haccepted : Accepted (st.stepLimit pb srv action).2.writes)
    {nID pObject nDataID : Nat} {sCacheInfo : SCacheInfo}
    (hscheduled : Scheduled st.m_dbCacheMgr nID pObject nDataID sCacheInfo) :
    (∃ w ∈ (st.stepLimit pb srv action).2.writes, w.nID = nID ∧ w.pDbCache = pObject ∧
        w.info.nDataID = nDataID ∧ w.info.szData = sCacheInfo.szData ∧
        w.info.nErrorCode = .kRC_OK) ∨
      (∃ storeAction, action = .store storeAction ∧ st.Deletes nID nDataID storeAction) ∨
      action ≠ .store .finish ∧
        (st.stepLimit pb srv action).1.m_dbCacheMgr.IsDirty nID nDataID := by
  cases action with
  | setMaxCacheSize nSize => exact .inr (.inr ⟨by simp, _, _, hscheduled⟩)
  | store action =>
      cases hdisabled : st.m_dbCacheMgr.isDisabled with
      | true =>
          refine .inr (.inr ⟨?_, ?_⟩)
          · intro hfinish
            cases hfinish
            rcases hkeeps with ⟨hon, _⟩ | hclean
            · exact absurd (hon.symm.trans hdisabled) Bool.false_ne_true
            · exact hclean nID nDataID ⟨_, _, hscheduled⟩
          · simp only [stepLimit, (step_disabled hdisabled action).1]
            exact ⟨_, _, hscheduled⟩
      | false =>
          rcases step_isDirty hpb (h.of_switchedOn hdisabled) hdisabled hsent hkeeps haccepted
            hscheduled with hwrites | hdeletes | ⟨hne, hdirty⟩
          · exact .inl hwrites
          · exact .inr (.inl ⟨action, rfl, hdeletes⟩)
          · exact .inr (.inr ⟨fun heq => hne (LimitAction.store.inj heq), hdirty⟩)

/-- **Runs.**  Up to the last flush: in a run that keeps what is dirty and whose UPDATEs are
accepted, a record that is dirty at some point is written back by the end. -/
theorem writtenBack_of_isDirty (hpb : pb.Lawful)
    (h : EachRecord (KnownRecord pb) st.m_dbCacheMgr.switchedOn) {actions : List LimitAction}
    (hsent : ∀ action ∈ actions, action.Sent pb)
    (hroom : Runs.Guarded (stepLimit pb srv) HasRoom st actions)
    (hkeeps : Runs.Guarded (stepLimit pb srv) LimitKeepsDirty st (actions ++ [.store .finish]))
    (haccepted : Runs.Guarded (stepLimit pb srv)
      (fun st action => Accepted (st.stepLimit pb srv action).2.writes) st
      (actions ++ [.store .finish]))
    {nID nDataID : Nat} (hdirty : st.m_dbCacheMgr.IsDirty nID nDataID) :
    WrittenBack pb srv nID nDataID st (actions ++ [.store .finish]) := by
  induction actions generalizing st with
  | nil =>
      obtain ⟨pObject, sCacheInfo, hscheduled⟩ := hdirty
      have hsent' : (LimitAction.store .finish).Sent pb := trivial
      refine ⟨pObject, sCacheInfo, hscheduled, ?_⟩
      rcases stepLimit_isDirty hpb h hsent' hkeeps.1 haccepted.1 hscheduled with
        hwrites | hdeletes | ⟨hne, _⟩
      · exact .inl hwrites
      · exact .inr (.inl hdeletes)
      · exact absurd rfl hne
  | cons action rest ih =>
      obtain ⟨pObject, sCacheInfo, hscheduled⟩ := hdirty
      have hsent' := hsent action List.mem_cons_self
      refine ⟨pObject, sCacheInfo, hscheduled, ?_⟩
      rcases stepLimit_isDirty hpb h hsent' hkeeps.1 haccepted.1 hscheduled with
        hwrites | hdeletes | ⟨_, hdirty⟩
      · exact .inl hwrites
      · exact .inr (.inl hdeletes)
      · exact .inr (.inr (ih (stepLimit_eachRecord hpb h hsent' hroom.1)
          (fun action' hin => hsent action' (List.mem_cons_of_mem _ hin)) hroom.2 hkeeps.2
          haccepted.2 hdirty))

/-! ## What is written directly is not spoilt -/

/-- A SELECT of a record that has no copy is not answered from the cache. -/
theorem not_servesCopy {nID nDataID : Nat} (hcopy : ¬ st.m_dbCacheMgr.HasCopy nID nDataID)
    (action : LimitAction) : ¬ ServesCopy pb st nID nDataID action := by
  intro hserves
  have hrecord : st.m_dbCacheMgr.record nID nDataID = none := by
    by_contra hsome
    exact hcopy (.inl hsome)
  cases action with
  | setMaxCacheSize => exact hserves
  | store action =>
      cases action with
      | tick => exact hserves
      | finish => exact hserves
      | command sDbCommand clock =>
          obtain ⟨htype, _, hanswered, table_name, hmessage, hindex⟩ := hserves
          rw [htype, hmessage] at hanswered
          cases hdisabled : st.m_dbCacheMgr.isDisabled with
          | true =>
              rw [CDbThread.onPreCache_disabled hdisabled] at hanswered
              cases hanswered
          | false =>
              rw [CDbThread.onPreCache_select hdisabled, getData_eq,
                getDataID_known hindex] at hanswered
              unfold record at hrecord
              cases hcached : st.m_dbCacheMgr.m_mapCache[nID]? with
              | none => simp [hcached] at hanswered
              | some pObject =>
                  rw [hcached, Option.bind_some] at hrecord
                  simp [hcached, CDbCache.getData, hrecord] at hanswered

/-- While the cache is off, no copy is used. -/
theorem not_usesCopy_of_disabled (hdisabled : st.m_dbCacheMgr.isDisabled = true)
    (nID nDataID : Nat) (action : LimitAction) : ¬ UsesCopy pb srv st nID nDataID action := by
  intro huses
  rcases huses with ⟨w, hw, _⟩ | hserves
  · cases action with
    | setMaxCacheSize => cases hw
    | store action =>
        rw [stepLimit, (step_disabled hdisabled action).2] at hw
        cases hw
  · unfold ServesCopy at hserves
    split at hserves
    · rw [CDbThread.onPreCache_disabled hdisabled] at hserves
      cases hserves.2.2.1
    · exact hserves

/-- Only a positive limit switches it on again. -/
theorem stepLimit_disabled (hdisabled : st.m_dbCacheMgr.isDisabled = true) {action : LimitAction}
    (hoff : ∀ nSize, .setMaxCacheSize nSize = action → toInt64 nSize ≤ 0) :
    (st.stepLimit pb srv action).1.m_dbCacheMgr.isDisabled = true := by
  cases action with
  | store action => simpa only [stepLimit, (step_disabled hdisabled action).1] using hdisabled
  | setMaxCacheSize nSize => exact decide_eq_true (hoff nSize rfl)

/-- **Step.**  A record without a copy is not used, and gets a copy by its own commands alone. -/
theorem stepLimit_hasCopy (h : EachRecord (KnownRecord pb) st.m_dbCacheMgr.switchedOn)
    {nID nDataID : Nat} (hcopy : ¬ st.m_dbCacheMgr.HasCopy nID nDataID) (action : LimitAction) :
    ¬ UsesCopy pb srv st nID nDataID action ∧
      (¬ (st.stepLimit pb srv action).1.m_dbCacheMgr.HasCopy nID nDataID ∨
        action.key = some nID) := by
  cases hdisabled : st.m_dbCacheMgr.isDisabled with
  | true =>
      refine ⟨not_usesCopy_of_disabled hdisabled nID nDataID action, .inl ?_⟩
      cases action with
      | setMaxCacheSize nSize => exact hcopy
      | store action =>
          simp only [stepLimit, (step_disabled hdisabled action).1]
          exact hcopy
  | false =>
      cases action with
      | setMaxCacheSize nSize =>
          refine ⟨fun huses => ?_, .inl hcopy⟩
          rcases huses with ⟨w, hw, _⟩ | hserves
          · cases hw
          · exact hserves
      | store action =>
          obtain ⟨hwrites, hnext⟩ := step_hasCopy pb srv (h.of_switchedOn hdisabled).wellFormed
            hcopy action
          refine ⟨fun huses => ?_, hnext⟩
          rcases huses with ⟨w, hw, hcase⟩ | hserves
          · exact hwrites w hw hcase
          · exact not_servesCopy hcopy _ hserves

/-- **Runs** from a state without a copy: there is none to use until a command on the id makes
one, and then it has been renewed. -/
theorem unusedUntilRenewed_of_noCopy (hpb : pb.Lawful)
    (h : EachRecord (KnownRecord pb) st.m_dbCacheMgr.switchedOn) {actions : List LimitAction}
    (hsent : ∀ action ∈ actions, action.Sent pb)
    (hroom : Runs.Guarded (stepLimit pb srv) HasRoom st actions) {nID nDataID : Nat}
    (hcopy : ¬ st.m_dbCacheMgr.HasCopy nID nDataID) :
    UnusedUntilRenewed pb srv nID nDataID st actions := by
  induction actions generalizing st with
  | nil => trivial
  | cons action rest ih =>
      obtain ⟨hunused, hnext⟩ := stepLimit_hasCopy h hcopy action
      refine ⟨hunused, ?_⟩
      by_cases hrenewed : (st.stepLimit pb srv action).1.m_dbCacheMgr.HasCopy nID nDataID
      · exact .inl ⟨hcopy, hnext.resolve_left (not_not_intro hrenewed), hrenewed⟩
      · exact .inr (ih (stepLimit_eachRecord hpb h (hsent action List.mem_cons_self) hroom.1)
          (fun action' hin => hsent action' (List.mem_cons_of_mem _ hin)) hroom.2 hrenewed)

/-- **Runs** in which the cache stays off: every command goes to the server, so no copy is served
or written however long the run is. -/
theorem unusedUntilRenewed_of_disabled (hdisabled : st.m_dbCacheMgr.isDisabled = true)
    {actions : List LimitAction}
    (hoff : ∀ nSize, LimitAction.setMaxCacheSize nSize ∈ actions → toInt64 nSize ≤ 0)
    (nID nDataID : Nat) : UnusedUntilRenewed pb srv nID nDataID st actions := by
  induction actions generalizing st with
  | nil => trivial
  | cons action rest ih =>
      exact ⟨not_usesCopy_of_disabled hdisabled nID nDataID action, .inr (ih
        (stepLimit_disabled hdisabled fun nSize heq => hoff nSize (heq ▸ List.mem_cons_self))
        fun nSize hin => hoff nSize (List.mem_cons_of_mem _ hin))⟩

/-- **A cache that is switched off for good** writes nothing back: of the dirty records only the
deleted ones are not lost. -/
theorem deletes_of_writtenBack (hdisabled : st.m_dbCacheMgr.isDisabled = true)
    {actions : List LimitAction}
    (hoff : ∀ nSize, LimitAction.setMaxCacheSize nSize ∈ actions → toInt64 nSize ≤ 0)
    {nID nDataID : Nat} (h : WrittenBack pb srv nID nDataID st actions) :
    ∃ before action after, actions = before ++ .store action :: after ∧
      (Runs.run (stepLimit pb srv) st before).Deletes nID nDataID action := by
  induction actions generalizing st with
  | nil => exact absurd h id
  | cons action rest ih =>
      obtain ⟨pObject, sCacheInfo, _, ⟨w, hw, hid, _, hdata, _⟩ | ⟨deleted, rfl, hdeletes⟩ |
        hrest⟩ := h
      · exact absurd (.inl ⟨w, hw, hid, hdata⟩)
          (not_usesCopy_of_disabled hdisabled nID nDataID action)
      · exact ⟨[], deleted, rest, rfl, hdeletes⟩
      · obtain ⟨before, deleted, after, rfl, hdeletes⟩ := ih
          (stepLimit_disabled hdisabled fun nSize heq => hoff nSize (heq ▸ List.mem_cons_self))
          (fun nSize hin => hoff nSize (List.mem_cons_of_mem _ hin)) hrest
        exact ⟨action :: before, deleted, after, rfl, hdeletes⟩

end Store

open Store

/-- **Changing the limit loses nothing** at any point of a run, if from there on every action up to
the last flush is safe: the cache is on for that flush, no dirty record loses its place in the
dirty map, and what is written directly has no copy, or one that stays switched off. -/
theorem limit_change_loses_nothing {σ : Type} {pb : Runtime} (hpb : pb.Lawful) (srv : Server σ)
    (nMaxCacheSize nWritebackTime : Nat) (conn : CDbConnection σ) (nSize : Nat)
    {before after : List LimitAction} (hsent : ∀ action ∈ before ++ after, action.Sent pb)
    (hroom : Runs.Guarded (stepLimit pb srv) HasRoom
      (Store.init nMaxCacheSize nWritebackTime conn)
      (before ++ .setMaxCacheSize nSize :: after)) :
    let st := Runs.run (stepLimit pb srv) (Store.init nMaxCacheSize nWritebackTime conn) before
    let st' := (st.stepLimit pb srv (.setMaxCacheSize nSize)).1
    Runs.Guarded (stepLimit pb srv)
        (fun st action => CDbCacheMgr.Accepted (st.stepLimit pb srv action).2.writes)
        st' (after ++ [.store .finish]) →
      LimitSafe pb srv st' (after ++ [.store .finish]) →
      LimitLosesNothing pb srv st nSize after := by
  intro st st' haccepted hsafe
  obtain ⟨hbefore, _, hafter⟩ := Runs.guarded_append.mp hroom
  have hst : CDbCacheMgr.EachRecord (CDbCacheMgr.KnownRecord pb) st'.m_dbCacheMgr.switchedOn :=
    run_eachRecord hpb
      (CDbCacheMgr.init_eachRecord (CDbCacheMgr.KnownRecord pb) nMaxCacheSize
        nWritebackTime).switchedOn
      (fun action hin => hsent action (List.mem_append_left _ hin)) hbefore
  have hsent' : ∀ action ∈ after, action.Sent pb :=
    fun action hin => hsent action (List.mem_append_right _ hin)
  refine ⟨fun nID nDataID hdirty => writtenBack_of_isDirty hpb hst hsent' hafter
    hsafe.keepsDirty haccepted hdirty, ?_⟩
  intro left action right heq nID nDataID middle hdirect
  have hall : Runs.Guarded (stepLimit pb srv) HasRoom st' (after ++ [.store .finish]) :=
    Runs.guarded_append.mpr ⟨hafter, trivial, trivial⟩
  have hsentAll : ∀ action' ∈ after ++ [.store .finish], action'.Sent pb := by
    intro action' hin
    rcases List.mem_append.mp hin with hin | hin
    · exact hsent' action' hin
    · obtain rfl := List.mem_singleton.mp hin
      trivial
  rw [heq] at hall hsentAll
  obtain ⟨hleft, hright⟩ := Runs.guarded_append.mp hall
  rcases hsafe.direct left action right heq nID nDataID hdirect with hcopy | ⟨hoff, hlimits⟩
  · have hmiddle := run_eachRecord hpb hst
      (fun action' hin => hsentAll action' (List.mem_append_left _ hin)) hleft
    exact unusedUntilRenewed_of_noCopy hpb hmiddle
      (fun action' hin => hsentAll action' (List.mem_append_right _ hin)) hright hcopy
  · refine unusedUntilRenewed_of_disabled hoff (fun nSize' hin => ?_) nID nDataID
    rcases List.mem_cons.mp hin with rfl | hin
    · exact absurd hdirect id
    · exact hlimits nSize' hin

/-- Player 5 is inserted and updated in the cache. -/
def dirtyPlayer : List LimitAction :=
  let m : Message := .row (PlayerBase.player 5 [97])
  [.store (.command ⟨0, .kOT_INSERT, 0, 0, some m⟩ ⟨1, 1⟩),
    .store (.command ⟨0, .kOT_UPDATE, 0, 0, some m⟩ ⟨1, 1⟩)]

theorem dirtyPlayer_sent : ∀ action ∈ dirtyPlayer, action.Sent PlayerBase.runtime := by
  intro action hin
  simp only [dirtyPlayer, List.mem_cons, List.not_mem_nil, or_false] at hin
  rcases hin with rfl | rfl
  · exact ⟨by decide, fun m heq => by cases heq; rfl⟩
  · exact ⟨by decide, fun m heq => by cases heq; rfl⟩

/-- The limit is set to half, and player 6 is inserted, before the last flush. -/
theorem dirty_player_survives_half :
    let srv := Server.constant (.done 0 1)
    let st := Runs.run (stepLimit PlayerBase.runtime srv) (Store.init 1000 60 ⟨true, (), 0, []⟩)
      dirtyPlayer
    LimitLosesNothing PlayerBase.runtime srv st 500
      [.store (.command ⟨0, .kOT_INSERT, 0, 0, some (.row (PlayerBase.player 6 [98]))⟩
        ⟨2, 2⟩)] := by
  intro srv st
  refine limit_change_loses_nothing PlayerBase.runtime_lawful srv 1000 60 ⟨true, (), 0, []⟩ 500
    ?_ ?_ ?_ ?_
  · intro action hin
    rcases List.mem_append.mp hin with hin | hin
    · exact dirtyPlayer_sent action hin
    · obtain rfl := List.mem_singleton.mp hin
      exact ⟨by decide, fun m heq => by cases heq; rfl⟩
  · exact ⟨.inr (.inr fun _ _ => .inr (by decide)), .inr (.inr fun _ _ => .inr (by decide)),
      trivial, .inr (.inr fun _ _ => .inr (by decide)), trivial⟩
  · refine ⟨?_, ?_, trivial⟩
    · unfold CDbCacheMgr.Accepted
      decide
    · unfold CDbCacheMgr.Accepted
      decide
  · constructor
    · refine ⟨.inr (.inr fun htype => ?_), .inl ⟨by decide, by decide⟩, trivial⟩
      rcases htype with htype | htype <;> cases htype
    · intro left action right heq nID nDataID middle hdirect
      rcases left with _ | ⟨_, _ | ⟨_, left⟩⟩
      · cases heq
        obtain ⟨_, _, _, m, hmessage, hid, _⟩ := hdirect
        cases hmessage
        obtain rfl : 6 = nID := Option.some.inj hid
        have huncached : middle.m_dbCacheMgr.m_mapCache[6]? = none := by decide
        have hclean : middle.m_dbCacheMgr.m_mapDirtyCache[6]? = none := by decide
        refine .inl fun hcopy => ?_
        rcases hcopy with hrecord | ⟨pObject, sCacheInfo, hdirty, _⟩
        · exact hrecord (CDbCacheMgr.record_of_uncached huncached nDataID)
        · rw [hclean] at hdirty
          cases hdirty
      · cases heq
        exact absurd hdirect id
      · simp at heq

/-- The limit is set to 0, and the last flush does not write player 5. -/
theorem dirty_player_lost :
    ¬ ∀ (σ : Type) (pb : Runtime) (srv : Server σ) (nMaxCacheSize nWritebackTime : Nat)
        (conn : CDbConnection σ) (nSize : Nat) (before after : List LimitAction),
      pb.Lawful → (∀ action ∈ before ++ after, action.Sent pb) →
      let st := Runs.run (stepLimit pb srv) (Store.init nMaxCacheSize nWritebackTime conn) before
      let st' := (st.stepLimit pb srv (.setMaxCacheSize nSize)).1
      Runs.Guarded (stepLimit pb srv)
          (fun st action => CDbCacheMgr.Accepted (st.stepLimit pb srv action).2.writes)
          st' (after ++ [.store .finish]) →
        LimitLosesNothing pb srv st nSize after := by
  intro h
  let srv := Server.constant (.done 0 1)
  let st := Runs.run (stepLimit PlayerBase.runtime srv) (Store.init 1000 60 ⟨true, (), 0, []⟩)
    dirtyPlayer
  have hlost := h Unit PlayerBase.runtime srv 1000 60 ⟨true, (), 0, []⟩ 0 dirtyPlayer []
    PlayerBase.runtime_lawful (by simpa using dirtyPlayer_sent)
    ⟨by unfold CDbCacheMgr.Accepted; decide, trivial⟩
  have hentry : st.m_dbCacheMgr.m_mapDirtyCache[5]? = some 0 := by decide
  have htime : (st.m_dbCacheMgr.objects 0).m_mapCacheInfo[1]?.map SCacheInfo.nTime = some 1 := by
    decide
  obtain ⟨sCacheInfo, hrecord, hset⟩ := Option.map_eq_some_iff.mp htime
  have hwritten := hlost.written 5 1 ⟨0, sCacheInfo, hentry, hrecord, by simp [hset]⟩
  obtain ⟨left, action, right, heq, hdeletes⟩ :=
    deletes_of_writtenBack (by decide) (by simp) hwritten
  rcases left with _ | ⟨_, left⟩
  · cases heq
    exact hdeletes
  · simp at heq

end Db
