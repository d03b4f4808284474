import DbService.DirtyRecords
import DbService.Ledger

/-!
# Modifications and write-backs of records

`CDbCache::setData` modifies a record that is there; for the worker this is the pre-step of an
UPDATE, or the post-step of a SELECT that has an answer (`Store.setCall`).  `Store.log` runs a
store with the history of the modifications and of the UPDATEs its write-back issues, each
under the id and the data index of its record.  `Store.step_touched` says once what a command
other than a FLUSH does to the manager, and `Store.log_cases` what an action does to both.
-/

namespace Db

open Reflection ByteText

namespace CDbCacheMgr

variable {σ : Type} {pb : Runtime} {srv : Server σ} {mgr : CDbCacheMgr}

/-- The index of the record that `setData` modifies: it is there and the merge succeeds. -/
def changes (pb : Runtime) (mgr : CDbCacheMgr) (nID : Nat) (pData : RowMessage) : Option Nat :=
  if mgr.isDisabled then none
  else
    match mgr.m_mapCache[nID]? with
    | none => none
    | some pObject =>
        let nDataID := (mgr.getDataID pData.GetTypeName).1
        if nDataID = badDataID then none
        else
          match (mgr.objects pObject).m_mapCacheInfo[nDataID]? with
          | none => none
          | some sCacheInfo =>
              if (CDbCache.mergeData pb pData.GetTypeName sCacheInfo.szData pData).isSome then
                some nDataID
              else none

/-- What a command that is no FLUSH does to the manager: one operation at most, and `call` is
its `setData`. -/
inductive Touched (pb : Runtime) (mgr : CDbCacheMgr) (nSetTime : Nat) :
    Option (CDbCacheMgr × Nat × RowMessage) → CDbCacheMgr → Prop
  | same : Touched pb mgr nSetTime none mgr
  | named (szDataName : String) : Touched pb mgr nSetTime none (mgr.getDataID szDataName).2
  | added (nID : Nat) (pData : RowMessage) :
      Touched pb mgr nSetTime none (mgr.addData pb nID pData).2
  | deleted (nID : Nat) (szDataName : String) :
      Touched pb mgr nSetTime none (mgr.delData nID szDataName).2
  | set (called : CDbCacheMgr) (nID : Nat) (pData : RowMessage)
      (hcalled : called = mgr ∨ ∃ szDataName, called = (mgr.getDataID szDataName).2) :
      Touched pb mgr nSetTime (some (called, nID, pData)) (called.setData pb nID pData nSetTime).2

end CDbCacheMgr

namespace Store

open CDbCacheMgr

variable {σ : Type} (pb : Runtime) (srv : Server σ)

/-- The `setData` call of an action: the manager it is made on, the id and the data. -/
def setCall (st : Store σ) : StoreAction → Option (CDbCacheMgr × Nat × RowMessage)
  | .command sDbCommand clock =>
      if st.m_dbCacheMgr.isDisabled || sDbCommand.isExpired clock.nCurTime then none
      else
        match sDbCommand.nType, sDbCommand.pMessage with
        | .kOT_UPDATE, some (.row m) =>
            match getPrimaryValue (.row m), pb.SerializeToString (.row m) with
            | some nID, some _ => some (st.m_dbCacheMgr, nID, m)
            | _, _ => none
        | .kOT_SELECT, some (.select_command id table_name) =>
            match st.selected pb srv id table_name with
            | none => none
            | some m =>
                if (pb.SerializeToString (.row m)).isSome then
                  some ((st.m_dbCacheMgr.getDataID (getMessageNameByTableName table_name)).2,
                    id, m)
                else none
        | _, _ => none
  | _ => none

/-- The record an action modifies. -/
def modified (st : Store σ) (action : StoreAction) : Option (Nat × Nat) :=
  (st.setCall pb srv action).bind fun call =>
    (call.1.changes pb call.2.1 call.2.2).map fun nDataID => (call.2.1, nDataID)

/-- The records of a list of UPDATEs. -/
def writtenRecords (writes : List WriteEvent) : List (Nat × Nat) :=
  writes.map fun w => (w.nID, w.info.nDataID)

/-- A store with the history of its records. -/
structure Logged (σ : Type) where
  store : Store σ
  events : List (Ledger.Event (Nat × Nat))

/-- The history goes on with what an action writes back and what it modifies; no action does
both. -/
def log (l : Logged σ) (action : StoreAction) : Logged σ × StoreOutput :=
  (⟨(l.store.step pb srv action).1,
      l.events ++ (writtenRecords (l.store.step pb srv action).2.writes).map .written ++
        ((l.store.modified pb srv action).map .changed).toList⟩,
    (l.store.step pb srv action).2)

/-- A change of the limit adds nothing to the history. -/
def logLimit (l : Logged σ) : LimitAction → Logged σ × StoreOutput
  | .store action => log pb srv l action
  | .setMaxCacheSize nSize =>
      (⟨(l.store.stepLimit pb srv (.setMaxCacheSize nSize)).1, l.events⟩, ⟨none, []⟩)

/-- Before the first action. -/
def logFrom (st : Store σ) : Logged σ := ⟨st, []⟩

variable {pb srv} {st : Store σ}

/-- Only a command modifies a record. -/
theorem modified_none {action : StoreAction} (h : st.setCall pb srv action = none) :
    st.modified pb srv action = none := by
  simp [modified, h]

/-- With the cache off nothing is modified, and nothing is written back. -/
theorem log_disabled {l : Logged σ} (hdisabled : l.store.m_dbCacheMgr.isDisabled = true)
    (action : StoreAction) :
    (log pb srv l action).1.store.m_dbCacheMgr = l.store.m_dbCacheMgr ∧
      (log pb srv l action).1.events = l.events := by
  obtain ⟨hmgr, hwrites⟩ := @step_disabled σ pb srv l.store hdisabled action
  have hnone : l.store.setCall pb srv action = none := by
    cases action with
    | command => simp [setCall, hdisabled]
    | tick => rfl
    | finish => rfl
  exact ⟨hmgr, by simp [log, hwrites, writtenRecords, modified_none hnone]⟩

/-- A FLUSH does not call `setData`. -/
theorem setCall_flush {sDbCommand : SDbCommand} (hflush : sDbCommand.nType = .kOT_FLUSH)
    (clock : Clock) : st.setCall pb srv (.command sDbCommand clock) = none := by
  simp only [setCall, hflush]
  split <;> rfl

/-- Nothing but a FLUSH makes a command write back. -/
theorem step_writes_nil {sDbCommand : SDbCommand} (hflush : sDbCommand.nType ≠ .kOT_FLUSH)
    {clock : Clock} : (st.step pb srv (.command sDbCommand clock)).2.writes = [] := by
  have hprocessed := process_cases pb srv st sDbCommand clock
  simp only [step]
  generalize st.process pb srv sDbCommand clock = result at hprocessed
  cases hprocessed with
  | flush _ _ htype => exact absurd htype hflush
  | flushNothing => rfl
  | expired => rfl
  | executed => rfl

/-- Without a key a command leaves the manager alone. -/
theorem executed_keyless {nType : EOperatorType} {pRequest : Option Message} {nSetTime : Nat}
    (hkey : CDbThread.cacheKey nType pRequest = none) :
    (st.execute pb srv nType pRequest nSetTime).1.m_dbCacheMgr = st.m_dbCacheMgr := by
  by_cases hselect : nType = .kOT_SELECT
  · subst hselect
    apply execute_select_refused
    refine .inr ?_
    rintro id table_name rfl
    cases hkey
  · rw [executed_mgr hselect (execute_cases ..)]
    unfold CDbThread.onPreCache
    split
    · rfl
    · split
      · cases hkey
      · rename_i m
        have hid : getPrimaryValue (.row m) = none := hkey
        simp [hid]
      · rename_i m
        have hid : getPrimaryValue (.row m) = none := hkey
        simp [hid]
      · cases hkey
      · rfl

/-- **What a command does to the manager,** unless it is a FLUSH. -/
theorem step_touched (pb : Runtime) (srv : Server σ) (st : Store σ) {sDbCommand : SDbCommand}
    (hflush : sDbCommand.nType ≠ .kOT_FLUSH) (clock : Clock) :
    Touched pb st.m_dbCacheMgr clock.nSetTime (st.setCall pb srv (.command sDbCommand clock))
      (st.step pb srv (.command sDbCommand clock)).1.m_dbCacheMgr := by
  obtain ⟨nServiceID, nType, nSessionID, nTimeout, pMessage⟩ := sDbCommand
  simp only at hflush
  cases hexpired : (⟨nServiceID, nType, nSessionID, nTimeout, pMessage⟩ :
      SDbCommand).isExpired clock.nCurTime with
  | true =>
      simp only [step, process_expired pb srv hflush hexpired, setCall, hexpired, Bool.or_true,
        if_true]
      exact .same
  | false =>
      cases hdisabled : st.m_dbCacheMgr.isDisabled with
      | true =>
          rw [(step_disabled hdisabled _).1]
          simp only [setCall, hdisabled, Bool.true_or, if_true]
          exact .same
      | false =>
          simp only [step, process_executed pb srv hflush hexpired, setCall, hdisabled, hexpired,
            Bool.or_self, Bool.false_eq_true, if_false]
          cases hkey : CDbThread.cacheKey nType pMessage with
          | none =>
              rw [executed_keyless hkey]
              split
              · rename_i m
                have hid : getPrimaryValue (.row m) = none := hkey
                simp only [hid]
                exact .same
              · cases hkey
              · exact .same
          | some nID =>
              rcases CDbThread.cacheKey_cases hkey with
                ⟨rfl, table_name, rfl⟩ | ⟨rfl, table_name, rfl⟩ | ⟨htype, m, rfl, hid⟩
              · rw [execute_select_mgr hdisabled]
                simp only
                cases st.selected pb srv nID table_name with
                | none => exact .named _
                | some m =>
                    simp only
                    split
                    · exact .set _ _ _ (.inr ⟨_, rfl⟩)
                    · exact .named _
              · rw [executed_mgr (by decide) (execute_cases ..),
                  CDbThread.onPreCache_delete hdisabled]
                exact .deleted _ _
              · have hselect : nType ≠ .kOT_SELECT := by rcases htype with rfl | rfl <;> decide
                rw [executed_mgr hselect (execute_cases ..)]
                cases hdata : pb.SerializeToString (.row m) with
                | none =>
                    rw [CDbThread.onPreCache_write_refused htype (.inr hdata)]
                    rcases htype with rfl | rfl
                    · simp only [hid, hdata]
                      exact .same
                    · exact .same
                | some szData =>
                    rcases htype with rfl | rfl
                    · rw [CDbThread.onPreCache_update hdisabled hid hdata]
                      simp only [hid, hdata]
                      exact .set _ _ _ (.inl rfl)
                    · rw [CDbThread.onPreCache_insert hdisabled hid hdata]
                      exact .added _ _

variable (pb srv) in
/-- What an action leaves of the manager and adds to the history. -/
inductive Logs (l : Logged σ) :
    StoreAction → CDbCacheMgr → List (Ledger.Event (Nat × Nat)) → Prop
  | nothing (sDbCommand : SDbCommand) (clock : Clock) :
      Logs l (.command sDbCommand clock) l.store.m_dbCacheMgr l.events
  | flushed (sDbCommand : SDbCommand) (clock : Clock) (id type : Nat)
      (htype : sDbCommand.nType = .kOT_FLUSH)
      (hmessage : sDbCommand.pMessage = some (.flush_command id type)) (bDel : Bool) :
      Logs l (.command sDbCommand clock)
        (l.store.m_dbCacheMgr.flushCache pb srv id bDel l.store.m_dbConnection).1
        (l.events ++ (writtenRecords (l.store.m_dbCacheMgr.flushCache pb srv id bDel
          l.store.m_dbConnection).2.1).map .written)
  | touched (sDbCommand : SDbCommand) (clock : Clock) (mgr' : CDbCacheMgr)
      (htouched : Touched pb l.store.m_dbCacheMgr clock.nSetTime
        (l.store.setCall pb srv (.command sDbCommand clock)) mgr') :
      Logs l (.command sDbCommand clock) mgr'
        (l.events ++
          ((l.store.modified pb srv (.command sDbCommand clock)).map .changed).toList)
  | ticked (nCurTime : Nat) (sample : Sample) (mgr' : CDbCacheMgr) (conn : CDbConnection σ)
      (writes : List WriteEvent)
      (hclean : l.store.m_dbCacheMgr.cleanCache pb srv nCurTime sample l.store.m_dbConnection =
        (mgr', writes, conn)) :
      Logs l (.tick nCurTime sample) (mgr'.writeback pb srv nCurTime conn).1
        (l.events ++ (writtenRecords writes).map .written ++
          (writtenRecords (mgr'.writeback pb srv nCurTime conn).2.1).map .written)
  | finished :
      Logs l .finish
        (l.store.m_dbCacheMgr.flushCache pb srv 0 true l.store.m_dbConnection).1
        (l.events ++ (writtenRecords (l.store.m_dbCacheMgr.flushCache pb srv 0 true
          l.store.m_dbConnection).2.1).map .written)

/-- **One action and its history.** -/
theorem log_cases (pb : Runtime) (srv : Server σ) (l : Logged σ) (action : StoreAction) :
    Logs pb srv l action (log pb srv l action).1.store.m_dbCacheMgr
      (log pb srv l action).1.events := by
  obtain ⟨st, events⟩ := l
  cases action with
  | command sDbCommand clock =>
      by_cases hflush : sDbCommand.nType = .kOT_FLUSH
      · simp only [log, modified_none (setCall_flush hflush clock), Option.map_none,
          Option.toList_none, List.append_nil]
        have hprocessed := process_cases pb srv st sDbCommand clock
        simp only [step]
        generalize st.process pb srv sDbCommand clock = result at hprocessed
        cases hprocessed with
        | flush id type _ hmessage mgr writes conn hpass =>
            have hflushed : Logs pb srv ⟨st, events⟩ (.command sDbCommand clock) _ _ :=
              .flushed sDbCommand clock id type hflush hmessage
                (type == EFlushCacheType.kFCT_DEL.code)
            rwa [hpass] at hflushed
        | flushNothing => simpa [writtenRecords] using Logs.nothing sDbCommand clock
        | expired htype => exact absurd hflush htype
        | executed htype => exact absurd hflush htype
      · have htouched := step_touched pb srv st hflush clock
        simp only [log, step_writes_nil hflush, writtenRecords, List.map_nil, List.append_nil]
        exact .touched sDbCommand clock _ htouched
  | tick nCurTime sample =>
      have hticked := Logs.ticked (l := ⟨st, events⟩) nCurTime sample _ _ _
        (rfl : st.m_dbCacheMgr.cleanCache pb srv nCurTime sample st.m_dbConnection = _)
      have hnone : st.modified pb srv (.tick nCurTime sample) = none := rfl
      simp only [log, hnone, Option.map_none, Option.toList_none, List.append_nil]
      rw [List.append_assoc, ← List.map_append, writtenRecords, writtenRecords,
        ← List.map_append] at hticked
      exact hticked
  | finish =>
      have hnone : st.modified pb srv .finish = none := rfl
      simp only [log, hnone, Option.map_none, Option.toList_none, List.append_nil]
      exact .finished

end Store

end Db
