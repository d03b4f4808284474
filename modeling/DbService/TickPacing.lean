import DbService.Pacing
import DbService.WritebackFailures

/-!
# The two timers of a tick

Every tick makes a write-back pass and evicts an id, or does not, by two guards that compare
the time of the last one with its own.  Commands leave both times alone; a run with its
record (`Pacing.record`) then shows what the guards do.  Neither guard works from the second
time on: the difference in the guard of `writeback` wraps, so that a pass is made at every
new time, and the one in the guard of `cleanCache` is never large enough again.

* `makesPass_iff` -- the guard of `writeback`, whose difference wraps;
* `passesWhenDue_iff` -- one tick;
* `writeback_paced_iff` -- whole runs;
* `pass_each_second` -- a pass at every tick.
-/

namespace Db

open Reflection ByteText

namespace CDbCacheMgr

variable {σ : Type} {pb : Runtime} {srv : Server σ} {mgr : CDbCacheMgr}

/-- `writeback(nTime)` gets past both of its guards. -/
def makesPass (mgr : CDbCacheMgr) (nTime : Nat) : Bool := !mgr.isDisabled && !mgr.isPaced nTime

/-! ## What commands leave alone -/

/-- The limits and the times of the last eviction and the last pass are the same. -/
structure SameTimers (mgr mgr' : CDbCacheMgr) : Prop where
  nMaxCacheSize : mgr'.m_nMaxCacheSize = mgr.m_nMaxCacheSize
  nLastCleanCacheTime : mgr'.m_nLastCleanCacheTime = mgr.m_nLastCleanCacheTime
  nLastWritebackTime : mgr'.m_nLastWritebackTime = mgr.m_nLastWritebackTime
  nWritebackTime : mgr'.m_nWritebackTime = mgr.m_nWritebackTime

theorem SameTimers.refl (mgr : CDbCacheMgr) : SameTimers mgr mgr := ⟨rfl, rfl, rfl, rfl⟩

theorem SameTimers.isDisabled {mgr' : CDbCacheMgr} (h : SameTimers mgr mgr') :
    mgr'.isDisabled = mgr.isDisabled := by
  simp [CDbCacheMgr.isDisabled, h.nMaxCacheSize]

/-- Looking up a name changes no timer. -/
theorem getDataID_sameTimers {mgr' : CDbCacheMgr} (h : SameTimers mgr mgr')
    (szDataName : String) : SameTimers mgr (mgr'.getDataID szDataName).2 := by
  obtain ⟨hmax, hclean, hlast, hinterval⟩ := h
  unfold getDataID
  split
  · exact ⟨hmax, hclean, hlast, hinterval⟩
  · exact ⟨hmax, hclean, hlast, hinterval⟩

/-- Entering a name, an object and a record moves no timer. -/
theorem AddOutcome.sameTimers {mgr' : CDbCacheMgr} (h : SameTimers mgr mgr') {nID : Nat}
    {pData : RowMessage} {result : Bool × CDbCacheMgr}
    (houtcome : AddOutcome pb mgr' nID pData result) : SameTimers mgr result.2 := by
  obtain ⟨hmax, hclean, hlast, hinterval⟩ := getDataID_sameTimers h pData.GetTypeName
  cases houtcome <;> exact ⟨hmax, hclean, hlast, hinterval⟩

/-- **Commands leave the timers alone.** -/
theorem kept_sameTimers (pb : Runtime) (mgr : CDbCacheMgr) :
    Kept pb (fun _ => True) (SameTimers mgr) := by
  apply Kept.of_outcomes
  · exact fun _ szDataName h => getDataID_sameTimers h szDataName
  · intro mgr' nID pData result _ h _ houtcome
    exact houtcome.sameTimers h
  · intro mgr' nID pData nTime result _ h _ houtcome
    have hnamed := getDataID_sameTimers h pData.GetTypeName
    cases houtcome with
    | uncached _ _ hadd => exact hadd.sameTimers h
    | badIndex => exact hnamed
    | refused => exact hnamed
    | stored => exact ⟨hnamed.1, hnamed.2, hnamed.3, hnamed.4⟩
  · intro mgr' nID szDataName result _ h _ houtcome
    have hnamed := getDataID_sameTimers h szDataName
    cases houtcome with
    | uncached => exact h
    | badIndex => exact hnamed
    | absent => exact hnamed
    | deleted => exact ⟨hnamed.1, hnamed.2, hnamed.3, hnamed.4⟩

/-! ## What the passes do to the timers -/

/-- A pass that is made leaves its time. -/
theorem writeback_lastWritebackTime (pb : Runtime) (srv : Server σ) (mgr : CDbCacheMgr)
    (nTime : Nat) (conn : CDbConnection σ) :
    (mgr.writeback pb srv nTime conn).1.m_nLastWritebackTime =
      if mgr.makesPass nTime then nTime else mgr.m_nLastWritebackTime := by
  unfold makesPass
  rcases writeback_cases pb srv mgr nTime conn with ⟨hskip | hskip, heq⟩ | ⟨hon, hpaced, heq⟩
  · simp [heq, hskip]
  · simp [heq, hskip]
  · simp [heq, hon, hpaced]

/-- A timed pass leaves the time of the last eviction, -/
theorem writeback_lastCleanCacheTime (pb : Runtime) (srv : Server σ) (mgr : CDbCacheMgr)
    (nTime : Nat) (conn : CDbConnection σ) :
    (mgr.writeback pb srv nTime conn).1.m_nLastCleanCacheTime = mgr.m_nLastCleanCacheTime := by
  rcases writeback_cases pb srv mgr nTime conn with ⟨_, heq⟩ | ⟨_, _, heq⟩ <;> rw [heq]

/-- and an eviction that of the last pass. -/
theorem cleanCache_lastWritebackTime (pb : Runtime) (srv : Server σ) (mgr : CDbCacheMgr)
    (nTime : Nat) (sample : Sample) (conn : CDbConnection σ) :
    (mgr.cleanCache pb srv nTime sample conn).1.m_nLastWritebackTime =
      mgr.m_nLastWritebackTime := by
  rcases cleanCache_cases pb srv mgr nTime sample conn with ⟨_, _, heq⟩ | ⟨_, _, _, _, heq⟩
  · rw [heq]
  · rw [heq]
    rfl

/-- An eviction leaves its time, and so does a sampling that hits nothing. -/
theorem cleanCache_lastCleanCacheTime (pb : Runtime) (srv : Server σ) (mgr : CDbCacheMgr)
    (nTime : Nat) (sample : Sample) (conn : CDbConnection σ) :
    let nLast := (mgr.cleanCache pb srv nTime sample conn).1.m_nLastCleanCacheTime
    nLast = nTime ∨ mgr.evicted nTime sample = none ∧ nLast = mgr.m_nLastCleanCacheTime := by
  unfold cleanCache evicted
  split
  · exact .inr ⟨rfl, rfl⟩
  · split
    · exact .inr ⟨rfl, rfl⟩
    · split
      · exact .inr ⟨rfl, rfl⟩
      · refine .inl ?_
        simp only
        split <;> rfl

/-- **The guard of `writeback`** on a clock that does not go back: the difference wraps as soon
as the clock has moved, so only a pass at the same time is held back. -/
theorem makesPass_iff {nTime : Nat} (hpositive : 0 < mgr.m_nWritebackTime)
    (hword : mgr.m_nWritebackTime < 2 ^ 32) (hle : mgr.m_nLastWritebackTime ≤ nTime)
    (htime : nTime < 2 ^ 63) :
    mgr.makesPass nTime = true ↔
      mgr.isDisabled = false ∧
        (mgr.m_nLastWritebackTime = 0 ∨ mgr.m_nLastWritebackTime < nTime) := by
  have hguard : subUInt64 mgr.m_nLastWritebackTime nTime < mgr.m_nWritebackTime ↔
      mgr.m_nLastWritebackTime = nTime := by
    unfold subUInt64
    omega
  simp only [makesPass, isPaced, Bool.and_eq_true, Bool.not_eq_true', Bool.and_eq_false_iff,
    bne_eq_false_iff_eq, decide_eq_false_iff_not, hguard]
  refine and_congr_right fun _ => or_congr_right ?_
  exact ⟨fun hne => by omega, fun hlt => by omega⟩

end CDbCacheMgr

/-- The clock reading of a tick. -/
def StoreAction.time : StoreAction → Option Nat
  | .tick nCurTime _ => some nCurTime
  | _ => none

/-- The action flushes the cache. -/
def StoreAction.Flushes : StoreAction → Prop
  | .command sDbCommand _ => sDbCommand.nType = .kOT_FLUSH
  | .tick _ _ => False
  | .finish => True

namespace Store

open CDbCacheMgr

variable {σ : Type} (pb : Runtime) (srv : Server σ)

/-! ## Write-back passes -/

/-- The tick makes a pass of write-back. -/
def makesPass (st : Store σ) : StoreAction → Bool
  | .tick nCurTime sample =>
      (st.m_dbCacheMgr.cleanCache pb srv nCurTime sample st.m_dbConnection).1.makesPass nCurTime
  | _ => false

/-- A store with the record of its passes. -/
abbrev recordPasses : Pacing.Recorded (Store σ) → StoreAction →
    Pacing.Recorded (Store σ) × StoreOutput :=
  Pacing.record (step pb srv) StoreAction.time (makesPass pb srv)

/-- No flush, and ticks at positive times of type `int64_t`, in order. -/
def TicksOnly (r : Pacing.Recorded (Store σ)) (action : StoreAction) : Prop :=
  ¬ action.Flushes ∧
    ∀ nCurTime ∈ action.time, r.clock ≤ nCurTime ∧ 0 < nCurTime ∧ nCurTime < 2 ^ 63

/-- A tick makes a pass exactly when none was made yet or the interval has passed. -/
def PassesWhenDue (nWritebackTime : Nat) (r : Pacing.Recorded (Store σ)) : StoreAction → Prop
  | .tick nCurTime sample =>
      makesPass pb srv r.state (.tick nCurTime sample) = true ↔
        Pacing.Due nWritebackTime r.fired.head? nCurTime
  | _ => True

/-- The cache is on, and a tick comes at the time of the last pass or a whole interval after
it. -/
def MeetsInterval (r : Pacing.Recorded (Store σ)) : StoreAction → Prop
  | .tick nCurTime _ =>
      let mgr := r.state.m_dbCacheMgr
      mgr.isDisabled = false ∧ (mgr.m_nLastWritebackTime = 0 ∨
        mgr.m_nLastWritebackTime = nCurTime ∨
        mgr.m_nLastWritebackTime + mgr.m_nWritebackTime ≤ nCurTime)
  | _ => True

/-- The time of the last pass is that of the last one recorded, and 0 without one.  A cache that
is off makes none. -/
structure PassTime (nWritebackTime : Nat) (r : Pacing.Recorded (Store σ)) : Prop where
  interval : r.state.m_dbCacheMgr.m_nWritebackTime = nWritebackTime
  last : r.state.m_dbCacheMgr.m_nLastWritebackTime = r.fired.head?.getD 0
  positive : ∀ t ∈ r.fired, 0 < t
  le : r.state.m_dbCacheMgr.m_nLastWritebackTime ≤ r.clock
  off : r.state.m_dbCacheMgr.isDisabled = true → r.fired = []

variable {pb srv} {st : Store σ}

/-- A command that is no flush moves no timer. -/
theorem step_sameTimers (pb : Runtime) (srv : Server σ) (st : Store σ) {sDbCommand : SDbCommand}
    (hflush : sDbCommand.nType ≠ .kOT_FLUSH) (clock : Clock) :
    SameTimers st.m_dbCacheMgr (st.step pb srv (.command sDbCommand clock)).1.m_dbCacheMgr := by
  have hprocessed := process_cases pb srv st sDbCommand clock
  simp only [step]
  generalize st.process pb srv sDbCommand clock = result at hprocessed
  cases hprocessed with
  | flush _ _ htype => exact absurd htype hflush
  | flushNothing htype => exact absurd htype hflush
  | expired => exact .refl _
  | executed _ _ st' outcome hexecuted =>
      exact (kept_sameTimers pb _).executed (fun _ _ => trivial) hexecuted (.refl _)

/-- A tick leaves the time of its pass. -/
theorem step_lastWritebackTime (pb : Runtime) (srv : Server σ) (st : Store σ) (nCurTime : Nat)
    (sample : Sample) :
    (st.step pb srv (.tick nCurTime sample)).1.m_dbCacheMgr.m_nLastWritebackTime =
      if makesPass pb srv st (.tick nCurTime sample) then nCurTime
      else st.m_dbCacheMgr.m_nLastWritebackTime := by
  rw [← cleanCache_lastWritebackTime pb srv st.m_dbCacheMgr nCurTime sample st.m_dbConnection]
  exact writeback_lastWritebackTime pb srv _ nCurTime _

/-- Whether the tick makes its pass is decided by the manager before its eviction. -/
theorem makesPass_tick (pb : Runtime) (srv : Server σ) (st : Store σ) (nCurTime : Nat)
    (sample : Sample) :
    makesPass pb srv st (.tick nCurTime sample) = st.m_dbCacheMgr.makesPass nCurTime := by
  have hsame := cleanCache_sameRecords pb srv st.m_dbCacheMgr nCurTime sample st.m_dbConnection
  simp only [makesPass, CDbCacheMgr.makesPass, isPaced, hsame.isDisabled, hsame.nWritebackTime,
    cleanCache_lastWritebackTime]

/-- **The step lemma.**  Commands leave the timers alone, and a tick sets the time of the last
pass exactly when it makes one, so that it stays the newest of the recorded times. -/
theorem step_passTime {nWritebackTime : Nat} {r : Pacing.Recorded (Store σ)}
    (h : PassTime nWritebackTime r) {action : StoreAction} (hticks : TicksOnly r action) :
    PassTime nWritebackTime (recordPasses pb srv r action).1 := by
  obtain ⟨hflush, hclock⟩ := hticks
  cases action with
  | command sDbCommand clock =>
      have hsame := step_sameTimers pb srv r.state hflush clock
      exact ⟨hsame.nWritebackTime.trans h.interval, hsame.nLastWritebackTime.trans h.last,
        h.positive, hsame.nLastWritebackTime.le.trans h.le,
        fun hoff => h.off (hsame.isDisabled ▸ hoff)⟩
  | tick nCurTime sample =>
      obtain ⟨hle, hpositive, _⟩ := hclock nCurTime rfl
      have hlast := step_lastWritebackTime pb srv r.state nCurTime sample
      have hsame := update_sameRecords pb srv r.state.m_dbCacheMgr nCurTime sample
        r.state.m_dbConnection
      have hinterval := hsame.nWritebackTime.trans h.interval
      rw [recordPasses, Pacing.record]
      cases hpass : makesPass pb srv r.state (.tick nCurTime sample) with
      | true =>
          rw [hpass, if_pos rfl] at hlast
          refine ⟨hinterval, hlast, List.forall_mem_cons.mpr ⟨hpositive, h.positive⟩, hlast.le, ?_⟩
          intro hoff
          have hoff' := hsame.isDisabled.symm.trans hoff
          simp [makesPass_tick, CDbCacheMgr.makesPass, hoff'] at hpass
      | false =>
          rw [hpass, if_neg Bool.false_ne_true] at hlast
          exact ⟨hinterval, hlast.trans h.last, h.positive, hlast.le.trans (h.le.trans hle),
            fun hoff => h.off (hsame.isDisabled ▸ hoff)⟩
  | finish => exact absurd trivial hflush

/-- **A tick passes when it is due** exactly when it meets the interval. -/
theorem passesWhenDue_iff (pb : Runtime) (srv : Server σ) {nWritebackTime : Nat}
    (hinterval : 0 < nWritebackTime) (hword : nWritebackTime < 2 ^ 32)
    {r : Pacing.Recorded (Store σ)} (h : PassTime nWritebackTime r) {action : StoreAction}
    (hticks : TicksOnly r action) :
    PassesWhenDue pb srv nWritebackTime r action ↔ MeetsInterval r action := by
  obtain ⟨_, hclock⟩ := hticks
  cases action with
  | command => exact Iff.rfl
  | finish => exact Iff.rfl
  | tick nCurTime sample =>
      obtain ⟨hle, hpositive, hbound⟩ := hclock nCurTime rfl
      obtain ⟨hW, hlast, hfired, hlastle, hoff⟩ := h
      subst hW
      have hpass := makesPass_iff hinterval hword (hlastle.trans hle) hbound
      have hdue : Pacing.Due r.state.m_dbCacheMgr.m_nWritebackTime r.fired.head? nCurTime ↔
          r.state.m_dbCacheMgr.m_nLastWritebackTime = 0 ∨
            r.state.m_dbCacheMgr.m_nLastWritebackTime +
              r.state.m_dbCacheMgr.m_nWritebackTime ≤ nCurTime := by
        rw [hlast]
        cases hcase : r.fired with
        | nil => simp [Pacing.Due]
        | cons t _ =>
            have ht : 0 < t := hfired t (by simp [hcase])
            simp only [Pacing.Due, List.head?_cons, Option.mem_some_iff, forall_eq',
              Option.getD_some]
            omega
      simp only [PassesWhenDue, MeetsInterval, makesPass_tick, hpass, hdue]
      cases hdisabled : r.state.m_dbCacheMgr.isDisabled with
      | true =>
          have hnever : r.state.m_dbCacheMgr.m_nLastWritebackTime = 0 := by
            rw [hlast, hoff hdisabled]
            rfl
          simp [hnever]
      | false =>
          simp only [true_and]
          omega

end Store

/-- **Write-back passes and their interval.**  In a run of ticks and commands without a flush, from
a store that has made no pass, every tick makes a pass exactly when it is due, and so the passes
are an interval apart, if and only if the cache is on and no tick falls strictly between a pass
and the end of its interval. -/
theorem writeback_paced_iff {σ : Type} (pb : Runtime) (srv : Server σ) (st : Store σ)
    (hnone : st.m_dbCacheMgr.m_nLastWritebackTime = 0)
    (hinterval : 0 < st.m_dbCacheMgr.m_nWritebackTime)
    (hword : st.m_dbCacheMgr.m_nWritebackTime < 2 ^ 32) (actions : List StoreAction)
    (hticks : Runs.Guarded (Store.recordPasses pb srv) Store.TicksOnly (Pacing.start st)
      actions) :
    (Runs.Guarded (Store.recordPasses pb srv)
          (Store.PassesWhenDue pb srv st.m_dbCacheMgr.m_nWritebackTime) (Pacing.start st) actions ∧
        Pacing.Spaced st.m_dbCacheMgr.m_nWritebackTime
          (Runs.run (Store.recordPasses pb srv) (Pacing.start st) actions).fired) ↔
      Runs.Guarded (Store.recordPasses pb srv) Store.MeetsInterval (Pacing.start st) actions := by
  have hstart : Store.PassTime st.m_dbCacheMgr.m_nWritebackTime (Pacing.start st) :=
    ⟨rfl, hnone, by simp [Pacing.start], hnone.le, fun _ => rfl⟩
  have hiff := Runs.guarded_iff_within
    (Store.PassTime (σ := σ) st.m_dbCacheMgr.m_nWritebackTime)
    (fun _ _ h hticks => Store.step_passTime h hticks)
    (fun _ _ h hticks => Store.passesWhenDue_iff pb srv hinterval hword h hticks)
    hstart hticks
  rw [← hiff]
  refine ⟨And.left, fun hpasses => ⟨hpasses, ?_⟩⟩
  apply Pacing.run_spaced (Pacing.start_spaced _ st)
  apply hpasses.imp
  intro r action hdue nCurTime htime hfires
  cases action with
  | command => cases htime
  | tick nCurTime' sample =>
      obtain rfl := Option.some.inj htime
      exact hdue.mp hfires
  | finish => cases htime

/-- A worker that is to write back every minute. -/
def eachMinute : Store Unit :=
  Store.init 1000 60 ⟨true, (), 0, []⟩

/-- Two ticks at which nothing is evicted. -/
def twoTicks (nCurTime nCurTime' : Nat) : List StoreAction :=
  [.tick nCurTime ⟨[], 0⟩, .tick nCurTime' ⟨[], 0⟩]

/-- Two ticks with rising readings are ticks only. -/
theorem twoTicks_ticksOnly {nCurTime nCurTime' : Nat} (hpositive : 0 < nCurTime)
    (hle : nCurTime ≤ nCurTime') (hbound : nCurTime' < 2 ^ 63) :
    Runs.Guarded (Store.recordPasses PlayerBase.runtime (.constant (.done 0 1))) Store.TicksOnly
      (Pacing.start eachMinute) (twoTicks nCurTime nCurTime') := by
  refine ⟨⟨id, ?_⟩, ⟨id, ?_⟩, trivial⟩
  · intro _ htime
    obtain rfl := Option.some.inj htime
    exact ⟨Nat.zero_le _, hpositive, by omega⟩
  · intro _ htime
    obtain rfl := Option.some.inj htime
    exact ⟨hle, by omega, hbound⟩

/-- Two ticks, a minute apart. -/
theorem writeback_paced_minuteApart :
    Runs.Guarded (Store.recordPasses PlayerBase.runtime (.constant (.done 0 1)))
        (Store.PassesWhenDue PlayerBase.runtime (.constant (.done 0 1)) 60)
        (Pacing.start eachMinute) (twoTicks 100 160) ∧
      Pacing.Spaced 60 (Runs.run (Store.recordPasses PlayerBase.runtime (.constant (.done 0 1)))
        (Pacing.start eachMinute) (twoTicks 100 160)).fired :=
  (writeback_paced_iff PlayerBase.runtime (.constant (.done 0 1)) eachMinute rfl (by decide)
    (by decide) (twoTicks 100 160) (twoTicks_ticksOnly (by decide) (by decide) (by decide))).mpr
    ⟨⟨rfl, .inl rfl⟩, ⟨rfl, .inr (.inr (by decide))⟩, trivial⟩

/-- A second after the first pass the worker makes the next. -/
theorem pass_each_second :
    ¬ ∀ (σ : Type) (pb : Runtime) (srv : Server σ) (st : Store σ),
      st.m_dbCacheMgr.m_nLastWritebackTime = 0 → 0 < st.m_dbCacheMgr.m_nWritebackTime →
      st.m_dbCacheMgr.m_nWritebackTime < 2 ^ 32 → ∀ actions,
      Runs.Guarded (Store.recordPasses pb srv) Store.TicksOnly (Pacing.start st) actions →
      Runs.Guarded (Store.recordPasses pb srv)
          (Store.PassesWhenDue pb srv st.m_dbCacheMgr.m_nWritebackTime) (Pacing.start st)
          actions ∧
        Pacing.Spaced st.m_dbCacheMgr.m_nWritebackTime
          (Runs.run (Store.recordPasses pb srv) (Pacing.start st) actions).fired := by
  intro h
  have hspaced := (h Unit PlayerBase.runtime (.constant (.done 0 1)) eachMinute rfl (by decide)
    (by decide) (twoTicks 100 101)
    (twoTicks_ticksOnly (by decide) (by decide) (by decide))).2
  revert hspaced
  decide

end Db
