import Mathlib.Algebra.BigOperators.Fin
import DbService.CacheLimit

/-!
# The workers' shares of the cache size

`init` divides the size by the number of workers, `setMaxCacheSize` the number of workers by the
size.  The first gives shares that add up to the size, short of at most one for each worker, and
never shrink when the size grows.  The second gives the same shares at one size alone, the number
of workers itself.

* `init_getMaxCacheSize`, `setMaxCacheSize_getMaxCacheSize` -- the two shares;
* `sharesAsInit_iff`, `sharesGrow_iff` -- where they agree, and where a larger size gives no less;
* `run_time_limits_agree_iff` -- both, whatever the limits were before;
* `run_time_limit_switches_caches_off` -- a size at which the caches are switched off.
-/

namespace Db

open Finset

/-- The limits of the workers use up the size, short of less than one for each worker. -/
structure SharesOut {n : Nat} (limits : Fin n → Int) (nSize : Nat) : Prop where
  total_le : ∑ i, limits i ≤ nSize
  lt_total : (nSize : Int) - n < ∑ i, limits i

/-- Equal shares, rounded down, use up the size. -/
theorem sharesOut_div {n : Nat} (hn : 0 < n) (nSize : Nat) :
    SharesOut (fun _ : Fin n => ((nSize / n : Nat) : Int)) nSize := by
  have htotal : ∑ _i : Fin n, ((nSize / n : Nat) : Int) = ((n * (nSize / n) : Nat) : Int) := by
    simp
  have hdivide : n * (nSize / n) + nSize % n = nSize := Nat.div_add_mod nSize n
  have hrest : nSize % n < n := Nat.mod_lt nSize hn
  refine ⟨?_, ?_⟩
  · rw [htotal]
    omega
  · rw [htotal]
    omega

/-- Of two sizes the larger leaves no smaller quotient exactly if nothing fits as often into `n`
by the smaller size and not by the larger. -/
theorem div_le_div_iff_fits {n nSize nLarger : Nat} (hsize : 0 < nSize) (hlarger : 0 < nLarger) :
    n / nSize ≤ n / nLarger ↔ ¬ ∃ k, k * nSize ≤ n ∧ n < k * nLarger := by
  constructor
  · rintro hle ⟨k, hfits, hover⟩
    have hk : k ≤ n / nSize := (Nat.le_div_iff_mul_le hsize).mpr hfits
    have hfits' : k * nLarger ≤ n := (Nat.le_div_iff_mul_le hlarger).mp (hk.trans hle)
    omega
  · intro hnone
    have hfits : n / nSize * nSize ≤ n := Nat.div_mul_le_self n nSize
    have hfits' : n / nSize * nLarger ≤ n := by
      by_contra hover
      exact hnone ⟨n / nSize, hfits, by omega⟩
    exact (Nat.le_div_iff_mul_le hlarger).mpr hfits'

/-- The number of times a size goes into `n` is `n`'s share of the size at `n` alone. -/
theorem div_eq_div_iff {n nSize : Nat} (hn : 0 < n) (hsize : 0 < nSize) :
    n / nSize = nSize / n ↔ nSize = n := by
  constructor
  · intro heq
    rcases Nat.lt_trichotomy nSize n with hlt | hsame | hgt
    · have hleft : 0 < n / nSize := Nat.div_pos hlt.le hsize
      have hright : nSize / n = 0 := Nat.div_eq_of_lt hlt
      omega
    · exact hsame
    · have hleft : n / nSize = 0 := Nat.div_eq_of_lt hgt
      have hright : 0 < nSize / n := Nat.div_pos hgt.le hn
      omega
  · rintro rfl
    rfl

/-- A `uint64_t` in the lower half of its range keeps its value as an `int64_t`. -/
theorem CDbCacheMgr.toInt64_of_lt {k : Nat} (hk : k < 2 ^ 63) : toInt64 k = k := by
  have hmod : k % 2 ^ 64 = k := Nat.mod_eq_of_lt (hk.trans (by decide))
  simp only [toInt64, hmod, if_pos hk]

namespace CDbThreadMgr

variable {n : Nat} {σ : Type}

/-- `CDbCacheMgr::getMaxCacheSize` of each worker. -/
def getMaxCacheSize (mgr : CDbThreadMgr n σ) (i : Fin n) : Int :=
  (mgr.m_vecDbThread i).store.m_dbCacheMgr.m_nMaxCacheSize

/-- `init` gives every worker the size divided by the number of workers. -/
theorem init_getMaxCacheSize {nSize : Nat} (hsize : nSize < 2 ^ 63) (nWritebackTime : Nat)
    (conn : Fin n → CDbConnection σ) (i : Fin n) :
    (init nSize nWritebackTime conn).getMaxCacheSize i = (nSize / n : Nat) :=
  CDbCacheMgr.toInt64_of_lt (lt_of_le_of_lt (Nat.div_le_self nSize n) hsize)

theorem setMaxCacheSize_zero (mgr : CDbThreadMgr n σ) : mgr.setMaxCacheSize 0 = none :=
  if_pos rfl

/-- Setting a size gives every worker the number of workers divided by the size. -/
theorem setMaxCacheSize_getMaxCacheSize (hcount : n < 2 ^ 32) {mgr mgr' : CDbThreadMgr n σ}
    {nSize : Nat} (hset : mgr.setMaxCacheSize nSize = some mgr') (i : Fin n) :
    mgr'.getMaxCacheSize i = (n / nSize : Nat) := by
  by_cases hzero : nSize = 0
  · simp [hzero, setMaxCacheSize_zero] at hset
  · rw [setMaxCacheSize, if_neg hzero, Option.some.injEq] at hset
    subst hset
    exact CDbCacheMgr.toInt64_of_lt (lt_of_le_of_lt (Nat.div_le_self n nSize) (by omega))

/-- So it is defined for the sizes that are not 0. -/
theorem exists_setMaxCacheSize_iff (mgr : CDbThreadMgr n σ) (nSize : Nat) :
    (∃ mgr', mgr.setMaxCacheSize nSize = some mgr') ↔ 0 < nSize := by
  by_cases hzero : nSize = 0
  · simp [hzero, setMaxCacheSize_zero]
  · simp [setMaxCacheSize, hzero, Nat.pos_of_ne_zero hzero]

/-- The shares given at start-up add up to the size. -/
theorem init_sharesOut (hn : 0 < n) {nSize : Nat} (hsize : nSize < 2 ^ 63) (nWritebackTime : Nat)
    (conn : Fin n → CDbConnection σ) :
    SharesOut (init nSize nWritebackTime conn).getMaxCacheSize nSize := by
  have hlimits : (init nSize nWritebackTime conn).getMaxCacheSize =
      fun _ => ((nSize / n : Nat) : Int) :=
    funext fun i => init_getMaxCacheSize hsize nWritebackTime conn i
  rw [hlimits]
  exact sharesOut_div hn nSize

/-- At start-up a larger size gives no worker a smaller limit. -/
theorem init_getMaxCacheSize_mono {nSize nLarger : Nat} (hle : nSize ≤ nLarger)
    (hlarger : nLarger < 2 ^ 63) (nWritebackTime : Nat) (conn : Fin n → CDbConnection σ)
    (i : Fin n) :
    (init nSize nWritebackTime conn).getMaxCacheSize i ≤
      (init nLarger nWritebackTime conn).getMaxCacheSize i := by
  rw [init_getMaxCacheSize (lt_of_le_of_lt hle hlarger), init_getMaxCacheSize hlarger]
  exact_mod_cast Nat.div_le_div_right hle

/-- The call is defined, leaves each worker with the limit `init` gives it for the size, and the
limits use up the size. -/
def SharesAsInit (mgr : CDbThreadMgr n σ) (nSize : Nat) : Prop :=
  ∃ mgr', mgr.setMaxCacheSize nSize = some mgr' ∧
    (∀ nWritebackTime conn i,
      mgr'.getMaxCacheSize i = (init (σ := σ) nSize nWritebackTime conn).getMaxCacheSize i) ∧
    SharesOut mgr'.getMaxCacheSize nSize

/-- Both calls are defined, and no worker's limit for the larger size is the smaller one. -/
def SharesGrow (mgr mgr₂ : CDbThreadMgr n σ) (nSize nLarger : Nat) : Prop :=
  ∃ mgr' mgr₂', mgr.setMaxCacheSize nSize = some mgr' ∧
    mgr₂.setMaxCacheSize nLarger = some mgr₂' ∧
    ∀ i, mgr'.getMaxCacheSize i ≤ mgr₂'.getMaxCacheSize i

/-- The two shares agree at one size, the number of workers. -/
theorem sharesAsInit_iff (hn : 0 < n) (hcount : n < 2 ^ 32) {nSize : Nat} (hsize : nSize < 2 ^ 63)
    (mgr : CDbThreadMgr n σ) : mgr.SharesAsInit nSize ↔ nSize = n := by
  constructor
  · rintro ⟨mgr', hset, hagree, -⟩
    have hpos : 0 < nSize := (exists_setMaxCacheSize_iff mgr nSize).mp ⟨mgr', hset⟩
    have hfirst := hagree 0 (fun i => (mgr.m_vecDbThread i).store.m_dbConnection) ⟨0, hn⟩
    rw [setMaxCacheSize_getMaxCacheSize hcount hset, init_getMaxCacheSize hsize] at hfirst
    exact (div_eq_div_iff hn hpos).mp (by exact_mod_cast hfirst)
  · rintro rfl
    obtain ⟨mgr', hset⟩ := (exists_setMaxCacheSize_iff mgr nSize).mpr hn
    have hlimits : ∀ nWritebackTime (conn : Fin nSize → CDbConnection σ) i,
        mgr'.getMaxCacheSize i = (init nSize nWritebackTime conn).getMaxCacheSize i := by
      intro nWritebackTime conn i
      rw [setMaxCacheSize_getMaxCacheSize hcount hset, init_getMaxCacheSize hsize]
    refine ⟨mgr', hset, hlimits, ?_⟩
    have hinit := init_sharesOut hn hsize 0
      (fun i => (mgr.m_vecDbThread i).store.m_dbConnection)
    rwa [← funext (hlimits 0 fun i => (mgr.m_vecDbThread i).store.m_dbConnection)] at hinit

/-- A larger size gives no smaller share exactly if no multiple of it passes the number of workers
that the same multiple of the smaller one does not. -/
theorem sharesGrow_iff (hn : 0 < n) (hcount : n < 2 ^ 32) {nSize nLarger : Nat}
    (hle : nSize ≤ nLarger) (mgr mgr₂ : CDbThreadMgr n σ) :
    mgr.SharesGrow mgr₂ nSize nLarger ↔
      0 < nSize ∧ ¬ ∃ k, k * nSize ≤ n ∧ n < k * nLarger := by
  constructor
  · rintro ⟨mgr', mgr₂', hset, hset₂, hgrow⟩
    have hpos : 0 < nSize := (exists_setMaxCacheSize_iff mgr nSize).mp ⟨mgr', hset⟩
    have hfirst := hgrow ⟨0, hn⟩
    rw [setMaxCacheSize_getMaxCacheSize hcount hset,
      setMaxCacheSize_getMaxCacheSize hcount hset₂] at hfirst
    exact ⟨hpos, (div_le_div_iff_fits hpos (hpos.trans_le hle)).mp (by exact_mod_cast hfirst)⟩
  · rintro ⟨hpos, hnone⟩
    have hpos₂ : 0 < nLarger := hpos.trans_le hle
    obtain ⟨mgr', hset⟩ := (exists_setMaxCacheSize_iff mgr nSize).mpr hpos
    obtain ⟨mgr₂', hset₂⟩ := (exists_setMaxCacheSize_iff mgr₂ nLarger).mpr hpos₂
    refine ⟨mgr', mgr₂', hset, hset₂, fun i => ?_⟩
    rw [setMaxCacheSize_getMaxCacheSize hcount hset, setMaxCacheSize_getMaxCacheSize hcount hset₂]
    exact_mod_cast (div_le_div_iff_fits hpos hpos₂).mpr hnone

/-- **The limits set at run time are those of start-up at one size alone.**  Whatever the limits
were before, the call is defined and leaves every worker with the limit `init` gives it, with the
sum `init` keeps to, exactly if the size is the number of workers; and two calls give no worker a
smaller limit for the larger size exactly if both are defined and the workers hold no multiple of
the smaller size that is out of reach for the larger. -/
theorem run_time_limits_agree_iff (hn : 0 < n) (hcount : n < 2 ^ 32) {nSize nLarger : Nat}
    (hle : nSize ≤ nLarger) (hlarger : nLarger < 2 ^ 63) (mgr mgr₂ : CDbThreadMgr n σ) :
    (mgr.SharesAsInit nSize ↔ nSize = n) ∧
      (mgr.SharesGrow mgr₂ nSize nLarger ↔
        0 < nSize ∧ ¬ ∃ k, k * nSize ≤ n ∧ n < k * nLarger) :=
  ⟨sharesAsInit_iff hn hcount (lt_of_le_of_lt hle hlarger) mgr,
    sharesGrow_iff hn hcount hle mgr mgr₂⟩

/-- Four workers started with a size, none of them connected. -/
def fourWorkers (nSize : Nat) : CDbThreadMgr 4 Unit :=
  init nSize 300 fun _ => ⟨false, (), 0, []⟩

/-- Four workers, with the sizes 4 and 5. -/
theorem run_time_limits_agree_iff_fourWorkers :
    ((fourWorkers 0).SharesAsInit 4 ↔ 4 = 4) ∧
      ((fourWorkers 0).SharesGrow (fourWorkers 9) 4 5 ↔
        0 < 4 ∧ ¬ ∃ k, k * 4 ≤ 4 ∧ 4 < k * 5) :=
  run_time_limits_agree_iff (by decide) (by decide) (by decide) (by decide) _ _

/-- A gigabyte for four workers, which start-up shares out as a quarter each, leaves none of them
a cache when it is set at run time; 0 is a division by zero. -/
theorem run_time_limit_switches_caches_off :
    (fourWorkers (2 ^ 30)).getMaxCacheSize 0 = 2 ^ 28 ∧
      (∃ mgr', (fourWorkers (2 ^ 30)).setMaxCacheSize (2 ^ 30) = some mgr' ∧
        ∀ i, mgr'.getMaxCacheSize i = 0) ∧
      ¬ (fourWorkers (2 ^ 30)).SharesAsInit (2 ^ 30) ∧
      (fourWorkers (2 ^ 30)).setMaxCacheSize 0 = none := by
  refine ⟨by decide, ?_, ?_, setMaxCacheSize_zero _⟩
  · exact ⟨_, rfl, fun i => by decide +revert⟩
  · rw [sharesAsInit_iff (by decide) (by decide) (by decide)]
    decide

end CDbThreadMgr

end Db
