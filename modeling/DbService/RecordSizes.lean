import DbService.CacheSize

/-!
# The size counter of an object, in its 32 bits

`m_nDataSize` of a `CDbCache` is an `int32_t`: each operation casts the sizes of the records to
it, and a sum outside its range is undefined.  Here the operations are stated with this
arithmetic, and while the records have fewer than `2 ^ 31` bytes together they are the
operations on integers: the counter is the sum of the sizes, and a call that fails leaves the
object as it was.

* `callInt32_eq_call` -- a call between records that fit is the call on integers;
* `record_sizes_counted` -- the counter, and calls that fail, at every point of a sequence.
-/

namespace Db

open Reflection ByteText

/-- `(int32_t)` of a size. -/
def toInt32 (nSize : Nat) : Int := Int.bmod nSize (2 ^ 32)

/-- The result of an operation on `int32_t`, undefined outside its range. -/
def int32Result (n : Int) : Option Int := if signedFits 32 n then some n else none

/-- The sum of two `int32_t`. -/
def addInt32 (a b : Int) : Option Int := int32Result (a + b)

/-- The difference of two `int32_t`. -/
def subInt32 (a b : Int) : Option Int := int32Result (a - b)

/-- A call on the records of an id, with the clock reading of a modification. -/
inductive RecordCall
  | addData (nDataID : Nat) (pData : RowMessage)
  | setData (nDataID : Nat) (szDataName : String) (pData : RowMessage) (nTime : Nat)
  | delData (nDataID : Nat)

namespace CDbCache

variable (pb : Runtime)

/-- `addData`: the size of a new record goes on the counter. -/
def addDataInt32 (pDbCache : CDbCache) (nDataID : Nat) (pData : RowMessage) :
    Option (Bool × CDbCache) :=
  match pDbCache.m_mapCacheInfo[nDataID]? with
  | some _ => some (false, pDbCache)
  | none =>
      match pb.SerializeToString (.row pData) with
      | none => some (false, pDbCache)
      | some szData => do
          let nSize := toInt32 szData.length
          let m_nDataSize ← addInt32 pDbCache.m_nDataSize nSize
          return (true,
            { m_mapCacheInfo := pDbCache.m_mapCacheInfo.insert nDataID ⟨szData, 0⟩
              m_nDataSize := m_nDataSize })

/-- `setData`: the old size comes off the counter before the new one goes on. -/
def setDataInt32 (pDbCache : CDbCache) (nDataID : Nat) (szDataName : String)
    (pData : RowMessage) (nTime : Nat) : Option (Bool × CDbCache) :=
  match pDbCache.m_mapCacheInfo[nDataID]? with
  | none => pDbCache.addDataInt32 pb nDataID pData
  | some sCacheInfo =>
      match mergeData pb szDataName sCacheInfo.szData pData with
      | none => some (false, pDbCache)
      | some szData => do
          let nSize := toInt32 szData.length
          let nOthers ← subInt32 pDbCache.m_nDataSize (toInt32 sCacheInfo.szData.length)
          let m_nDataSize ← addInt32 nOthers nSize
          return (true,
            { m_mapCacheInfo := pDbCache.m_mapCacheInfo.insert nDataID ⟨szData, nTime⟩
              m_nDataSize := m_nDataSize })

/-- `delData`: the size of the record comes off the counter. -/
def delDataInt32 (pDbCache : CDbCache) (nDataID : Nat) : Option (Bool × CDbCache) :=
  match pDbCache.m_mapCacheInfo[nDataID]? with
  | none => some (false, pDbCache)
  | some sCacheInfo => do
      let m_nDataSize ←
        subInt32 pDbCache.m_nDataSize (toInt32 sCacheInfo.szData.length)
      return (true,
        { m_mapCacheInfo := pDbCache.m_mapCacheInfo.erase nDataID
          m_nDataSize := m_nDataSize })

/-- A call, with its result. -/
def callInt32 (pDbCache : CDbCache) : RecordCall → Option (CDbCache × Bool)
  | .addData nDataID pData => (pDbCache.addDataInt32 pb nDataID pData).map Prod.swap
  | .setData nDataID szDataName pData nTime =>
      (pDbCache.setDataInt32 pb nDataID szDataName pData nTime).map Prod.swap
  | .delData nDataID => (pDbCache.delDataInt32 nDataID).map Prod.swap

/-- The same call where the counter is an integer. -/
def call (pDbCache : CDbCache) : RecordCall → CDbCache × Bool
  | .addData nDataID pData => (pDbCache.addData pb nDataID pData).swap
  | .setData nDataID szDataName pData nTime =>
      (pDbCache.setData pb nDataID szDataName pData nTime).swap
  | .delData nDataID => (pDbCache.delData nDataID).swap

/-- The sum of the lengths of the records. -/
def recordBytes (pDbCache : CDbCache) : Int :=
  Totals.total (fun _ sCacheInfo => (sCacheInfo.szData.length : Int)) pDbCache.m_mapCacheInfo

end CDbCache

/-! ## Arithmetic that stays in range -/

theorem toInt32_of_lt {nSize : Nat} (h : (nSize : Int) < 2 ^ 31) : toInt32 nSize = nSize := by
  unfold toInt32
  apply Int.bmod_eq_of_le <;> omega

/-- A result that is in range is defined. -/
theorem int32Result_of_range {n : Int} (hle : 0 ≤ n) (hlt : n < 2 ^ 31) :
    int32Result n = some n := by
  have hfits : signedFits 32 n = true := by
    simp only [signedFits, Bool.and_eq_true, decide_eq_true_eq]
    omega
  rw [int32Result, if_pos hfits]

/-! ## The operations on integers -/

namespace CDbCache

variable {pb : Runtime} {pDbCache : CDbCache}

/-- A record is no longer than all records together. -/
theorem Sized.record_le (h : pDbCache.Sized) {nDataID : Nat} {sCacheInfo : SCacheInfo}
    (hrecord : pDbCache.m_mapCacheInfo[nDataID]? = some sCacheInfo) :
    (sCacheInfo.szData.length : Int) ≤ pDbCache.m_nDataSize := by
  have hothers := (h.withoutRecord hrecord).nonneg
  simp only [getDataSize] at hothers
  omega

/-- Deleting keeps the counter the sum of the sizes. -/
theorem DelOutcome.sized (h : pDbCache.Sized) {nDataID : Nat} {result : Bool × CDbCache}
    (houtcome : DelOutcome pDbCache nDataID result) : result.2.Sized := by
  cases houtcome with
  | absent => exact h
  | deleted sCacheInfo hrecord => exact h.withoutRecord hrecord

/-- So does every call. -/
theorem call_sized (h : pDbCache.Sized) (c : RecordCall) : (pDbCache.call pb c).1.Sized := by
  cases c with
  | addData nDataID pData => exact (addData_outcome pb pDbCache nDataID pData).sized h
  | setData nDataID szDataName pData nTime =>
      exact (setData_outcome pb pDbCache nDataID szDataName pData nTime).sized h
  | delData nDataID => exact (delData_outcome pDbCache nDataID).sized h

/-- A new record fits the counter that counts it. -/
theorem addDataInt32_eq (h : pDbCache.Sized) {nDataID : Nat} {pData : RowMessage}
    (hafter : (pDbCache.addData pb nDataID pData).2.m_nDataSize < 2 ^ 31) :
    pDbCache.addDataInt32 pb nDataID pData = some (pDbCache.addData pb nDataID pData) := by
  have hnonneg : 0 ≤ pDbCache.m_nDataSize := h.nonneg
  unfold addDataInt32
  unfold addData at hafter ⊢
  cases hrecord : pDbCache.m_mapCacheInfo[nDataID]? with
  | some sCacheInfo => rfl
  | none =>
      cases hdata : pb.SerializeToString (.row pData) with
      | none => rfl
      | some szData =>
          simp only [hrecord, hdata] at hafter
          simp only [addInt32]
          rw [toInt32_of_lt (by omega), int32Result_of_range (by omega) hafter]
          rfl

/-- The counter without the old record is not negative, and the new record fits it. -/
theorem setDataInt32_eq (h : pDbCache.Sized) (hbefore : pDbCache.m_nDataSize < 2 ^ 31)
    {nDataID nTime : Nat} {szDataName : String} {pData : RowMessage}
    (hafter : (pDbCache.setData pb nDataID szDataName pData nTime).2.m_nDataSize < 2 ^ 31) :
    pDbCache.setDataInt32 pb nDataID szDataName pData nTime =
      some (pDbCache.setData pb nDataID szDataName pData nTime) := by
  unfold setDataInt32
  unfold setData at hafter ⊢
  cases hrecord : pDbCache.m_mapCacheInfo[nDataID]? with
  | none =>
      simp only [hrecord] at hafter
      exact addDataInt32_eq h hafter
  | some sCacheInfo =>
      cases hmerge : mergeData pb szDataName sCacheInfo.szData pData with
      | none => simp only [hmerge]
      | some szData =>
          simp only [hrecord, hmerge] at hafter
          have hle := h.record_le hrecord
          have hold : toInt32 sCacheInfo.szData.length = sCacheInfo.szData.length :=
            toInt32_of_lt (by omega)
          have hnew : toInt32 szData.length = szData.length := toInt32_of_lt (by omega)
          simp only [hmerge, addInt32, subInt32, hold, hnew]
          rw [int32Result_of_range (by omega) (by omega), Option.bind_eq_bind, Option.bind_some,
            int32Result_of_range (by omega) hafter]
          rfl

/-- Deleting in `int32_t` is deleting in integers: the difference is in range if the sum was. -/
theorem delDataInt32_eq (h : pDbCache.Sized) (hbefore : pDbCache.m_nDataSize < 2 ^ 31)
    (nDataID : Nat) : pDbCache.delDataInt32 nDataID = some (pDbCache.delData nDataID) := by
  unfold delDataInt32 delData
  cases hrecord : pDbCache.m_mapCacheInfo[nDataID]? with
  | none => rfl
  | some sCacheInfo =>
      have hle := h.record_le hrecord
      simp only [subInt32]
      rw [toInt32_of_lt (by omega), int32Result_of_range (by omega) (by omega)]
      rfl

/-- **A call between records that fit** is the call on integers. -/
theorem callInt32_eq_call (h : pDbCache.Sized) {c : RecordCall}
    (hbefore : pDbCache.recordBytes < 2 ^ 31)
    (hafter : (pDbCache.call pb c).1.recordBytes < 2 ^ 31) :
    pDbCache.callInt32 pb c = some (pDbCache.call pb c) := by
  have hbefore' : pDbCache.m_nDataSize < 2 ^ 31 := by
    rw [h]
    exact hbefore
  have hafter' : (pDbCache.call pb c).1.m_nDataSize < 2 ^ 31 := by
    rw [call_sized h c]
    exact hafter
  cases c with
  | addData nDataID pData => simp only [callInt32, addDataInt32_eq h hafter', Option.map_some, call]
  | setData nDataID szDataName pData nTime =>
      simp only [callInt32, setDataInt32_eq h hbefore' hafter', Option.map_some, call]
  | delData nDataID => simp only [callInt32, delDataInt32_eq h hbefore', Option.map_some, call]

/-! ## Calls that fail -/

/-- An `addData` that fails leaves the object as it was, -/
theorem AddOutcome.unchanged {nDataID : Nat} {pData : RowMessage} {result : Bool × CDbCache}
    (houtcome : AddOutcome pb pDbCache nDataID pData result) (hfalse : result.1 = false) :
    result.2 = pDbCache := by
  cases houtcome with
  | present => rfl
  | unserialised => rfl
  | added => cases hfalse

/-- a `setData` that fails does, -/
theorem SetOutcome.unchanged {nDataID nTime : Nat} {szDataName : String} {pData : RowMessage}
    {result : Bool × CDbCache}
    (houtcome : SetOutcome pb pDbCache nDataID szDataName pData nTime result)
    (hfalse : result.1 = false) : result.2 = pDbCache := by
  cases houtcome with
  | absent _ _ hadd => exact hadd.unchanged hfalse
  | unmerged => rfl
  | merged => cases hfalse

/-- and so does a `delData`. -/
theorem DelOutcome.unchanged {nDataID : Nat} {result : Bool × CDbCache}
    (houtcome : DelOutcome pDbCache nDataID result) (hfalse : result.1 = false) :
    result.2 = pDbCache := by
  cases houtcome with
  | absent => rfl
  | deleted => cases hfalse

/-- **A call that returns false** changes nothing. -/
theorem call_unchanged {c : RecordCall} (hfalse : (pDbCache.call pb c).2 = false) :
    (pDbCache.call pb c).1 = pDbCache := by
  cases c with
  | addData nDataID pData => exact (addData_outcome pb pDbCache nDataID pData).unchanged hfalse
  | setData nDataID szDataName pData nTime =>
      exact (setData_outcome pb pDbCache nDataID szDataName pData nTime).unchanged hfalse
  | delData nDataID => exact (delData_outcome pDbCache nDataID).unchanged hfalse

/-! ## Every sequence of calls -/

/-- Records that fit in every state make the calls those on integers. -/
theorem calls_agree {calls : List RecordCall}
    (hfit : Runs.Always (call pb) (fun pDbCache => pDbCache.recordBytes < 2 ^ 31) empty calls) :
    Runs.Guarded (call pb) (fun pDbCache c => pDbCache.callInt32 pb c = some (pDbCache.call pb c))
      empty calls :=
  Runs.guarded_of_always Sized (fun _ c h => call_sized h c)
    (fun _ _ h hbefore hafter => callInt32_eq_call h hbefore hafter) empty_sized hfit

/-- **The counter of an object** is the sum of the lengths of its records, and no call that
fails touches it, while the records have fewer than `2 ^ 31` bytes together. -/
theorem record_sizes_counted (pb : Runtime) (calls : List RecordCall)
    (hfit : Runs.Always (call pb) (fun pDbCache => pDbCache.recordBytes < 2 ^ 31) empty calls)
    (before after : List RecordCall) (hsplit : calls = before ++ after) :
    ∃ pDbCache, Runs.runPartial (callInt32 pb) empty before = some pDbCache ∧
      pDbCache.m_mapCacheInfo = (Runs.run (call pb) empty before).m_mapCacheInfo ∧
      pDbCache.getDataSize = pDbCache.recordBytes ∧
      ∀ c rest, after = c :: rest →
        ∃ pDbCache' bSuccess, pDbCache.callInt32 pb c = some (pDbCache', bSuccess) ∧
          (bSuccess = false → pDbCache'.m_mapCacheInfo = pDbCache.m_mapCacheInfo ∧
            pDbCache'.m_nDataSize = pDbCache.m_nDataSize) := by
  have hagree := calls_agree hfit
  subst hsplit
  obtain ⟨hbefore, hafter⟩ := Runs.guarded_append.mp hagree
  have hsized : (Runs.run (call pb) empty before).Sized :=
    Runs.run_preserves Sized (fun _ c h => call_sized h c) empty_sized before
  refine ⟨_, Runs.runPartial_eq_run hbefore, rfl, hsized, ?_⟩
  rintro c rest rfl
  refine ⟨(call pb _ c).1, (call pb _ c).2, hafter.1, ?_⟩
  intro hfalse
  rw [call_unchanged hfalse]
  exact ⟨rfl, rfl⟩

/-- Player 5 is added, refused and replaced. -/
def replacedPlayer : List RecordCall :=
  [.addData 1 (PlayerBase.player 5 [97]), .addData 1 (PlayerBase.player 5 [98]),
    .setData 1 "proto.db.player_base" (PlayerBase.player 5 [98, 99]) 7]

/-- An update of an unknown type is refused, and the record is deleted. -/
theorem record_sizes_counted_replacedPlayer :
    ∃ pDbCache, Runs.runPartial (callInt32 PlayerBase.runtime) empty replacedPlayer =
        some pDbCache ∧
      pDbCache.m_mapCacheInfo =
        (Runs.run (call PlayerBase.runtime) empty replacedPlayer).m_mapCacheInfo ∧
      pDbCache.getDataSize = pDbCache.recordBytes ∧
      ∀ c rest, [.setData 1 "proto.db.unknown" (PlayerBase.player 5 []) 8, .delData 1] =
          c :: rest →
        ∃ pDbCache' bSuccess,
          pDbCache.callInt32 PlayerBase.runtime c = some (pDbCache', bSuccess) ∧
            (bSuccess = false → pDbCache'.m_mapCacheInfo = pDbCache.m_mapCacheInfo ∧
              pDbCache'.m_nDataSize = pDbCache.m_nDataSize) := by
  refine record_sizes_counted PlayerBase.runtime _ ?_ replacedPlayer _ rfl
  -- the record has eight bytes, then nine, then none
  have hsmall : ∀ n : Nat, n < 10 → ((n : Int) < 2 ^ 31) := fun n hn => by omega
  exact ⟨hsmall 0 (by omega), hsmall 8 (by omega), hsmall 8 (by omega), hsmall 9 (by omega),
    hsmall 9 (by omega), hsmall 0 (by omega)⟩

end CDbCache

end Db
