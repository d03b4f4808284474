import DbService.DbCommandHandler

/-!
# The records cached for one id (`db_cache.cpp`)

A `CDbCache` maps data ids (one for each message type) to the serialised record and the
time of its last modification, where time 0 marks a record that need not be written.
`writeback` sends an UPDATE for each modified record that is due.
-/

namespace Db

open Reflection ByteText

/-- A record, and the time of its last modification. -/
structure SCacheInfo where
  szData : Bytes
  nTime : Nat
  deriving DecidableEq

/-- The records of an id by their data ids, and the sum of their sizes. -/
structure CDbCache where
  m_mapCacheInfo : Std.ExtTreeMap Nat SCacheInfo
  m_nDataSize : Int

/-- `_CACHE_EXPIRED_TIME` -/
def CACHE_EXPIRED_TIME : Int := 1

/-- An UPDATE a write-back issued: the record, its bytes and the result code. -/
structure WriteInfo where
  nDataID : Nat
  szData : Bytes
  nErrorCode : EResultCode

namespace CDbCache

variable {σ : Type} (pb : Runtime) (srv : Server σ)

/-- A new `CDbCache` object. -/
def empty : CDbCache := ⟨∅, 0⟩

/-- `createMessage` followed by parsing the record's bytes. -/
def loadRecord (szDataName : String) (szData : Bytes) : Option RowMessage :=
  match pb.createMessage szDataName with
  | none => none
  | some pMessage => pb.ParseRow pMessage szData

/-- `getData`, with the data name the manager finds for the id. -/
def getData (pDbCache : CDbCache) (nDataID : Nat) (szDataName : String) : Option RowMessage :=
  match pDbCache.m_mapCacheInfo[nDataID]? with
  | none => none
  | some sCacheInfo => loadRecord pb szDataName sCacheInfo.szData

/-- `addData`: a record that is not there yet; one that cannot be serialised is refused. -/
def addData (pDbCache : CDbCache) (nDataID : Nat) (pData : RowMessage) : Bool × CDbCache :=
  match pDbCache.m_mapCacheInfo[nDataID]? with
  | some _ => (false, pDbCache)
  | none =>
      match pb.SerializeToString (.row pData) with
      | none => (false, pDbCache)
      | some szData =>
          (true,
            { m_mapCacheInfo := pDbCache.m_mapCacheInfo.insert nDataID ⟨szData, 0⟩
              m_nDataSize := pDbCache.m_nDataSize + szData.length })

/-- The field types the switch of `setData` copies; the others end in its `default`. -/
def copiesType : FieldType → Bool
  | .TYPE_BOOL | .TYPE_ENUM | .TYPE_GROUP => false
  | _ => true

/-- The loop of `setData`: every declared field of the source is copied, set or not. -/
def copyFields (pData : RowMessage) : List FieldDescriptor → RowMessage → Option RowMessage
  | [], pDstData => some pDstData
  | f :: rest, pDstData =>
      match pDstData.descriptor.FindFieldByName f.name with
      | none => none
      | some g =>
          if copiesType f.type then
            copyFields pData rest (pDstData.Set g.name (pData.Get f))
          else none

/-- The bytes `setData` stores over a record: parse, copy the fields, serialise. -/
def mergeData (szDataName : String) (szData : Bytes) (pData : RowMessage) : Option Bytes :=
  match loadRecord pb szDataName szData with
  | none => none
  | some pDstData =>
      match copyFields pData pData.descriptor.fields pDstData with
      | none => none
      | some pMerged => pb.SerializeToString (.row pMerged)

/-- `setData`, with the clock reading `nTime` of a modification. -/
def setData (pDbCache : CDbCache) (nDataID : Nat) (szDataName : String)
    (pData : RowMessage) (nTime : Nat) : Bool × CDbCache :=
  match pDbCache.m_mapCacheInfo[nDataID]? with
  | none => pDbCache.addData pb nDataID pData
  | some sCacheInfo =>
      match mergeData pb szDataName sCacheInfo.szData pData with
      | none => (false, pDbCache)
      | some szData =>
          (true,
            { m_mapCacheInfo := pDbCache.m_mapCacheInfo.insert nDataID ⟨szData, nTime⟩
              m_nDataSize :=
                pDbCache.m_nDataSize - sCacheInfo.szData.length + szData.length })

/-- `delData`: the record goes, whether it was written or not. -/
def delData (pDbCache : CDbCache) (nDataID : Nat) : Bool × CDbCache :=
  match pDbCache.m_mapCacheInfo[nDataID]? with
  | none => (false, pDbCache)
  | some sCacheInfo =>
      (true,
        { m_mapCacheInfo := pDbCache.m_mapCacheInfo.erase nDataID
          m_nDataSize := pDbCache.m_nDataSize - sCacheInfo.szData.length })

/-- `getDataSize` -/
def getDataSize (pDbCache : CDbCache) : Int := pDbCache.m_nDataSize

/-- The record is modified and `writeback(nTime)` is not to wait any longer. -/
def isDue (nTime : Nat) (sCacheInfo : SCacheInfo) : Bool :=
  decide (CACHE_EXPIRED_TIME ≤ (nTime : Int) - sCacheInfo.nTime) || nTime == 0

/-- The record is modified but `writeback(nTime)` leaves it for a later pass. -/
def isWaiting (nTime : Nat) (sCacheInfo : SCacheInfo) : Bool :=
  sCacheInfo.nTime != 0 && !isDue nTime sCacheInfo

/-- The message `writeback` sends for a record, unless its name or bytes are unreadable. -/
def recordMessage (getDataName : Nat → String) (nDataID : Nat) (szData : Bytes) :
    Option RowMessage :=
  if getDataName nDataID = "" then none else loadRecord pb (getDataName nDataID) szData

/-- The loop of `writeback` over the records, in order: the UPDATEs it issued and the
connection afterwards.  The records themselves are not changed. -/
def writebackFrom (getDataName : Nat → String) (nTime : Nat) :
    List (Nat × SCacheInfo) → CDbConnection σ → List WriteInfo × CDbConnection σ
  | [], conn => ([], conn)
  | (nDataID, sCacheInfo) :: rest, conn =>
      if sCacheInfo.nTime = 0 ∨ isDue nTime sCacheInfo = false then
        writebackFrom getDataName nTime rest conn
      else
        match recordMessage pb getDataName nDataID sCacheInfo.szData with
        | none => writebackFrom getDataName nTime rest conn
        | some pMessage =>
            let (nErrorCode, _, conn') :=
              CDbCommandHandlerProxy.onDbCommand pb srv .kOT_UPDATE (.row pMessage) conn
            let (writes, conn'') := writebackFrom getDataName nTime rest conn'
            (⟨nDataID, sCacheInfo.szData, nErrorCode⟩ :: writes, conn'')

/-- `writeback`: whether a modified record still waits, the UPDATEs, the connection. -/
def writeback (pDbCache : CDbCache) (getDataName : Nat → String) (nTime : Nat)
    (conn : CDbConnection σ) : Bool × List WriteInfo × CDbConnection σ :=
  let records := pDbCache.m_mapCacheInfo.toList
  let (writes, conn') := writebackFrom pb srv getDataName nTime records conn
  (records.any fun record => isWaiting nTime record.2, writes, conn')

/-! ## The outcomes of the operations on one object -/

section Lemmas

variable {pb} {pDbCache : CDbCache} {nDataID : Nat} {pData : RowMessage}

/-- The object with one record replaced. -/
def withRecord (pDbCache : CDbCache) (nDataID : Nat) (sCacheInfo : SCacheInfo) (nSize : Int) :
    CDbCache :=
  ⟨pDbCache.m_mapCacheInfo.insert nDataID sCacheInfo, nSize⟩

/-- `addData` keeps a record that is there, and adds a new one as not modified. -/
inductive AddOutcome (pb : Runtime) (pDbCache : CDbCache) (nDataID : Nat)
    (pData : RowMessage) : Bool × CDbCache → Prop
  | present (sCacheInfo : SCacheInfo)
      (hrecord : pDbCache.m_mapCacheInfo[nDataID]? = some sCacheInfo) :
      AddOutcome pb pDbCache nDataID pData (false, pDbCache)
  | unserialised (habsent : pDbCache.m_mapCacheInfo[nDataID]? = none)
      (hdata : pb.SerializeToString (.row pData) = none) :
      AddOutcome pb pDbCache nDataID pData (false, pDbCache)
  | added (szData : Bytes) (habsent : pDbCache.m_mapCacheInfo[nDataID]? = none)
      (hdata : pb.SerializeToString (.row pData) = some szData) :
      AddOutcome pb pDbCache nDataID pData
        (true, pDbCache.withRecord nDataID ⟨szData, 0⟩ (pDbCache.m_nDataSize + szData.length))

/-- `addData` has one of these outcomes. -/
theorem addData_outcome (pb : Runtime) (pDbCache : CDbCache) (nDataID : Nat)
    (pData : RowMessage) :
    AddOutcome pb pDbCache nDataID pData (pDbCache.addData pb nDataID pData) := by
  unfold addData
  split
  · rename_i sCacheInfo hrecord
    exact .present sCacheInfo hrecord
  · rename_i habsent
    split
    · rename_i hdata
      exact .unserialised habsent hdata
    · rename_i szData hdata
      exact .added szData habsent hdata

/-- `setData` adds a record that is not there, or merges into the one that is and marks it
with the time. -/
inductive SetOutcome (pb : Runtime) (pDbCache : CDbCache) (nDataID : Nat)
    (szDataName : String) (pData : RowMessage) (nTime : Nat) : Bool × CDbCache → Prop
  | absent (result : Bool × CDbCache) (habsent : pDbCache.m_mapCacheInfo[nDataID]? = none)
      (hadd : AddOutcome pb pDbCache nDataID pData result) :
      SetOutcome pb pDbCache nDataID szDataName pData nTime result
  | unmerged (sCacheInfo : SCacheInfo)
      (hrecord : pDbCache.m_mapCacheInfo[nDataID]? = some sCacheInfo)
      (hmerge : mergeData pb szDataName sCacheInfo.szData pData = none) :
      SetOutcome pb pDbCache nDataID szDataName pData nTime (false, pDbCache)
  | merged (sCacheInfo : SCacheInfo) (szData : Bytes)
      (hrecord : pDbCache.m_mapCacheInfo[nDataID]? = some sCacheInfo)
      (hmerge : mergeData pb szDataName sCacheInfo.szData pData = some szData) :
      SetOutcome pb pDbCache nDataID szDataName pData nTime
        (true, pDbCache.withRecord nDataID ⟨szData, nTime⟩
          (pDbCache.m_nDataSize - sCacheInfo.szData.length + szData.length))

/-- `setData` has one of these outcomes. -/
theorem setData_outcome (pb : Runtime) (pDbCache : CDbCache) (nDataID : Nat)
    (szDataName : String) (pData : RowMessage) (nTime : Nat) :
    SetOutcome pb pDbCache nDataID szDataName pData nTime
      (pDbCache.setData pb nDataID szDataName pData nTime) := by
  unfold setData
  split
  · rename_i habsent
    exact .absent _ habsent (addData_outcome pb pDbCache nDataID pData)
  · rename_i sCacheInfo hrecord
    split
    · rename_i hmerge
      exact .unmerged sCacheInfo hrecord hmerge
    · rename_i szData hmerge
      exact .merged sCacheInfo szData hrecord hmerge

/-- `delData` takes a record out, if there is one. -/
inductive DelOutcome (pDbCache : CDbCache) (nDataID : Nat) : Bool × CDbCache → Prop
  | absent (habsent : pDbCache.m_mapCacheInfo[nDataID]? = none) :
      DelOutcome pDbCache nDataID (false, pDbCache)
  | deleted (sCacheInfo : SCacheInfo)
      (hrecord : pDbCache.m_mapCacheInfo[nDataID]? = some sCacheInfo) :
      DelOutcome pDbCache nDataID
        (true, ⟨pDbCache.m_mapCacheInfo.erase nDataID,
          pDbCache.m_nDataSize - sCacheInfo.szData.length⟩)

/-- `delData` has one of these outcomes. -/
theorem delData_outcome (pDbCache : CDbCache) (nDataID : Nat) :
    DelOutcome pDbCache nDataID (pDbCache.delData nDataID) := by
  unfold delData
  split
  · rename_i habsent
    exact .absent habsent
  · rename_i sCacheInfo hrecord
    exact .deleted sCacheInfo hrecord

/-- Whether `setData` succeeds does not depend on the clock. -/
theorem setData_fst (pDbCache : CDbCache) (nDataID : Nat) (szDataName : String)
    (pData : RowMessage) (nTime nTime' : Nat) :
    (pDbCache.setData pb nDataID szDataName pData nTime).1 =
      (pDbCache.setData pb nDataID szDataName pData nTime').1 := by
  unfold setData
  split
  · rfl
  · split <;> rfl

end Lemmas

end CDbCache

end Db
