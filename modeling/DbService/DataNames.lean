import Mathlib.Data.Finset.Dedup
import Mathlib.Data.Finset.Card
import DbService.CacheView
import DbService.PlayerBase

/-!
# The numbers of the data names

The data names get their numbers in the order in which `getDataID` first sees them, so the two
maps of the manager are one duplicate-free list read in two directions (`Numbers`).

* `run_tracks` -- this holds after every sequence of calls, while the names called for leave a
  number to give out;
* `records_never_mix` -- so the two maps are inverse to each other, and each operation touches the
  record of its own id and name and no other.
-/

namespace Db

open Reflection ByteText Runs

/-- A call of one of the operations on the records of a manager. -/
inductive CacheCall
  | getData (nID : Nat) (szDataName : String)
  | setData (nID : Nat) (pData : RowMessage) (nTime : Nat)
  | addData (nID : Nat) (pData : RowMessage)
  | delData (nID : Nat) (szDataName : String)

namespace CacheCall

/-- The id a call is for. -/
def nID : CacheCall → Nat
  | .getData nID _ | .setData nID _ _ | .addData nID _ | .delData nID _ => nID

/-- The name a call is for; of a row it is the name of its type. -/
def szDataName : CacheCall → String
  | .getData _ szDataName | .delData _ szDataName => szDataName
  | .setData _ pData _ | .addData _ pData => pData.GetTypeName

end CacheCall

/-- What a call returns. -/
inductive CallResult
  | data (pData : Option RowMessage)
  | done (ok : Bool)

namespace CDbCacheMgr

variable {mgr : CDbCacheMgr} {known : List String}

/-- The manager after a call, and what the call returns. -/
def call (pb : Runtime) (mgr : CDbCacheMgr) : CacheCall → CDbCacheMgr × CallResult
  | .getData nID szDataName =>
      let (pData, mgr) := mgr.getData pb nID szDataName
      (mgr, .data pData)
  | .setData nID pData nTime =>
      let (ok, mgr) := mgr.setData pb nID pData nTime
      (mgr, .done ok)
  | .addData nID pData =>
      let (ok, mgr) := mgr.addData pb nID pData
      (mgr, .done ok)
  | .delData nID szDataName =>
      let (ok, mgr) := mgr.delData nID szDataName
      (mgr, .done ok)

/-- The data names in the order of their numbers, which start at 1. -/
structure Numbers (known : List String) (mgr : CDbCacheMgr) : Prop where
  nodup : known.Nodup
  current : mgr.m_nCurIndex = known.length + 1
  index : ∀ (szDataName : String) (nDataID : Nat),
    mgr.m_mapDataIndex[szDataName]? = some nDataID ↔
      ∃ k, known[k]? = some szDataName ∧ nDataID = k + 1
  name : ∀ (nDataID : Nat) (szDataName : String),
    mgr.m_mapDataName[nDataID]? = some szDataName ↔
      ∃ k, known[k]? = some szDataName ∧ nDataID = k + 1

/-- The names after `getDataID`. -/
def noted (known : List String) (szDataName : String) : List String :=
  if szDataName ∈ known then known else known ++ [szDataName]

/-- A name is noted if it was before or is the one looked up. -/
theorem mem_noted {szDataName szDataName' : String} :
    szDataName' ∈ noted known szDataName ↔ szDataName' ∈ known ∨ szDataName' = szDataName := by
  unfold noted
  split
  · rename_i hin
    exact ⟨.inl, fun h => h.elim id fun heq => heq ▸ hin⟩
  · simp

/-- At first no name has a number. -/
theorem init_numbers (nMaxCacheSize nWritebackTime : Nat) :
    Numbers [] (init nMaxCacheSize nWritebackTime) where
  nodup := List.nodup_nil
  current := rfl
  index := by simp [init]
  name := by simp [init]

/-- A name has a number exactly if it was seen. -/
theorem Numbers.unknown_iff (h : Numbers known mgr) (szDataName : String) :
    mgr.m_mapDataIndex[szDataName]? = none ↔ szDataName ∉ known := by
  constructor
  · intro hnone hin
    obtain ⟨k, hk⟩ := List.mem_iff_getElem?.mp hin
    have hsome := (h.index szDataName (k + 1)).mpr ⟨k, hk, rfl⟩
    rw [hnone] at hsome
    cases hsome
  · intro hout
    by_contra hne
    obtain ⟨nDataID, hsome⟩ := Option.ne_none_iff_exists'.mp hne
    obtain ⟨k, hk, -⟩ := (h.index szDataName nDataID).mp hsome
    exact hout (List.mem_of_getElem? hk)

/-- There is a number for a name that was seen, and for any while two are left. -/
theorem Numbers.hasIndex (h : Numbers known mgr) {szDataName : String}
    (hroom : szDataName ∈ known ∨ known.length + 2 < 2 ^ 32) : HasIndex mgr szDataName := by
  rcases hroom with hin | hlt
  · exact .inl fun hnone => (h.unknown_iff szDataName).mp hnone hin
  · refine .inr ?_
    rw [h.current]
    omega

/-- The place of a name in the list is the number it has in the list with one name more. -/
theorem getElem?_concat_iff {szDataName szNew : String} {nDataID : Nat} :
    (∃ k, (known ++ [szNew])[k]? = some szDataName ∧ nDataID = k + 1) ↔
      (∃ k, known[k]? = some szDataName ∧ nDataID = k + 1) ∨
        szDataName = szNew ∧ nDataID = known.length + 1 := by
  constructor
  · rintro ⟨k, hk, rfl⟩
    rcases Nat.lt_trichotomy k known.length with hlt | heq | hgt
    · rw [List.getElem?_append_left hlt] at hk
      exact .inl ⟨k, hk, rfl⟩
    · subst heq
      simp only [List.getElem?_concat_length, Option.some.injEq] at hk
      exact .inr ⟨hk.symm, rfl⟩
    · rw [List.getElem?_eq_none (by rw [List.length_append, List.length_singleton]; omega)] at hk
      cases hk
  · rintro (⟨k, hk, rfl⟩ | ⟨rfl, rfl⟩)
    · have hlt : k < known.length := (List.getElem?_eq_some_iff.mp hk).1
      exact ⟨k, by rw [List.getElem?_append_left hlt, hk], rfl⟩
    · exact ⟨known.length, by simp, rfl⟩

/-- A new name takes the next number, in both maps. -/
theorem getDataID_numbers (h : Numbers known mgr) {szDataName : String}
    (hroom : szDataName ∈ known ∨ known.length + 2 < 2 ^ 32) :
    Numbers (noted known szDataName) (mgr.getDataID szDataName).2 := by
  by_cases hin : szDataName ∈ known
  · obtain ⟨nDataID, hindex⟩ := Option.ne_none_iff_exists'.mp
      (fun hnone => (h.unknown_iff szDataName).mp hnone hin)
    rw [getDataID_known hindex, noted, if_pos hin]
    exact h
  · have hnone : mgr.m_mapDataIndex[szDataName]? = none := (h.unknown_iff szDataName).mpr hin
    have hlt : known.length + 2 < 2 ^ 32 := hroom.resolve_left hin
    rw [noted, if_neg hin, getDataID, hnone]
    refine ⟨?_, ?_, ?_, ?_⟩
    · simpa using List.Nodup.concat hin h.nodup
    · simp only [h.current, List.length_append, List.length_singleton]
      exact Nat.mod_eq_of_lt hlt
    · intro szDataName' nDataID
      rw [getElem?_concat_iff, ← h.index]
      by_cases heq : szDataName = szDataName'
      · subst heq
        simp [hnone, h.current, eq_comm]
      · simp [Std.ExtTreeMap.getElem?_insert, heq, Ne.symm heq]
    · intro nDataID szDataName'
      rw [getElem?_concat_iff, ← h.name]
      by_cases heq : mgr.m_nCurIndex = nDataID
      · subst heq
        rw [h.name]
        simp [h.current, eq_comm]
      · have hne : nDataID ≠ known.length + 1 := fun h' => heq (h.current.trans h'.symm)
        simp [Std.ExtTreeMap.getElem?_insert, heq, hne]

/-- The numbering is the same in both states. -/
structure SameNumbers (mgr mgr' : CDbCacheMgr) : Prop where
  current : mgr'.m_nCurIndex = mgr.m_nCurIndex
  index : mgr'.m_mapDataIndex = mgr.m_mapDataIndex
  name : mgr'.m_mapDataName = mgr.m_mapDataName

/-- What keeps the maps and the counter keeps the numbering. -/
theorem SameNumbers.numbers {mgr' : CDbCacheMgr} (hsame : SameNumbers mgr mgr')
    (h : Numbers known mgr) : Numbers known mgr' where
  nodup := h.nodup
  current := hsame.current ▸ h.current
  index := by
    rw [hsame.index]
    exact h.index
  name := by
    rw [hsame.name]
    exact h.name

/-- `addData` gives out a number to its own name at most, which is what `getDataID` does. -/
theorem AddOutcome.sameNumbers {pb : Runtime} {nID : Nat} {pData : RowMessage}
    {result : Bool × CDbCacheMgr} (houtcome : AddOutcome pb mgr nID pData result) :
    SameNumbers (mgr.getDataID pData.GetTypeName).2 result.2 := by
  cases houtcome <;> exact ⟨rfl, rfl, rfl⟩

/-- A call gives out a number for its name, or none. -/
theorem call_sameNumbers (pb : Runtime) (mgr : CDbCacheMgr) (c : CacheCall) :
    SameNumbers mgr (mgr.call pb c).1 ∨
      SameNumbers (mgr.getDataID c.szDataName).2 (mgr.call pb c).1 := by
  cases c with
  | getData nID szDataName =>
      have hresult : (mgr.getData pb nID szDataName).2 = (mgr.getDataID szDataName).2 := by
        rw [getData_eq]
      exact .inr (hresult ▸ ⟨rfl, rfl, rfl⟩)
  | setData nID pData nTime =>
      simp only [call]
      cases hdisabled : mgr.isDisabled with
      | true => exact .inl (by rw [setData_disabled pb hdisabled]; exact ⟨rfl, rfl, rfl⟩)
      | false =>
          have houtcome := setData_outcome pb hdisabled nID pData nTime
          generalize mgr.setData pb nID pData nTime = result at houtcome
          refine .inr ?_
          cases houtcome with
          | uncached _ _ hadd => exact hadd.sameNumbers
          | badIndex => exact ⟨rfl, rfl, rfl⟩
          | refused => exact ⟨rfl, rfl, rfl⟩
          | stored => exact ⟨rfl, rfl, rfl⟩
  | addData nID pData =>
      simp only [call]
      cases hdisabled : mgr.isDisabled with
      | true => exact .inl (by rw [addData_disabled pb hdisabled]; exact ⟨rfl, rfl, rfl⟩)
      | false => exact .inr (addData_outcome pb hdisabled nID pData).sameNumbers
  | delData nID szDataName =>
      simp only [call]
      cases hdisabled : mgr.isDisabled with
      | true => exact .inl (by rw [delData_disabled hdisabled]; exact ⟨rfl, rfl, rfl⟩)
      | false =>
          have houtcome := delData_outcome hdisabled nID szDataName
          generalize mgr.delData nID szDataName = result at houtcome
          cases houtcome with
          | uncached => exact .inl ⟨rfl, rfl, rfl⟩
          | badIndex => exact .inr ⟨rfl, rfl, rfl⟩
          | absent => exact .inr ⟨rfl, rfl, rfl⟩
          | deleted => exact .inr ⟨rfl, rfl, rfl⟩

/-- `mgr'` has the records of `mgr` but for the one of the id and the name. -/
def OthersKept (mgr mgr' : CDbCacheMgr) (nID : Nat) (szDataName : String) : Prop :=
  ∀ nID' szDataName', ¬ (nID' = nID ∧ szDataName' = szDataName) →
    mgr'.lookup nID' szDataName' = mgr.lookup nID' szDataName'

theorem OthersKept.of_same {mgr' : CDbCacheMgr} (h : mgr'.lookup = mgr.lookup) {nID : Nat}
    {szDataName : String} : OthersKept mgr mgr' nID szDataName :=
  fun _ _ _ => by rw [h]

/-- Where one record was set, the others are kept. -/
theorem LookupSet.othersKept {mgr' : CDbCacheMgr} {nID : Nat} {szDataName : String}
    {info : Option SCacheInfo} (h : LookupSet mgr mgr' nID szDataName info) :
    OthersKept mgr mgr' nID szDataName :=
  fun _ _ hne => h.of_ne hne

/-- `setData` on a record it cannot merge into. -/
theorem setData_view_refused (pb : Runtime) (hdisabled : mgr.isDisabled = false) (h : Named mgr)
    {nID : Nat} {pData : RowMessage} {sCacheInfo : SCacheInfo}
    (hlook : mgr.lookup nID pData.GetTypeName = some sCacheInfo)
    (hmerge : CDbCache.mergeData pb pData.GetTypeName sCacheInfo.szData pData = none)
    (nTime : Nat) : mgr.setData pb nID pData nTime = (false, mgr) := by
  obtain ⟨pObject, nDataID, hcached, hindex, hrecord⟩ := exists_of_lookup hlook
  have hset : (mgr.objects pObject).setData pb nDataID pData.GetTypeName pData nTime =
      (false, mgr.objects pObject) := by
    simp only [CDbCache.setData, hrecord, hmerge]
  simp only [setData, hdisabled, hcached, getDataID_known hindex, hset, if_neg (h.good hindex),
    Bool.false_eq_true, if_false]

/-- **One call, one record.**  A call keeps the names and the records in order and changes no
record but its own. -/
theorem call_named (pb : Runtime) (hwf : WellFormed mgr) (h : Named mgr) (c : CacheCall)
    (hroom : HasIndex mgr c.szDataName) :
    Named (mgr.call pb c).1 ∧ OthersKept mgr (mgr.call pb c).1 c.nID c.szDataName := by
  cases c with
  | getData nID szDataName =>
      have hview := getData_view pb h hroom nID
      simp only [CacheCall.szDataName] at hview
      simp only [call, hview]
      exact ⟨getDataID_named h hroom, OthersKept.of_same (getDataID_lookup h szDataName)⟩
  | setData nID pData nTime =>
      simp only [call, CacheCall.nID, CacheCall.szDataName]
      cases hdisabled : mgr.isDisabled with
      | true =>
          rw [setData_disabled pb hdisabled]
          exact ⟨h, OthersKept.of_same rfl⟩
      | false =>
          cases hlook : mgr.lookup nID pData.GetTypeName with
          | none =>
              obtain ⟨hnamed, -, hsame | ⟨szData, -, hset⟩⟩ :=
                setData_view_absent pb hwf hdisabled h hroom hlook nTime
              · exact ⟨hnamed, OthersKept.of_same hsame⟩
              · exact ⟨hnamed, hset.othersKept⟩
          | some sCacheInfo =>
              cases hmerge : CDbCache.mergeData pb pData.GetTypeName sCacheInfo.szData pData with
              | none =>
                  rw [setData_view_refused pb hdisabled h hlook hmerge]
                  exact ⟨h, OthersKept.of_same rfl⟩
              | some szData =>
                  obtain ⟨-, hnamed, -, -, hset⟩ :=
                    setData_view_merged pb hwf hdisabled h hlook hmerge nTime
                  exact ⟨hnamed, hset.othersKept⟩
  | addData nID pData =>
      simp only [call, CacheCall.nID, CacheCall.szDataName]
      cases hdisabled : mgr.isDisabled with
      | true =>
          rw [addData_disabled pb hdisabled]
          exact ⟨h, OthersKept.of_same rfl⟩
      | false =>
          obtain ⟨hnamed, -, hsame | ⟨-, szData, -, hset⟩⟩ :=
            addData_view pb hwf hdisabled h nID hroom
          · exact ⟨hnamed, OthersKept.of_same hsame⟩
          · exact ⟨hnamed, hset.othersKept⟩
  | delData nID szDataName =>
      simp only [call, CacheCall.nID, CacheCall.szDataName]
      cases hdisabled : mgr.isDisabled with
      | true =>
          rw [delData_disabled hdisabled]
          exact ⟨h, OthersKept.of_same rfl⟩
      | false =>
          obtain ⟨hnamed, -, hset⟩ := delData_view hwf hdisabled h nID hroom
          exact ⟨hnamed, hset.othersKept⟩

/-- A call keeps the manager well formed. -/
theorem call_wellFormed (pb : Runtime) (hwf : WellFormed mgr) (c : CacheCall) :
    WellFormed (mgr.call pb c).1 := by
  have hkept := kept_wellFormed pb
  cases c with
  | getData nID szDataName =>
      have hresult : (mgr.call pb (.getData nID szDataName)).1 =
          (mgr.getDataID szDataName).2 := by
        simp only [call, getData_eq]
      rw [hresult]
      exact hkept.getDataID mgr szDataName hwf
  | setData nID pData nTime => exact hkept.setData mgr nID pData nTime trivial hwf
  | addData nID pData => exact hkept.addData mgr nID pData trivial hwf
  | delData nID szDataName => exact hkept.delData mgr nID szDataName trivial hwf

/-- The two maps are inverse to each other, and the numbers are below the next one. -/
structure Inverse (mgr : CDbCacheMgr) : Prop where
  inverse : ∀ (szDataName : String) (nDataID : Nat),
    mgr.m_mapDataIndex[szDataName]? = some nDataID ↔
      mgr.m_mapDataName[nDataID]? = some szDataName
  distinct : ∀ (szDataName szDataName' : String) (nDataID : Nat),
    mgr.m_mapDataIndex[szDataName]? = some nDataID →
      mgr.m_mapDataIndex[szDataName']? = some nDataID → szDataName = szDataName'
  below : ∀ (szDataName : String) (nDataID : Nat),
    mgr.m_mapDataIndex[szDataName]? = some nDataID → nDataID < mgr.m_nCurIndex

/-- A list without duplicates, read in the two directions, is two inverse maps, with all its
numbers below the next one. -/
theorem Numbers.inverse (h : Numbers known mgr) : Inverse mgr where
  inverse := fun szDataName nDataID => (h.index szDataName nDataID).trans
    (h.name nDataID szDataName).symm
  distinct := by
    intro szDataName szDataName' nDataID hindex hindex'
    obtain ⟨k, hk, heq⟩ := (h.index szDataName nDataID).mp hindex
    obtain ⟨k', hk', heq'⟩ := (h.index szDataName' nDataID).mp hindex'
    obtain rfl : k = k' := by omega
    exact Option.some.inj (hk.symm.trans hk')
  below := by
    intro szDataName nDataID hindex
    obtain ⟨k, hk, rfl⟩ := (h.index szDataName nDataID).mp hindex
    have hlt : k < known.length := (List.getElem?_eq_some_iff.mp hk).1
    have hcurrent := h.current
    omega

/-- The state after calls whose names are among `names`. -/
structure Tracks (names : Finset String) (mgr : CDbCacheMgr) : Prop where
  wellFormed : WellFormed mgr
  named : Named mgr
  numbers : ∃ known, Numbers known mgr ∧ ∀ szDataName ∈ known, szDataName ∈ names

/-- While a name of the set is unseen, the numbers given out leave room for it. -/
theorem room_of_subset {names : Finset String} (hnames : names.card < 2 ^ 32 - 1)
    (h : Numbers known mgr) (hknown : ∀ szDataName ∈ known, szDataName ∈ names)
    {szDataName : String} (hname : szDataName ∈ names) :
    szDataName ∈ known ∨ known.length + 2 < 2 ^ 32 := by
  by_cases hin : szDataName ∈ known
  · exact .inl hin
  · have hnodup : (szDataName :: known).Nodup := List.nodup_cons.mpr ⟨hin, h.nodup⟩
    have hsubset : (szDataName :: known).toFinset ⊆ names := by
      intro szDataName' hmem
      rcases List.mem_cons.mp (List.mem_toFinset.mp hmem) with rfl | hmem
      · exact hname
      · exact hknown szDataName' hmem
    have hcard := Finset.card_le_card hsubset
    rw [List.toFinset_card_of_nodup hnodup, List.length_cons] at hcard
    exact .inr (by omega)

/-- A call with a name of the set keeps what is tracked, -/
theorem call_tracks (pb : Runtime) {names : Finset String} (hnames : names.card < 2 ^ 32 - 1)
    (h : Tracks names mgr) (c : CacheCall) (hname : c.szDataName ∈ names) :
    Tracks names (mgr.call pb c).1 := by
  obtain ⟨known, hnumbers, hknown⟩ := h.numbers
  have hroom := room_of_subset hnames hnumbers hknown hname
  refine ⟨call_wellFormed pb h.wellFormed c,
    (call_named pb h.wellFormed h.named c (hnumbers.hasIndex hroom)).1, ?_⟩
  rcases call_sameNumbers pb mgr c with hsame | hsame
  · exact ⟨known, hsame.numbers hnumbers, hknown⟩
  · refine ⟨noted known c.szDataName, hsame.numbers (getDataID_numbers hnumbers hroom), ?_⟩
    intro szDataName hin
    exact (mem_noted.mp hin).elim (hknown szDataName) fun heq => heq ▸ hname

/-- and so does every sequence of such calls. -/
theorem run_tracks (pb : Runtime) {names : Finset String} (hnames : names.card < 2 ^ 32 - 1)
    (h : Tracks names mgr) {calls : List CacheCall} (hcalls : ∀ c ∈ calls, c.szDataName ∈ names) :
    Tracks names (run (call pb) mgr calls) := by
  have hguarded : Guarded (call pb) (fun _ c => c.szDataName ∈ names) mgr calls :=
    ((guarded_true calls).and_forall hcalls).imp fun _ _ hcase => hcase.1
  exact run_invariant (Tracks names)
    (fun _ c htracks hname => call_tracks pb hnames htracks c hname) h hguarded

/-- The name that is looked up under the number of a name is the name. -/
theorem Tracks.getDataName_getDataID {names : Finset String} (hnames : names.card < 2 ^ 32 - 1)
    (h : Tracks names mgr) {szDataName : String} (hname : szDataName ∈ names) :
    (mgr.getDataID szDataName).2.getDataName (mgr.getDataID szDataName).1 = szDataName := by
  obtain ⟨known, hnumbers, hknown⟩ := h.numbers
  have hroom := hnumbers.hasIndex (room_of_subset hnames hnumbers hknown hname)
  have hindex := getDataID_index mgr szDataName
  simp [getDataName, ((getDataID_named h.named hroom).name _ _ hindex).1]

/-- **Records of different ids and names never mix.**  At every point of any sequence of calls
that name fewer than 2^32 - 1 data names, the two maps are inverse to each other, a name called
for reads back from its number, and the next call leaves every record of another id or name. -/
theorem records_never_mix (pb : Runtime) (nMaxCacheSize nWritebackTime : Nat)
    {calls : List CacheCall}
    (hnames : (calls.map CacheCall.szDataName).toFinset.card < 2 ^ 32 - 1)
    (before after : List CacheCall) (hcalls : calls = before ++ after) :
    Inverse (run (call pb) (init nMaxCacheSize nWritebackTime) before) ∧
      (∀ szDataName ∈ calls.map CacheCall.szDataName,
        ((run (call pb) (init nMaxCacheSize nWritebackTime) before).getDataID
            szDataName).2.getDataName
          ((run (call pb) (init nMaxCacheSize nWritebackTime) before).getDataID szDataName).1 =
            szDataName) ∧
      ∀ c rest, after = c :: rest →
        OthersKept (run (call pb) (init nMaxCacheSize nWritebackTime) before)
          (run (call pb) (init nMaxCacheSize nWritebackTime) (before ++ [c])) c.nID
          c.szDataName := by
  have hin : ∀ c ∈ calls, c.szDataName ∈ (calls.map CacheCall.szDataName).toFinset :=
    fun c hc => List.mem_toFinset.mpr (List.mem_map.mpr ⟨c, hc, rfl⟩)
  have hstart : Tracks (calls.map CacheCall.szDataName).toFinset
      (init nMaxCacheSize nWritebackTime) :=
    ⟨init_wellFormed .., init_named .., [], init_numbers .., by simp⟩
  have hbefore : ∀ c ∈ before, c.szDataName ∈ (calls.map CacheCall.szDataName).toFinset :=
    fun c hc => hin c (hcalls ▸ List.mem_append_left after hc)
  have htracks := run_tracks pb hnames hstart hbefore
  obtain ⟨known, hnumbers, hknown⟩ := htracks.numbers
  refine ⟨hnumbers.inverse, ?_, ?_⟩
  · intro szDataName hname
    exact htracks.getDataName_getDataID hnames (List.mem_toFinset.mpr hname)
  · rintro c rest rfl
    have hname := hin c (hcalls ▸ by simp)
    have hroom := hnumbers.hasIndex (room_of_subset hnames hnumbers hknown hname)
    rw [run_append]
    exact (call_named pb htracks.wellFormed htracks.named c hroom).2

/-- Two records, entered between lookups of names that have none. -/
def mixedCalls : List CacheCall :=
  [.getData 7 "proto.db.guild_base", .addData 7 (PlayerBase.player 7 []),
    .addData 8 (PlayerBase.player 8 []), .delData 7 "proto.db.player_base"]

/-- Two ids and two names, and then a deletion. -/
theorem records_never_mix_mixedCalls :
    Inverse (run (call PlayerBase.runtime) (init 1000 300) (mixedCalls.take 3)) ∧
      OthersKept (run (call PlayerBase.runtime) (init 1000 300) (mixedCalls.take 3))
        (run (call PlayerBase.runtime) (init 1000 300) (mixedCalls.take 3 ++
          [.delData 7 "proto.db.player_base"])) 7 "proto.db.player_base" := by
  have hnames : (mixedCalls.map CacheCall.szDataName).toFinset.card < 2 ^ 32 - 1 :=
    lt_of_le_of_lt (List.toFinset_card_le _) (by decide)
  have hparts := records_never_mix PlayerBase.runtime 1000 300 hnames (mixedCalls.take 3)
    [.delData 7 "proto.db.player_base"] rfl
  exact ⟨hparts.1, hparts.2.2 _ [] rfl⟩

end CDbCacheMgr

end Db
