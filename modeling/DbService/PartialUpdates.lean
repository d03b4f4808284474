import DbService.MergedRecords
import DbService.PlayerBase

/-!
# Partial updates

An UPDATE sets the fields of its message and leaves the others (`overlay`).  The statement of
the handler does that to a row (`upsert_overlay`).  `CDbCache::setData` does it to a record
only where the fields the message leaves unset hold their defaults, since it copies these too.

* `filled_eq_overlay_iff` -- filling a message is laying it over another, exactly where that one
  holds the defaults;
* `upsert_overlay` -- what the statement does to the row;
* `setData_overlays_iff` -- the row and the record;
* `partial_update_wipes_name` -- an update without a name.
-/

namespace Reflection

/-- The message with the fields that `u` sets replaced. -/
def RowMessage.overlay (m u : RowMessage) (hd : u.descriptor = m.descriptor) : RowMessage where
  descriptor := m.descriptor
  value := fun name => (u.value name).or (m.value name)
  accepted := by
    intro name v hv
    rcases Option.or_eq_some_iff.mp hv with hset | ⟨_, hkept⟩
    · exact hd ▸ u.accepted name v hset
    · exact m.accepted name v hkept

variable {m u : RowMessage} {hd : u.descriptor = m.descriptor}

@[simp] theorem overlay_descriptor : (m.overlay u hd).descriptor = m.descriptor := rfl

theorem overlay_value_of_set {name : String} {v : Value} (h : u.value name = some v) :
    (m.overlay u hd).value name = some v := by
  simp [RowMessage.overlay, h]

theorem overlay_value_of_unset {name : String} (h : u.value name = none) :
    (m.overlay u hd).value name = m.value name := by
  simp [RowMessage.overlay, h]

/-- **Filling the fields of `u` is laying it over `m`** exactly when `m` holds the defaults of
the fields that `u` leaves unset. -/
theorem filled_eq_overlay_iff (hd : u.descriptor = m.descriptor) :
    u.filled = m.overlay u hd ↔
      ∀ f ∈ m.descriptor.fields, u.value f.name = none → m.value f.name = some f.default_value := by
  constructor
  · intro heq f hf hunset
    have hvalue := congrArg (fun m => RowMessage.value m f.name) heq
    rw [overlay_value_of_unset hunset, filled_value_of_mem u (hd ▸ hf), RowMessage.Get,
      hunset] at hvalue
    exact hvalue.symm
  · intro hdefaults
    refine RowMessage.ext_value hd ?_
    intro name
    cases hset : u.value name with
    | some v =>
        obtain ⟨f, hf, rfl⟩ := u.exists_field hset
        rw [overlay_value_of_set hset, filled_value_of_mem u hf, RowMessage.Get, hset]
        rfl
    | none =>
        rw [overlay_value_of_unset hset]
        cases hfind : u.descriptor.FindFieldByName name with
        | none =>
            have hnone : m.value name = none := by
              cases hv : m.value name with
              | none => rfl
              | some v =>
                  obtain ⟨f, hf, rfl⟩ := m.exists_field hv
                  rw [hd, FindFieldByName_of_mem hf] at hfind
                  cases hfind
            simp [RowMessage.filled, hfind, hnone]
        | some f =>
            obtain ⟨hf, rfl⟩ := FindFieldByName_name hfind
            rw [filled_value_of_mem u hf, RowMessage.Get, hset,
              hdefaults f (hd ▸ hf) hset]
            rfl

end Reflection

namespace Db

open Reflection ByteText

variable {pb : Runtime} {m u : RowMessage} {hd : u.descriptor = m.descriptor}

/-! ## The statement of the handler -/

/-- The columns of an overlaid message can be made when those of both messages can. -/
theorem fieldInfosFrom_overlay (hd : u.descriptor = m.descriptor) {fields : List FieldDescriptor}
    {vecFieldInfo vecUpdate : List SFieldInfo}
    (h : fieldInfosFrom pb m fields = some vecFieldInfo)
    (hu : fieldInfosFrom pb u fields = some vecUpdate) :
    ∃ vecOverlay, fieldInfosFrom pb (m.overlay u hd) fields = some vecOverlay := by
  induction fields generalizing vecFieldInfo vecUpdate with
  | nil => exact ⟨[], rfl⟩
  | cons f rest ih =>
      unfold fieldInfosFrom at h hu ⊢
      by_cases hlabel : f.label ≠ .LABEL_OPTIONAL
      · rw [if_pos hlabel] at h
        cases h
      · rw [if_neg hlabel] at h hu ⊢
        cases hset : u.value f.name with
        | none =>
            rw [overlay_value_of_unset hset]
            rw [hset] at hu
            cases hkept : m.value f.name with
            | none =>
                rw [hkept] at h
                exact ih h hu
            | some v =>
                rw [hkept] at h
                simp only at h
                split at h
                · rename_i sFieldInfo vecRest hinfo hrest
                  obtain ⟨vecOverlay, hoverlay⟩ := ih hrest hu
                  exact ⟨sFieldInfo :: vecOverlay, by simp [hinfo, hoverlay]⟩
                · cases h
        | some v =>
            rw [overlay_value_of_set hset]
            rw [hset] at hu
            simp only at hu
            split at hu
            · rename_i sFieldInfo vecRest hinfo hrest
              have hrest' : ∃ vecRest', fieldInfosFrom pb m rest = some vecRest' := by
                split at h
                · exact ⟨_, h⟩
                · split at h
                  · exact ⟨_, ‹_›⟩
                  · cases h
              obtain ⟨vecRest', hm⟩ := hrest'
              obtain ⟨vecOverlay, hoverlay⟩ := ih hm hrest
              exact ⟨sFieldInfo :: vecOverlay, by simp [hinfo, hoverlay]⟩
            · cases hu

/-- The column of an overlaid message is that of the update, where it has one. -/
theorem columnInfo_overlay {vecUpdate : List SFieldInfo}
    (hu : getMessageFieldInfos pb (.row u) = some vecUpdate) (szColumn : String) :
    columnInfo pb (m.overlay u hd) szColumn =
      (columnInfo pb u szColumn).or (columnInfo pb m szColumn) := by
  unfold columnInfo
  rw [overlay_descriptor, hd]
  cases hfind : m.descriptor.FindFieldByName szColumn with
  | none => rfl
  | some f =>
      simp only [Option.bind_some]
      cases hset : u.value f.name with
      | none =>
          rw [overlay_value_of_unset hset]
          rfl
      | some v =>
          have hf := (FindFieldByName_name hfind).1
          obtain ⟨sFieldInfo, hinfo⟩ := Option.isSome_iff_exists.mp
            (fieldInfosFrom_isSome hu (hd ▸ hf) hset)
          rw [overlay_value_of_set hset, Option.bind_some, hinfo]
          rfl

/-- The upsert of `u` turns the row of `m` into the row of `m'`. -/
def UpsertLeaves (pb : Runtime) (m u m' : RowMessage) : Prop :=
  ∀ (tables : Tables) (szTableName : String) (vecFieldInfo vecUpdate : List SFieldInfo)
      (row : Option Row),
    getMessageFieldInfos pb (.row m) = some vecFieldInfo →
    getMessageFieldInfos pb (.row u) = some vecUpdate →
    ∃ vecFieldInfo', getMessageFieldInfos pb (.row m') = some vecFieldInfo' ∧
      tables.upsert szTableName vecUpdate (tables.upsert szTableName vecFieldInfo row) =
        tables.upsert szTableName vecFieldInfo' row

/-- **The upsert lays its message over the row.** -/
theorem upsert_overlay (pb : Runtime) (hd : u.descriptor = m.descriptor) :
    UpsertLeaves pb m u (m.overlay u hd) := by
  intro tables szTableName vecFieldInfo vecUpdate row h hu
  have hu' : fieldInfosFrom pb u m.descriptor.fields = some vecUpdate := hd ▸ hu
  obtain ⟨vecOverlay, hoverlay⟩ := fieldInfosFrom_overlay hd h hu'
  refine ⟨vecOverlay, hoverlay, ?_⟩
  unfold Tables.upsert
  rw [Option.getD_some]
  congr 1
  funext szColumn
  unfold Tables.set
  rw [find_infos h, find_infos hu, find_infos hoverlay, columnInfo_overlay hu]
  cases columnInfo pb u szColumn with
  | some sFieldInfo => rfl
  | none => rfl

/-! ## The record in the cache -/

/-- **Cached updates.**  The upsert turns the row of `m` into the row of `m` with the fields that
`u` sets replaced.  When `setData` succeeds on a record that holds `m`, the record holds that
message exactly when `m` holds, for every field that `u` leaves unset, the default of that
field. -/
theorem setData_overlays_iff (hpb : pb.Lawful) {pDbCache pDbCache' : CDbCache}
    {nDataID nTime : Nat} {szDataName : String} {sCacheInfo : SCacheInfo} {m u : RowMessage}
    (hrecord : pDbCache.m_mapCacheInfo[nDataID]? = some sCacheInfo)
    (hload : CDbCache.loadRecord pb szDataName sCacheInfo.szData = some m)
    (hknown : pb.FindMessageTypeByName szDataName = some m.descriptor)
    (hd : u.descriptor = m.descriptor)
    (hset : pDbCache.setData pb nDataID szDataName u nTime = (true, pDbCache')) :
    UpsertLeaves pb m u (m.overlay u hd) ∧
    (pDbCache'.getData pb nDataID szDataName = some (m.overlay u hd) ↔
      ∀ f ∈ m.descriptor.fields,
        u.value f.name = none → m.value f.name = some f.default_value) := by
  refine ⟨upsert_overlay pb hd, ?_⟩
  have houtcome := CDbCache.setData_outcome pb pDbCache nDataID szDataName u nTime
  rw [hset] at houtcome
  have hfilled : pDbCache'.getData pb nDataID szDataName = some u.filled := by
    cases houtcome with
    | absent _ habsent =>
        rw [hrecord] at habsent
        cases habsent
    | merged sCacheInfo' szMerged hrecord' hmerge =>
        rw [hrecord, Option.some.injEq] at hrecord'
        subst hrecord'
        have hholds : Holds pb szDataName szMerged u.filled :=
          ⟨by rw [filled_descriptor, hd, hknown],
            CDbCache.mergeData_eq_some hload hd.symm hmerge⟩
        simp only [CDbCache.getData, CDbCache.withRecord, Std.ExtTreeMap.getElem?_insert_self]
        exact hholds.load hpb
  rw [hfilled, Option.some.injEq]
  exact filled_eq_overlay_iff hd

/-- An object that holds player 5. -/
def cachedPlayer (szName : Bytes) : CDbCache :=
  (CDbCache.empty.addData PlayerBase.runtime 1 (PlayerBase.player 5 szName)).2

/-- The object after an UPDATE. -/
def updatedPlayer (u : RowMessage) : CDbCache :=
  ((cachedPlayer [97]).setData PlayerBase.runtime 1 "proto.db.player_base" u 1).2

/-- An UPDATE that sets both fields of player 5. -/
theorem whole_update_overlays :
    UpsertLeaves PlayerBase.runtime (PlayerBase.player 5 [97]) (PlayerBase.player 5 [98])
      ((PlayerBase.player 5 [97]).overlay (PlayerBase.player 5 [98]) rfl) ∧
    ((updatedPlayer (PlayerBase.player 5 [98])).getData PlayerBase.runtime 1
        "proto.db.player_base" =
      some ((PlayerBase.player 5 [97]).overlay (PlayerBase.player 5 [98]) rfl) ↔
    ∀ f ∈ (PlayerBase.player 5 [97]).descriptor.fields,
      (PlayerBase.player 5 [98]).value f.name = none →
        (PlayerBase.player 5 [97]).value f.name = some f.default_value) := by
  have hrecord : (cachedPlayer [97]).m_mapCacheInfo[(1 : Nat)]? =
      some ⟨[13, 5, 0, 0, 0, 18, 1, 97], 0⟩ := by decide
  have hload : CDbCache.loadRecord PlayerBase.runtime "proto.db.player_base"
      [13, 5, 0, 0, 0, 18, 1, 97] = some (PlayerBase.player 5 [97]) :=
    Holds.load PlayerBase.runtime_lawful ⟨rfl, by decide⟩
  have hset : (cachedPlayer [97]).setData PlayerBase.runtime 1 "proto.db.player_base"
      (PlayerBase.player 5 [98]) 1 = (true, updatedPlayer (PlayerBase.player 5 [98])) := rfl
  have hd : (PlayerBase.player 5 [98]).descriptor = (PlayerBase.player 5 [97]).descriptor := rfl
  exact setData_overlays_iff PlayerBase.runtime_lawful hrecord hload rfl hd hset

/-- An UPDATE of player 5 that leaves the name unset wipes it in the record. -/
theorem partial_update_wipes_name :
    ¬ ∀ (pb : Runtime) (pDbCache pDbCache' : CDbCache) (nDataID nTime : Nat)
        (szDataName : String) (sCacheInfo : SCacheInfo) (m u : RowMessage)
        (hd : u.descriptor = m.descriptor),
      pb.Lawful → pDbCache.m_mapCacheInfo[nDataID]? = some sCacheInfo →
      CDbCache.loadRecord pb szDataName sCacheInfo.szData = some m →
      pb.FindMessageTypeByName szDataName = some m.descriptor →
      pDbCache.setData pb nDataID szDataName u nTime = (true, pDbCache') →
      pDbCache'.getData pb nDataID szDataName = some (m.overlay u hd) := by
  intro h
  have hrecord : (cachedPlayer [97]).m_mapCacheInfo[(1 : Nat)]? =
      some ⟨[13, 5, 0, 0, 0, 18, 1, 97], 0⟩ := by decide
  have hload : CDbCache.loadRecord PlayerBase.runtime "proto.db.player_base"
      [13, 5, 0, 0, 0, 18, 1, 97] = some (PlayerBase.player 5 [97]) :=
    Holds.load PlayerBase.runtime_lawful ⟨rfl, by decide⟩
  let u := PlayerBase.row (some (.int 5)) none
  have hset : (cachedPlayer [97]).setData PlayerBase.runtime 1 "proto.db.player_base" u 1 =
      (true, updatedPlayer u) := rfl
  have hmerged := h PlayerBase.runtime (cachedPlayer [97]) (updatedPlayer u) 1 1
    "proto.db.player_base" _ (PlayerBase.player 5 [97]) u rfl PlayerBase.runtime_lawful hrecord
    hload rfl hset
  have hname := congrArg (Option.map fun m => RowMessage.value m "name") hmerged
  revert hname
  decide

end Db
