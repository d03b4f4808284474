import DbService.DbCommon

/-!
# The message type of the test program

`player_base` as `player_base.proto` declares it, its wire format, and a protobuf runtime
that knows this type and `nop_command`.  A name of 128 bytes or more needs a longer length
prefix than this runtime writes, so it does not serialise here.
-/

namespace Db

open Reflection ByteText

namespace PlayerBase

/-- `optional sfixed32 id = 1` -/
def id : FieldDescriptor where
  name := "id"
  type := .TYPE_SFIXED32
  label := .LABEL_OPTIONAL
  default_value := .int 0
  serialize_type := 0
  message_type := ""
  default_fits := by decide

/-- `optional bytes name = 2` -/
def name : FieldDescriptor where
  name := "name"
  type := .TYPE_BYTES
  label := .LABEL_OPTIONAL
  default_value := .bytes []
  serialize_type := 0
  message_type := ""
  default_fits := by decide

/-- `player_base`: a row by its id. -/
def player_base : Descriptor where
  full_name := "proto.db.player_base"
  primary_key := "id"
  fields := [id, name]
  names_nodup := by decide

/-- `nop_command`, which has no fields. -/
def nop_command : Descriptor where
  full_name := "proto.db.nop_command"
  primary_key := ""
  fields := []
  names_nodup := by decide

/-! ## The wire format -/

/-- Four bytes, least significant first, of the two's complement. -/
def fixed32 (v : Int) : Bytes :=
  let n := (v % 4294967296).toNat
  [.ofNat n, .ofNat (n / 256), .ofNat (n / 65536), .ofNat (n / 16777216)]

/-- The number four bytes stand for. -/
def readFixed32 (a b c d : UInt8) : Int :=
  let n : Int := a.toNat + 256 * b.toNat + 65536 * c.toNat + 16777216 * d.toNat
  if n < 2147483648 then n else n - 4294967296

/-- The field `id`: its tag and four bytes, or nothing where it is not set. -/
def encodeId : Option Value → Bytes
  | some (.int v) => 13 :: fixed32 v
  | _ => []

/-- The field `name`: its tag, one byte of length and the bytes. -/
def encodeName : Option Value → Option Bytes
  | some (.bytes s) => if s.length < 128 then some (18 :: .ofNat s.length :: s) else none
  | _ => some []

/-- The field `id` at the start of a text, if it is there, and the rest. -/
def decodeId : Bytes → Option Value × Bytes
  | 13 :: a :: b :: c :: d :: rest => (some (.int (readFixed32 a b c d)), rest)
  | rest => (none, rest)

/-- The field `name`, which the text ends with, if it is there. -/
def decodeName : Bytes → Option (Option Value)
  | [] => some none
  | 18 :: len :: s =>
      if len.toNat = s.length ∧ s.length < 128 then some (some (.bytes s)) else none
  | _ => none

/-- A row with a field set, or left as it is. -/
def setOption (m : RowMessage) (field : FieldDescriptor) : Option Value → RowMessage
  | none => m
  | some v => m.Set field.name v

/-- A row with the given fields set. -/
def row (vId vName : Option Value) : RowMessage :=
  setOption (setOption (.New player_base) id vId) name vName

/-- A row with both fields set. -/
def player (nId : Int) (szName : Bytes) : RowMessage :=
  row (some (.int nId)) (some (.bytes szName))

/-- A row of the type, or the nop; no other message is known. -/
def SerializeToString : Message → Option Bytes
  | .row m =>
      if m.GetTypeName = player_base.full_name then
        (encodeName (m.value "name")).map (encodeId (m.value "id") ++ ·)
      else none
  | .nop_command => some []
  | _ => none

/-- The message of a type in a text. -/
def ParseFromString (szName : String) (szData : Bytes) : Option Message :=
  if szName = player_base.full_name then
    let (vId, rest) := decodeId szData
    (decodeName rest).map fun vName => .row (row vId vName)
  else if szName = nop_command.full_name then
    if szData = [] then some .nop_command else none
  else none

/-- The two types. -/
def FindMessageTypeByName (szName : String) : Option Descriptor :=
  if szName = player_base.full_name then some player_base
  else if szName = nop_command.full_name then some nop_command
  else none

/-- A runtime with the types above; the other functions are not reached by rows of this
type. -/
def runtime : Runtime where
  FindMessageTypeByName := FindMessageTypeByName
  SerializeToString := SerializeToString
  ParseFromString := ParseFromString
  SerializeToArray := fun m => some m.content
  ParseSubMessage := fun _ szData => some ⟨szData⟩
  MessageToJsonString := fun m => some m.content
  JsonStringToMessage := fun _ szData => some ⟨szData⟩
  printReal := fun _ => []
  scanReal := fun _ => 0

/-! ## What is written can be read -/

/-- The id of a row is absent or a number that fits. -/
theorem value_id {m : RowMessage} (hd : m.descriptor = player_base) :
    m.value "id" = none ∨ ∃ v, m.value "id" = some (.int v) ∧ signedFits 32 v = true := by
  cases hv : m.value "id" with
  | none => exact .inl rfl
  | some value =>
      have hfits := m.accepted "id" value hv
      rw [hd] at hfits
      cases value with
      | int v => exact .inr ⟨v, rfl, hfits⟩
      | real bits => exact absurd hfits (by simp [Descriptor.accepts, Descriptor.FindFieldByName,
          player_base, id, Value.fits])
      | bytes s => exact absurd hfits (by simp [Descriptor.accepts, Descriptor.FindFieldByName,
          player_base, id, Value.fits])
      | message sub => exact absurd hfits (by simp [Descriptor.accepts,
          Descriptor.FindFieldByName, player_base, id, Value.fits])

/-- The name of a row is absent or a byte string. -/
theorem value_name {m : RowMessage} (hd : m.descriptor = player_base) :
    m.value "name" = none ∨ ∃ s, m.value "name" = some (.bytes s) := by
  cases hv : m.value "name" with
  | none => exact .inl rfl
  | some value =>
      have hfits := m.accepted "name" value hv
      rw [hd] at hfits
      cases value with
      | bytes s => exact .inr ⟨s, rfl⟩
      | int v => exact absurd hfits (by simp [Descriptor.accepts, Descriptor.FindFieldByName,
          player_base, id, name, Value.fits])
      | real bits => exact absurd hfits (by simp [Descriptor.accepts, Descriptor.FindFieldByName,
          player_base, id, name, Value.fits])
      | message sub => exact absurd hfits (by simp [Descriptor.accepts,
          Descriptor.FindFieldByName, player_base, id, name, Value.fits])

/-- The four base-256 digits of a number below `2 ^ 32`, read back. -/
theorem readFixed32_nat {n : Nat} (h : n < 4294967296) :
    readFixed32 (.ofNat n) (.ofNat (n / 256)) (.ofNat (n / 65536)) (.ofNat (n / 16777216)) =
      if (n : Int) < 2147483648 then (n : Int) else (n : Int) - 4294967296 := by
  have hsum : ((n % 2 ^ 8 : Nat) : Int) + 256 * ((n / 256 % 2 ^ 8 : Nat) : Int) +
      65536 * ((n / 65536 % 2 ^ 8 : Nat) : Int) +
      16777216 * ((n / 16777216 % 2 ^ 8 : Nat) : Int) = n := by
    omega
  unfold readFixed32
  rw [UInt8.toNat_ofNat', UInt8.toNat_ofNat', UInt8.toNat_ofNat', UInt8.toNat_ofNat', hsum]

/-- The four bytes of a number that fits, read back. -/
theorem readFixed32_digits {v : Int} (h : signedFits 32 v = true) :
    readFixed32 (.ofNat (v % 4294967296).toNat) (.ofNat ((v % 4294967296).toNat / 256))
      (.ofNat ((v % 4294967296).toNat / 65536))
      (.ofNat ((v % 4294967296).toNat / 16777216)) = v := by
  have hrange : -2147483648 ≤ v ∧ v < 2147483648 := by
    simpa [signedFits] using h
  have hcast : ((v % 4294967296).toNat : Int) = v % 4294967296 := by omega
  rw [readFixed32_nat (by omega), hcast]
  split <;> omega

/-- The id of a row is read back where the next field does not look like one. -/
theorem decodeId_encodeId {m : RowMessage} (hd : m.descriptor = player_base) (rest : Bytes)
    (hrest : rest.head? ≠ some 13) :
    decodeId (encodeId (m.value "id") ++ rest) = (m.value "id", rest) := by
  rcases value_id hd with hnone | ⟨v, hsome, hfits⟩
  · rw [hnone]
    cases rest with
    | nil => rfl
    | cons b rest =>
        have hb : b ≠ 13 := by simpa using hrest
        simp only [encodeId, List.nil_append, decodeId]
        split
        · rename_i heq
          exact absurd (List.cons.inj heq).1 hb
        · rfl
  · rw [hsome]
    simp [encodeId, fixed32, decodeId, readFixed32_digits hfits]

/-- The name of a row is read back, and does not look like an id. -/
theorem decodeName_encodeName {m : RowMessage} (hd : m.descriptor = player_base) {b : Bytes}
    (h : encodeName (m.value "name") = some b) :
    decodeName b = some (m.value "name") ∧ b.head? ≠ some 13 := by
  rcases value_name hd with hnone | ⟨s, hsome⟩
  · rw [hnone] at h ⊢
    obtain rfl : [] = b := by simpa [encodeName] using h
    exact ⟨rfl, by simp⟩
  · rw [hsome] at h ⊢
    simp only [encodeName] at h
    split at h
    · rename_i hlen
      obtain rfl := Option.some.inj h
      have hlen' : s.length % 2 ^ 8 = s.length := by omega
      refine ⟨?_, by simp⟩
      simp only [decodeName, UInt8.toNat_ofNat', hlen', hlen, and_self, if_true]
    · cases h

theorem row_descriptor (vId vName : Option Value) : (row vId vName).descriptor = player_base := by
  cases vId <;> cases vName <;> simp [row, setOption]

/-- A row is determined by its two fields. -/
theorem row_eq {m : RowMessage} (hd : m.descriptor = player_base) :
    row (m.value "id") (m.value "name") = m := by
  have hid : ∀ (m' : RowMessage), m'.descriptor = player_base → m'.value "id" = none →
      (setOption m' id (m.value "id")).value =
        Function.update m'.value "id" (m.value "id") := by
    intro m' hd' hnone
    cases hv : m.value "id" with
    | none => simp [setOption, ← hnone]
    | some v =>
        have hacc := m.accepted "id" v hv
        exact Set_value (by rw [hd', ← hd]; exact hacc)
  have hname : ∀ (m' : RowMessage), m'.descriptor = player_base → m'.value "name" = none →
      (setOption m' name (m.value "name")).value =
        Function.update m'.value "name" (m.value "name") := by
    intro m' hd' hnone
    cases hv : m.value "name" with
    | none => simp [setOption, ← hnone]
    | some v =>
        have hacc := m.accepted "name" v hv
        exact Set_value (by rw [hd', ← hd]; exact hacc)
  apply RowMessage.ext_value ((row_descriptor _ _).trans hd.symm)
  intro field
  unfold row
  have hid' := hid (.New player_base) rfl rfl
  rw [hname _ (by cases m.value "id" <;> simp [setOption]) (by rw [hid']; simp), hid']
  by_cases hfield : ∃ f ∈ m.descriptor.fields, f.name = field
  · obtain ⟨f, hf, rfl⟩ := hfield
    rw [hd] at hf
    simp only [player_base, List.mem_cons, List.not_mem_nil, or_false] at hf
    rcases hf with rfl | rfl
    · simp [id]
    · simp [name]
  · have hnone : m.value field = none := by
      cases hv : m.value field with
      | none => rfl
      | some v => exact absurd (m.exists_field hv) hfield
    have hne_id : field ≠ "id" := fun heq =>
      hfield ⟨id, by simp [hd, player_base], heq.symm⟩
    have hne_name : field ≠ "name" := fun heq =>
      hfield ⟨name, by simp [hd, player_base], heq.symm⟩
    simp [hne_id, hne_name, hnone]

/-- The name of a row is the one it was made with, unless the field could not hold it. -/
theorem row_name (vId vName : Option Value) :
    (row vId vName).value "name" = none ∨ (row vId vName).value "name" = vName := by
  have hid : (setOption (.New player_base) id vId).value "name" = none := by
    cases vId with
    | none => rfl
    | some v =>
        rcases Set_value_cases (.New player_base) id.name v "name" with hsame | ⟨hne, _⟩
        · exact hsame
        · exact absurd hne (by decide)
  cases vName with
  | none => exact .inl hid
  | some v =>
      rcases Set_value_cases (setOption (.New player_base) id vId) name.name v "name" with
        hsame | ⟨_, hnew⟩
      · exact .inl (hsame.trans hid)
      · exact .inr hnew

/-- The name read from the wire is short enough to be written again. -/
theorem encodeName_decodeName {b : Bytes} {vName : Option Value}
    (h : decodeName b = some vName) : (encodeName vName).isSome := by
  unfold decodeName at h
  split at h
  · obtain rfl := Option.some.inj h
    rfl
  · split at h
    · rename_i hlen
      obtain rfl := Option.some.inj h
      simp [encodeName, hlen.2]
    · cases h
  · cases h

/-- **The runtime is lawful:** what it serialises of a type it knows it parses back. -/
theorem runtime_lawful : runtime.Lawful where
  full_name := by
    intro szName d h
    simp only [runtime, FindMessageTypeByName] at h
    split at h
    · rename_i heq
      rw [← Option.some.inj h, heq]
    · split at h
      · rename_i heq
        rw [← Option.some.inj h, heq]
      · cases h
  empty_name := by decide
  parse_serialize := by
    intro m b hknows hdata
    cases m with
    | row m =>
        simp only [runtime, SerializeToString] at hdata
        split at hdata
        · rename_i hname
          have hd : m.descriptor = player_base := by
            have : runtime.FindMessageTypeByName m.GetTypeName = some m.descriptor := hknows
            simpa [runtime, FindMessageTypeByName, hname] using this.symm
          obtain ⟨bName, hbName, rfl⟩ := Option.map_eq_some_iff.mp hdata
          obtain ⟨hdecode, hhead⟩ := decodeName_encodeName hd hbName
          simp only [runtime, ParseFromString, Message.GetTypeName, hname, if_true,
            decodeId_encodeId hd bName hhead, hdecode, Option.map_some, row_eq hd]
        · cases hdata
    | nop_command =>
        obtain rfl := Option.some.inj hdata
        rfl
    | select_command => cases hdata
    | delete_command => cases hdata
    | query_command => cases hdata
    | call_command => cases hdata
    | flush_command => cases hdata
    | result_set => cases hdata
    | rowSet => cases hdata
  serialize_parse := by
    intro szName b m h
    simp only [runtime, ParseFromString] at h
    split at h
    · obtain ⟨vName, hdecode, rfl⟩ := Option.map_eq_some_iff.mp h
      have hname : (row (decodeId b).1 vName).GetTypeName = player_base.full_name :=
        congrArg Descriptor.full_name (row_descriptor _ _)
      simp only [runtime, SerializeToString, hname, if_true, Option.isSome_map]
      rcases row_name (decodeId b).1 vName with hnone | hsome
      · rw [hnone]
        rfl
      · rw [hsome]
        exact encodeName_decodeName hdecode
    · split at h
      · split at h
        · obtain rfl := Option.some.inj h
          rfl
        · cases h
      · cases h

end PlayerBase

end Db
