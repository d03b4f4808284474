import DbService.ByteText

/-!
# Reflective messages

Messages seen through their descriptors, the way a program uses protobuf's reflection
interface: a descriptor lists the declared fields, and a message holds a value for some
of them.  Sub-messages are opaque; only their content is compared.

A `Descriptor` carries the fact that its field names are distinct, a `FieldDescriptor`
that its default fits its type, and a `RowMessage` that every value it holds is one a
declared field accepts, so a message with a field of the wrong type cannot be built.
-/

namespace Reflection

/-- `FieldDescriptor::Type` -/
inductive FieldType
  | TYPE_DOUBLE | TYPE_FLOAT | TYPE_INT64 | TYPE_UINT64 | TYPE_INT32 | TYPE_FIXED64
  | TYPE_FIXED32 | TYPE_BOOL | TYPE_STRING | TYPE_GROUP | TYPE_MESSAGE | TYPE_BYTES
  | TYPE_UINT32 | TYPE_ENUM | TYPE_SFIXED32 | TYPE_SFIXED64 | TYPE_SINT32 | TYPE_SINT64
  deriving DecidableEq

/-- `FieldDescriptor::Label` -/
inductive Label
  | LABEL_OPTIONAL | LABEL_REQUIRED | LABEL_REPEATED
  deriving DecidableEq

/-- A sub-message, identified by its content. -/
structure SubMessage where
  content : Bytes
  deriving DecidableEq

/-- The value of a field.  Floating-point values are carried as their bit pattern. -/
inductive Value
  | int (v : Int)
  | real (bits : Nat)
  | bytes (s : Bytes)
  | message (m : SubMessage)
  deriving DecidableEq

/-- The range of the integers of a signed type of `width` bits. -/
def signedFits (width : Nat) (v : Int) : Bool :=
  decide (-2 ^ (width - 1) ≤ v) && decide (v < 2 ^ (width - 1))

/-- The range of the integers of an unsigned type. -/
def unsignedFits (width : Nat) (v : Int) : Bool :=
  decide (0 ≤ v) && decide (v < 2 ^ width)

/-- The values a field of a given type can hold. -/
def Value.fits : Value → FieldType → Bool
  | .int v, .TYPE_INT32 | .int v, .TYPE_SINT32 | .int v, .TYPE_SFIXED32
  | .int v, .TYPE_ENUM => signedFits 32 v
  | .int v, .TYPE_UINT32 | .int v, .TYPE_FIXED32 => unsignedFits 32 v
  | .int v, .TYPE_INT64 | .int v, .TYPE_SINT64 | .int v, .TYPE_SFIXED64 => signedFits 64 v
  | .int v, .TYPE_UINT64 | .int v, .TYPE_FIXED64 => unsignedFits 64 v
  | .int v, .TYPE_BOOL => unsignedFits 1 v
  | .real _, .TYPE_DOUBLE | .real _, .TYPE_FLOAT => true
  | .bytes _, .TYPE_STRING | .bytes _, .TYPE_BYTES => true
  | .message _, .TYPE_MESSAGE | .message _, .TYPE_GROUP => true
  | _, _ => false

/-- The integer a value stands for (0 for a value that is not an integer). -/
def Value.toInt : Value → Int
  | .int v => v
  | _ => 0

/-- A declared field: what the code asks a `FieldDescriptor` for. -/
structure FieldDescriptor where
  name : String
  type : FieldType
  label : Label
  /-- What the getters return while the field is not set. -/
  default_value : Value
  /-- The `serialize_type` option (0 when absent). -/
  serialize_type : Nat
  /-- The name of the sub-message's type, for `TYPE_MESSAGE`. -/
  message_type : String
  default_fits : default_value.fits type = true

/-- A message type: its name, its primary key and its fields. -/
structure Descriptor where
  full_name : String
  /-- The `primary_key` option (empty when absent). -/
  primary_key : String
  fields : List FieldDescriptor
  names_nodup : (fields.map (·.name)).Nodup

/-- `Descriptor::FindFieldByName` -/
def Descriptor.FindFieldByName (d : Descriptor) (name : String) : Option FieldDescriptor :=
  d.fields.find? (fun f => f.name == name)

/-- Some declared field `name` can hold `v`. -/
def Descriptor.accepts (d : Descriptor) (name : String) (v : Value) : Bool :=
  match d.FindFieldByName name with
  | some f => v.fits f.type
  | none => false

/-- The field that is found is declared and has the name. -/
theorem FindFieldByName_name {d : Descriptor} {name : String} {f : FieldDescriptor}
    (h : d.FindFieldByName name = some f) : f ∈ d.fields ∧ f.name = name := by
  refine ⟨List.mem_of_find?_eq_some h, ?_⟩
  simpa using List.find?_some h

/-- Field names are distinct, so a declared field is found under its own name. -/
theorem FindFieldByName_of_mem {d : Descriptor} {f : FieldDescriptor} (h : f ∈ d.fields) :
    d.FindFieldByName f.name = some f := by
  have hnodup := d.names_nodup
  unfold Descriptor.FindFieldByName
  generalize d.fields = fields at h hnodup ⊢
  induction fields with
  | nil => simp at h
  | cons g rest ih =>
      simp only [List.map_cons, List.nodup_cons] at hnodup
      rcases List.mem_cons.mp h with rfl | hrest
      · simp
      · have hne : g.name ≠ f.name := by
          intro heq
          exact hnodup.1 (heq ▸ List.mem_map.mpr ⟨f, hrest, rfl⟩)
        rw [List.find?_cons_of_neg (by simpa using hne)]
        exact ih hrest hnodup.2

theorem accepts_default {d : Descriptor} {f : FieldDescriptor} (h : f ∈ d.fields) :
    d.accepts f.name f.default_value = true := by
  simp only [Descriptor.accepts, FindFieldByName_of_mem h, f.default_fits]

/-- A message of a type known by its descriptor.  A field is set when `value` holds
something under its name. -/
structure RowMessage where
  descriptor : Descriptor
  value : String → Option Value
  accepted : ∀ name v, value name = some v → descriptor.accepts name v = true

/-- `prototype->New()`: no field is set. -/
def RowMessage.New (d : Descriptor) : RowMessage :=
  ⟨d, fun _ => none, by simp⟩

/-- `Message::GetTypeName` -/
def RowMessage.GetTypeName (m : RowMessage) : String := m.descriptor.full_name

/-- `Reflection::HasField` -/
def RowMessage.HasField (m : RowMessage) (f : FieldDescriptor) : Bool :=
  (m.value f.name).isSome

/-- The getters: the value of the field, or its default while it is not set. -/
def RowMessage.Get (m : RowMessage) (f : FieldDescriptor) : Value :=
  (m.value f.name).getD f.default_value

/-- The setters.  A value the field cannot hold is a fatal usage error in protobuf and
leaves the message alone here. -/
def RowMessage.Set (m : RowMessage) (name : String) (v : Value) : RowMessage :=
  if h : m.descriptor.accepts name v = true then
    { m with
      value := Function.update m.value name (some v)
      accepted := by
        intro name' v' hv
        by_cases heq : name' = name
        · subst heq
          rw [Function.update_self, Option.some.injEq] at hv
          exact hv ▸ h
        · rw [Function.update_of_ne heq] at hv
          exact m.accepted name' v' hv }
  else m

@[simp] theorem Set_descriptor (m : RowMessage) (name : String) (v : Value) :
    (m.Set name v).descriptor = m.descriptor := by
  unfold RowMessage.Set
  split <;> rfl

/-- A value that the field accepts is set, and the other fields stay. -/
theorem Set_value {m : RowMessage} {name : String} {v : Value}
    (h : m.descriptor.accepts name v = true) :
    (m.Set name v).value = Function.update m.value name (some v) := by
  simp [RowMessage.Set, h]

/-- A setter changes its own field or nothing. -/
theorem Set_value_cases (m : RowMessage) (name : String) (v : Value) (name' : String) :
    (m.Set name v).value name' = m.value name' ∨
      name' = name ∧ (m.Set name v).value name' = some v := by
  by_cases h : m.descriptor.accepts name v = true
  · rw [Set_value h]
    by_cases heq : name' = name
    · exact .inr ⟨heq, by rw [heq, Function.update_self]⟩
    · exact .inl (Function.update_of_ne heq ..)
  · exact .inl (by simp [RowMessage.Set, h])

@[simp] theorem New_descriptor (d : Descriptor) : (RowMessage.New d).descriptor = d := rfl

@[simp] theorem New_value (d : Descriptor) (name : String) :
    (RowMessage.New d).value name = none := rfl

/-- Messages of one type that hold the same values are the same message. -/
theorem RowMessage.ext_value {m n : RowMessage} (hd : m.descriptor = n.descriptor)
    (hv : ∀ name, m.value name = n.value name) : m = n := by
  obtain ⟨d, value, _⟩ := m
  obtain ⟨d', value', _⟩ := n
  obtain rfl : d = d' := hd
  obtain rfl : value = value' := funext hv
  rfl

/-- A value is only ever held under the name of a declared field. -/
theorem RowMessage.exists_field {m : RowMessage} {name : String} {v : Value}
    (h : m.value name = some v) : ∃ f ∈ m.descriptor.fields, f.name = name := by
  have hacc := m.accepted name v h
  unfold Descriptor.accepts at hacc
  split at hacc
  · rename_i f hf
    exact ⟨f, FindFieldByName_name hf⟩
  · exact absurd hacc (by simp)

/-- What a getter returns can be set again. -/
theorem RowMessage.accepts_Get (m : RowMessage) {f : FieldDescriptor}
    (h : f ∈ m.descriptor.fields) : m.descriptor.accepts f.name (m.Get f) = true := by
  unfold RowMessage.Get
  cases hv : m.value f.name with
  | none => exact accepts_default h
  | some v => exact m.accepted f.name v hv

/-- Every declared field is set. -/
def RowMessage.Full (m : RowMessage) : Prop :=
  ∀ f ∈ m.descriptor.fields, m.HasField f = true

instance (m : RowMessage) : Decidable m.Full :=
  inferInstanceAs (Decidable (∀ f ∈ m.descriptor.fields, m.HasField f = true))

/-- Two messages of one type whose getters agree on set fields are equal. -/
theorem RowMessage.Full.ext {m n : RowMessage} (hm : m.Full) (hn : n.Full)
    (hd : m.descriptor = n.descriptor)
    (hget : ∀ f ∈ m.descriptor.fields, m.Get f = n.Get f) : m = n := by
  apply RowMessage.ext_value hd
  intro name
  by_cases hname : ∃ f ∈ m.descriptor.fields, f.name = name
  · obtain ⟨f, hf, rfl⟩ := hname
    obtain ⟨v, hv⟩ := Option.isSome_iff_exists.mp (hm f hf)
    obtain ⟨w, hw⟩ := Option.isSome_iff_exists.mp (hn f (hd ▸ hf))
    have := hget f hf
    simp only [RowMessage.Get, hv, hw, Option.getD_some] at this
    rw [hv, hw, this]
  · have hnone : m.value name = none := by
      cases hv : m.value name with
      | none => rfl
      | some v => exact absurd (m.exists_field hv) hname
    have hnone' : n.value name = none := by
      cases hv : n.value name with
      | none => rfl
      | some v => exact absurd (n.exists_field hv) (hd ▸ hname)
    rw [hnone, hnone']

end Reflection
