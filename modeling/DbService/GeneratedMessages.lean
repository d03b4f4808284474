import DbService.FlushEntryPoints
import DbService.RequiredFields

/-!
# The generated messages (`proto_src`)

The classes that `protoc` made of the commands and of `result_set`, over the fields of a text.
`SerializeWithCachedSizes` writes the fields in the order of their numbers.
`MergePartialFromCodedStream` takes the fields as they come: of a singular field it keeps the last
value, to a repeated one it appends, and a field whose tag the class does not have it passes over.
What it passed over stays with the message in the source, where nothing reads it.

Two kinds of texts that no peer writes count as ones that do not parse, where the library is not
as strict.  A name is a `String` here, so it has to be UTF-8; the library takes other names with a
warning.  And a row has to end within its text; the library's `ReadLengthAndPushLimit` lets one
whose size is larger end with the text.  What is said below is of well-formed texts.

* `Proto.read_back` -- a message is read back from every text with its fields in it, in whatever
  order and among whatever other fields;
* `Proto.parse_writesWithin` -- what a class reads, it writes in no more bytes;
* `Runtime.withCommands_lawful` -- so a protobuf runtime keeps its laws when these classes are
  added to the rows it knows;
* `Runtime.withCommands_carries` -- the messages that come through;
* `generated_messages_read_back` -- the laws, and every well-formed text with a message's fields.
-/

namespace Db

open Reflection ByteText ProtoWire

namespace Proto

/-! ## The types -/

/-- What the getter of a field of a type returns that was never set. -/
def unset : FieldType → Reflection.Value
  | .TYPE_DOUBLE | .TYPE_FLOAT => .real 0
  | .TYPE_STRING | .TYPE_BYTES => .bytes []
  | .TYPE_MESSAGE | .TYPE_GROUP => .message ⟨[]⟩
  | _ => .int 0

theorem unset_fits (type : FieldType) : (unset type).fits type = true := by
  cases type <;> rfl

/-- A field without options. -/
def field (name : String) (type : FieldType) (label : Label) (message_type : String) :
    FieldDescriptor where
  name := name
  type := type
  label := label
  default_value := unset type
  serialize_type := 0
  message_type := message_type
  default_fits := unset_fits type

/-- The key of a row, in the commands for one. -/
def id : FieldDescriptor := field "id" .TYPE_UINT64 .LABEL_REQUIRED ""

/-- The table, which is the full name of its message type. -/
def table_name : FieldDescriptor := field "table_name" .TYPE_STRING .LABEL_REQUIRED ""

/-- The arguments of a QUERY or a CALL, as texts. -/
def args : FieldDescriptor := field "args" .TYPE_BYTES .LABEL_REPEATED ""

/-- `select_command.proto`: the key and the table. -/
def select_command : Descriptor where
  full_name := "proto.db.select_command"
  primary_key := ""
  fields := [id, table_name]
  names_nodup := by decide

/-- `delete_command.proto`: the same two fields. -/
def delete_command : Descriptor where
  full_name := "proto.db.delete_command"
  primary_key := ""
  fields := [id, table_name]
  names_nodup := by decide

/-- `query_command.proto`: the table, the clause with its holes, and the arguments for them. -/
def query_command : Descriptor where
  full_name := "proto.db.query_command"
  primary_key := ""
  fields := [table_name, field "where_clause" .TYPE_STRING .LABEL_REQUIRED "", args]
  names_nodup := by decide

/-- `call_command.proto`: the whole statement with its holes, and the arguments. -/
def call_command : Descriptor where
  full_name := "proto.db.call_command"
  primary_key := ""
  fields := [field "sql" .TYPE_STRING .LABEL_REQUIRED "", args]
  names_nodup := by decide

/-- `result_set.proto`: the names of the columns, and rows of their values. -/
def result_set : Descriptor where
  full_name := "proto.db.result_set"
  primary_key := ""
  fields :=
    [field "field_name" .TYPE_STRING .LABEL_REPEATED "",
      field "rows" .TYPE_MESSAGE .LABEL_REPEATED "proto.db.row"]
  names_nodup := by decide

/-- The types of the messages that are not rows. -/
def types : List Descriptor :=
  [select_command, delete_command, query_command, call_command, PlayerBase.nop_command,
    flush_command, result_set]

/-! ## The classes -/

/-- `row::SerializeWithCachedSizes` -/
def row_fields (value : List Bytes) : List Field := repBytes 1 value

/-- `row::MergePartialFromCodedStream`, of a row within a `result_set`, which takes one level of
nesting.  Its values are all the bytes under its only field. -/
def row_parse (text : Bytes) : Option (List Bytes) :=
  (parseFields (recursionLimit - 1) text).map (allBytesOf 1)

/-- `SerializeWithCachedSizes` of the class of a message.  An `id` is a `uint64`, a `type` a
`uint32`. -/
def SerializeWithCachedSizes : Message → Option (List Field)
  | .select_command id table_name | .delete_command id table_name =>
      if id < 2 ^ 64 then some (optNumber 1 (some id) ++ optBytes 2 (some (utf8 table_name)))
      else none
  | .query_command table_name where_clause args =>
      some (optBytes 1 (some (utf8 table_name)) ++ optBytes 2 (some where_clause) ++
        repBytes 3 args)
  | .call_command sql args => some (optBytes 1 (some sql) ++ repBytes 2 args)
  | .nop_command => some []
  | .flush_command id type =>
      if id < 2 ^ 64 ∧ type < 2 ^ 32 then
        some (optNumber 1 (some id) ++ optNumber 2 (some type))
      else none
  | .result_set field_name rows =>
      some (repBytes 1 (field_name.map utf8) ++
        repBytes 2 (rows.map fun value => writeFields (row_fields value)))
  | .row _ | .rowSet .. => none

/-- `select_command` and `delete_command` have the same fields, both required: without a key or a
table `IsInitialized` fails.  The key is cut to 64 bits. -/
def key_parse (make : Nat → String → Message) (fs : List Field) : Option Message :=
  match numberOf 1 fs, bytesOf 2 fs with
  | some id, some table_name => (ofUtf8 table_name).map (make (id % 2 ^ 64))
  | _, _ => none

/-- `select_command::MergePartialFromCodedStream` -/
def select_command_parse : List Field → Option Message := key_parse .select_command

/-- `delete_command::MergePartialFromCodedStream` -/
def delete_command_parse : List Field → Option Message := key_parse .delete_command

/-- `query_command::MergePartialFromCodedStream`; the arguments may be none, the other two are
required. -/
def query_command_parse (fs : List Field) : Option Message :=
  match bytesOf 1 fs, bytesOf 2 fs with
  | some table_name, some where_clause =>
      (ofUtf8 table_name).map fun table_name =>
        .query_command table_name where_clause (allBytesOf 3 fs)
  | _, _ => none

/-- `call_command::MergePartialFromCodedStream` -/
def call_command_parse (fs : List Field) : Option Message :=
  (bytesOf 1 fs).map fun sql => .call_command sql (allBytesOf 2 fs)

/-- `nop_command::MergePartialFromCodedStream`: there is no field to look for, so every text with
well-formed fields is a nop. -/
def nop_command_parse (_ : List Field) : Option Message := some .nop_command

/-- `flush_command::MergePartialFromCodedStream`: the key and the kind are cut to their types. -/
def flush_command_parse (fs : List Field) : Option Message :=
  match numberOf 1 fs, numberOf 2 fs with
  | some id, some type => some (.flush_command (id % 2 ^ 64) (type % 2 ^ 32))
  | _, _ => none

/-- `result_set::MergePartialFromCodedStream`: every row is a text of its own, one level down. -/
def result_set_parse (fs : List Field) : Option Message :=
  match (allBytesOf 1 fs).mapM ofUtf8, (allBytesOf 2 fs).mapM row_parse with
  | some field_name, some rows => some (.result_set field_name rows)
  | _, _ => none

/-- `MergePartialFromCodedStream` and `IsInitialized` of the class with a name.  The names of the
classes are different ones, so the order of the cases does not matter. -/
def parse (szName : String) (fs : List Field) : Option Message :=
  if szName = select_command.full_name then select_command_parse fs
  else if szName = delete_command.full_name then delete_command_parse fs
  else if szName = query_command.full_name then query_command_parse fs
  else if szName = call_command.full_name then call_command_parse fs
  else if szName = PlayerBase.nop_command.full_name then nop_command_parse fs
  else if szName = flush_command.full_name then flush_command_parse fs
  else if szName = result_set.full_name then result_set_parse fs
  else none

/-- The tags for which the parser of a message's class has a case. -/
def tags : Message → List Nat
  | .select_command .. | .delete_command .. => [8, 18]
  | .query_command .. => [10, 18, 26]
  | .call_command .. | .result_set .. => [10, 18]
  | .flush_command .. => [8, 16]
  | .nop_command | .row _ | .rowSet .. => []

/-! ## What is written is read back -/

/-- A list is read back if each of its elements is. -/
theorem mapM_map {α β : Type} {read : β → Option α} {write : α → β} {values : List α}
    (h : ∀ a ∈ values, read (write a) = some a) : (values.map write).mapM read = some values := by
  induction values with
  | nil => rfl
  | cons a values ih =>
      have hrest := ih fun a' hin => h a' (List.mem_cons_of_mem _ hin)
      simp [h a List.mem_cons_self, hrest]

/-- A row is read back, one level of nesting being left for it. -/
theorem row_parse_row_fields {value : List Bytes}
    (h : (writeFields (row_fields value)).length < 2 ^ 31) :
    row_parse (writeFields (row_fields value)) = some value := by
  have hfits : ∀ f ∈ row_fields value, f.Fits (recursionLimit - 1) :=
    repBytes_fits (by decide) (by decide) value
  rw [row_parse, parseFields_writeFields hfits h]
  simp [row_fields]

/-- **A message is read back** from every text that has its fields.  Singular fields are found by
the last value under their tag and repeated ones by all, which texts alike in the tags of the
class agree on; a row is a text of its own. -/
theorem read_back {m : Message} {fs fs' : List Field} (h : SerializeWithCachedSizes m = some fs)
    (halike : Alike (tags m) fs' fs) (hlength : (writeFields fs').length < 2 ^ 31) :
    parse m.GetTypeName fs' = some m := by
  cases m with
  | select_command id table_name =>
      simp only [SerializeWithCachedSizes, Option.ite_none_right_eq_some, Option.some.injEq] at h
      obtain ⟨hid, rfl⟩ := h
      have hnumber : numberOf 1 fs' = _ := halike.numberOf (by simp [tags])
      have hbytes : bytesOf 2 fs' = _ := halike.bytesOf (by simp [tags])
      change key_parse .select_command fs' = _
      simpa [key_parse, hnumber, hbytes] using hid
  | delete_command id table_name =>
      simp only [SerializeWithCachedSizes, Option.ite_none_right_eq_some, Option.some.injEq] at h
      obtain ⟨hid, rfl⟩ := h
      have hnumber : numberOf 1 fs' = _ := halike.numberOf (by simp [tags])
      have hbytes : bytesOf 2 fs' = _ := halike.bytesOf (by simp [tags])
      change key_parse .delete_command fs' = _
      simpa [key_parse, hnumber, hbytes] using hid
  | query_command table_name where_clause args =>
      obtain rfl := Option.some.inj h
      have hname : bytesOf 1 fs' = _ := halike.bytesOf (by simp [tags])
      have hclause : bytesOf 2 fs' = _ := halike.bytesOf (by simp [tags])
      have hargs : allBytesOf 3 fs' = _ := halike.allBytesOf (by simp [tags])
      change query_command_parse fs' = _
      simp [query_command_parse, hname, hclause, hargs]
  | call_command sql args =>
      obtain rfl := Option.some.inj h
      have hsql : bytesOf 1 fs' = _ := halike.bytesOf (by simp [tags])
      have hargs : allBytesOf 2 fs' = _ := halike.allBytesOf (by simp [tags])
      change call_command_parse fs' = _
      simp [call_command_parse, hsql, hargs]
  | nop_command => rfl
  | flush_command id type =>
      simp only [SerializeWithCachedSizes, Option.ite_none_right_eq_some, Option.some.injEq] at h
      obtain ⟨⟨hid, htype⟩, rfl⟩ := h
      have hnumber : numberOf 1 fs' = _ := halike.numberOf (by simp [tags])
      have hkind : numberOf 2 fs' = _ := halike.numberOf (by simp [tags])
      change flush_command_parse fs' = _
      simpa [flush_command_parse, hnumber, hkind] using ⟨hid, htype⟩
  | result_set field_name rows =>
      obtain rfl := Option.some.inj h
      have hnames : allBytesOf 1 fs' = field_name.map utf8 := by
        have halike' : allBytesOf 1 fs' = _ := halike.allBytesOf (by simp [tags])
        simpa using halike'
      have hrows : allBytesOf 2 fs' = rows.map fun value => writeFields (row_fields value) := by
        have halike' : allBytesOf 2 fs' = _ := halike.allBytesOf (by simp [tags])
        simpa using halike'
      have hrow : ∀ value ∈ rows, row_parse (writeFields (row_fields value)) = some value := by
        intro value hin
        have hpart : writeFields (row_fields value) ∈ allBytesOf 2 fs' :=
          hrows ▸ List.mem_map_of_mem hin
        exact row_parse_row_fields (lt_of_le_of_lt (length_le_of_mem_allBytesOf hpart) hlength)
      change result_set_parse fs' = _
      simp only [result_set_parse, hnames, hrows, mapM_map fun s _ => ofUtf8_utf8 s,
        mapM_map hrow]
  | row m => cases h
  | rowSet szName data_set => cases h

/-- What is written fits the parser: the field numbers are small, the numbers have the bits of
their types, and no field is a group. -/
theorem serialize_fits {m : Message} {fs : List Field} (h : SerializeWithCachedSizes m = some fs) :
    ∀ f ∈ fs, f.Fits recursionLimit := by
  have hnumber : ∀ {i n : Nat}, 0 < i → i < 2 ^ 29 → n < 2 ^ 64 →
      ∀ f ∈ optNumber i (some n), f.Fits recursionLimit := by
    intro i n hpos hi hn
    refine optNumber_fits hpos hi fun n' hin => ?_
    obtain rfl := Option.mem_some.mp hin
    exact hn
  cases m with
  | select_command id table_name | delete_command id table_name =>
      simp only [SerializeWithCachedSizes, Option.ite_none_right_eq_some, Option.some.injEq] at h
      obtain ⟨hid, rfl⟩ := h
      exact List.forall_mem_append.mpr ⟨hnumber (by decide) (by decide) hid,
        optBytes_fits (by decide) (by decide) _⟩
  | query_command table_name where_clause args =>
      obtain rfl := Option.some.inj h
      exact List.forall_mem_append.mpr ⟨List.forall_mem_append.mpr
        ⟨optBytes_fits (by decide) (by decide) _, optBytes_fits (by decide) (by decide) _⟩,
        repBytes_fits (by decide) (by decide) _⟩
  | call_command sql args =>
      obtain rfl := Option.some.inj h
      exact List.forall_mem_append.mpr
        ⟨optBytes_fits (by decide) (by decide) _, repBytes_fits (by decide) (by decide) _⟩
  | nop_command =>
      obtain rfl := Option.some.inj h
      exact List.forall_mem_nil _
  | flush_command id type =>
      simp only [SerializeWithCachedSizes, Option.ite_none_right_eq_some, Option.some.injEq] at h
      obtain ⟨⟨hid, htype⟩, rfl⟩ := h
      exact List.forall_mem_append.mpr ⟨hnumber (by decide) (by decide) hid,
        hnumber (by decide) (by decide) (htype.trans (by decide))⟩
  | result_set field_name rows =>
      obtain rfl := Option.some.inj h
      exact List.forall_mem_append.mpr
        ⟨repBytes_fits (by decide) (by decide) _, repBytes_fits (by decide) (by decide) _⟩
  | row m => cases h
  | rowSet szName data_set => cases h

/-! ## What is read is written in no more bytes -/

/-- A row that was read is written in no more bytes than its text had. -/
theorem length_row_fields {text : Bytes} {value : List Bytes} (h : row_parse text = some value) :
    (writeFields (row_fields value)).length ≤ text.length := by
  obtain ⟨fs, hread, rfl⟩ := Option.map_eq_some_iff.mp h
  have hrow := length_repBytes_le 1 fs
  have hall := @length_tagged_le [8 * 1 + 2] (by decide) fs
  have htext := length_writeFields_of_readFields hread
  simp only [List.map_cons, List.map_nil, List.sum_cons, List.sum_nil] at hall
  rw [row_fields]
  omega

/-- The bytes that were read as text are its bytes. -/
theorem map_utf8_of_mapM {texts : List Bytes} {names : List String}
    (h : texts.mapM ofUtf8 = some names) : names.map utf8 = texts := by
  induction texts generalizing names with
  | nil =>
      obtain rfl := Option.some.inj h
      rfl
  | cons text texts ih =>
      simp only [List.mapM_cons, Option.pure_def, Option.bind_eq_bind, Option.bind_eq_some_iff,
        Option.some.injEq] at h
      obtain ⟨s, hs, names', hnames, rfl⟩ := h
      rw [List.map_cons, utf8_of_ofUtf8 hs, ih hnames]

/-- So is each of a list of rows. -/
theorem length_rows {texts : List Bytes} {rows : List (List Bytes)}
    (h : texts.mapM row_parse = some rows) :
    List.Forall₂ (fun b b' => b.length ≤ b'.length)
      (rows.map fun value => writeFields (row_fields value)) texts := by
  induction texts generalizing rows with
  | nil =>
      obtain rfl := Option.some.inj h
      exact .nil
  | cons text texts ih =>
      simp only [List.mapM_cons, Option.pure_def, Option.bind_eq_bind, Option.bind_eq_some_iff,
        Option.some.injEq] at h
      obtain ⟨value, hvalue, rows', hrows, rfl⟩ := h
      exact .cons (length_row_fields hvalue) (ih hrows)

/-- The message is written in no more bytes than the fields are. -/
def WritesWithin (fs : List Field) (m : Message) : Prop :=
  ∃ fs', SerializeWithCachedSizes m = some fs' ∧
    (writeFields fs').length ≤ (writeFields fs).length

/-- A command for one row: the key it is written with is cut to 64 bits, which makes it no
longer, and of each field the last value is written alone. -/
theorem key_parse_writesWithin {make : Nat → String → Message} {fs : List Field} {m : Message}
    (hmake : ∀ id table_name, id < 2 ^ 64 → SerializeWithCachedSizes (make id table_name) =
      some (optNumber 1 (some id) ++ optBytes 2 (some (utf8 table_name))))
    (h : key_parse make fs = some m) : WritesWithin fs m := by
  unfold key_parse at h
  split at h
  · rename_i id name hid hname
    obtain ⟨table_name, hutf8, rfl⟩ := Option.map_eq_some_iff.mp h
    refine ⟨_, hmake _ _ (Nat.mod_lt _ (by decide)), ?_⟩
    have hnumber := length_optNumber_le 1 fs
    have hbytes := length_optBytes_le 2 fs
    have hcut := @length_optNumber_mono 1 _ _ (Nat.mod_le id (2 ^ 64))
    have hall := @length_tagged_le [8 * 1, 8 * 2 + 2] (by decide) fs
    simp only [List.map_cons, List.map_nil, List.sum_cons, List.sum_nil] at hall
    rw [hid] at hnumber
    rw [hname] at hbytes
    rw [utf8_of_ofUtf8 hutf8, length_writeFields_append]
    omega
  · cases h

/-- A QUERY: the table and the clause are written once, and every argument. -/
theorem query_command_parse_writesWithin {fs : List Field} {m : Message}
    (h : query_command_parse fs = some m) : WritesWithin fs m := by
  unfold query_command_parse at h
  split at h
  · rename_i name where_clause hname hclause
    obtain ⟨table_name, hutf8, rfl⟩ := Option.map_eq_some_iff.mp h
    refine ⟨_, rfl, ?_⟩
    have hfirst := length_optBytes_le 1 fs
    have hsecond := length_optBytes_le 2 fs
    have hthird := length_repBytes_le 3 fs
    have hall := @length_tagged_le [8 * 1 + 2, 8 * 2 + 2, 8 * 3 + 2] (by decide) fs
    simp only [List.map_cons, List.map_nil, List.sum_cons, List.sum_nil] at hall
    rw [hname] at hfirst
    rw [hclause] at hsecond
    rw [utf8_of_ofUtf8 hutf8, length_writeFields_append, length_writeFields_append]
    omega
  · cases h

/-- A CALL: the statement once, and every argument. -/
theorem call_command_parse_writesWithin {fs : List Field} {m : Message}
    (h : call_command_parse fs = some m) : WritesWithin fs m := by
  obtain ⟨sql, hsql, rfl⟩ := Option.map_eq_some_iff.mp h
  refine ⟨_, rfl, ?_⟩
  have hfirst := length_optBytes_le 1 fs
  have hsecond := length_repBytes_le 2 fs
  have hall := @length_tagged_le [8 * 1 + 2, 8 * 2 + 2] (by decide) fs
  simp only [List.map_cons, List.map_nil, List.sum_cons, List.sum_nil] at hall
  rw [hsql] at hfirst
  rw [length_writeFields_append]
  omega

/-- A FLUSH: both numbers are cut to their types. -/
theorem flush_command_parse_writesWithin {fs : List Field} {m : Message}
    (h : flush_command_parse fs = some m) : WritesWithin fs m := by
  unfold flush_command_parse at h
  split at h
  · rename_i id type hid htype
    obtain rfl := Option.some.inj h
    have hin : id % 2 ^ 64 < 2 ^ 64 ∧ type % 2 ^ 32 < 2 ^ 32 :=
      ⟨Nat.mod_lt _ (by decide), Nat.mod_lt _ (by decide)⟩
    refine ⟨_, if_pos hin, ?_⟩
    have hfirst := length_optNumber_le 1 fs
    have hsecond := length_optNumber_le 2 fs
    have hcut := @length_optNumber_mono 1 _ _ (Nat.mod_le id (2 ^ 64))
    have hcut' := @length_optNumber_mono 2 _ _ (Nat.mod_le type (2 ^ 32))
    have hall := @length_tagged_le [8 * 1, 8 * 2] (by decide) fs
    simp only [List.map_cons, List.map_nil, List.sum_cons, List.sum_nil] at hall
    rw [hid] at hfirst
    rw [htype] at hsecond
    rw [length_writeFields_append]
    omega
  · cases h

/-- A result set: a row is written without what its text has besides the values. -/
theorem result_set_parse_writesWithin {fs : List Field} {m : Message}
    (h : result_set_parse fs = some m) : WritesWithin fs m := by
  unfold result_set_parse at h
  split at h
  · rename_i field_name rows hnames hrows
    obtain rfl := Option.some.inj h
    refine ⟨_, rfl, ?_⟩
    have hfirst := length_repBytes_le 1 fs
    have hsecond := length_repBytes_le 2 fs
    have hshort := @length_repBytes_mono 2 _ _ (length_rows hrows)
    have hall := @length_tagged_le [8 * 1 + 2, 8 * 2 + 2] (by decide) fs
    simp only [List.map_cons, List.map_nil, List.sum_cons, List.sum_nil] at hall
    rw [map_utf8_of_mapM hnames, length_writeFields_append]
    omega
  · cases h

/-- **What is read can be written,** in no more bytes.  So what a runtime has read it can also
serialise within the limit, as the laws of a runtime ask. -/
theorem parse_writesWithin {szName : String} {fs : List Field} {m : Message}
    (h : parse szName fs = some m) : WritesWithin fs m := by
  unfold parse at h
  split at h
  · exact key_parse_writesWithin (fun id table_name hid => by
      rw [SerializeWithCachedSizes, if_pos hid]) h
  split at h
  · exact key_parse_writesWithin (fun id table_name hid => by
      rw [SerializeWithCachedSizes, if_pos hid]) h
  split at h
  · exact query_command_parse_writesWithin h
  split at h
  · exact call_command_parse_writesWithin h
  split at h
  · obtain rfl := Option.some.inj h
    exact ⟨[], rfl, Nat.zero_le _⟩
  split at h
  · exact flush_command_parse_writesWithin h
  split at h
  · exact result_set_parse_writesWithin h
  · cases h

end Proto

/-! ## A runtime with these classes -/

/-- The generated pool has the type. -/
def Proto.IsGenerated (szName : String) : Prop := szName ∈ Proto.types.map Descriptor.full_name

instance (szName : String) : Decidable (Proto.IsGenerated szName) :=
  inferInstanceAs (Decidable (_ ∈ _))

/-- A row, or rows, of types that the generated pool does not have. -/
def Message.IsImported : Message → Prop
  | .row m => ¬ Proto.IsGenerated m.GetTypeName
  | .rowSet szName data_set =>
      ¬ Proto.IsGenerated szName ∧ ∀ m ∈ data_set, ¬ Proto.IsGenerated m.GetTypeName
  | _ => False

instance : ∀ m : Message, Decidable m.IsImported
  | .row m => inferInstanceAs (Decidable (¬ Proto.IsGenerated m.GetTypeName))
  | .rowSet szName data_set => inferInstanceAs (Decidable
      (¬ Proto.IsGenerated szName ∧ ∀ m ∈ data_set, ¬ Proto.IsGenerated m.GetTypeName))
  | .select_command .. | .delete_command .. | .query_command .. | .call_command ..
  | .nop_command | .flush_command .. | .result_set .. => inferInstanceAs (Decidable False)

namespace Runtime

variable (pb : Runtime)

/-- The runtime with the generated classes besides the types that were imported.  A message of
theirs that is longer than a parser takes is not one that comes through: it counts as one that
cannot be serialised. -/
def withCommands : Runtime :=
  { pb with
    FindMessageTypeByName := fun szName =>
      (Proto.types.find? fun d => d.full_name = szName).or (pb.FindMessageTypeByName szName)
    SerializeToString := fun m =>
      if m.IsImported then pb.SerializeToString m
      else ((Proto.SerializeWithCachedSizes m).map writeFields).filter fun szData =>
        szData.length ≤ totalBytesLimit
    ParseFromString := fun szName szData =>
      if Proto.IsGenerated szName then (parseMessage szData).bind (Proto.parse szName)
      else (pb.ParseFromString szName szData).filter fun m => m.IsImported }

variable {pb}

/-- A type that the generated pool does not have is looked up in the other one. -/
theorem withCommands_find {szName : String} (h : ¬ Proto.IsGenerated szName) :
    pb.withCommands.FindMessageTypeByName szName = pb.FindMessageTypeByName szName := by
  have hnone : Proto.types.find? (fun d => d.full_name = szName) = none := by
    refine List.find?_eq_none.mpr fun d hin => ?_
    simpa using fun heq => h (List.mem_map.mpr ⟨d, hin, heq⟩)
  simp [withCommands, hnone]

/-- The imported types are known to the runtime with the generated classes as they were without.
-/
theorem withCommands_knows {m : Message} (himported : m.IsImported)
    (h : pb.withCommands.Knows m) : pb.Knows m := by
  cases m with
  | row m =>
      have hfind : pb.withCommands.FindMessageTypeByName m.GetTypeName = some m.descriptor := h
      rwa [withCommands_find himported] at hfind
  | rowSet szName data_set =>
      obtain ⟨hname, hrows⟩ := himported
      have hset : (pb.withCommands.FindMessageTypeByName szName).isSome := h.1
      rw [withCommands_find hname] at hset
      refine ⟨hset, fun m hin => ?_⟩
      have hfind : pb.withCommands.FindMessageTypeByName m.GetTypeName = some m.descriptor :=
        h.2 m hin
      rwa [withCommands_find (hrows m hin)] at hfind
  | _ => exact himported.elim

/-- A message of a generated class is not imported. -/
theorem generated_of_fields {m : Message} {fs : List Field}
    (h : Proto.SerializeWithCachedSizes m = some fs) :
    ¬ m.IsImported ∧ Proto.IsGenerated m.GetTypeName := by
  cases m with
  | row m => cases h
  | rowSet szName data_set => cases h
  | _ => exact ⟨id, by simp only [Message.GetTypeName]; decide⟩

/-- The name of an imported message's type is not one of the generated ones. -/
theorem not_generated_of_imported {m : Message} (h : m.IsImported) :
    ¬ Proto.IsGenerated m.GetTypeName := by
  cases m with
  | row m => exact h
  | rowSet szName data_set => exact h.1
  | _ => exact h.elim

/-- A message of a generated class is serialised as its fields, up to the limit. -/
theorem withCommands_serialize {m : Message} {fs : List Field}
    (h : Proto.SerializeWithCachedSizes m = some fs)
    (hlength : (writeFields fs).length ≤ totalBytesLimit) :
    pb.withCommands.SerializeToString m = some (writeFields fs) := by
  simp [withCommands, (generated_of_fields h).1, h, hlength]

/-- It is read from every text that is alike in the tags of its class.  The limit keeps what the
rows of a `result_set` count within an `int`. -/
theorem withCommands_parse {m : Message} {fs fs' : List Field} {text : Bytes}
    (h : Proto.SerializeWithCachedSizes m = some fs) (hread : parseMessage text = some fs')
    (halike : Alike (Proto.tags m) fs' fs) :
    pb.withCommands.ParseFromString m.GetTypeName text = some m := by
  obtain ⟨hlength, hfields⟩ := length_le_of_parseMessage hread
  have hint : totalBytesLimit < 2 ^ 31 := by decide
  have hwritten := length_writeFields_of_readFields hfields
  simp [withCommands, (generated_of_fields h).2, hread,
    Proto.read_back h halike (by omega)]

/-- A message is read back from what it is serialised to. -/
theorem withCommands_parse_serialize {m : Message} {fs : List Field}
    (h : Proto.SerializeWithCachedSizes m = some fs)
    (hlength : (writeFields fs).length ≤ totalBytesLimit) :
    pb.withCommands.ParseFromString m.GetTypeName (writeFields fs) = some m :=
  withCommands_parse h (parseMessage_writeFields (Proto.serialize_fits h) hlength) fun _ _ => rfl

/-- **The laws are kept.** The two pools share no name, so each law is that of one of the two
sides: the runtime given, for imported types, or the parser and the writer above. -/
theorem withCommands_lawful (hpb : pb.Lawful) : pb.withCommands.Lawful where
  full_name := by
    intro szName d h
    cases hfind : Proto.types.find? (fun d => d.full_name = szName) with
    | none =>
        simp only [withCommands, hfind, Option.none_or] at h
        exact hpb.full_name szName d h
    | some d' =>
        simp only [withCommands, hfind, Option.some_or, Option.some.injEq] at h
        subst h
        simpa using List.find?_some hfind
  empty_name := by
    rw [withCommands_find (by decide)]
    exact hpb.empty_name
  parse_serialize := by
    intro m b hknows hdata
    by_cases himported : m.IsImported
    · have hserialize : pb.SerializeToString m = some b := by
        simpa [withCommands, himported] using hdata
      have hparse := hpb.parse_serialize m b (withCommands_knows himported hknows) hserialize
      simp [withCommands, not_generated_of_imported himported, hparse, himported]
    · have hserialize : ((Proto.SerializeWithCachedSizes m).map writeFields).filter
          (fun szData => szData.length ≤ totalBytesLimit) = some b := by
        simpa only [withCommands, himported, if_false] using hdata
      simp only [Option.filter_eq_some_iff, decide_eq_true_eq] at hserialize
      obtain ⟨hwritten, hlength⟩ := hserialize
      obtain ⟨fs, hfs, rfl⟩ := Option.map_eq_some_iff.mp hwritten
      exact withCommands_parse_serialize hfs hlength
  serialize_parse := by
    intro szName b m h
    by_cases hgenerated : Proto.IsGenerated szName
    · simp only [withCommands, hgenerated, if_true, Option.bind_eq_some_iff] at h
      obtain ⟨fs, hread, hparse⟩ := h
      obtain ⟨hlength, hfields⟩ := length_le_of_parseMessage hread
      obtain ⟨fs', hfs', hshort⟩ := Proto.parse_writesWithin hparse
      have hwritten := length_writeFields_of_readFields hfields
      simp [withCommands_serialize hfs' (hshort.trans (hwritten.trans hlength))]
    · simp only [withCommands, hgenerated, if_false, Option.filter_eq_some_iff,
        decide_eq_true_eq] at h
      obtain ⟨hparse, himported⟩ := h
      simpa [withCommands, himported] using hpb.serialize_parse szName b m hparse

/-- **The messages that come through:** those of the generated classes whose numbers lie in the
types of their fields, up to the limit. -/
theorem withCommands_carries {m : Message} {fs : List Field}
    (h : Proto.SerializeWithCachedSizes m = some fs)
    (hlength : (writeFields fs).length ≤ totalBytesLimit) : pb.withCommands.Carries m := by
  refine ⟨?_, writeFields fs, withCommands_serialize h hlength,
    withCommands_parse_serialize h hlength⟩
  have hgenerated := (generated_of_fields h).2
  obtain ⟨d, hin, hname⟩ := List.mem_map.mp hgenerated
  have hfound : (Proto.types.find? fun d => d.full_name = m.GetTypeName).isSome :=
    List.find?_isSome.mpr ⟨d, hin, by simpa using hname⟩
  simp [withCommands, hfound]

end Runtime

/-- **The generated messages are read back.**  A runtime that reads the rows of tables lawfully
does so with the generated classes added.  A message of these classes is serialised if it is no
longer than the limit, and it comes back from every well-formed text that has its fields, in
whatever order and among whatever other fields; and what is written of fields that fit, whatever
their wire types, is well formed up to the limit. -/
theorem generated_messages_read_back {pb : Runtime} (hpb : pb.Lawful) :
    pb.withCommands.Lawful ∧
      ∀ m fs, Proto.SerializeWithCachedSizes m = some fs →
        ((writeFields fs).length ≤ totalBytesLimit →
          pb.withCommands.SerializeToString m = some (writeFields fs)) ∧
        (∀ text fs', parseMessage text = some fs' → Alike (Proto.tags m) fs' fs →
          pb.withCommands.ParseFromString m.GetTypeName text = some m) ∧
        ∀ fs', (∀ f ∈ fs', f.Fits recursionLimit) →
          (writeFields fs').length ≤ totalBytesLimit → Alike (Proto.tags m) fs' fs →
          pb.withCommands.ParseFromString m.GetTypeName (writeFields fs') = some m :=
  ⟨Runtime.withCommands_lawful hpb, fun _ _ hfs =>
    ⟨Runtime.withCommands_serialize hfs, fun _ _ hread halike =>
      Runtime.withCommands_parse hfs hread halike, fun _ hfits hlength halike =>
      Runtime.withCommands_parse hfs (parseMessage_writeFields hfits hlength) halike⟩⟩

/-- A QUERY with two arguments, from a peer that writes the fields backwards and has four more: a
number, four bytes, a group with a field of eight bytes, and a number under the number of the
table name. -/
theorem generated_messages_read_back_query :
    PlayerBase.runtime.withCommands.ParseFromString "proto.db.query_command"
        (writeFields [⟨3, .bytes [39]⟩, ⟨9, .varint 7⟩, ⟨10, .other 5 [1, 2, 3, 4]⟩,
          ⟨3, .bytes [0, 63]⟩, ⟨11, .other 3 [97, 1, 2, 3, 4, 5, 6, 7, 8, 92]⟩,
          ⟨1, .varint 5⟩, ⟨2, .bytes [63]⟩, ⟨1, .bytes (utf8 "player_base")⟩]) =
      some (.query_command "player_base" [63] [[39], [0, 63]]) :=
  ((generated_messages_read_back PlayerBase.runtime_lawful).2
    (.query_command "player_base" [63] [[39], [0, 63]]) _ rfl).2.2 _
    (by decide) (by decide) (show ∀ tag ∈ [10, 18, 26], _ by decide)

/-! ## The runtime of the test program -/

/-- The runtime of the test program, with the generated classes. -/
def testRuntime : Runtime := PlayerBase.runtime.withCommands

/-- The test program's runtime keeps the laws, so the witnesses that use it are about lawful runs.
-/
theorem testRuntime_lawful : testRuntime.Lawful :=
  Runtime.withCommands_lawful PlayerBase.runtime_lawful

/-- What a new proxy sends for an operation, if it sends anything, and the push of its command. -/
def requestOf {n : Nat} (action : ProxyAction) : List (MgrAction n) :=
  (CDbProxy.init.step testRuntime action).2.toList.flatMap fun pRequest =>
    [.query 0 0 pRequest 1, .push 0]

end Db
