import DbService.ArgumentInjection
import DbService.SqlReader

/-!
# The texts of INSERT and UPDATE (`db_command_insert_handler.cpp`, `db_command_update_handler.cpp`)

Three loops write the statements: one over the names, one over the literals, and in UPDATE one
over the assignments.  They run over the same columns, so what is read from the text is the table,
the fields that are set and their values, in the order of the descriptor.

* `insertText_reads`, `upsertText_lex` -- the tokens of the texts;
* `row_statements_denote_message` -- so the texts say what the message says.
-/

namespace Db

open Reflection ByteText SqlText

/-! ## The texts -/

/-- The loops over the columns: `i` counts them, and all but the first have a comma in front. -/
def listed (write : SFieldInfo → Bytes) : Nat → List SFieldInfo → Bytes
  | _, [] => []
  | i, sFieldInfo :: rest =>
      (if i ≠ 0 then utf8 "," else []) ++ write sFieldInfo ++ listed write (i + 1) rest

/-- `szInsertClause` -/
def insertClause (escape : Bytes → Bytes) (vecFieldInfo : List SFieldInfo) : Bytes :=
  utf8 "(" ++ listed (fun sFieldInfo => utf8 sFieldInfo.szName) 0 vecFieldInfo ++
    utf8 ") values (" ++ listed (SFieldInfo.literal escape) 0 vecFieldInfo ++ utf8 ")"

/-- `szUpdateClause` -/
def updateClause (escape : Bytes → Bytes) (vecFieldInfo : List SFieldInfo) : Bytes :=
  listed (fun sFieldInfo => utf8 sFieldInfo.szName ++ utf8 "=" ++ sFieldInfo.literal escape) 0
    vecFieldInfo

/-- The text of an INSERT. -/
def insertText (escape : Bytes → Bytes) (szTableName : String)
    (vecFieldInfo : List SFieldInfo) : Bytes :=
  utf8 "insert into " ++ utf8 szTableName ++ insertClause escape vecFieldInfo

/-- The text of an UPDATE, which is an INSERT with assignments. -/
def upsertText (escape : Bytes → Bytes) (szTableName : String)
    (vecFieldInfo : List SFieldInfo) : Bytes :=
  insertText escape szTableName vecFieldInfo ++ utf8 " on duplicate key update " ++
    updateClause escape vecFieldInfo

/-- What SELECT and DELETE put in front of the id, and behind it. -/
def whereHead (szCommand szTableName szPrimaryName : String) : Bytes :=
  utf8 szCommand ++ utf8 szTableName ++ utf8 " where " ++ utf8 szPrimaryName ++ utf8 "="

/-- What stands behind the key. -/
def whereTail : Bytes := utf8 " limit 1"

/-- The literal of the id, a `uint64_t`. -/
def idLiteral (nID : Nat) : Bytes := decimalNat nID

/-- The text of a SELECT. -/
def selectText (szTableName szPrimaryName : String) (nID : Nat) : Bytes :=
  whereHead "select * from " szTableName szPrimaryName ++ idLiteral nID ++ whereTail

/-- The text of a DELETE. -/
def deleteText (szTableName szPrimaryName : String) (nID : Nat) : Bytes :=
  whereHead "delete from " szTableName szPrimaryName ++ idLiteral nID ++ whereTail

/-- The text of a statement on one row. -/
def Statement.rowText (escape : Bytes → Bytes) : Statement → Option Bytes
  | .selectRow szTableName szPrimaryName nID =>
      some (selectText szTableName szPrimaryName nID)
  | .deleteRow szTableName szPrimaryName nID =>
      some (deleteText szTableName szPrimaryName nID)
  | .insertRow szTableName vecFieldInfo => some (insertText escape szTableName vecFieldInfo)
  | .upsertRow szTableName vecFieldInfo => some (upsertText escape szTableName vecFieldInfo)
  | _ => none

/-- The handler answers a request with one statement on one row, whose text is `text`. -/
def SendsRow {σ : Type} (srv : Server σ)
    (onDbCommand : Message → CDbConnection σ → EResultCode × Option Message × CDbConnection σ)
    (pRequest : Message) (conn : CDbConnection σ) (text : Bytes) : Prop :=
  ∃ stmt reply, (onDbCommand pRequest conn).2.2.trace = conn.trace ++ [.sql stmt reply] ∧
    stmt.rowText (CDbConnection.escape srv) = some text

/-- Behind the first column each has a comma in front. -/
theorem listed_later (write : SFieldInfo → Bytes) {i : Nat} (hi : i ≠ 0)
    (vecFieldInfo : List SFieldInfo) :
    listed write i vecFieldInfo =
      vecFieldInfo.flatMap fun sFieldInfo => 44 :: write sFieldInfo := by
  induction vecFieldInfo generalizing i with
  | nil => rfl
  | cons sFieldInfo rest ih =>
      have hcomma : utf8 "," = [44] := by decide
      rw [listed, if_pos hi, hcomma, ih (by omega)]
      rfl

/-- The loops write the columns with commas between them. -/
theorem listed_eq (write : SFieldInfo → Bytes) (vecFieldInfo : List SFieldInfo) :
    listed write 0 vecFieldInfo = separated 44 (vecFieldInfo.map write) := by
  have hlater : ∀ part rest, separated 44 (part :: rest) =
      part ++ rest.flatMap fun next => (44 : UInt8) :: next := by
    intro part rest
    induction rest generalizing part with
    | nil => simp [separated]
    | cons next rest ih => simp [separated, ih next]
  cases vecFieldInfo with
  | nil => rfl
  | cons sFieldInfo rest =>
      rw [listed, if_neg (by simp), listed_later write (by simp), List.map_cons, hlater,
        List.flatMap_map]
      rfl

/-! ## Names -/

/-- The names protobuf allows: letters, digits and underscores, with the dots of a full name. -/
structure ProtoName (s : String) : Prop where
  nonempty : s ≠ ""
  chars : ∀ c ∈ s.toList, c.isAlphanum = true ∨ c = '_' ∨ c = '.'

theorem ProtoName.of_all {s : String} (hne : s ≠ "")
    (hall : s.toList.all (fun c => c.isAlphanum || c == '_' || c == '.') = true) : ProtoName s :=
  ⟨hne, by simpa [or_assoc] using hall⟩

/-- Each of these characters is one byte, and one of a word. -/
theorem isWordByte_of_protoChar {c : Char} (hc : c.isAlphanum = true ∨ c = '_' ∨ c = '.') :
    ∃ b, String.utf8EncodeChar c = [b] ∧ isWordByte b = true := by
  rcases hc with hc | rfl | rfl
  · have hrange : 48 ≤ c.toNat ∧ c.toNat ≤ 57 ∨ 65 ≤ c.toNat ∧ c.toNat ≤ 90 ∨
        97 ≤ c.toNat ∧ c.toNat ≤ 122 := by
      unfold Char.isAlphanum Char.isAlpha Char.isUpper Char.isLower Char.isDigit at hc
      simp only [Bool.or_eq_true, Bool.and_eq_true, decide_eq_true_eq, ge_iff_le,
        UInt32.le_iff_toNat_le] at hc
      have hval : c.toNat = c.val.toNat := rfl
      have hends : 'A'.val.toNat = 65 ∧ 'Z'.val.toNat = 90 ∧ 'a'.val.toNat = 97 ∧
        'z'.val.toNat = 122 ∧ '0'.val.toNat = 48 ∧ '9'.val.toNat = 57 := by decide
      omega
    refine ⟨UInt8.ofNat c.toNat, ?_, ?_⟩
    · have hval : c.toNat = c.val.toNat := rfl
      have hsmall : c.val.toNat ≤ 0x7f := by omega
      rw [String.utf8EncodeChar, if_pos hsmall]
      rfl
    · have hbyte : (UInt8.ofNat c.toNat).toNat = c.toNat := by
        simp only [UInt8.toNat_ofNat']
        omega
      simp only [isWordByte, isDigit, Bool.or_eq_true, Bool.and_eq_true, decide_eq_true_eq,
        beq_iff_eq, UInt8.le_iff_toNat_le, hbyte]
      have hends : (48 : UInt8).toNat = 48 ∧ (57 : UInt8).toNat = 57 ∧ (65 : UInt8).toNat = 65 ∧
        (90 : UInt8).toNat = 90 ∧ (97 : UInt8).toNat = 97 ∧ (122 : UInt8).toNat = 122 := by decide
      omega
  · exact ⟨95, by decide, by decide⟩
  · exact ⟨46, by decide, by decide⟩

/-- So a name that protobuf allows is a word of SQL. -/
theorem ProtoName.isWord {s : String} (h : ProtoName s) : IsWord (utf8 s) := by
  have hchars : ∀ c ∈ s.toList, ∃ b, String.utf8EncodeChar c = [b] ∧ isWordByte b = true :=
    fun c hc => isWordByte_of_protoChar (h.chars c hc)
  refine ⟨?_, ?_⟩
  · have hne : s.toList ≠ [] := by
      intro hnil
      exact h.nonempty (by simpa using hnil)
    obtain ⟨c, rest, hlist⟩ := List.exists_cons_of_ne_nil hne
    obtain ⟨b, hb, -⟩ := hchars c (hlist ▸ List.mem_cons_self)
    simp [utf8, hlist, hb]
  · intro b hb
    obtain ⟨c, hc, hin⟩ := List.mem_flatMap.mp hb
    obtain ⟨b', hencode, hword⟩ := hchars c hc
    rw [hencode, List.mem_singleton] at hin
    exact hin ▸ hword

/-! ## Columns -/

/-- Optional integers of any kind, strings, bytes, and sub-messages with a serialize type. -/
structure WriteField (f : FieldDescriptor) : Prop where
  optional : f.label = .LABEL_OPTIONAL
  type : isInteger f.type = true ∨ f.type = .TYPE_STRING ∨ f.type = .TYPE_BYTES ∨
    f.type = .TYPE_MESSAGE ∧
      (f.serialize_type = eST_Protobuf_Bin ∨ f.serialize_type = eST_Json)

/-- The fields that are set, in the order of the descriptor. -/
def setFields (m : RowMessage) : List FieldDescriptor := m.descriptor.fields.filter m.HasField

/-- The sub-messages that are set can be serialised. -/
def Serialises (pb : Runtime) (m : RowMessage) : Prop :=
  ∀ f ∈ m.descriptor.fields, ∀ sub, m.value f.name = some (.message sub) →
    (getSubMessageText pb f sub).isSome

/-- The value of a field as a literal: an integer is itself, a text its bytes, and a sub-message
the bytes it is serialised to. -/
def fieldLiteral (pb : Runtime) (f : FieldDescriptor) : Value → Literal
  | .int z => .int z
  | .bytes s => .text s
  | .message sub => .text ((getSubMessageText pb f sub).getD [])
  | .real _ => .text []

/-- The INSERT that says what the message says. -/
def insertOf (pb : Runtime) (szTableName : String) (m : RowMessage) : Insert where
  table := utf8 szTableName
  columns := (setFields m).map fun f => utf8 f.name
  values := (setFields m).map fun f => fieldLiteral pb f (m.Get f)

/-- The INSERT, with an assignment for each of its columns. -/
def upsertOf (pb : Runtime) (szTableName : String) (m : RowMessage) : Upsert where
  insert := insertOf pb szTableName m
  assignments := (setFields m).map fun f => (utf8 f.name, fieldLiteral pb f (m.Get f))

section Columns

variable {pb : Runtime} {m : RowMessage} {f : FieldDescriptor} {v : Value}

/-- **A column is made of a field exactly if its sub-message can be serialised**, and the literal
of the column is the one of the value. -/
theorem getFieldInfo_writeField (hf : WriteField f) (hfits : v.fits f.type = true) :
    ((getFieldInfo pb f v).isSome ↔
      ∀ sub, v = .message sub → (getSubMessageText pb f sub).isSome) ∧
    ∀ sFieldInfo, getFieldInfo pb f v = some sFieldInfo →
      sFieldInfo.szName = f.name ∧
        sFieldInfo.literal SqlText.escape = (fieldLiteral pb f v).print := by
  rcases hf.type with htype | htype | htype | ⟨htype, -⟩
  · obtain ⟨z, rfl, _⟩ := fits_integer htype hfits
    rw [getFieldInfo_integer pb htype]
    refine ⟨by simp, fun sFieldInfo hinfo => ?_⟩
    rw [Option.some.injEq] at hinfo
    subst hinfo
    exact ⟨rfl, rfl⟩
  · cases v <;> simp [htype, Value.fits] at hfits
    refine ⟨by simp [getFieldInfo, htype, getBasicTypeFieldValue], fun sFieldInfo hinfo => ?_⟩
    simp only [getFieldInfo, htype, getBasicTypeFieldValue, Option.map_some,
      Option.some.injEq] at hinfo
    subst hinfo
    exact ⟨rfl, rfl⟩
  · cases v <;> simp [htype, Value.fits] at hfits
    refine ⟨by simp [getFieldInfo, htype, getBasicTypeFieldValue], fun sFieldInfo hinfo => ?_⟩
    simp only [getFieldInfo, htype, getBasicTypeFieldValue, Option.map_some,
      Option.some.injEq] at hinfo
    subst hinfo
    exact ⟨rfl, rfl⟩
  · cases v <;> simp [htype, Value.fits] at hfits
    refine ⟨by simp [getFieldInfo, htype], fun sFieldInfo hinfo => ?_⟩
    simp only [getFieldInfo, htype, Option.map_eq_some_iff] at hinfo
    obtain ⟨szBuf, htext, rfl⟩ := hinfo
    exact ⟨rfl, by simp [SFieldInfo.literal, fieldLiteral, htext, Literal.print]⟩

/-- The columns, one for each field that is set. -/
theorem fieldInfosFrom_columns {fields : List FieldDescriptor}
    (hfields : ∀ f ∈ fields, WriteField f ∧ f ∈ m.descriptor.fields) :
    ((fieldInfosFrom pb m fields).isSome ↔
      ∀ f ∈ fields, ∀ sub, m.value f.name = some (.message sub) →
        (getSubMessageText pb f sub).isSome) ∧
    ∀ vecFieldInfo, fieldInfosFrom pb m fields = some vecFieldInfo →
      List.Forall₂ (fun f sFieldInfo => sFieldInfo.szName = f.name ∧
          sFieldInfo.literal SqlText.escape = (fieldLiteral pb f (m.Get f)).print)
        (fields.filter m.HasField) vecFieldInfo := by
  induction fields with
  | nil => exact ⟨by simp [fieldInfosFrom], fun _ h => Option.some.inj h ▸ .nil⟩
  | cons f rest ih =>
      obtain ⟨⟨hf, hin⟩, hrest⟩ := List.forall_mem_cons.mp hfields
      obtain ⟨hmade, hcolumns⟩ := ih hrest
      have hlabel : ¬ f.label ≠ .LABEL_OPTIONAL := by simp [hf.optional]
      rw [fieldInfosFrom, if_neg hlabel]
      cases hv : m.value f.name with
      | none =>
          have hunset : m.HasField f = false := by simp [RowMessage.HasField, hv]
          refine ⟨?_, ?_⟩
          · rw [hmade, List.forall_mem_cons]
            simp [hv]
          · rw [List.filter_cons_of_neg (by simp [hunset])]
            exact hcolumns
      | some v =>
          have hset : m.HasField f = true := by simp [RowMessage.HasField, hv]
          have hget : m.Get f = v := by simp [RowMessage.Get, hv]
          have hfits : v.fits f.type = true := by
            have haccepted := m.accepted f.name v hv
            simpa [Descriptor.accepts, FindFieldByName_of_mem hin] using haccepted
          obtain ⟨hone, hcolumn⟩ := @getFieldInfo_writeField pb f v hf hfits
          refine ⟨?_, ?_⟩
          · rw [List.forall_mem_cons, ← hmade]
            simp only [hv, Option.some.injEq]
            rw [← hone]
            cases getFieldInfo pb f v <;> cases fieldInfosFrom pb m rest <;> simp
          · intro vecFieldInfo hvec
            rw [List.filter_cons_of_pos hset]
            cases hinfo : getFieldInfo pb f v with
            | none => simp [hinfo] at hvec
            | some sFieldInfo =>
                cases hinfos : fieldInfosFrom pb m rest with
                | none => simp [hinfo, hinfos] at hvec
                | some infos =>
                    simp only [hinfo, hinfos, Option.some.injEq] at hvec
                    subst hvec
                    exact .cons (hget ▸ hcolumn sFieldInfo hinfo) (hcolumns infos hinfos)

/-! ## Reading the texts -/

variable {szTableName : String} {vecFieldInfo : List SFieldInfo}

/-- The columns carry the names and the literals of the fields that are set. -/
abbrev Carried (pb : Runtime) (m : RowMessage) (vecFieldInfo : List SFieldInfo) : Prop :=
  List.Forall₂ (fun f sFieldInfo => sFieldInfo.szName = f.name ∧
      sFieldInfo.literal SqlText.escape = (fieldLiteral pb f (m.Get f)).print)
    (setFields m) vecFieldInfo

/-- What the loops write of each column is what they would write of its field. -/
theorem Carried.map {α : Type} (h : Carried pb m vecFieldInfo) (write : SFieldInfo → α)
    (field : FieldDescriptor → α)
    (hwrite : ∀ f sFieldInfo, sFieldInfo.szName = f.name →
      sFieldInfo.literal SqlText.escape = (fieldLiteral pb f (m.Get f)).print →
      write sFieldInfo = field f) :
    vecFieldInfo.map write = (setFields m).map field := by
  unfold Carried at h
  generalize setFields m = fields at h ⊢
  induction h with
  | nil => rfl
  | cons hcolumn _ ih => rw [List.map_cons, List.map_cons, ih, hwrite _ _ hcolumn.1 hcolumn.2]

/-- **The text of INSERT** is split into the tokens of the statement the message stands for. -/
theorem insertText_reads (h : Carried pb m vecFieldInfo) (htable : ProtoName szTableName)
    (hnames : ∀ f ∈ m.descriptor.fields, ProtoName f.name) (hset : setFields m ≠ []) :
    Reads (insertText SqlText.escape szTableName vecFieldInfo)
      (insertOf pb szTableName m).tokens := by
  have hnamed : ∀ f ∈ setFields m, IsWord (utf8 f.name) :=
    fun f hf => (hnames f (List.mem_filter.mp hf).1).isWord
  have hhead : Reads (utf8 "insert into ")
      [.word (keyword "insert"), .word (keyword "into")] := by decide
  have hopen : Delimits 40 [.mark 40] := by decide
  have hcolumns : Reads (separated 44 ((setFields m).map fun f => utf8 f.name) ++ [41])
      (separated (.mark 44) ((setFields m).map fun f => [.word (utf8 f.name)]) ++ [.mark 41]) :=
    reads_separated hset (fun f hf _ _ hb => (hnamed f hf).reads hb) delimits_close
  have hbetween : Reads (utf8 " values (") [.word (keyword "values"), .mark 40] := by decide
  have hvalues : Reads
      (separated 44 ((setFields m).map fun f => (fieldLiteral pb f (m.Get f)).print) ++ [41])
      (separated (.mark 44) ((setFields m).map fun f => (fieldLiteral pb f (m.Get f)).tokens) ++
        [.mark 41]) :=
    reads_separated hset (fun f _ _ _ hb => (fieldLiteral pb f (m.Get f)).reads hb) delimits_close
  have hall := hhead.append ((htable.isWord.reads hopen).append
    (hcolumns.append (hbetween.append hvalues)))
  have hclause : utf8 ") values (" = 41 :: utf8 " values (" := by decide
  have hbracket : utf8 "(" = [40] ∧ utf8 ")" = [41] := by decide
  have htext : insertText SqlText.escape szTableName vecFieldInfo =
      utf8 "insert into " ++ (utf8 szTableName ++ [40] ++
        (separated 44 ((setFields m).map fun f => utf8 f.name) ++ [41] ++
          (utf8 " values (" ++
            (separated 44 ((setFields m).map fun f => (fieldLiteral pb f (m.Get f)).print) ++
              [41])))) := by
    rw [insertText, insertClause, listed_eq, listed_eq,
      h.map _ (fun f => utf8 f.name) fun _ _ hname _ => by rw [hname],
      h.map _ (fun f => (fieldLiteral pb f (m.Get f)).print) fun _ _ _ hliteral => hliteral,
      hclause, hbracket.1, hbracket.2]
    simp
  rw [htext]
  have htokens : (insertOf pb szTableName m).tokens =
      [Token.word (keyword "insert"), Token.word (keyword "into")] ++
        ([Token.word (utf8 szTableName), Token.mark 40] ++
          (separated (Token.mark 44) ((setFields m).map fun f => [Token.word (utf8 f.name)]) ++
            [Token.mark 41] ++
            ([Token.word (keyword "values"), Token.mark 40] ++
              (separated (Token.mark 44)
                ((setFields m).map fun f => (fieldLiteral pb f (m.Get f)).tokens) ++
                [Token.mark 41])))) := by
    simp [insertOf, Insert.tokens, Function.comp_def]
  rw [htokens]
  exact hall

/-- **The text of UPDATE** is the one of INSERT with the assignments behind it. -/
theorem upsertText_lex (h : Carried pb m vecFieldInfo) (htable : ProtoName szTableName)
    (hnames : ∀ f ∈ m.descriptor.fields, ProtoName f.name) (hset : setFields m ≠ []) :
    lex (plain (upsertText SqlText.escape szTableName vecFieldInfo)) =
      (upsertOf pb szTableName m).tokens := by
  have hinsert := insertText_reads h htable hnames hset
  have hbetween : Reads (utf8 " on duplicate key update ")
      [.word (keyword "on"), .word (keyword "duplicate"), .word (keyword "key"),
        .word (keyword "update")] := by decide
  have hequals : Delimits 61 [.mark 61] := by decide
  have hequalsSign : utf8 "=" = [61] := by decide
  have hassign : ∀ f ∈ setFields m,
      Reads (utf8 f.name ++ utf8 "=") [.word (utf8 f.name), .mark 61] := by
    intro f hf
    rw [hequalsSign]
    exact (hnames f (List.mem_filter.mp hf).1).isWord.reads hequals
  have hassignments : lex (plain (separated 44 ((setFields m).map fun f =>
        utf8 f.name ++ utf8 "=" ++ (fieldLiteral pb f (m.Get f)).print))) =
      separated (.mark 44) ((setFields m).map fun f =>
        assignmentTokens (utf8 f.name, fieldLiteral pb f (m.Get f))) := by
    refine lex_separated (fun f hf b tokens hb => ?_) (fun f hf => ?_)
    · have hboth := (hassign f hf).append ((fieldLiteral pb f (m.Get f)).reads hb)
      simpa [assignmentTokens] using hboth
    · have hsplit := (hassign f hf).lex (fieldLiteral pb f (m.Get f)).print
      rwa [Literal.lex_print] at hsplit
  rw [upsertText, updateClause, listed_eq, h.map _
      (fun f => utf8 f.name ++ utf8 "=" ++ (fieldLiteral pb f (m.Get f)).print)
      (fun _ _ hname hliteral => by rw [hname, hliteral]),
    (hinsert.append hbetween).lex, hassignments]
  simp [upsertOf, Upsert.tokens, Function.comp_def]

end Columns

/-! ## What the handlers send -/

section Handlers

variable {σ : Type} {pb : Runtime} {srv : Server σ} {conn : CDbConnection σ} {m : RowMessage}
  {szTableName : String}

/-- A write sends one statement, or nothing when the columns cannot be made. -/
theorem writeMessage_trace (statement : String → List SFieldInfo → Statement)
    (accepts : Nat → Bool)
    (htable : getTableNameByMessageName (Message.row m).GetTypeName = some szTableName)
    (hopen : conn.isConnect = true) :
    (writeMessage pb srv statement accepts (.row m) conn).2.2.trace =
      conn.trace ++
        match getMessageFieldInfos pb (.row m) with
        | none => []
        | some vecFieldInfo =>
            [.sql (statement szTableName vecFieldInfo)
              (srv.query conn.server (statement szTableName vecFieldInfo)).1] := by
  cases hinfos : getMessageFieldInfos pb (.row m) with
  | none => simp [writeMessage, htable, hinfos]
  | some vecFieldInfo =>
      simp only [writeMessage, htable, hinfos, CDbConnection.execute_of_isConnect srv hopen]
      split <;> rfl

/-- The texts a write sends are those of the columns that can be made. -/
theorem sendsRow_iff {statement : String → List SFieldInfo → Statement} {accepts : Nat → Bool}
    {write : String → List SFieldInfo → Bytes}
    (hwrite : ∀ szTableName vecFieldInfo,
      (statement szTableName vecFieldInfo).rowText (CDbConnection.escape srv) =
        some (write szTableName vecFieldInfo))
    (htable : getTableNameByMessageName (Message.row m).GetTypeName = some szTableName)
    (hopen : conn.isConnect = true) (text : Bytes) :
    SendsRow srv (writeMessage pb srv statement accepts) (.row m) conn text ↔
      ∃ vecFieldInfo, getMessageFieldInfos pb (.row m) = some vecFieldInfo ∧
        text = write szTableName vecFieldInfo := by
  simp only [SendsRow, writeMessage_trace statement accepts htable hopen,
    List.append_cancel_left_eq]
  cases getMessageFieldInfos pb (.row m) with
  | none => simp
  | some vecFieldInfo =>
      constructor
      · rintro ⟨stmt, reply, hevent, htext⟩
        simp only [List.cons.injEq, SqlEvent.sql.injEq, and_true] at hevent
        obtain ⟨rfl, -⟩ := hevent
        rw [hwrite, Option.some.injEq] at htext
        exact ⟨vecFieldInfo, rfl, htext.symm⟩
      · rintro ⟨vecFieldInfo', heq, rfl⟩
        obtain rfl := Option.some.inj heq
        exact ⟨_, _, rfl, hwrite ..⟩

/-- **INSERT and UPDATE say what the message says.**  For a message with a field set, whose fields
are optional integers, strings, bytes or sub-messages with a serialize type, both handlers send a
statement exactly if the sub-messages that are set can be serialised; and the text of it reads as
the table, the names of the fields that are set in the order of the descriptor, and the literals
of their values at the same places, in UPDATE with the same names and values as assignments. -/
theorem row_statements_denote_message (hescape : srv.escape = SqlText.escape)
    (htable : getTableNameByMessageName m.GetTypeName = some szTableName)
    (hname : ProtoName szTableName) (hnames : ∀ f ∈ m.descriptor.fields, ProtoName f.name)
    (hfields : ∀ f ∈ m.descriptor.fields, WriteField f)
    (hset : ∃ f ∈ m.descriptor.fields, m.HasField f = true) (hopen : conn.isConnect = true) :
    (((∃ text, SendsRow srv (CDbCommandInsertHandler.onDbCommand pb srv) (.row m) conn text) ↔
        Serialises pb m) ∧
      ∀ text, SendsRow srv (CDbCommandInsertHandler.onDbCommand pb srv) (.row m) conn text →
        readInsert text = some (insertOf pb szTableName m)) ∧
    (((∃ text, SendsRow srv (CDbCommandUpdateHandler.onDbCommand pb srv) (.row m) conn text) ↔
        Serialises pb m) ∧
      ∀ text, SendsRow srv (CDbCommandUpdateHandler.onDbCommand pb srv) (.row m) conn text →
        readUpsert text = some (upsertOf pb szTableName m)) := by
  have hlibrary := escape_of_library hescape
  have hwritten : ∀ f ∈ m.descriptor.fields, WriteField f ∧ f ∈ m.descriptor.fields :=
    fun f hf => ⟨hfields f hf, hf⟩
  obtain ⟨hmade, hcolumns⟩ := @fieldInfosFrom_columns pb m _ hwritten
  have hne : setFields m ≠ [] := by
    obtain ⟨f, hf, hhas⟩ := hset
    exact List.ne_nil_of_mem (List.mem_filter.mpr ⟨hf, hhas⟩)
  have hsent : ∀ write : String → List SFieldInfo → Bytes,
      (∃ text, ∃ vecFieldInfo, getMessageFieldInfos pb (.row m) = some vecFieldInfo ∧
        text = write szTableName vecFieldInfo) ↔ Serialises pb m := by
    intro write
    refine Iff.trans ?_ (Option.isSome_iff_exists.symm.trans hmade)
    exact ⟨fun ⟨_, vecFieldInfo, hinfos, _⟩ => ⟨vecFieldInfo, hinfos⟩,
      fun ⟨vecFieldInfo, hinfos⟩ => ⟨_, vecFieldInfo, hinfos, rfl⟩⟩
  have hinsert : ∀ text,
      SendsRow srv (CDbCommandInsertHandler.onDbCommand pb srv) (.row m) conn text ↔
        ∃ vecFieldInfo, getMessageFieldInfos pb (.row m) = some vecFieldInfo ∧
          text = insertText SqlText.escape szTableName vecFieldInfo :=
    sendsRow_iff (fun _ _ => by rw [← hlibrary]; rfl) htable hopen
  have hupsert : ∀ text,
      SendsRow srv (CDbCommandUpdateHandler.onDbCommand pb srv) (.row m) conn text ↔
        ∃ vecFieldInfo, getMessageFieldInfos pb (.row m) = some vecFieldInfo ∧
          text = upsertText SqlText.escape szTableName vecFieldInfo :=
    sendsRow_iff (fun _ _ => by rw [← hlibrary]; rfl) htable hopen
  refine ⟨⟨?_, ?_⟩, ?_, ?_⟩
  · exact (exists_congr hinsert).trans (hsent _)
  · intro text hsends
    obtain ⟨vecFieldInfo, hinfos, rfl⟩ := (hinsert text).mp hsends
    have hreads := insertText_reads (hcolumns vecFieldInfo hinfos) hname hnames hne
    have hlex := hreads.lex []
    rw [List.append_nil] at hlex
    refine readInsert_of_lex (by simpa [insertOf] using hne) (by simpa [insertOf] using hne) ?_
    rw [hlex]
    exact List.append_nil _
  · exact (exists_congr hupsert).trans (hsent _)
  · intro text hsends
    obtain ⟨vecFieldInfo, hinfos, rfl⟩ := (hupsert text).mp hsends
    exact readUpsert_of_lex (by simpa [upsertOf, insertOf] using hne)
      (by simpa [upsertOf, insertOf] using hne) (by simpa [upsertOf] using hne)
      (upsertText_lex (hcolumns vecFieldInfo hinfos) hname hnames hne)

/-- The fields of a player can be written, -/
theorem player_writeField : ∀ f ∈ PlayerBase.player_base.fields, WriteField f := by
  intro f hf
  simp only [PlayerBase.player_base, List.mem_cons, List.not_mem_nil, or_false] at hf
  rcases hf with rfl | rfl
  · exact ⟨rfl, .inl rfl⟩
  · exact ⟨rfl, .inr (.inr (.inl rfl))⟩

/-- and have names that protobuf allows. -/
theorem player_protoName : ∀ f ∈ PlayerBase.player_base.fields, ProtoName f.name := by
  intro f hf
  simp only [PlayerBase.player_base, List.mem_cons, List.not_mem_nil, or_false] at hf
  rcases hf with rfl | rfl
  · exact .of_all (by decide) rfl
  · exact .of_all (by decide) rfl

/-- The player -5, whose name is a quote and a backslash. -/
theorem row_statements_denote_message_quotedPlayer :
    (((∃ text, SendsRow escapingServer
          (CDbCommandInsertHandler.onDbCommand setRuntime escapingServer)
          (.row (PlayerBase.player (-5) [39, 92])) ⟨true, (), 0, []⟩ text) ↔
        Serialises setRuntime (PlayerBase.player (-5) [39, 92])) ∧
      ∀ text, SendsRow escapingServer
          (CDbCommandInsertHandler.onDbCommand setRuntime escapingServer)
          (.row (PlayerBase.player (-5) [39, 92])) ⟨true, (), 0, []⟩ text →
        readInsert text = some (insertOf setRuntime "player_base"
          (PlayerBase.player (-5) [39, 92]))) ∧
    (((∃ text, SendsRow escapingServer
          (CDbCommandUpdateHandler.onDbCommand setRuntime escapingServer)
          (.row (PlayerBase.player (-5) [39, 92])) ⟨true, (), 0, []⟩ text) ↔
        Serialises setRuntime (PlayerBase.player (-5) [39, 92])) ∧
      ∀ text, SendsRow escapingServer
          (CDbCommandUpdateHandler.onDbCommand setRuntime escapingServer)
          (.row (PlayerBase.player (-5) [39, 92])) ⟨true, (), 0, []⟩ text →
        readUpsert text = some (upsertOf setRuntime "player_base"
          (PlayerBase.player (-5) [39, 92]))) :=
  row_statements_denote_message rfl (by decide) (.of_all (by decide) rfl) player_protoName
    player_writeField ⟨PlayerBase.id, List.mem_cons_self, rfl⟩ rfl

end Handlers

end Db
