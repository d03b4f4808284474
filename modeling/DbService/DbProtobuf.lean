import DbService.DbCommon

/-!
# Between messages, columns and rows (`db_protobuf.cpp`)

Fields are turned into column texts for a statement and the columns of a row are read
back into fields, one case per protobuf type.  The functions that can fail return
`none` where the source returns `false` or a null pointer.
-/

namespace Db

open Reflection ByteText

/-- `CDbRecordset`: the column names and the rows, where a cell is NULL or a buffer. -/
structure CDbRecordset where
  fieldNames : List String
  rows : List (List (Option Bytes))

namespace CDbRecordset

/-- `getRowCount` -/
def getRowCount (rs : CDbRecordset) : Nat := rs.rows.length

/-- `getData`: NULL reads as the empty string, and the caller's `std::string` is built
from a C string, so it stops at the first NUL byte. -/
def getData (cell : Option Bytes) : Bytes := cstr (cell.getD [])

end CDbRecordset

/-- One column of a statement: its name, its text, and whether the text is quoted. -/
structure SFieldInfo where
  szName : String
  szValue : Bytes
  bStr : Bool
  deriving DecidableEq

/-- The values of the option `serialize_type`: as text, -/
def eST_Json : Nat := 1
/-- and as bytes. -/
def eST_Protobuf_Bin : Nat := 2

/-- The package of the messages that are rows. -/
def DB_NAMESPACE : String := "proto.db."

/-- `getMessageNameByTableName` -/
def getMessageNameByTableName (szTableName : String) : String := DB_NAMESPACE ++ szTableName

/-- `find(szPrefix)` followed by `substr` behind the match. -/
def afterPrefix (szPrefix : List Char) : List Char → Option (List Char)
  | [] => none
  | c :: rest =>
      if szPrefix.isPrefixOf (c :: rest) then some ((c :: rest).drop szPrefix.length)
      else afterPrefix szPrefix rest

/-- `getTableNameByMessageName`, for names of the package. -/
def getTableNameByMessageName (szMessageName : String) : Option String :=
  (afterPrefix DB_NAMESPACE.toList szMessageName.toList).map String.ofList

/-- `getPrimaryName`, the empty name where the type has no key. -/
def getPrimaryName (pMessage : RowMessage) : String := pMessage.descriptor.primary_key

/-- `getPrimaryValue`: the integer held by the primary key field, converted to
`uint64_t`.  The commands have no primary key option. -/
def getPrimaryValue : Message → Option Nat
  | .row m =>
      if m.descriptor.primary_key = "" then none
      else
        match m.descriptor.FindFieldByName m.descriptor.primary_key with
        | none => none
        | some f =>
            match f.type with
            | .TYPE_INT32 | .TYPE_SINT32 | .TYPE_SFIXED32
            | .TYPE_UINT32 | .TYPE_FIXED32
            | .TYPE_INT64 | .TYPE_SINT64 | .TYPE_SFIXED64
            | .TYPE_UINT64 | .TYPE_FIXED64 => some ((m.Get f).toInt % 2 ^ 64).toNat
            | _ => none
  | _ => none

section Columns

variable (pb : Runtime)

/-- `getBasicTypeFieldValue`: the text of a value that is not a sub-message. -/
def getBasicTypeFieldValue (f : FieldDescriptor) (v : Value) : Option Bytes :=
  match f.type, v with
  | .TYPE_INT32, .int n | .TYPE_SINT32, .int n | .TYPE_SFIXED32, .int n
  | .TYPE_UINT32, .int n | .TYPE_FIXED32, .int n
  | .TYPE_INT64, .int n | .TYPE_SINT64, .int n | .TYPE_SFIXED64, .int n
  | .TYPE_UINT64, .int n | .TYPE_FIXED64, .int n => some (decimal n)
  | .TYPE_DOUBLE, .real bits | .TYPE_FLOAT, .real bits => some (pb.printReal bits)
  | .TYPE_STRING, .bytes s | .TYPE_BYTES, .bytes s => some s
  | _, _ => none

/-- `setBasicTypeFieldValue`: the value a column text is read as.  For `TYPE_FLOAT` the
source calls `SetDouble` on a float field, which protobuf treats as a fatal error. -/
def setBasicTypeFieldValue (f : FieldDescriptor) (szValue : Bytes) : Option Value :=
  match f.type with
  | .TYPE_INT32 | .TYPE_SINT32 | .TYPE_SFIXED32 => some (.int (scanSigned 32 szValue))
  | .TYPE_UINT32 | .TYPE_FIXED32 => some (.int (scanUnsigned 32 szValue))
  | .TYPE_INT64 | .TYPE_SINT64 | .TYPE_SFIXED64 => some (.int (scanSigned 64 szValue))
  | .TYPE_UINT64 | .TYPE_FIXED64 => some (.int (scanUnsigned 64 szValue))
  | .TYPE_DOUBLE => some (.real (pb.scanReal szValue))
  | .TYPE_STRING | .TYPE_BYTES => some (.bytes szValue)
  | _ => none

/-- The text of a sub-message under its serialize type. -/
def getSubMessageText (f : FieldDescriptor) (m : SubMessage) : Option Bytes :=
  if f.serialize_type = eST_Protobuf_Bin then pb.SerializeToArray m
  else if f.serialize_type = eST_Json then pb.MessageToJsonString m
  else none

/-- One round of the loop of `getMessageFieldInfos` for a field that is set. -/
def getFieldInfo (f : FieldDescriptor) (v : Value) : Option SFieldInfo :=
  match f.type, v with
  | .TYPE_MESSAGE, .message m =>
      (getSubMessageText pb f m).map fun szBuf => ⟨f.name, szBuf, true⟩
  | type, v =>
      (getBasicTypeFieldValue pb f v).map fun szValue =>
        ⟨f.name, szValue, type == .TYPE_STRING || type == .TYPE_BYTES⟩

/-- The loop of `getMessageFieldInfos` over the declared fields. -/
def fieldInfosFrom (m : RowMessage) : List FieldDescriptor → Option (List SFieldInfo)
  | [] => some []
  | f :: rest =>
      if f.label ≠ .LABEL_OPTIONAL then none
      else
        match m.value f.name with
        | none => fieldInfosFrom m rest
        | some v =>
            match getFieldInfo pb f v, fieldInfosFrom m rest with
            | some sFieldInfo, some vecFieldInfo => some (sFieldInfo :: vecFieldInfo)
            | _, _ => none

/-- `getMessageFieldInfos`.  Every command but `nop_command` declares a required or
repeated field, which the label check refuses; so does a `_set` message. -/
def getMessageFieldInfos : Message → Option (List SFieldInfo)
  | .row m => fieldInfosFrom pb m m.descriptor.fields
  | .nop_command => some []
  | _ => none

/-- `setFieldValue`: the value a column text gives a field. -/
def setFieldValue (f : FieldDescriptor) (szValue : Bytes) : Option Value :=
  if f.label ≠ .LABEL_OPTIONAL then none
  else
    match f.type with
    | .TYPE_MESSAGE =>
        if f.serialize_type = eST_Protobuf_Bin then
          (pb.ParseSubMessage f.message_type szValue).map .message
        else if f.serialize_type = eST_Json then
          (pb.JsonStringToMessage f.message_type szValue).map .message
        else none
    | _ => setBasicTypeFieldValue pb f szValue

/-- The loop over the columns of one row that both decoders share. -/
def fillRow : List (String × Option Bytes) → RowMessage → Option RowMessage
  | [], m => some m
  | (szFieldName, cell) :: rest, m =>
      match m.descriptor.FindFieldByName szFieldName with
      | none => none
      | some f =>
          match setFieldValue pb f (CDbRecordset.getData cell) with
          | none => none
          | some v => fillRow rest (m.Set f.name v)

/-- `fillNormalMessage`: a recordset of at most one row read into a new message; no row
leaves the message as it is. -/
def fillNormalMessage (rs : CDbRecordset) (m : RowMessage) : Option RowMessage :=
  match rs.rows with
  | [] => some m
  | [row] => fillRow pb (rs.fieldNames.zip row) m
  | _ => none

/-- The rows of a `_set` message, each read into a new element. -/
def fillRows (fieldNames : List String) (d : Descriptor) :
    List (List (Option Bytes)) → Option (List RowMessage)
  | [] => some []
  | row :: rest =>
      match fillRow pb (fieldNames.zip row) (RowMessage.New d), fillRows fieldNames d rest with
      | some m, some ms => some (m :: ms)
      | _, _ => none

/-- `createRepeatMessage`: the `_set` type must declare exactly one field, a repeated
message; with a row to add, the element type must be the table's message type. -/
def createRepeatMessage (rs : CDbRecordset) (szName : String) : Option Message :=
  match pb.FindMessageTypeByName (szName ++ "_set") with
  | none => none
  | some main =>
      match main.fields with
      | [f] =>
          if f.label ≠ .LABEL_REPEATED ∨ f.type ≠ .TYPE_MESSAGE then none
          else if rs.rows = [] then some (.rowSet main.full_name [])
          else
            match pb.FindMessageTypeByName f.message_type with
            | none => none
            | some d =>
                if d.full_name ≠ szName then none
                else (fillRows pb rs.fieldNames d rs.rows).map (.rowSet main.full_name)
      | _ => none

end Columns

/-- What follows a prefix at the very start is found. -/
theorem afterPrefix_append {szPrefix : List Char} (hne : szPrefix ≠ []) (rest : List Char) :
    afterPrefix szPrefix (szPrefix ++ rest) = some rest := by
  cases szPrefix with
  | nil => exact absurd rfl hne
  | cons c cs => simp [afterPrefix]

/-- A table name survives the way into a message name and back. -/
theorem getTableNameByMessageName_getMessageNameByTableName (szTableName : String) :
    getTableNameByMessageName (getMessageNameByTableName szTableName) = some szTableName := by
  have hlist : (getMessageNameByTableName szTableName).toList =
      DB_NAMESPACE.toList ++ szTableName.toList := by
    simp [getMessageNameByTableName]
  have hafter := afterPrefix_append (show DB_NAMESPACE.toList ≠ [] by decide)
    szTableName.toList
  simp [getTableNameByMessageName, hlist, hafter]

end Db
