import DbService.Tables

/-!
# A database server in memory

Rows are kept by the text of their primary key.  It carries out the four statements on a row
as `Server.Keeps` asks for (`server_keeps`), so what is proved for such servers is proved
for some, and it can be run on examples.
-/

namespace Db

open Reflection ByteText

namespace TableServer

/-- The rows of each table, by the text of the primary key. -/
abbrev State := String → Bytes → Option Row

/-- What `mysql_errno` reports for a primary key that is missing, -/
def ER_NO_DEFAULT_FOR_FIELD : Nat := 1364
/-- and for one that is taken. -/
def ER_DUP_ENTRY : Nat := 1062

/-- A row is put under a key, or taken from it. -/
def put (s : State) (szTableName : String) (szKey : Bytes) (row : Option Row) : State :=
  Function.update s szTableName (Function.update (s szTableName) szKey row)

/-- The text of the primary key in the columns of a statement. -/
def keyText (pb : Runtime) (szTableName : String) (vecFieldInfo : List SFieldInfo) :
    Option Bytes :=
  (pb.rowType szTableName).bind fun d =>
    (vecFieldInfo.find? fun sFieldInfo => sFieldInfo.szName == d.primary_key).map
      SFieldInfo.szValue

/-- The row count of an upsert: 1 for a new row, 2 for a changed one, 0 for the same one. -/
def upsertCount (columns : List String) (row row' : Option Row) : Nat :=
  match row, row' with
  | some row, some row' =>
      if columns.all fun szColumn => row szColumn == row' szColumn then 0 else 2
  | _, _ => 1

variable (pb : Runtime) (tables : Tables)

/-- What the server does with a statement: the four statements on a row act on the table, and the
rest are taken and do nothing. -/
def query (s : State) : Statement → Reply × State
  | .selectRow szTableName _ nID =>
      (.rows (tables.recordset szTableName (s szTableName (decimalNat nID))), s)
  | .deleteRow szTableName _ nID =>
      (.done kMET_OK (s szTableName (decimalNat nID)).toList.length,
        put s szTableName (decimalNat nID) none)
  | .insertRow szTableName vecFieldInfo =>
      match keyText pb szTableName vecFieldInfo with
      | none => (.failed ER_NO_DEFAULT_FOR_FIELD, s)
      | some szKey =>
          if (s szTableName szKey).isSome then (.failed ER_DUP_ENTRY, s)
          else
            (.done kMET_OK 1,
              put s szTableName szKey (tables.upsert szTableName vecFieldInfo none))
  | .upsertRow szTableName vecFieldInfo =>
      match keyText pb szTableName vecFieldInfo with
      | none => (.failed ER_NO_DEFAULT_FOR_FIELD, s)
      | some szKey =>
          let row := tables.upsert szTableName vecFieldInfo (s szTableName szKey)
          (.done kMET_OK (upsertCount (tables.columns szTableName) (s szTableName szKey) row),
            put s szTableName szKey row)
  | _ => (.done kMET_OK 0, s)

/-- The server never refuses a connection, and its escaping is that of text without quotes. -/
def server : Server State where
  query := query pb tables
  connect := fun s => (true, s)
  escape := fun szSQL => szSQL

/-- The rows by primary key. -/
def rows (s : State) : Rows := fun key => s key.1 (decimalNat key.2)

/-- Putting a row changes the rows at its key only. -/
theorem rows_put (s : State) (szTableName : String) (nID : Nat) (row : Option Row) :
    rows (put s szTableName (decimalNat nID) row) =
      Function.update (rows s) (szTableName, nID) row := by
  funext key
  obtain ⟨szTableName', nID'⟩ := key
  unfold rows put
  by_cases htable : szTableName' = szTableName
  · subst htable
    rw [Function.update_self]
    by_cases hid : nID' = nID
    · subst hid
      rw [Function.update_self, Function.update_self]
    · have hkey : decimalNat nID' ≠ decimalNat nID := fun heq => hid (decimalNat_inj heq)
      rw [Function.update_of_ne hkey, Function.update_of_ne (by simpa using hid)]
  · rw [Function.update_of_ne htable, Function.update_of_ne (by simp [htable])]

/-- The columns of a statement on a row of `nID` have the text of `nID` for a key. -/
theorem keyText_of_namesRow {szTableName : String} {d : Descriptor}
    (htype : pb.rowType szTableName = some d) {nID : Nat} {vecFieldInfo : List SFieldInfo}
    (h : NamesRow d nID vecFieldInfo) :
    keyText pb szTableName vecFieldInfo = some (decimalNat nID) := by
  rw [keyText, htype]
  exact h

/-- **It keeps its tables.** -/
theorem server_keeps : (server pb tables).Keeps pb tables rows where
  select := fun _ _ _ _ _ _ => ⟨rfl, rfl⟩
  delete := fun s szTableName _ nID _ _ => rows_put s szTableName nID none
  insert := by
    intro s szTableName d nID vecFieldInfo htype hnames hsucceeds
    have hkey := keyText_of_namesRow pb htype hnames
    simp only [server, query, hkey] at hsucceeds ⊢
    by_cases htaken : (s szTableName (decimalNat nID)).isSome
    · rw [if_pos htaken] at hsucceeds
      exact hsucceeds.elim
    · rw [if_neg htaken]
      exact ⟨by simpa [rows] using htaken, rows_put ..⟩
  upsert := by
    intro s szTableName d nID vecFieldInfo htype hnames _
    have hkey := keyText_of_namesRow pb htype hnames
    simp only [server, query, hkey]
    exact rows_put ..

end TableServer

end Db
