import DbService.SqlText

/-!
# Printing parts of a statement and reading its tokens

Words, integers and quoted literals, and lists of them with commas between: what is printed and
followed by a delimiter is split into the tokens of what was printed (`Reads`), and a reader that
takes one item off the tokens takes a whole list off them.

* `IsWord.reads`, `Literal.reads`, `reads_separated` -- the tokens of what was printed;
* `readLiteral_tokens`, `readList_separated` -- the parts are taken off the tokens again;
* `readInsert_of_lex`, `readUpsert_of_lex` -- so is the statement as a whole.
-/

namespace SqlText

open ByteText

/-! ## Texts that end outside of everything -/

/-- The text is split into `tokens`, and nothing of it is left open. -/
def Reads (text : Bytes) (tokens : List Token) : Prop :=
  Runs.run step .bare (plain text) = .bare ∧
    (Runs.outputs step .bare (plain text)).flatten = tokens

instance (text : Bytes) (tokens : List Token) : Decidable (Reads text tokens) :=
  inferInstanceAs (Decidable (_ ∧ _))

/-- Texts that leave nothing open are split one after the other. -/
theorem Reads.append {left right : Bytes} {tokens tokens' : List Token} (h : Reads left tokens)
    (h' : Reads right tokens') : Reads (left ++ right) (tokens ++ tokens') := by
  obtain ⟨hrun, hout⟩ := h
  obtain ⟨hrun', hout'⟩ := h'
  refine ⟨?_, ?_⟩
  · rw [plain_append, Runs.run_append, hrun, hrun']
  · rw [plain_append, Runs.outputs_append, hrun, List.flatten_append, hout, hout']

/-- Such a text can be cut off in front. -/
theorem Reads.lex {text : Bytes} {tokens : List Token} (h : Reads text tokens) (rest : Bytes) :
    lex (plain (text ++ rest)) = tokens ++ SqlText.lex (plain rest) := by
  obtain ⟨hrun, hout⟩ := h
  rw [SqlText.lex, plain_append, lexFrom_append, hrun, hout]
  rfl

/-- A byte that ends whatever stands in front of it: outside of a literal it is split off as
`tokens`, it is no part of a word, and it is not the quote that would double the last one. -/
structure Delimits (b : UInt8) (tokens : List Token) : Prop where
  bare : stepBare b = (.bare, tokens)
  word : isWordByte b = false
  quote : b ≠ 39

instance (b : UInt8) (tokens : List Token) : Decidable (Delimits b tokens) :=
  decidable_of_iff (stepBare b = (.bare, tokens) ∧ isWordByte b = false ∧ b ≠ 39)
    ⟨fun h => ⟨h.1, h.2.1, h.2.2⟩, fun h => ⟨h.bare, h.word, h.quote⟩⟩

theorem delimits_comma : Delimits 44 [.mark 44] := by decide

theorem delimits_close : Delimits 41 [.mark 41] := by decide

/-! ## Words -/

/-- An identifier, a keyword or a number. -/
structure IsWord (w : Bytes) : Prop where
  nonempty : w ≠ []
  bytes : ∀ b ∈ w, isWordByte b = true

instance (w : Bytes) : Decidable (IsWord w) :=
  decidable_of_iff ((!w.isEmpty && w.all isWordByte) = true)
    ⟨fun h => by simp at h; exact ⟨h.1, h.2⟩, fun h => by simpa using ⟨h.nonempty, h.bytes⟩⟩

/-- A word byte starts a word. -/
theorem stepBare_word {b : UInt8} (h : isWordByte b = true) : stepBare b = (.word [b], []) := by
  have hne : ∀ c : UInt8, isWordByte c = false → b ≠ c := by
    intro c hc heq
    rw [← heq, h] at hc
    cases hc
  have hspace : isSpace b = false := by
    have hblank := hne 32 (by decide)
    have hlow : ¬ (9 ≤ b ∧ b ≤ 13) := by
      rintro ⟨hge, hle⟩
      have hge' : 9 ≤ b.toNat := UInt8.le_iff_toNat_le.mp hge
      have hle' : b.toNat ≤ 13 := UInt8.le_iff_toNat_le.mp hle
      have hcases : b = 9 ∨ b = 10 ∨ b = 11 ∨ b = 12 ∨ b = 13 := by
        simp only [← UInt8.toNat_inj]
        have : (9 : UInt8).toNat = 9 ∧ (10 : UInt8).toNat = 10 ∧ (11 : UInt8).toNat = 11 ∧
          (12 : UInt8).toNat = 12 ∧ (13 : UInt8).toNat = 13 := by decide
        omega
      rcases hcases with rfl | rfl | rfl | rfl | rfl <;> exact absurd h (by decide)
    simpa [isSpace, hblank] using hlow
  simp [stepBare, hspace, hne 39 (by decide), hne 34 (by decide), hne 96 (by decide),
    hne 35 (by decide), hne 45 (by decide), hne 47 (by decide), h]

/-- A word goes on while its bytes last. -/
theorem run_word {w : Bytes} (hw : ∀ b ∈ w, isWordByte b = true) (read : Bytes) :
    Runs.run step (.word read) (plain w) = .word (read ++ w) ∧
      (Runs.outputs step (.word read) (plain w)).flatten = [] := by
  induction w generalizing read with
  | nil => exact ⟨by simp [plain, Runs.run], rfl⟩
  | cons b w ih =>
      have hb : isWordByte b = true := hw b List.mem_cons_self
      obtain ⟨hrun, hout⟩ := ih (fun c hc => hw c (List.mem_cons_of_mem b hc)) (read ++ [b])
      rw [plain_cons, Runs.run, Runs.outputs]
      simp only [step, stepByte, hb, if_true, hrun, List.flatten_cons, hout]
      exact ⟨by simp, rfl⟩

/-- After its bytes the tokeniser is inside the word, and no token is complete. -/
theorem IsWord.run {w : Bytes} (hw : IsWord w) :
    Runs.run step .bare (plain w) = .word w ∧
      (Runs.outputs step .bare (plain w)).flatten = [] := by
  obtain ⟨hne, hbytes⟩ := hw
  cases w with
  | nil => exact absurd rfl hne
  | cons b w =>
      have hb := stepBare_word (hbytes b List.mem_cons_self)
      obtain ⟨hrun, hout⟩ := run_word (fun c hc => hbytes c (List.mem_cons_of_mem b hc)) [b]
      rw [plain_cons, Runs.run, Runs.outputs]
      simp only [step, stepByte, hb, hrun, List.flatten_cons, hout]
      exact ⟨rfl, rfl⟩

/-- **A word ends at a delimiter.** -/
theorem IsWord.reads {w : Bytes} (hw : IsWord w) {b : UInt8} {tokens : List Token}
    (hb : Delimits b tokens) : Reads (w ++ [b]) (.word w :: tokens) := by
  obtain ⟨hrun, hout⟩ := hw.run
  have hend : stepByte (.word w) b = (.bare, .word w :: tokens) := by
    simp [stepByte, hb.word, endWith, hb.bare]
  refine ⟨?_, ?_⟩
  · rw [plain_append, Runs.run_append, hrun]
    simp [plain, Runs.run, step, hend]
  · rw [plain_append, Runs.outputs_append, hrun, List.flatten_append, hout]
    simp [plain, Runs.outputs, step, hend]

theorem IsWord.of_digits {digits : Bytes} (hne : digits ≠ [])
    (hdigits : ∀ b ∈ digits, isDigit b = true) : IsWord digits :=
  ⟨hne, fun b hb => by simp [isWordByte, hdigits b hb]⟩

theorem isWord_decimalNat (n : Nat) : IsWord (decimalNat n) :=
  .of_digits (decimalNat_ne_nil n) fun _ hb => isDigit_of_mem_decimalNat hb

/-! ## Literals -/

/-- The value of a literal. -/
inductive Literal
  | int (z : Int)
  | text (s : Bytes)
  deriving DecidableEq

/-- The text of a literal, with the escaped bytes in single quotes. -/
def Literal.print : Literal → Bytes
  | .int z => decimal z
  | .text s => 39 :: (escape s ++ [39])

/-- The tokens a literal is split into: the minus of a negative number is a mark of its own. -/
def Literal.tokens : Literal → List Token
  | .int z =>
      if z < 0 then [.mark 45, .word (decimalNat z.natAbs)] else [.word (decimalNat z.natAbs)]
  | .text s => [.literal .single (plain (escape s)) true]

/-- A minus sign and a number behind it. -/
theorem reads_minus {digits : Bytes} (hne : digits ≠ [])
    (hdigits : ∀ b ∈ digits, isDigit b = true) {b : UInt8} {tokens : List Token}
    (hb : Delimits b tokens) :
    Reads (45 :: (digits ++ [b])) (.mark 45 :: .word digits :: tokens) := by
  cases digits with
  | nil => exact absurd rfl hne
  | cons c rest =>
      have hc : isDigit c = true := hdigits c List.mem_cons_self
      have hminus : step .bare (.byte 45) = (.dash, []) := by decide
      have hfirst : step .dash (.byte c) = (.word [c], [.mark 45]) := by
        simp [step, stepByte, (digit_ne hc).2.1, endWith, stepBare_digit hc]
      have hrest : ∀ b' ∈ rest, isWordByte b' = true := fun b' hb' =>
        (IsWord.of_digits hne hdigits).bytes b' (List.mem_cons_of_mem c hb')
      obtain ⟨hrun, hout⟩ := run_word hrest [c]
      have hend : stepByte (.word (c :: rest)) b = (.bare, .word (c :: rest) :: tokens) := by
        simp [stepByte, hb.word, endWith, hb.bare]
      have hplain : plain (45 :: (c :: rest ++ [b])) =
          .byte 45 :: .byte c :: (plain rest ++ plain [b]) := by
        simp
      rw [Reads, hplain]
      simp only [Runs.run, Runs.outputs, hminus, hfirst, Runs.run_append, Runs.outputs_append,
        hrun, List.flatten_cons, List.flatten_append, hout, List.singleton_append]
      simp [plain, Runs.run, Runs.outputs, step, hend]

/-- **A literal ends at a delimiter.** -/
theorem Literal.reads (l : Literal) {b : UInt8} {tokens : List Token} (hb : Delimits b tokens) :
    Reads (l.print ++ [b]) (l.tokens ++ tokens) := by
  cases l with
  | int z =>
      simp only [print, Literal.tokens, decimal]
      split
      · exact reads_minus (decimalNat_ne_nil _) (fun _ h => isDigit_of_mem_decimalNat h) hb
      · exact (isWord_decimalNat _).reads hb
  | text s =>
      obtain ⟨hrun, hout⟩ := literal_escape .single [] s
      have hopen : step .bare (.byte 39) = (.literal .single [], []) := by decide
      have hclose : ∀ content, step (.literal .single content) (.byte 39) =
          (.literalQuote .single content, []) := fun _ => rfl
      have hend : ∀ content, step (.literalQuote .single content) (.byte b) =
          (.bare, .literal .single content true :: tokens) := by
        intro content
        simp [step, stepByte, Quote.byte, hb.quote, endWith, hb.bare]
      have hplain : plain ((Literal.text s).print ++ [b]) =
          .byte 39 :: (plain (escape s) ++ [.byte 39, .byte b]) := by
        simp [print, plain]
      rw [Reads, hplain]
      simp only [Runs.run, Runs.outputs, hopen, Runs.run_append, Runs.outputs_append, hrun,
        List.flatten_cons, List.flatten_append, hout, List.nil_append, hclose, hend]
      simp [Literal.tokens]

/-- A literal at the end of the text. -/
theorem Literal.lex_print (l : Literal) : lex (plain l.print) = l.tokens := by
  cases l with
  | int z =>
      have hdigits : ∀ b ∈ decimalNat z.natAbs, isDigit b = true := fun b hb =>
        isDigit_of_mem_decimalNat hb
      simp only [print, Literal.tokens, decimal]
      split
      · have hminus : step .bare (.byte 45) = (.dash, []) := by decide
        have hnumber := lexFrom_digits .dash [.mark 45] (decimalNat_ne_nil z.natAbs) hdigits
          fun b hb => by simp [stepByte, (digit_ne hb).2.1, endWith, stepBare_digit hb]
        rw [plain_cons, lex, lexFrom_cons, hminus, hnumber]
        rfl
      · exact lexFrom_digits .bare [] (decimalNat_ne_nil z.natAbs) hdigits
          fun b hb => stepBare_digit hb
  | text s =>
      obtain ⟨hrun, hout⟩ := literal_escape .single [] s
      have hopen : step .bare (.byte 39) = (.literal .single [], []) := by decide
      rw [print, plain_cons, plain_append, lex, lexFrom_cons, hopen, lexFrom_append, hrun, hout]
      rfl

/-! ## Lists with commas between the items -/

/-- The parts with a separator between them. -/
def separated {α : Type*} (sep : α) : List (List α) → List α
  | [] => []
  | [part] => part
  | part :: next :: rest => part ++ sep :: separated sep (next :: rest)

/-- There are no more items than tokens, so the tokens are fuel enough for the reader of a list.
-/
theorem length_le_separated {α : Type*} (sep : α) {parts : List (List α)}
    (hne : ∀ part ∈ parts, part ≠ []) : parts.length ≤ (separated sep parts).length := by
  induction parts with
  | nil => exact Nat.zero_le _
  | cons part rest ih =>
      have hpart : 0 < part.length := List.length_pos_iff.mpr (hne part List.mem_cons_self)
      have hrest := ih fun part' hin => hne part' (List.mem_cons_of_mem part hin)
      cases rest with
      | nil =>
          simp only [separated, List.length_singleton]
          omega
      | cons next rest =>
          simp only [separated, List.length_append, List.length_cons] at hrest ⊢
          omega

section Lists

variable {α : Type*} {items : List α} {print : α → Bytes} {tok : α → List Token}

/-- **A list is split item by item** and ends at a delimiter. -/
theorem reads_separated (hne : items ≠ [])
    (hitem : ∀ a ∈ items, ∀ b tokens, Delimits b tokens →
      Reads (print a ++ [b]) (tok a ++ tokens))
    {b : UInt8} {tokens : List Token} (hb : Delimits b tokens) :
    Reads (separated 44 (items.map print) ++ [b])
      (separated (.mark 44) (items.map tok) ++ tokens) := by
  induction items with
  | nil => exact absurd rfl hne
  | cons a rest ih =>
      have hhead := hitem a List.mem_cons_self
      cases rest with
      | nil => exact hhead b tokens hb
      | cons a' rest =>
          have hrest := ih (by simp) fun x hx => hitem x (List.mem_cons_of_mem a hx)
          have hboth := (hhead 44 [.mark 44] delimits_comma).append hrest
          simpa [separated] using hboth

/-- A list at the end of the text. -/
theorem lex_separated
    (hitem : ∀ a ∈ items, ∀ b tokens, Delimits b tokens →
      Reads (print a ++ [b]) (tok a ++ tokens))
    (hlast : ∀ a ∈ items, lex (plain (print a)) = tok a) :
    lex (plain (separated 44 (items.map print))) = separated (.mark 44) (items.map tok) := by
  induction items with
  | nil => rfl
  | cons a rest ih =>
      cases rest with
      | nil => exact hlast a List.mem_cons_self
      | cons a' rest =>
          have hhead := hitem a List.mem_cons_self 44 [.mark 44] delimits_comma
          have hrest := ih (fun x hx => hitem x (List.mem_cons_of_mem a hx))
            fun x hx => hlast x (List.mem_cons_of_mem a hx)
          have hsplit := hhead.lex (separated 44 ((a' :: rest).map print))
          rw [hrest] at hsplit
          simpa [separated] using hsplit

/-- Take items off the tokens as long as commas follow, with a bound on their number. -/
def readItems (item : List Token → Option (α × List Token)) :
    Nat → List Token → Option (List α × List Token)
  | 0, _ => none
  | nLeft + 1, tokens =>
      match item tokens with
      | none => none
      | some (a, .mark 44 :: rest) =>
          (readItems item nLeft rest).map fun result => (a :: result.1, result.2)
      | some (a, rest) => some ([a], rest)

/-- **A list is read back** in front of anything but a comma. -/
theorem readItems_separated {item : List Token → Option (α × List Token)} (hne : items ≠ [])
    (hitem : ∀ a ∈ items, ∀ rest, item (tok a ++ rest) = some (a, rest)) {rest : List Token}
    (hrest : ∀ rest', rest ≠ .mark 44 :: rest') {nLeft : Nat} (hleft : items.length ≤ nLeft) :
    readItems item nLeft (separated (.mark 44) (items.map tok) ++ rest) = some (items, rest) := by
  induction items generalizing nLeft with
  | nil => exact absurd rfl hne
  | cons a others ih =>
      obtain ⟨k, rfl⟩ : ∃ k, nLeft = k + 1 := ⟨nLeft - 1, by simp at hleft; omega⟩
      have hhead := hitem a List.mem_cons_self
      cases others with
      | nil =>
          rw [readItems, List.map_singleton, separated, hhead]
          split
          · rename_i heq
            cases heq
          · rename_i heq
            cases heq
            exact absurd rfl (hrest _)
          · rename_i heq
            cases heq
            rfl
      | cons a' others =>
          have htail : readItems item k (separated (.mark 44) ((a' :: others).map tok) ++ rest) =
              some (a' :: others, rest) :=
            ih (by simp) (fun x hx => hitem x (List.mem_cons_of_mem a hx)) (by simpa using hleft)
          have hsplit : separated (.mark 44) ((a :: a' :: others).map tok) ++ rest =
              tok a ++ .mark 44 :: (separated (.mark 44) ((a' :: others).map tok) ++ rest) := by
            simp [separated]
          rw [readItems, hsplit, hhead]
          simp only [htail, Option.map_some]

/-- Take a list off the tokens. -/
def readList (item : List Token → Option (α × List Token)) (tokens : List Token) :
    Option (List α × List Token) :=
  readItems item tokens.length tokens

/-- A list of items with commas between is read back, where no further comma follows. -/
theorem readList_separated {item : List Token → Option (α × List Token)} (hne : items ≠ [])
    (hitem : ∀ a ∈ items, ∀ rest, item (tok a ++ rest) = some (a, rest))
    (htok : ∀ a ∈ items, tok a ≠ []) {rest : List Token}
    (hrest : ∀ rest', rest ≠ .mark 44 :: rest') :
    readList item (separated (.mark 44) (items.map tok) ++ rest) = some (items, rest) := by
  have hparts : ∀ part ∈ items.map tok, part ≠ [] := by
    intro part hin
    obtain ⟨a, ha, rfl⟩ := List.mem_map.mp hin
    exact htok a ha
  have hlength := length_le_separated (.mark 44) hparts
  rw [List.length_map] at hlength
  refine readItems_separated hne hitem hrest ?_
  rw [List.length_append]
  omega

end Lists

/-! ## INSERT statements -/

/-- A word. -/
def readWord : List Token → Option (Bytes × List Token)
  | .word w :: rest => some (w, rest)
  | _ => none

/-- A number, with its minus or without, or a quoted literal that was closed. -/
def readLiteral : List Token → Option (Literal × List Token)
  | .mark 45 :: .word w :: rest =>
      if w.all isDigit then some (.int (-digitsValue w), rest) else none
  | .word w :: rest => if w.all isDigit then some (.int (digitsValue w), rest) else none
  | .literal q content true :: rest => some (.text (unescape q (bytesOf content)), rest)
  | _ => none

/-- **A literal is read back.** -/
theorem readLiteral_tokens (l : Literal) (rest : List Token) :
    readLiteral (l.tokens ++ rest) = some (l, rest) := by
  cases l with
  | int z =>
      have hdigits : (decimalNat z.natAbs).all isDigit = true :=
        List.all_eq_true.mpr fun b hb => isDigit_of_mem_decimalNat hb
      have hvalue := digitsValue_decimalNat z.natAbs
      simp only [Literal.tokens]
      split
      · have hback : (-(z.natAbs : Int)) = z := by omega
        simp only [List.cons_append, List.nil_append, readLiteral, hdigits, hvalue, hback, if_true]
      · have hback : ((z.natAbs : Nat) : Int) = z := by omega
        simp only [List.cons_append, List.nil_append, readLiteral, hdigits, hvalue, hback, if_true]
  | text s => simp [Literal.tokens, readLiteral, bytesOf_plain, unescape_escape]

theorem readWord_tokens (w : Bytes) (rest : List Token) :
    readWord ([.word w] ++ rest) = some (w, rest) := rfl

/-- `name=literal` -/
def readAssignment (tokens : List Token) : Option ((Bytes × Literal) × List Token) :=
  match tokens with
  | .word w :: .mark 61 :: rest =>
      (readLiteral rest).map fun result => ((w, result.1), result.2)
  | _ => none

/-- A token that has to be there. -/
def expect (token : Token) : List Token → Option (List Token)
  | first :: rest => if first = token then some rest else none
  | [] => none

@[simp] theorem expect_cons (token : Token) (rest : List Token) :
    expect token (token :: rest) = some rest := if_pos rfl

/-- The bytes of a keyword, as the statements have it. -/
def keyword (s : String) : Bytes := s.toList.map charByte

/-- `insert into table(columns) values (values)` -/
structure Insert where
  table : Bytes
  columns : List Bytes
  values : List Literal
  deriving DecidableEq

/-- An INSERT with `on duplicate key update` and its assignments. -/
structure Upsert where
  insert : Insert
  assignments : List (Bytes × Literal)
  deriving DecidableEq

/-- The tokens of an INSERT. -/
def Insert.tokens (stmt : Insert) : List Token :=
  [Token.word (keyword "insert"), Token.word (keyword "into"), Token.word stmt.table,
      Token.mark 40] ++
    separated (Token.mark 44) (stmt.columns.map fun w => [Token.word w]) ++
    [Token.mark 41, Token.word (keyword "values"), Token.mark 40] ++
    separated (Token.mark 44) (stmt.values.map Literal.tokens) ++ [Token.mark 41]

/-- The tokens of an assignment. -/
def assignmentTokens (assignment : Bytes × Literal) : List Token :=
  [Token.word assignment.1, Token.mark 61] ++ assignment.2.tokens

/-- The tokens of an INSERT with assignments. -/
def Upsert.tokens (stmt : Upsert) : List Token :=
  stmt.insert.tokens ++
    [Token.word (keyword "on"), Token.word (keyword "duplicate"), Token.word (keyword "key"),
      Token.word (keyword "update")] ++
    separated (Token.mark 44) (stmt.assignments.map assignmentTokens)

/-- The INSERT at the start of a statement, and what follows it. -/
def readInsertPart (tokens : List Token) : Option (Insert × List Token) := do
  let tokens ← expect (.word (keyword "insert")) tokens
  let tokens ← expect (.word (keyword "into")) tokens
  let (table, tokens) ← readWord tokens
  let tokens ← expect (.mark 40) tokens
  let (columns, tokens) ← readList readWord tokens
  let tokens ← expect (.mark 41) tokens
  let tokens ← expect (.word (keyword "values")) tokens
  let tokens ← expect (.mark 40) tokens
  let (values, tokens) ← readList readLiteral tokens
  let tokens ← expect (.mark 41) tokens
  return (⟨table, columns, values⟩, tokens)

/-- Read the text of an INSERT. -/
def readInsert (text : Bytes) : Option Insert :=
  match readInsertPart (lex (plain text)) with
  | some (stmt, []) => some stmt
  | _ => none

/-- Read the text of an INSERT with assignments. -/
def readUpsert (text : Bytes) : Option Upsert := do
  let (insert, tokens) ← readInsertPart (lex (plain text))
  let tokens ← expect (.word (keyword "on")) tokens
  let tokens ← expect (.word (keyword "duplicate")) tokens
  let tokens ← expect (.word (keyword "key")) tokens
  let tokens ← expect (.word (keyword "update")) tokens
  match ← readList readAssignment tokens with
  | (assignments, []) => some ⟨insert, assignments⟩
  | _ => none

/-- A literal is not printed as nothing. -/
theorem Literal.tokens_ne_nil (l : Literal) : l.tokens ≠ [] := by
  cases l with
  | int z =>
      simp only [Literal.tokens]
      split <;> simp
  | text s => simp [Literal.tokens]

theorem readAssignment_tokens (assignment : Bytes × Literal) (rest : List Token) :
    readAssignment (assignmentTokens assignment ++ rest) = some (assignment, rest) := by
  simp [readAssignment, assignmentTokens, readLiteral_tokens]

/-- An INSERT is read back if it names a column and a value; the grammar has no empty list. -/
theorem readInsertPart_tokens {stmt : Insert} (hcolumns : stmt.columns ≠ [])
    (hvalues : stmt.values ≠ []) (rest : List Token) :
    readInsertPart (stmt.tokens ++ rest) = some (stmt, rest) := by
  have hnames := readList_separated hcolumns (fun w _ rest => readWord_tokens w rest)
    (fun w _ => List.cons_ne_nil (Token.word w) [])
    (fun _ => by simp : ∀ rest', .mark 41 :: .word (keyword "values") :: .mark 40 ::
      (separated (.mark 44) (stmt.values.map Literal.tokens) ++ .mark 41 :: rest) ≠
        .mark 44 :: rest')
  have hliterals := readList_separated hvalues (fun l _ rest => readLiteral_tokens l rest)
    (fun l _ => l.tokens_ne_nil) (fun _ => by simp : ∀ rest', .mark 41 :: rest ≠ .mark 44 :: rest')
  simp [readInsertPart, Insert.tokens, readWord, hnames, hliterals]

/-- **The tokens of an INSERT determine it.** -/
theorem readInsert_of_lex {text : Bytes} {stmt : Insert} (hcolumns : stmt.columns ≠ [])
    (hvalues : stmt.values ≠ []) (hlex : lex (plain text) = stmt.tokens) :
    readInsert text = some stmt := by
  have hpart := readInsertPart_tokens hcolumns hvalues []
  rw [List.append_nil] at hpart
  simp [readInsert, hlex, hpart]

/-- A text that is split into the tokens of an INSERT with assignments is read as that statement.
-/
theorem readUpsert_of_lex {text : Bytes} {stmt : Upsert} (hcolumns : stmt.insert.columns ≠ [])
    (hvalues : stmt.insert.values ≠ []) (hassignments : stmt.assignments ≠ [])
    (hlex : lex (plain text) = stmt.tokens) : readUpsert text = some stmt := by
  have hitems := readList_separated hassignments
    (fun assignment _ rest => readAssignment_tokens assignment rest)
    (fun assignment _ => by simp [assignmentTokens])
    (fun rest' => (List.cons_ne_nil (Token.mark 44) rest').symm)
  rw [List.append_nil] at hitems
  simp [readUpsert, hlex, Upsert.tokens, readInsertPart_tokens hcolumns hvalues, hitems]

end SqlText
