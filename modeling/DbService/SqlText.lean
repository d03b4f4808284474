import DbService.ByteText
import DbService.Runs

/-!
# The text of SQL statements

How a MySQL server splits the text of a statement into tokens, as a machine that reads one
byte at a time: words and numbers, quoted literals with their backslash escapes and doubled
quotes, quoted names, comments, and single marks.  A text may have holes; a hole inside a
literal is filled with escaped bytes.

* `unescape_escape` -- what `mysql_real_escape_string` did to a text is undone inside a literal;
* `lex_fill` -- filling the holes changes the contents of the literals and nothing else;
* `denoted_quoted`, `denoted_decimal` -- what a literal and a number denote.
-/

namespace SqlText

open ByteText

/-! ## Escaping -/

/-- `mysql_real_escape_string`, one byte. -/
def escapeByte (b : UInt8) : Bytes :=
  if b = 0 then [92, 48]
  else if b = 10 then [92, 110]
  else if b = 13 then [92, 114]
  else if b = 26 then [92, 90]
  else if b = 92 ∨ b = 39 ∨ b = 34 then [92, b]
  else [b]

/-- `mysql_real_escape_string` -/
def escape (s : Bytes) : Bytes := s.flatMap escapeByte

/-- The byte a backslash and `b` stand for. -/
def unescapeByte (b : UInt8) : UInt8 :=
  if b = 48 then 0
  else if b = 110 then 10
  else if b = 114 then 13
  else if b = 90 then 26
  else if b = 116 then 9
  else if b = 98 then 8
  else b

/-- The quotes a literal may stand in. -/
inductive Quote
  | single | double
  deriving DecidableEq

/-- The byte of a quote. -/
def Quote.byte : Quote → UInt8
  | single => 39
  | double => 34

/-- The bytes a literal denotes, from what stands between its quotes. -/
def unescape (q : Quote) : Bytes → Bytes
  | [] => []
  | [b] => [b]
  | b :: c :: rest =>
      if b = 92 then unescapeByte c :: unescape q rest
      else if b = q.byte ∧ c = q.byte then q.byte :: unescape q rest
      else b :: unescape q (c :: rest)

/-- An escaped byte is a backslash and its name, or itself. -/
theorem escapeByte_cases (b : UInt8) :
    (∃ c, escapeByte b = [92, c] ∧ unescapeByte c = b) ∨
      escapeByte b = [b] ∧ b ≠ 92 ∧ b ≠ 39 ∧ b ≠ 34 := by
  unfold escapeByte
  split_ifs with h₀ h₁ h₂ h₃ h₄
  · exact .inl ⟨48, rfl, h₀.symm⟩
  · exact .inl ⟨110, rfl, h₁.symm⟩
  · exact .inl ⟨114, rfl, h₂.symm⟩
  · exact .inl ⟨90, rfl, h₃.symm⟩
  · refine .inl ⟨b, rfl, ?_⟩
    rcases h₄ with rfl | rfl | rfl <;> rfl
  · simp only [not_or] at h₄
    exact .inr ⟨rfl, h₄⟩

/-- A byte that is neither quote is not the one at hand. -/
theorem Quote.byte_ne (q : Quote) {b : UInt8} (h : b ≠ 39 ∧ b ≠ 34) : b ≠ q.byte := by
  cases q with
  | single => exact h.1
  | double => exact h.2

theorem escape_cons (b : UInt8) (s : Bytes) : escape (b :: s) = escapeByte b ++ escape s :=
  rfl

/-- The first byte of a text that does not start with the quote is read by itself. -/
theorem unescape_cons {q : Quote} {b : UInt8} (hb : b ≠ 92) (hq : b ≠ q.byte) (rest : Bytes) :
    unescape q (b :: rest) = b :: unescape q rest := by
  cases rest with
  | nil => rfl
  | cons c rest => simp [unescape, hb, hq]

/-- **What was escaped is read back.** -/
theorem unescape_escape (q : Quote) (s : Bytes) : unescape q (escape s) = s := by
  induction s with
  | nil => rfl
  | cons b s ih =>
      rw [escape_cons]
      rcases escapeByte_cases b with ⟨c, hbyte, hback⟩ | ⟨hbyte, hslash, hquotes⟩
      · rw [hbyte]
        simp only [List.cons_append, List.nil_append, unescape, if_true, hback, ih]
      · rw [hbyte, List.singleton_append, unescape_cons hslash (q.byte_ne hquotes), ih]

/-! ## Tokens -/

/-- A byte of a text, or a hole. -/
inductive Piece
  | byte (b : UInt8)
  | hole (i : Nat)
  deriving DecidableEq

/-- What a statement is split into. -/
inductive Token
  /-- a number, a keyword or an identifier -/
  | word (w : Bytes)
  | mark (b : UInt8)
  /-- a name in backticks -/
  | name (w : Bytes)
  /-- a quoted literal; `closed` is false for one the text ends in -/
  | literal (q : Quote) (content : List Piece) (closed : Bool)
  deriving DecidableEq

/-- Where the tokeniser stands. -/
inductive Mode
  | bare
  | word (w : Bytes)
  /-- after `-` and after `--` -/
  | dash | dashDash
  /-- after `/` and after `/*` -/
  | slash | slashStar
  | lineComment
  | comment
  /-- after a `*` inside a comment -/
  | commentStar
  | literal (q : Quote) (content : List Piece)
  /-- after a backslash inside a literal -/
  | literalEscape (q : Quote) (content : List Piece)
  /-- after a quote that ends the literal, unless it is doubled -/
  | literalQuote (q : Quote) (content : List Piece)
  | name (w : Bytes)
  | nameQuote (w : Bytes)
  deriving DecidableEq

/-- The bytes of numbers, keywords and identifiers. -/
def isWordByte (b : UInt8) : Bool :=
  isDigit b || (65 ≤ b && b ≤ 90) || (97 ≤ b && b ≤ 122) || b == 95 || b == 36 || b == 46 ||
    128 ≤ b

/-- A byte outside everything. -/
def stepBare (b : UInt8) : Mode × List Token :=
  if isSpace b then (.bare, [])
  else if b = 39 then (.literal .single [], [])
  else if b = 34 then (.literal .double [], [])
  else if b = 96 then (.name [], [])
  else if b = 35 then (.lineComment, [])
  else if b = 45 then (.dash, [])
  else if b = 47 then (.slash, [])
  else if isWordByte b then (.word [b], [])
  else (.bare, [.mark b])

/-- A byte that ends `tokens` and is read outside everything. -/
def endWith (tokens : List Token) (b : UInt8) : Mode × List Token :=
  ((stepBare b).1, tokens ++ (stepBare b).2)

/-- `--` is a comment only before a space or a control character, and `/*!` is not one: what
follows it is executed. -/
def stepByte (m : Mode) (b : UInt8) : Mode × List Token :=
  match m with
  | .bare => stepBare b
  | .word w => if isWordByte b then (.word (w ++ [b]), []) else endWith [.word w] b
  | .dash => if b = 45 then (.dashDash, []) else endWith [.mark 45] b
  | .dashDash =>
      if b = 45 then (.dashDash, [.mark 45])
      else if b = 10 then (.bare, [])
      else if b ≤ 32 || b == 127 then (.lineComment, [])
      else endWith [.mark 45, .mark 45] b
  | .slash => if b = 42 then (.slashStar, []) else endWith [.mark 47] b
  | .slashStar =>
      if b = 33 then (.bare, [])
      else if b = 42 then (.commentStar, [])
      else (.comment, [])
  | .lineComment => if b = 10 then (.bare, []) else (.lineComment, [])
  | .comment => if b = 42 then (.commentStar, []) else (.comment, [])
  | .commentStar =>
      if b = 47 then (.bare, [])
      else if b = 42 then (.commentStar, [])
      else (.comment, [])
  | .literal q content =>
      if b = 92 then (.literalEscape q content, [])
      else if b = q.byte then (.literalQuote q content, [])
      else (.literal q (content ++ [.byte b]), [])
  | .literalEscape q content => (.literal q (content ++ [.byte 92, .byte b]), [])
  | .literalQuote q content =>
      if b = q.byte then (.literal q (content ++ [.byte b, .byte b]), [])
      else endWith [.literal q content true] b
  | .name w => if b = 96 then (.nameQuote w, []) else (.name (w ++ [b]), [])
  | .nameQuote w => if b = 96 then (.name (w ++ [b, b]), []) else endWith [.name w] b

/-- A hole is part of the literal it stands in; elsewhere it is skipped. -/
def step (m : Mode) : Piece → Mode × List Token
  | .byte b => stepByte m b
  | .hole i =>
      match m with
      | .literal q content => (.literal q (content ++ [.hole i]), [])
      | m => (m, [])

/-- What is left when the text ends. -/
def finish : Mode → List Token
  | .bare | .dashDash | .slashStar | .lineComment | .comment | .commentStar => []
  | .word w => [.word w]
  | .dash => [.mark 45]
  | .slash => [.mark 47]
  | .literal q content => [.literal q content false]
  | .literalEscape q content => [.literal q (content ++ [.byte 92]) false]
  | .literalQuote q content => [.literal q content true]
  | .name w => [.name w]
  | .nameQuote w => [.name w]

/-- The tokens of a text that is read from `m` on. -/
def lexFrom (m : Mode) (ps : List Piece) : List Token :=
  (Runs.outputs step m ps).flatten ++ finish (Runs.run step m ps)

/-- The tokens of a statement. -/
def lex (ps : List Piece) : List Token := lexFrom .bare ps

/-- A text without holes. -/
def plain (text : Bytes) : List Piece := text.map .byte

example : lex (plain [97, 61, 39, 92, 39, 39, 59]) =
    [.word [97], .mark 61, .literal .single [.byte 92, .byte 39] true, .mark 59] := by decide

/-- The bytes of a text, without its holes. -/
def bytesOf (ps : List Piece) : Bytes :=
  ps.filterMap fun p =>
    match p with
    | .byte b => some b
    | .hole _ => none

/-- The bytes a literal text denotes: what stands between the quotes, or the digits of a
number. -/
def denoted (text : Bytes) : Option Bytes :=
  match lex (plain text) with
  | [.literal q content true] => some (unescape q (bytesOf content))
  | [.word _] | [.mark 45, .word _] => some text
  | _ => none

@[simp] theorem plain_append (left right : Bytes) :
    plain (left ++ right) = plain left ++ plain right := List.map_append

@[simp] theorem plain_cons (b : UInt8) (text : Bytes) :
    plain (b :: text) = .byte b :: plain text := rfl

@[simp] theorem bytesOf_plain (text : Bytes) : bytesOf (plain text) = text := by
  simp [bytesOf, plain]

/-- A text is split in two goes: the second starts in the mode the first one ends in. -/
theorem lexFrom_append (m : Mode) (left right : List Piece) :
    lexFrom m (left ++ right) =
      (Runs.outputs step m left).flatten ++ lexFrom (Runs.run step m left) right := by
  simp [lexFrom, Runs.run_append, Runs.outputs_append]

theorem lexFrom_cons (m : Mode) (p : Piece) (rest : List Piece) :
    lexFrom m (p :: rest) = (step m p).2 ++ lexFrom (step m p).1 rest := by
  simp [lexFrom, Runs.run, Runs.outputs]

/-! ## Filling holes -/

/-- A hole may stand inside a literal, not right behind a backslash. -/
def Placed : Mode → Piece → Prop
  | _, .byte _ => True
  | .literal _ _, .hole _ => True
  | _, .hole _ => False

instance (m : Mode) (p : Piece) : Decidable (Placed m p) := by
  cases p with
  | byte b => cases m <;> exact .isTrue trivial
  | hole i => cases m <;> first | exact .isTrue trivial | exact .isFalse id

variable (args : Nat → Bytes)

/-- The holes are filled with the escaped arguments. -/
def fill (ps : List Piece) : List Piece :=
  ps.flatMap fun p =>
    match p with
    | .byte b => [.byte b]
    | .hole i => plain (escape (args i))

/-- The holes of a token are filled; only literals have them. -/
def Token.fill : Token → Token
  | .literal q content closed => .literal q (SqlText.fill args content) closed
  | token => token

/-- The holes of what was read of a literal are filled. -/
def Mode.fill : Mode → Mode
  | .literal q content => .literal q (SqlText.fill args content)
  | .literalEscape q content => .literalEscape q (SqlText.fill args content)
  | .literalQuote q content => .literalQuote q (SqlText.fill args content)
  | m => m

@[simp] theorem fill_append (left right : List Piece) :
    fill args (left ++ right) = fill args left ++ fill args right := List.flatMap_append

theorem fill_cons (p : Piece) (rest : List Piece) :
    fill args (p :: rest) = fill args [p] ++ fill args rest := by
  cases p <;> simp [fill]

@[simp] theorem fill_byte (b : UInt8) : fill args [.byte b] = [.byte b] := rfl

@[simp] theorem fill_bytes (b c : UInt8) : fill args [.byte b, .byte c] = [.byte b, .byte c] :=
  rfl

@[simp] theorem fill_hole (i : Nat) : fill args [.hole i] = plain (escape (args i)) := by
  simp [fill]

@[simp] theorem fill_nil : fill args [] = [] := rfl

@[simp] theorem fill_plain (text : Bytes) : fill args (plain text) = plain text := by
  induction text with
  | nil => rfl
  | cons b text ih => rw [plain_cons, fill_cons, fill_byte, ih, List.singleton_append]

/-- What starts at a byte outside of everything has no hole yet. -/
theorem stepBare_fill (b : UInt8) :
    (((stepBare b).1.fill args, (stepBare b).2.map (Token.fill args)) : Mode × List Token) =
      stepBare b := by
  unfold stepBare
  split_ifs <;> rfl

/-- Neither has what a byte ends and starts at once, apart from the tokens that it ends. -/
theorem endWith_fill (tokens : List Token) (b : UInt8) :
    (((endWith tokens b).1.fill args, (endWith tokens b).2.map (Token.fill args)) :
      Mode × List Token) = endWith (tokens.map (Token.fill args)) b := by
  have hbare := Prod.ext_iff.mp (stepBare_fill args b)
  refine Prod.ext hbare.1 ?_
  have hmarks : (stepBare b).2.map (Token.fill args) = (stepBare b).2 := hbare.2
  simp only [endWith, List.map_append, hmarks]

/-- Reading a byte does not look into a literal. -/
theorem stepByte_fill (m : Mode) (b : UInt8) :
    stepByte (m.fill args) b =
      ((stepByte m b).1.fill args, (stepByte m b).2.map (Token.fill args)) := by
  cases m with
  | bare => exact (stepBare_fill args b).symm
  | word w =>
      simp only [Mode.fill, stepByte]
      split_ifs
      · rfl
      · exact (endWith_fill args [.word w] b).symm
  | dash =>
      simp only [Mode.fill, stepByte]
      split_ifs
      · rfl
      · exact (endWith_fill args [.mark 45] b).symm
  | dashDash =>
      simp only [Mode.fill, stepByte]
      split_ifs
      · rfl
      · rfl
      · rfl
      · exact (endWith_fill args [.mark 45, .mark 45] b).symm
  | slash =>
      simp only [Mode.fill, stepByte]
      split_ifs
      · rfl
      · exact (endWith_fill args [.mark 47] b).symm
  | slashStar =>
      simp only [Mode.fill, stepByte]
      split_ifs <;> rfl
  | lineComment =>
      simp only [Mode.fill, stepByte]
      split_ifs <;> rfl
  | comment =>
      simp only [Mode.fill, stepByte]
      split_ifs <;> rfl
  | commentStar =>
      simp only [Mode.fill, stepByte]
      split_ifs <;> rfl
  | literal q content =>
      simp only [Mode.fill, stepByte]
      split_ifs
      · rfl
      · rfl
      · simp
  | literalEscape q content =>
      simp only [Mode.fill, stepByte, fill_append, fill_bytes]
      rfl
  | literalQuote q content =>
      simp only [Mode.fill, stepByte]
      split_ifs
      · simp
      · exact (endWith_fill args [.literal q content true] b).symm
  | name w =>
      simp only [Mode.fill, stepByte]
      split_ifs <;> rfl
  | nameQuote w =>
      simp only [Mode.fill, stepByte]
      split_ifs
      · rfl
      · exact (endWith_fill args [.name w] b).symm

/-- **Escaped bytes stay in their literal.** -/
theorem literal_escape (q : Quote) (content : List Piece) (s : Bytes) :
    Runs.run step (.literal q content) (plain (escape s)) =
        .literal q (content ++ plain (escape s)) ∧
      (Runs.outputs step (.literal q content) (plain (escape s))).flatten = [] := by
  induction s generalizing content with
  | nil => simp [escape, plain, Runs.run, Runs.outputs]
  | cons b s ih =>
      rw [escape_cons, plain_append, Runs.run_append, Runs.outputs_append]
      have hbyte : Runs.run step (.literal q content) (plain (escapeByte b)) =
            .literal q (content ++ plain (escapeByte b)) ∧
          (Runs.outputs step (.literal q content) (plain (escapeByte b))).flatten = [] := by
        rcases escapeByte_cases b with ⟨c, heq, _⟩ | ⟨heq, hslash, hquotes⟩
        · rw [heq]
          exact ⟨rfl, rfl⟩
        · have hquote := q.byte_ne hquotes
          rw [heq]
          simp [plain, Runs.run, Runs.outputs, step, stepByte, hslash, hquote]
      obtain ⟨hrun, hout⟩ := ih (content ++ plain (escapeByte b))
      rw [hbyte.1, hrun, List.flatten_append, hbyte.2, hout]
      exact ⟨by simp, rfl⟩

/-- **Filling holes that are placed changes only the literals they stand in.** -/
theorem run_fill {m : Mode} {ps : List Piece} (h : Runs.Guarded step Placed m ps) :
    Runs.run step (m.fill args) (fill args ps) = (Runs.run step m ps).fill args ∧
      (Runs.outputs step (m.fill args) (fill args ps)).flatten =
        (Runs.outputs step m ps).flatten.map (Token.fill args) := by
  induction ps generalizing m with
  | nil => exact ⟨rfl, rfl⟩
  | cons p rest ih =>
      obtain ⟨hplaced, hrest⟩ := h
      obtain ⟨hrun, hout⟩ := ih hrest
      rw [fill_cons, Runs.run_append, Runs.outputs_append]
      cases p with
      | byte b =>
          have hstep := stepByte_fill args m b
          simp only [step] at hrun hout
          simp only [fill_byte, Runs.run, Runs.outputs, step, hstep, hrun, hout,
            List.flatten_append, List.flatten_cons, List.flatten_nil, List.append_nil,
            List.map_append, and_self]
      | hole i =>
          cases m with
          | literal q content =>
              obtain ⟨hstay, hsilent⟩ := literal_escape q (fill args content) (args i)
              have hmode : Mode.fill args (.literal q (content ++ [.hole i])) =
                  .literal q (fill args content ++ plain (escape (args i))) := by
                simp [Mode.fill]
              simp only [step, hmode] at hrun hout
              simp only [fill_hole, Mode.fill, Runs.run, Runs.outputs, step, hstay, hsilent,
                hrun, hout, List.flatten_append, List.flatten_cons, List.nil_append, and_self]
          | _ => exact absurd hplaced id

theorem finish_fill (m : Mode) :
    finish (m.fill args) = (finish m).map (Token.fill args) := by
  cases m <;> simp [Mode.fill, finish, Token.fill]

/-- **Filling the holes changes no token but by its holes.**  This is why escaped arguments cannot
add tokens to a statement: inside a literal they leave the mode as it is. -/
theorem lex_fill {m : Mode} {ps : List Piece} (h : Runs.Guarded step Placed m ps) :
    lexFrom (m.fill args) (fill args ps) = (lexFrom m ps).map (Token.fill args) := by
  obtain ⟨hrun, hout⟩ := run_fill args h
  simp only [lexFrom, hrun, hout, finish_fill, List.map_append]

/-! ## What literals denote -/

/-- **A quoted literal denotes the bytes that were escaped.** -/
theorem denoted_quoted (s : Bytes) : denoted (39 :: (escape s ++ [39])) = some s := by
  obtain ⟨hrun, hout⟩ := literal_escape .single [] s
  have hlex : lex (plain (39 :: (escape s ++ [39]))) =
      [.literal .single (plain (escape s)) true] := by
    have hopen : step .bare (.byte 39) = (.literal .single [], []) := by decide
    rw [plain_cons, plain_append, lex, lexFrom_cons, hopen, lexFrom_append, hrun, hout]
    rfl
  simp only [denoted, hlex, bytesOf_plain, unescape_escape]

/-- Digits go on with the word they follow. -/
theorem lexFrom_word (w : Bytes) {digits : Bytes}
    (hdigits : ∀ b ∈ digits, isDigit b = true) :
    lexFrom (.word w) (plain digits) = [.word (w ++ digits)] := by
  induction digits generalizing w with
  | nil => simp [plain, lexFrom, Runs.outputs, Runs.run, finish]
  | cons b rest ih =>
      have hword : isWordByte b = true := by
        simp [isWordByte, hdigits b List.mem_cons_self]
      rw [plain_cons, lexFrom_cons]
      simp only [step, stepByte, hword, if_true, List.nil_append]
      rw [ih (w ++ [b]) fun c hc => hdigits c (List.mem_cons_of_mem b hc)]
      simp

/-- A number is one word, whatever its first digit ends. -/
theorem lexFrom_digits (m : Mode) (tokens : List Token) {digits : Bytes} (hne : digits ≠ [])
    (hdigits : ∀ b ∈ digits, isDigit b = true)
    (hstart : ∀ b, isDigit b = true → stepByte m b = (.word [b], tokens)) :
    lexFrom m (plain digits) = tokens ++ [.word digits] := by
  cases digits with
  | nil => exact absurd rfl hne
  | cons b rest =>
      rw [plain_cons, lexFrom_cons]
      simp only [step, hstart b (hdigits b List.mem_cons_self)]
      rw [lexFrom_word [b] fun c hc => hdigits c (List.mem_cons_of_mem b hc)]
      rfl

/-- A digit outside of everything starts a word. -/
theorem stepBare_digit {b : UInt8} (h : isDigit b = true) : stepBare b = (.word [b], []) := by
  have hne : ∀ c : UInt8, isDigit c = false → b ≠ c := by
    intro c hc heq
    rw [← heq, h] at hc
    cases hc
  simp [stepBare, (digit_ne h).1, hne 39 (by decide), hne 34 (by decide), hne 96 (by decide),
    hne 35 (by decide), hne 45 (by decide), hne 47 (by decide), isWordByte, h]

/-- **The text of an integer denotes itself.** -/
theorem denoted_decimal (z : Int) : denoted (decimal z) = some (decimal z) := by
  have hdigits : ∀ b ∈ decimalNat z.natAbs, isDigit b = true := fun b hb =>
    isDigit_of_mem_decimalNat hb
  have hne := decimalNat_ne_nil z.natAbs
  unfold decimal
  split
  · have hlex : lex (plain (45 :: decimalNat z.natAbs)) =
        [.mark 45, .word (decimalNat z.natAbs)] := by
      have hminus : step .bare (.byte 45) = (.dash, []) := by decide
      have hnumber := lexFrom_digits .dash [.mark 45] hne hdigits fun b hb => by
        simp [stepByte, (digit_ne hb).2.1, endWith, stepBare_digit hb]
      rw [plain_cons, lex, lexFrom_cons, hminus, hnumber]
      rfl
    simp only [denoted, hlex]
  · have hlex : lex (plain (decimalNat z.natAbs)) = [.word (decimalNat z.natAbs)] :=
      lexFrom_digits .bare [] hne hdigits fun b hb => stepBare_digit hb
    simp only [denoted, hlex]

end SqlText
