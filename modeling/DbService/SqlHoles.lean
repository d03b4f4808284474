import DbService.SqlText

/-!
# Statements with holes

A text with holes (`Piece`) is lexed like a text: the lexer steps over a hole without looking at
what will stand there.  This module says where a hole may stand and what happens where it may not.
Inside a literal each hole is one place of one token.  Anywhere else there are bytes that leave the
place, even escaped: they end what they stand in, and a further `;` is a further token.  A line
comment is the one place that cannot be left, and no token takes notice of what stands in it.

Main results:

* `lexFrom_holes` -- with all holes in literals, the tokens have the holes of the text, in order;
* `tokens_fill_ne` -- then different arguments give different tokens;
* `exists_breakout` -- a hole anywhere else can be left by some escaped text;
* `lexFrom_lineComment` -- but for a line comment, where nothing shows.
-/

namespace SqlText

open ByteText

/-! ## The holes of a statement -/

/-- The holes of a text, by their numbers and in the order in which they stand.  A number comes as
often as its hole does. -/
def holesOf (ps : List Piece) : List Nat :=
  ps.filterMap fun p =>
    match p with
    | .byte _ => none
    | .hole i => some i

/-- The holes of a token: only a literal has a content in which holes can stand. -/
def Token.holes : Token → List Nat
  | .literal _ content _ => holesOf content
  | _ => []

/-- The holes of the literal that is being read.  They belong to no token yet, so they are counted
apart until it ends. -/
def Mode.holes : Mode → List Nat
  | .literal _ content | .literalEscape _ content | .literalQuote _ content => holesOf content
  | _ => []

/-- Holes are counted piece by piece. -/
@[simp] theorem holesOf_append (left right : List Piece) :
    holesOf (left ++ right) = holesOf left ++ holesOf right := List.filterMap_append

/-- A text without holes. -/
@[simp] theorem holesOf_plain (text : Bytes) : holesOf (plain text) = [] := by
  simp [holesOf, plain]

/-- A byte is no hole. -/
@[simp] theorem holesOf_byte (b : UInt8) (rest : List Piece) :
    holesOf (.byte b :: rest) = holesOf rest := rfl

/-- A hole comes before those of the rest. -/
@[simp] theorem holesOf_hole (i : Nat) (rest : List Piece) :
    holesOf (.hole i :: rest) = i :: holesOf rest := rfl

@[simp] theorem holesOf_nil : holesOf [] = [] := rfl

/-- In a text without holes every hole is well placed. -/
theorem guarded_plain (m : Mode) (text : Bytes) : Runs.Guarded step Placed m (plain text) := by
  induction text generalizing m with
  | nil => trivial
  | cons b text ih => exact ⟨by cases m <;> trivial, ih _⟩

/-- Outside of literals a byte makes no token with holes. -/
theorem stepBare_holes (b : UInt8) :
    (stepBare b).2.flatMap Token.holes = [] ∧ (stepBare b).1.holes = [] := by
  unfold stepBare
  split_ifs <;> exact ⟨rfl, rfl⟩

/-- Ending a token with a byte keeps the holes of the tokens made so far. -/
theorem endWith_holes (tokens : List Token) (b : UInt8) :
    (endWith tokens b).2.flatMap Token.holes ++ (endWith tokens b).1.holes =
      tokens.flatMap Token.holes := by
  obtain ⟨htokens, hmode⟩ := stepBare_holes b
  simp [endWith, htokens, hmode]

/-- No hole is lost: it is in a finished token or in the literal that is being read.  Where a hole
is well placed, that is within a literal, the tokeniser takes it into the content. -/
theorem step_holes {m : Mode} {p : Piece} (h : Placed m p) :
    (step m p).2.flatMap Token.holes ++ (step m p).1.holes = m.holes ++ holesOf [p] := by
  cases p with
  | byte b =>
      simp only [step, holesOf_byte, holesOf_nil, List.append_nil]
      cases m with
      | bare =>
          obtain ⟨htokens, hmode⟩ := stepBare_holes b
          rw [stepByte, htokens, hmode]
          rfl
      | word w =>
          simp only [stepByte]
          split_ifs
          · rfl
          · exact endWith_holes [.word w] b
      | dash =>
          simp only [stepByte]
          split_ifs
          · rfl
          · exact endWith_holes [.mark 45] b
      | dashDash =>
          simp only [stepByte]
          split_ifs
          · rfl
          · rfl
          · rfl
          · exact endWith_holes [.mark 45, .mark 45] b
      | slash =>
          simp only [stepByte]
          split_ifs
          · rfl
          · exact endWith_holes [.mark 47] b
      | slashStar =>
          simp only [stepByte]
          split_ifs <;> rfl
      | lineComment =>
          simp only [stepByte]
          split_ifs <;> rfl
      | comment =>
          simp only [stepByte]
          split_ifs <;> rfl
      | commentStar =>
          simp only [stepByte]
          split_ifs <;> rfl
      | literal q content =>
          simp only [stepByte]
          split_ifs <;> simp [Mode.holes]
      | literalEscape q content => simp [stepByte, Mode.holes]
      | literalQuote q content =>
          simp only [stepByte]
          split_ifs
          · simp [Mode.holes]
          · exact (endWith_holes [.literal q content true] b).trans (List.append_nil _)
      | name w =>
          simp only [stepByte]
          split_ifs <;> rfl
      | nameQuote w =>
          simp only [stepByte]
          split_ifs
          · rfl
          · exact endWith_holes [.name w] b
  | hole i =>
      cases m with
      | literal q content => simp [step, Mode.holes]
      | _ => exact absurd h id

/-- At the end of the text the token under way comes out, with the holes it has. -/
theorem finish_holes (m : Mode) : (finish m).flatMap Token.holes = m.holes := by
  cases m <;> simp [finish, Mode.holes, Token.holes]

/-- **The holes of the tokens** are those of the text, in order.  So what is known of the tokens,
whose literals keep their content, tells of every hole of the text. -/
theorem lexFrom_holes {m : Mode} {ps : List Piece} (h : Runs.Guarded step Placed m ps) :
    (lexFrom m ps).flatMap Token.holes = m.holes ++ holesOf ps := by
  induction ps generalizing m with
  | nil => simp [lexFrom, Runs.outputs, Runs.run, finish_holes]
  | cons p rest ih =>
      obtain ⟨hplaced, hrest⟩ := h
      rw [lexFrom_cons, List.flatMap_append, ih hrest, ← List.append_assoc, step_holes hplaced,
        List.append_assoc, ← holesOf_append]
      rfl

/-! ## Fillings that differ -/

/-- The two arguments are escaped to texts that differ in their first byte, so that no text behind
them can make up for the difference. -/
def Apart (s t : Bytes) : Prop :=
  ∃ b c left right, escape s = b :: left ∧ escape t = c :: right ∧ b ≠ c

variable {args args' : Nat → Bytes}

/-- **Where two fillings differ:** arguments that are the same or apart give different texts as
soon as one of them that is apart is used.  The induction is on the text, up to the first hole
that is apart. -/
theorem fill_ne (hargs : ∀ i, args i = args' i ∨ Apart (args i) (args' i)) {ps : List Piece}
    {i : Nat} (hi : i ∈ holesOf ps) (hapart : Apart (args i) (args' i)) :
    fill args ps ≠ fill args' ps := by
  induction ps with
  | nil => cases hi
  | cons p rest ih =>
      rw [fill_cons, fill_cons args']
      cases p with
      | byte b =>
          intro heq
          simp only [fill_byte, List.append_cancel_left_eq] at heq
          exact ih hi heq
      | hole j =>
          rw [fill_hole, fill_hole]
          rcases hargs j with hsame | ⟨b, c, left, right, hleft, hright, hne⟩
          · rw [hsame]
            intro heq
            rw [List.append_cancel_left_eq] at heq
            rcases List.mem_cons.mp hi with hij | hrest
            · subst hij
              obtain ⟨b, c, left, right, hleft, hright, hne⟩ := hapart
              rw [hsame, hright] at hleft
              exact hne (List.cons.inj hleft).1.symm
            · exact ih hrest heq
          · rw [hleft, hright]
            intro heq
            simp only [plain_cons, List.cons_append, List.cons.injEq, Piece.byte.injEq] at heq
            exact hne heq.1

/-- Filled with arguments that differ in a hole of one of them, the tokens differ: the content of
a literal is kept byte by byte. -/
theorem tokens_fill_ne (hargs : ∀ i, args i = args' i ∨ Apart (args i) (args' i))
    {ts : List Token} {i : Nat} (hi : i ∈ ts.flatMap Token.holes)
    (hapart : Apart (args i) (args' i)) :
    ts.map (Token.fill args) ≠ ts.map (Token.fill args') := by
  obtain ⟨token, hin, hhole⟩ := List.mem_flatMap.mp hi
  intro heq
  have htoken := List.map_inj_left.mp heq token hin
  cases token with
  | literal q content closed =>
      simp only [Token.fill, Token.literal.injEq, true_and, and_true] at htoken
      exact fill_ne hargs hhole hapart htoken
  | word w => cases hhole
  | mark b => cases hhole
  | name w => cases hhole

/-- Bytes outside the holes stay, so the filled text is not empty. -/
theorem fill_ne_nil {ps : List Piece} {b : UInt8} (hb : .byte b ∈ ps) (args : Nat → Bytes) :
    fill args ps ≠ [] := by
  intro hnil
  have hin : Piece.byte b ∈ fill args ps :=
    List.mem_flatMap.mpr ⟨.byte b, hb, List.mem_singleton_self _⟩
  rw [hnil] at hin
  cases hin

/-- Only the arguments of its holes matter to a text, so arguments that agree on these fill it
alike. -/
theorem fill_congr {ps : List Piece} (h : ∀ i ∈ holesOf ps, args i = args' i) :
    fill args ps = fill args' ps := by
  induction ps with
  | nil => rfl
  | cons p rest ih =>
      rw [fill_cons, fill_cons args']
      cases p with
      | byte b => rw [fill_byte, fill_byte, ih h]
      | hole j =>
          rw [fill_hole, fill_hole, h j List.mem_cons_self,
            ih fun i hi => h i (List.mem_cons_of_mem j hi)]

/-- Escaping leaves no text empty. -/
theorem escape_ne_nil {s : Bytes} (hs : s ≠ []) : escape s ≠ [] := by
  cases s with
  | nil => exact absurd rfl hs
  | cons b s =>
      rw [escape_cons]
      rcases escapeByte_cases b with ⟨c, heq, _⟩ | ⟨heq, _⟩ <;> simp [heq]

/-- `s` for hole `i` and nothing for the others: the arguments with which one hole of a text is
looked at by itself. -/
def only (i : Nat) (s : Bytes) (j : Nat) : Bytes := if j = i then s else []

/-- Where the hole does not occur, what would stand in it does not matter. -/
theorem fill_only_of_notMem {i : Nat} {ps : List Piece} (hi : i ∉ holesOf ps) (s : Bytes) :
    fill (only i s) ps = fill (only i []) ps := by
  refine fill_congr fun j hj => ?_
  have hne : j ≠ i := fun heq => hi (heq ▸ hj)
  simp [only, hne]

/-- A text that consists of holes is empty when they are. -/
theorem fill_only_nil {i : Nat} {ps : List Piece} (hps : ∀ b, .byte b ∉ ps) :
    fill (only i []) ps = [] := by
  induction ps with
  | nil => rfl
  | cons p rest ih =>
      cases p with
      | byte b => exact absurd List.mem_cons_self (hps b)
      | hole j =>
          rw [fill_cons, fill_hole, ih fun b hb => hps b (List.mem_cons_of_mem _ hb)]
          simp [only, escape, plain]

/-- A letter for hole `i` makes a text longer by one byte for each place of the hole. -/
theorem length_fill_only (i : Nat) (ps : List Piece) :
    (fill (only i [120]) ps).length = (fill (only i []) ps).length + (holesOf ps).count i := by
  induction ps with
  | nil => rfl
  | cons p rest ih =>
      rw [fill_cons, fill_cons (only i []), List.length_append, List.length_append, ih]
      cases p with
      | byte b =>
          simp only [fill_byte, holesOf_byte]
          omega
      | hole j =>
          rw [fill_hole, fill_hole, holesOf_hole, List.count_cons]
          by_cases hj : j = i
          · subst hj
            simp [only, escape, escapeByte, plain]
            omega
          · simp [only, hj, escape, plain]

/-- One letter more in the holes is at most one byte more in the last literal, since no hole is
filled twice there.  So a literal that grows by more shows a hole that stands twice. -/
theorem length_last_literal {ts tokens tokens' : List Token} {i : Nat} {q q' : Quote}
    {content content' : List Piece} {closed closed' : Bool}
    (hcount : (ts.flatMap Token.holes).count i ≤ 1)
    (hempty : ts.map (Token.fill (only i [])) = tokens ++ [.literal q content closed])
    (hletter : ts.map (Token.fill (only i [120])) = tokens' ++ [.literal q' content' closed']) :
    content'.length ≤ content.length + 1 := by
  have hlast := congrArg List.getLast? hempty
  have hlast' := congrArg List.getLast? hletter
  rw [List.getLast?_map, List.getLast?_concat, Option.map_eq_some_iff] at hlast hlast'
  obtain ⟨t, ht, hfill⟩ := hlast
  obtain ⟨t', ht', hfill'⟩ := hlast'
  rw [ht, Option.some.injEq] at ht'
  subst ht'
  cases t with
  | literal q'' holes closed'' =>
      simp only [Token.fill, Token.literal.injEq] at hfill hfill'
      have hone : (holesOf holes).count i ≤ 1 := by
        have hin : Token.literal q'' holes closed'' ∈ ts := List.mem_of_getLast? ht
        have hsub : (holesOf holes).Sublist (ts.map Token.holes).flatten :=
          List.sublist_flatten_of_mem (List.mem_map_of_mem hin)
        exact (hsub.count_le i).trans hcount
      rw [← hfill.2.1, ← hfill'.2.1, length_fill_only]
      omega
  | word w => cases hfill
  | mark b => cases hfill
  | name w => cases hfill

/-! ## Breaking out -/

/-- **Escaped bytes lead out** of every place but a literal and a line comment.  Escaping keeps
quotes from ending a literal and nothing else: a space ends a word, and the two bytes that end a
comment are not escaped. -/
theorem exists_breakout {m : Mode} (hliteral : ∀ q content, m ≠ .literal q content)
    (hline : m ≠ .lineComment) : ∃ s, s ≠ [] ∧ Runs.run step m (plain (escape s)) = .bare := by
  cases m with
  | bare => exact ⟨[59], by simp, rfl⟩
  | word w => exact ⟨[59], by simp, rfl⟩
  | dash => exact ⟨[59], by simp, rfl⟩
  | dashDash => exact ⟨[59], by simp, rfl⟩
  | slash => exact ⟨[59], by simp, rfl⟩
  | slashStar => exact ⟨[42, 47], by simp, rfl⟩
  | lineComment => exact absurd rfl hline
  | comment => exact ⟨[42, 47], by simp, rfl⟩
  | commentStar => exact ⟨[42, 47], by simp, rfl⟩
  | literal q content => exact absurd rfl (hliteral q content)
  | literalEscape q content =>
      -- The backslash of the escape is the one that is escaped.
      cases q with
      | single => exact ⟨[39, 59], by simp, rfl⟩
      | double => exact ⟨[34, 59], by simp, rfl⟩
  | literalQuote q content =>
      cases q with
      | single => exact ⟨[59], by simp, rfl⟩
      | double => exact ⟨[59], by simp, rfl⟩
  | name w => exact ⟨[96, 59], by simp, rfl⟩
  | nameQuote w => exact ⟨[59], by simp, rfl⟩

/-- Outside everything, one `;` more is one token more, whatever follows, so that two arguments
that lead out give statements of different lengths. -/
theorem length_breakout {m : Mode} {s : Bytes}
    (hbare : Runs.run step m (plain (escape s)) = .bare) (rest : List Piece) :
    (lexFrom m (plain (escape (s ++ [59])) ++ rest)).length =
      (lexFrom m (plain (escape s) ++ rest)).length + 1 := by
  have hescape : plain (escape (s ++ [59])) ++ rest =
      plain (escape s) ++ (.byte 59 :: rest) := by
    rw [escape, List.flatMap_append, plain_append, List.append_assoc]
    rfl
  have hmark : step .bare (.byte 59) = (.bare, [.mark 59]) := by decide
  rw [hescape, lexFrom_append, lexFrom_append, hbare, lexFrom_cons, hmark]
  simp only [List.length_append, List.length_singleton]
  omega

/-- A line comment takes no notice of letters: the two arguments give the same tokens, so that a
statement does not tell what stood in the hole. -/
theorem lexFrom_lineComment (rest : List Piece) :
    lexFrom .lineComment (plain (escape [120]) ++ rest) = lexFrom .lineComment rest ∧
      lexFrom .lineComment (plain (escape [121]) ++ rest) = lexFrom .lineComment rest := by
  constructor
  · rfl
  · rfl

end SqlText
