import DbService.DbCommandHandler
import DbService.SqlHoles

/-!
# Placeholders

QUERY and CALL replace `{0}`, `{1}` and so on by escaped arguments, one after the other, each
searched for in the text that has the earlier arguments in it already.  If every placeholder
stands left of the one before it, the loop fills the holes of a text with holes.  Where one
does not, the text of an earlier argument can take its place.

* `substituteArgs_pieces` -- the argument loop fills the holes;
* `templatePieces_eq_none` -- where a template cannot be cut into pieces;
* `substituteArgs_misplaced` -- an argument that takes another's place.
-/

namespace Db

open Reflection ByteText

/-! ## Placeholders -/

/-- A placeholder has one opening brace, at its start. -/
theorem placeholder_eq (i : Nat) :
    ∃ tail, placeholder i = 123 :: tail ∧ (123 : UInt8) ∉ tail := by
  refine ⟨decimalNat i ++ [125], rfl, ?_⟩
  intro hin
  rcases List.mem_append.mp hin with hdigit | hlast
  · exact absurd (isDigit_of_mem_decimalNat hdigit) (by decide)
  · exact absurd hlast (by decide)

theorem placeholder_ne_nil (i : Nat) : placeholder i ≠ [] := by simp [placeholder]

/-- Escaping leaves a text without special bytes as it is. -/
theorem escape_eq_self {s : Bytes} (h : ∀ b ∈ s, SqlText.escapeByte b = [b]) :
    SqlText.escape s = s := by
  induction s with
  | nil => rfl
  | cons b s ih =>
      rw [SqlText.escape_cons, h b List.mem_cons_self,
        ih fun c hc => h c (List.mem_cons_of_mem b hc)]
      rfl

/-- Escaping leaves the bytes of a placeholder alone: braces and digits have no names behind a
backslash. -/
theorem escapeByte_placeholder {i : Nat} {b : UInt8} (hb : b ∈ placeholder i) :
    SqlText.escapeByte b = [b] := by
  have hdigits : ∀ c : UInt8, isDigit c = true → SqlText.escapeByte c = [c] := by
    intro c hc
    have hne : ∀ d : UInt8, isDigit d = false → c ≠ d := by
      intro d hd heq
      rw [← heq, hc] at hd
      cases hd
    simp [SqlText.escapeByte, hne 0 (by decide), hne 10 (by decide), hne 13 (by decide),
      hne 26 (by decide), hne 92 (by decide), hne 39 (by decide), hne 34 (by decide)]
  simp only [placeholder, List.mem_cons, List.mem_append, List.not_mem_nil, or_false] at hb
  rcases hb with rfl | hdigit | rfl
  · rfl
  · exact hdigits b (isDigit_of_mem_decimalNat hdigit)
  · rfl

/-! ## Substitution -/

section Substitution

variable {esc : Bytes → Bytes}

/-- One round of the argument loop. -/
theorem substituteArgs_cons {i : Nat} {left right : Bytes}
    (hfind : find (placeholder i) (left ++ (placeholder i ++ right)) = some left.length)
    (szArg : Bytes) (rest : List Bytes) :
    substituteArgs esc i (szArg :: rest) (left ++ (placeholder i ++ right)) =
      substituteArgs esc (i + 1) rest (left ++ (esc szArg ++ right)) := by
  rw [substituteArgs, hfind]
  simp only
  rw [replace_append]

/-- What stands behind the placeholders has no part in it. -/
theorem substituteArgs_append {i : Nat} {args : List Bytes} {text out : Bytes}
    (h : substituteArgs esc i args text = some out) (rest : Bytes) :
    substituteArgs esc i args (text ++ rest) = some (out ++ rest) := by
  induction args generalizing i text with
  | nil =>
      obtain rfl := Option.some.inj h
      rfl
  | cons szArg args ih =>
      cases hfind : find (placeholder i) text with
      | none =>
          rw [substituteArgs, hfind] at h
          cases h
      | some pos =>
          obtain ⟨left, right, rfl, rfl⟩ := find_spec hfind
          have hfind' := find_append hfind rest
          rw [substituteArgs_cons hfind] at h
          have happend := ih h
          simp only [List.append_assoc] at happend hfind' ⊢
          rw [substituteArgs_cons hfind', happend]

/-- The arguments of a list are put in, and then those of the other, from where the first ends. -/
theorem substituteArgs_two (i : Nat) (args args' : List Bytes) (text : Bytes) :
    substituteArgs esc i (args ++ args') text =
      (substituteArgs esc i args text).bind (substituteArgs esc (i + args.length) args') := by
  induction args generalizing i text with
  | nil => rfl
  | cons szArg args ih =>
      rw [List.cons_append, substituteArgs, substituteArgs]
      split
      · rfl
      · rw [ih, List.length_cons, Nat.add_assoc, Nat.add_comm 1]

/-- Arguments that are their own placeholders change nothing. -/
theorem substituteArgs_self (i n : Nat) {text : Bytes}
    (h : ∀ j, i ≤ j → j < i + n → (find (placeholder j) text).isSome) :
    substituteArgs SqlText.escape i ((List.range' i n).map placeholder) text = some text := by
  induction n generalizing i with
  | zero => rfl
  | succ n ih =>
      obtain ⟨pos, hfind⟩ := Option.isSome_iff_exists.mp (h i (by omega) (by omega))
      obtain ⟨left, right, heq, rfl⟩ := find_spec hfind
      have hsame : SqlText.escape (placeholder i) = placeholder i :=
        escape_eq_self fun b hb => escapeByte_placeholder hb
      rw [List.range'_succ, List.map_cons, heq, substituteArgs_cons (heq ▸ hfind), hsame, ← heq]
      exact ih (i + 1) fun j hj hlt => h j (by omega) (by omega)

end Substitution

/-! ## The template as a text with holes -/

/-- A template whose placeholders, from `{i}` on, stand each left of the one before it, as a
text with holes. -/
def templatePieces : Nat → Nat → Bytes → Option (List SqlText.Piece)
  | _, 0, text => some (SqlText.plain text)
  | i, n + 1, text =>
      match find (placeholder i) text with
      | none => none
      | some pos =>
          (templatePieces (i + 1) n (text.take pos)).map fun left =>
            left ++ .hole i :: SqlText.plain (text.drop (pos + (placeholder i).length))

/-- The pieces of a template whose first placeholder is found: those of what stands left of it,
the hole, and what stands right of it as it is. -/
theorem templatePieces_succ {i : Nat} {left right : Bytes}
    (hfind : find (placeholder i) (left ++ (placeholder i ++ right)) = some left.length)
    (n : Nat) :
    templatePieces i (n + 1) (left ++ (placeholder i ++ right)) =
      (templatePieces (i + 1) n left).map fun pieces =>
        pieces ++ .hole i :: SqlText.plain right := by
  rw [templatePieces, hfind]
  simp

/-- What the first placeholder of a template leaves for the others. -/
theorem templatePieces_split {i n : Nat} {text : Bytes} {pieces : List SqlText.Piece}
    (h : templatePieces i (n + 1) text = some pieces) :
    ∃ left right pieces', text = left ++ (placeholder i ++ right) ∧
      find (placeholder i) text = some left.length ∧
      templatePieces (i + 1) n left = some pieces' ∧
      pieces = pieces' ++ .hole i :: SqlText.plain right := by
  cases hfind : find (placeholder i) text with
  | none =>
      rw [templatePieces, hfind] at h
      cases h
  | some pos =>
      obtain ⟨left, right, rfl, rfl⟩ := find_spec hfind
      rw [templatePieces_succ hfind] at h
      obtain ⟨pieces', hleft, rfl⟩ := Option.map_eq_some_iff.mp h
      exact ⟨left, right, pieces', rfl, rfl, hleft, rfl⟩

/-- The holes stand in the order opposite to their numbers, each once. -/
theorem templatePieces_holes {i n : Nat} {text : Bytes} {pieces : List SqlText.Piece}
    (h : templatePieces i n text = some pieces) :
    SqlText.holesOf pieces = (List.range' i n).reverse := by
  induction n generalizing i text pieces with
  | zero =>
      obtain rfl := Option.some.inj h
      simp
  | succ n ih =>
      obtain ⟨left, right, pieces', -, -, hleft, rfl⟩ := templatePieces_split h
      simp [ih hleft, List.range'_succ]

/-- The argument for hole `j` when the arguments start with that of hole `i`. -/
def argAt (i : Nat) (args : List Bytes) (j : Nat) : Bytes := args.getD (j - i) []

/-- **The argument loop fills the holes.** -/
theorem substituteArgs_pieces {i n : Nat} {text : Bytes} {pieces : List SqlText.Piece}
    (h : templatePieces i n text = some pieces) {args : List Bytes} (hlen : args.length = n) :
    ∃ out, substituteArgs SqlText.escape i args text = some out ∧
      SqlText.plain out = SqlText.fill (argAt i args) pieces := by
  induction n generalizing i text pieces args with
  | zero =>
      obtain rfl := List.length_eq_zero_iff.mp hlen
      obtain rfl := Option.some.inj h
      exact ⟨text, rfl, by simp⟩
  | succ n ih =>
      cases args with
      | nil => cases hlen
      | cons szArg rest =>
          obtain ⟨left, right, pieces', rfl, hfind, hleft, rfl⟩ := templatePieces_split h
          obtain ⟨out, hout, hfill⟩ := ih hleft (by simpa using hlen)
          refine ⟨out ++ (SqlText.escape szArg ++ right), ?_, ?_⟩
          · rw [substituteArgs_cons hfind]
            exact substituteArgs_append hout _
          · have hhole : argAt i (szArg :: rest) i = szArg := by simp [argAt]
            have hrest : SqlText.fill (argAt i (szArg :: rest)) pieces' =
                SqlText.fill (argAt (i + 1) rest) pieces' := by
              refine SqlText.fill_congr fun j hj => ?_
              rw [templatePieces_holes hleft, List.mem_reverse, List.mem_range'_1] at hj
              obtain ⟨d, rfl⟩ := Nat.exists_eq_add_of_le hj.1
              have hnext : i + 1 + d - i = d + 1 := by omega
              simp [argAt, hnext]
            rw [SqlText.fill_append, SqlText.fill_cons, SqlText.fill_hole, hhole, hrest,
              ← hfill, SqlText.fill_plain, SqlText.plain_append, SqlText.plain_append]

/-- **Where a template goes wrong:** its first placeholder is missing, or some placeholder
stands before its successor, or without it. -/
theorem templatePieces_eq_none {i n : Nat} {text : Bytes}
    (h : templatePieces i n text = none) :
    find (placeholder i) text = none ∨
      ∃ j left right, i ≤ j ∧ j + 1 < i + n ∧ text = left ++ (placeholder j ++ right) ∧
        find (placeholder j) text = some left.length ∧
        (∀ l, i ≤ l → l ≤ j → (find (placeholder l) text).isSome) ∧
        find (placeholder (j + 1)) left = none := by
  induction n generalizing i text with
  | zero => cases h
  | succ n ih =>
      cases hfind : find (placeholder i) text with
      | none => exact .inl rfl
      | some pos =>
          obtain ⟨left, right, rfl, rfl⟩ := find_spec hfind
          rw [templatePieces_succ hfind, Option.map_eq_none_iff] at h
          have hn : n ≠ 0 := by
            rintro rfl
            cases h
          rcases ih h with hnext | ⟨j, left', right', hij, hjn, heq, hfind', hbefore, hnext⟩
          · refine .inr ⟨i, left, right, le_rfl, by omega, rfl, hfind, ?_, hnext⟩
            intro l hil hli
            obtain rfl := Nat.le_antisymm hli hil
            rw [hfind]
            rfl
          · refine .inr ⟨j, left', right' ++ (placeholder i ++ right), by omega, by omega,
              by simp [heq], find_append hfind' _, ?_, hnext⟩
            intro l hil hlj
            rcases Nat.eq_or_lt_of_le hil with rfl | hlt
            · rw [hfind]
              rfl
            · obtain ⟨pos, hpos⟩ := Option.isSome_iff_exists.mp (hbefore l hlt hlj)
              rw [find_append hpos]
              rfl

/-! ## A placeholder that stands in the wrong place -/

/-- The placeholders behind `{j+1}`, of `k`. -/
def laterPlaceholders (j k : Nat) : Bytes :=
  (List.range' (j + 2) (k - (j + 2))).flatMap placeholder

/-- Argument `j` brings `{j+1}` along, with `szFront` in front of it, and the placeholders
behind; argument `j + 1` is `szArg`, and every other argument is its own placeholder. -/
def misplacedArgs (j k : Nat) (szFront szArg : Bytes) : List Bytes :=
  (List.range' 0 j).map placeholder ++
    (szFront ++ (placeholder (j + 1) ++ laterPlaceholders j k)) :: szArg ::
      (List.range' (j + 2) (k - (j + 2))).map placeholder

/-- There are as many arguments as the template has holes. -/
theorem length_misplacedArgs {j k : Nat} (hj : j + 1 < k) (szFront szArg : Bytes) :
    (misplacedArgs j k szFront szArg).length = k := by
  simp only [misplacedArgs, List.length_append, List.length_map, List.length_range',
    List.length_cons]
  omega

/-- Argument `j` has the placeholders from `j + 1` on in it, behind `szFront`. -/
theorem argAt_misplacedArgs (j k : Nat) (szFront szArg : Bytes) :
    argAt 0 (misplacedArgs j k szFront szArg) j =
      szFront ++ (placeholder (j + 1) ++ laterPlaceholders j k) := by
  simp [argAt, misplacedArgs]

/-- Those placeholders are not changed by escaping. -/
theorem escapeByte_laterPlaceholders {j k : Nat} {b : UInt8} (hb : b ∈ laterPlaceholders j k) :
    SqlText.escapeByte b = [b] := by
  obtain ⟨l, _, hbl⟩ := List.mem_flatMap.mp hb
  exact escapeByte_placeholder hbl

/-- **An argument that takes another's place:** `{j+1}` is found in argument `j`, and what
stands in front of it there and argument `j + 1` make one text. -/
theorem substituteArgs_misplaced {j k : Nat} {left right : Bytes}
    (hfind : find (placeholder j) (left ++ (placeholder j ++ right)) = some left.length)
    (hbefore : ∀ l ≤ j, (find (placeholder l) (left ++ (placeholder j ++ right))).isSome)
    {szFront szArg : Bytes} (hfront : ∀ b ∈ szFront, SqlText.escapeByte b = [b])
    (harg : SqlText.escape szArg = szArg)
    (hnext : find (placeholder (j + 1)) (left ++ szFront) = none) :
    substituteArgs SqlText.escape 0 (misplacedArgs j k szFront szArg)
        (left ++ (placeholder j ++ right)) =
      some (left ++ szFront ++ (szArg ++ (laterPlaceholders j k ++ right))) := by
  have hself : substituteArgs SqlText.escape 0 ((List.range' 0 j).map placeholder)
      (left ++ (placeholder j ++ right)) = some (left ++ (placeholder j ++ right)) :=
    substituteArgs_self 0 j fun l _ hl => hbefore l (by omega)
  have hescape : SqlText.escape (szFront ++ (placeholder (j + 1) ++ laterPlaceholders j k)) =
      szFront ++ (placeholder (j + 1) ++ laterPlaceholders j k) := by
    refine escape_eq_self fun b hb => ?_
    rcases List.mem_append.mp hb with hin | hin
    · exact hfront b hin
    · rcases List.mem_append.mp hin with hin | hin
      · exact escapeByte_placeholder hin
      · exact escapeByte_laterPlaceholders hin
  have hfind' : find (placeholder (j + 1)) ((left ++ szFront) ++
      (placeholder (j + 1) ++ (laterPlaceholders j k ++ right))) =
        some (left ++ szFront).length := by
    obtain ⟨tail, heq, htail⟩ := placeholder_eq (j + 1)
    rw [heq] at hnext ⊢
    exact find_append_self htail hnext _
  have hlater : ∀ l, j + 2 ≤ l → l < j + 2 + (k - (j + 2)) →
      (find (placeholder l)
        (left ++ szFront ++ (szArg ++ (laterPlaceholders j k ++ right)))).isSome := by
    intro l hjl hlk
    have hin : l ∈ List.range' (j + 2) (k - (j + 2)) := List.mem_range'_1.mpr ⟨hjl, hlk⟩
    obtain ⟨before, after, heq⟩ := List.append_of_mem hin
    have hsplit : left ++ szFront ++ (szArg ++ (laterPlaceholders j k ++ right)) =
        (left ++ szFront ++ szArg ++ before.flatMap placeholder) ++
          (placeholder l ++ (after.flatMap placeholder ++ right)) := by
      simp [laterPlaceholders, heq]
    rw [hsplit]
    exact find_isSome _ _ _
  have hshift : left ++ ((szFront ++ (placeholder (j + 1) ++ laterPlaceholders j k)) ++ right) =
      (left ++ szFront) ++ (placeholder (j + 1) ++ (laterPlaceholders j k ++ right)) := by
    simp
  rw [misplacedArgs, substituteArgs_two, hself, Option.bind_some, List.length_map,
    List.length_range', Nat.zero_add, substituteArgs_cons hfind, hescape, hshift,
    substituteArgs_cons hfind', harg]
  exact substituteArgs_self (j + 2) _ hlater

end Db
