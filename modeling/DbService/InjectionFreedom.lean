import DbService.Placeholders

/-!
# Injection freedom

The statements made from one template, for all arguments.  Escaping protects only inside
quotes, and a placeholder that comes back with an argument is replaced like one of the
template.  So the arguments stay where they belong exactly if every placeholder stands inside
a literal and left of the one before it.

* `Harmless.injectionFree` -- placeholders inside literals are enough;
* `InjectionFree.placed` -- and one outside of a literal lets an argument out;
* `injectionFree_iff` -- the templates that are injection free.
-/

namespace Db

open Reflection ByteText

/-! ## Injection freedom -/

/-- **Injection freedom** of what is sent for `k` arguments: the statements all have the same
tokens, but for one place inside a literal for each argument, where its escaped bytes
stand. -/
def InjectionFree (sent : List Bytes → Bytes → Prop) (k : Nat) : Prop :=
  ∃ ts : List SqlText.Token,
    (∀ i < k, (ts.flatMap SqlText.Token.holes).count i = 1) ∧
    ∀ args : List Bytes, args.length = k → ∀ text, sent args text →
      SqlText.lex (SqlText.plain text) = ts.map (SqlText.Token.fill (argAt 0 args))

/-- Tokens that are the same, or literals that differ in what they contain. -/
def SameButContent (t t' : SqlText.Token) : Prop :=
  t = t' ∨ ∃ q content content' closed,
    t = .literal q content closed ∧ t' = .literal q content' closed

/-- Two statements that are sent differ only in the contents of literals. -/
theorem InjectionFree.sameButContent {sent : List Bytes → Bytes → Prop} {k : Nat}
    (h : InjectionFree sent k) {args args' : List Bytes} {text text' : Bytes}
    (hlen : args.length = k) (hlen' : args'.length = k) (hsent : sent args text)
    (hsent' : sent args' text') :
    List.Forall₂ SameButContent (SqlText.lex (SqlText.plain text))
      (SqlText.lex (SqlText.plain text')) := by
  obtain ⟨ts, _, htokens⟩ := h
  rw [htokens args hlen text hsent, htokens args' hlen' text' hsent',
    List.forall₂_map_left_iff, List.forall₂_map_right_iff, List.forall₂_same]
  intro token _
  cases token with
  | literal q content closed => exact .inr ⟨q, _, _, closed, rfl, rfl⟩
  | word w => exact .inl rfl
  | mark b => exact .inl rfl
  | name w => exact .inl rfl

/-- The statements made from a template: the handler wraps the substituted text. -/
def Substituted (sqlText : Bytes → Bytes) (template : Bytes) (args : List Bytes)
    (text : Bytes) : Prop :=
  ∃ szSQL, substituteArgs SqlText.escape 0 args template = some szSQL ∧ text = sqlText szSQL

/-- How a handler wraps a text: `head` in front of it, unless it is empty.  If the head ends
inside a literal, leaving it out leaves out bytes of this literal. -/
structure Wraps (sqlText : Bytes → Bytes) (head : Bytes) : Prop where
  wrap : ∀ text, text ≠ [] → sqlText text = head ++ text
  empty : ∀ q content,
    Runs.run SqlText.step .bare (SqlText.plain head) = .literal q content →
    ∃ content', content'.length + 1 < content.length ∧
      SqlText.lex (SqlText.plain (sqlText [])) =
        (Runs.outputs SqlText.step .bare (SqlText.plain head)).flatten ++
          [.literal q content' false]

/-- **Templates nothing leaves its place in:** no argument is ever substituted, or every
placeholder stands inside a literal, left of the one before it; and there is more than
placeholders. -/
def Harmless (head template : Bytes) (k : Nat) : Prop :=
  find (placeholder 0) template = none ∨
    ∃ pieces, templatePieces 0 k template = some pieces ∧
      Runs.Guarded SqlText.step SqlText.Placed
        (Runs.run SqlText.step .bare (SqlText.plain head)) pieces ∧
      (k = 0 ∨ ∃ b, .byte b ∈ pieces)

/-- A head has no holes. -/
theorem guarded_head {head : Bytes} {pieces : List SqlText.Piece}
    (h : Runs.Guarded SqlText.step SqlText.Placed
      (Runs.run SqlText.step .bare (SqlText.plain head)) pieces) :
    Runs.Guarded SqlText.step SqlText.Placed .bare (SqlText.plain head ++ pieces) :=
  Runs.guarded_append.mpr ⟨SqlText.guarded_plain .bare head, h⟩

section Sufficient

variable {sqlText : Bytes → Bytes} {head template : Bytes} {k : Nat}

/-- Where nothing is sent there is nothing to show. -/
theorem injectionFree_of_unsent {sent : List Bytes → Bytes → Prop}
    (h : ∀ args : List Bytes, args.length = k → ∀ text, ¬ sent args text) :
    InjectionFree sent k := by
  refine ⟨[.literal .single ((List.range k).map .hole) true], ?_, ?_⟩
  · intro i hi
    have hholes : SqlText.holesOf ((List.range k).map .hole) = List.range k := by
      simp [SqlText.holesOf, List.filterMap_map]
    simp only [List.flatMap_cons, List.flatMap_nil, List.append_nil, SqlText.Token.holes, hholes]
    exact List.count_eq_one_of_mem List.nodup_range (List.mem_range.mpr hi)
  · intro args hlen text hsent
    exact absurd hsent (h args hlen text)

theorem injectionFree_of_no_arguments :
    InjectionFree (Substituted sqlText template) 0 := by
  refine ⟨SqlText.lex (SqlText.plain (sqlText template)), nofun, ?_⟩
  intro args hlen text hsent
  obtain rfl := List.length_eq_zero_iff.mp hlen
  obtain ⟨szSQL, hsubst, rfl⟩ := hsent
  obtain rfl := Option.some.inj hsubst
  have hfill := SqlText.lex_fill (argAt 0 []) (SqlText.guarded_plain .bare (sqlText template))
  rw [SqlText.fill_plain] at hfill
  exact hfill

/-- **Placeholders inside literals are enough.** -/
theorem injectionFree_of_placed (hwraps : Wraps sqlText head) {pieces : List SqlText.Piece}
    (hpieces : templatePieces 0 k template = some pieces)
    (hplaced : Runs.Guarded SqlText.step SqlText.Placed
      (Runs.run SqlText.step .bare (SqlText.plain head)) pieces)
    {b : UInt8} (hb : .byte b ∈ pieces) : InjectionFree (Substituted sqlText template) k := by
  have hguarded := guarded_head hplaced
  have hholes := templatePieces_holes hpieces
  refine ⟨SqlText.lex (SqlText.plain head ++ pieces), ?_, ?_⟩
  · intro i hi
    rw [SqlText.lex, SqlText.lexFrom_holes hguarded, SqlText.holesOf_append,
      SqlText.holesOf_plain, hholes]
    simp only [SqlText.Mode.holes, List.nil_append, List.count_reverse]
    exact List.count_eq_one_of_mem (List.nodup_range' ..) (by simp; omega)
  · intro args hlen text hsent
    obtain ⟨szSQL, hsubst, rfl⟩ := hsent
    obtain ⟨out, hout, hfill⟩ := substituteArgs_pieces hpieces hlen
    rw [hsubst, Option.some.injEq] at hout
    subst hout
    have hne : szSQL ≠ [] := by
      intro hnil
      rw [hnil] at hfill
      exact SqlText.fill_ne_nil hb _ hfill.symm
    have htokens := SqlText.lex_fill (argAt 0 args) hguarded
    rw [SqlText.fill_append, SqlText.fill_plain, ← hfill, ← SqlText.plain_append,
      ← hwraps.wrap szSQL hne] at htokens
    exact htokens

/-- **Harmless templates are injection free.** -/
theorem Harmless.injectionFree (hwraps : Wraps sqlText head) (h : Harmless head template k) :
    InjectionFree (Substituted sqlText template) k := by
  rcases h with hmissing | ⟨pieces, hpieces, hplaced, hbyte⟩
  · cases k with
    | zero => exact injectionFree_of_no_arguments
    | succ k =>
        apply injectionFree_of_unsent
        intro args hlen text hsent
        obtain ⟨szSQL, hsubst, _⟩ := hsent
        cases args with
        | nil => cases hlen
        | cons szArg rest =>
            rw [substituteArgs, hmissing] at hsubst
            cases hsubst
  · rcases hbyte with hzero | ⟨b, hb⟩
    · subst hzero
      exact injectionFree_of_no_arguments
    · exact injectionFree_of_placed hwraps hpieces hplaced hb

end Sufficient

section Necessary

variable {sqlText : Bytes → Bytes} {head template : Bytes} {k : Nat}

theorem exists_only {i : Nat} (hi : i < k) (szArg : Bytes) :
    ∃ args : List Bytes, args.length = k ∧ argAt 0 args = SqlText.only i szArg := by
  refine ⟨(List.range k).map (SqlText.only i szArg), by simp, ?_⟩
  funext j
  rw [argAt, Nat.sub_zero, List.getD_eq_getElem?_getD, List.getElem?_map]
  by_cases hj : j < k
  · simp [hj]
  · have hne : j ≠ i := by omega
    simp [hj, SqlText.only, hne]

/-- What is sent for one argument alone. -/
theorem InjectionFree.only_tokens (h : InjectionFree (Substituted sqlText template) k)
    {pieces : List SqlText.Piece} (hpieces : templatePieces 0 k template = some pieces) :
    ∃ ts : List SqlText.Token, (∀ i < k, (ts.flatMap SqlText.Token.holes).count i = 1) ∧
      ∀ i < k, ∀ szArg, ∃ out, SqlText.plain out = SqlText.fill (SqlText.only i szArg) pieces ∧
        SqlText.lex (SqlText.plain (sqlText out)) =
          ts.map (SqlText.Token.fill (SqlText.only i szArg)) := by
  obtain ⟨ts, hcount, htokens⟩ := h
  refine ⟨ts, hcount, ?_⟩
  intro i hi szArg
  obtain ⟨args, hlen, hargs⟩ := exists_only hi szArg
  obtain ⟨out, hsubst, hfill⟩ := substituteArgs_pieces hpieces hlen
  refine ⟨out, by rw [hfill, hargs], ?_⟩
  rw [htokens args hlen (sqlText out) ⟨out, hsubst, rfl⟩, hargs]

/-- The tokens around a hole. -/
theorem lex_around {left right : List SqlText.Piece} {i : Nat}
    (hleft : Runs.Guarded SqlText.step SqlText.Placed
      (Runs.run SqlText.step .bare (SqlText.plain head)) left)
    (hnotleft : i ∉ SqlText.holesOf left) (hnotright : i ∉ SqlText.holesOf right)
    (szArg : Bytes) :
    SqlText.lex (SqlText.plain head ++
        SqlText.fill (SqlText.only i szArg) (left ++ .hole i :: right)) =
      ((Runs.outputs SqlText.step .bare (SqlText.plain head ++ left)).flatten.map
          (SqlText.Token.fill (SqlText.only i []))) ++
        SqlText.lexFrom ((Runs.run SqlText.step
            (Runs.run SqlText.step .bare (SqlText.plain head)) left).fill (SqlText.only i []))
          (SqlText.plain (SqlText.escape szArg) ++
            SqlText.fill (SqlText.only i []) right) := by
  obtain ⟨hrun, hout⟩ := SqlText.run_fill (SqlText.only i []) (guarded_head hleft)
  rw [SqlText.fill_append, SqlText.fill_plain] at hrun hout
  have hhole : SqlText.only i szArg i = szArg := by simp [SqlText.only]
  rw [SqlText.fill_append, SqlText.fill_cons, SqlText.fill_hole, hhole,
    SqlText.fill_only_of_notMem hnotleft, SqlText.fill_only_of_notMem hnotright,
    ← List.append_assoc, SqlText.lex, SqlText.lexFrom_append, ← Runs.run_append]
  exact congrArg₂ (fun tokens mode => tokens ++ SqlText.lexFrom mode
    (SqlText.plain (SqlText.escape szArg) ++ SqlText.fill (SqlText.only i []) right)) hout hrun

/-- A filled mode is a literal only if it was one. -/
theorem fill_ne_literal {m : SqlText.Mode} {i : Nat} (h : ¬ SqlText.Placed m (.hole i))
    (args : Nat → Bytes) (q : SqlText.Quote) (content : List SqlText.Piece) :
    m.fill args ≠ .literal q content := by
  cases m with
  | literal q' content' => exact absurd trivial h
  | _ => nofun

/-- All that is sent for argument `i` alone, with its bytes where the hole was. -/
theorem InjectionFree.tokens_around (hwraps : Wraps sqlText head)
    (h : InjectionFree (Substituted sqlText template) k) {left right : List SqlText.Piece}
    {i : Nat} (hpieces : templatePieces 0 k template = some (left ++ .hole i :: right))
    (hleft : Runs.Guarded SqlText.step SqlText.Placed
      (Runs.run SqlText.step .bare (SqlText.plain head)) left) :
    ∃ ts tokens : List SqlText.Token, i ∈ ts.flatMap SqlText.Token.holes ∧
      ∀ szArg : Bytes, szArg ≠ [] → ts.map (SqlText.Token.fill (SqlText.only i szArg)) =
        tokens ++ SqlText.lexFrom ((Runs.run SqlText.step
            (Runs.run SqlText.step .bare (SqlText.plain head)) left).fill (SqlText.only i []))
          (SqlText.plain (SqlText.escape szArg) ++
            SqlText.fill (SqlText.only i []) right) := by
  obtain ⟨ts, hcount, htokens⟩ := h.only_tokens hpieces
  have hholes : SqlText.holesOf left ++ i :: SqlText.holesOf right =
      (List.range' 0 k).reverse := by
    rw [← templatePieces_holes hpieces]
    simp
  have hik : i < k := by
    have hin : i ∈ (List.range' 0 k).reverse := by simp [← hholes]
    simpa using hin
  have hnodup : (SqlText.holesOf left ++ i :: SqlText.holesOf right).Nodup := by
    rw [hholes, List.nodup_reverse]
    exact List.nodup_range' ..
  rw [List.nodup_middle, List.nodup_cons, List.mem_append, not_or] at hnodup
  obtain ⟨⟨hnotleft, hnotright⟩, _⟩ := hnodup
  have hin : i ∈ ts.flatMap SqlText.Token.holes := by
    apply List.count_pos_iff.mp
    rw [hcount i hik]
    exact Nat.one_pos
  refine ⟨ts, (Runs.outputs SqlText.step .bare (SqlText.plain head ++ left)).flatten.map
    (SqlText.Token.fill (SqlText.only i [])), hin, ?_⟩
  intro szArg hne
  obtain ⟨out, hfill, hlex⟩ := htokens i hik szArg
  have hout : out ≠ [] := by
    intro hnil
    rw [hnil, SqlText.fill_append, SqlText.fill_cons, SqlText.fill_hole] at hfill
    have hlen := congrArg List.length hfill
    have hpos := List.length_pos_of_ne_nil (SqlText.escape_ne_nil hne)
    simp only [SqlText.only, if_true, SqlText.plain, List.length_append, List.length_map,
      List.length_nil] at hlen
    omega
  rw [hwraps.wrap out hout, SqlText.plain_append, hfill,
    lex_around hleft hnotleft hnotright] at hlex
  exact hlex.symm

/-- **A placeholder outside a literal lets an argument out.** -/
theorem InjectionFree.placed (hwraps : Wraps sqlText head)
    (h : InjectionFree (Substituted sqlText template) k) {pieces : List SqlText.Piece}
    (hpieces : templatePieces 0 k template = some pieces) :
    Runs.Guarded SqlText.step SqlText.Placed
      (Runs.run SqlText.step .bare (SqlText.plain head)) pieces := by
  by_contra hbad
  obtain ⟨left, p, right, rfl, hleft, hp⟩ := Runs.exists_first hbad
  cases p with
  | byte b =>
      apply hp
      cases Runs.run SqlText.step (Runs.run SqlText.step .bare (SqlText.plain head)) left <;>
        trivial
  | hole i =>
      obtain ⟨ts, tokens, hin, haround⟩ := h.tokens_around hwraps hpieces hleft
      have hliteral := fill_ne_literal hp (SqlText.only i [])
      generalize (Runs.run SqlText.step (Runs.run SqlText.step .bare (SqlText.plain head))
        left).fill (SqlText.only i []) = m at haround hliteral
      by_cases hline : m = .lineComment
      · -- What stands in the comment is in no token.
        subst hline
        have hx := haround [120] (by simp)
        have hy := haround [121] (by simp)
        obtain ⟨hlexx, hlexy⟩ :=
          SqlText.lexFrom_lineComment (SqlText.fill (SqlText.only i []) right)
        rw [hlexx] at hx
        rw [hlexy, ← hx] at hy
        have hapart : SqlText.Apart (SqlText.only i [121] i) (SqlText.only i [120] i) := by
          simp only [SqlText.only, if_true]
          exact ⟨121, 120, [], [], rfl, rfl, by decide⟩
        refine SqlText.tokens_fill_ne ?_ hin hapart hy
        intro j
        by_cases hj : j = i
        · subst hj
          exact .inr hapart
        · simp [SqlText.only, hj]
      · obtain ⟨s, hs, hbare⟩ := SqlText.exists_breakout hliteral hline
        have hone := congrArg List.length (haround s hs)
        have htwo := congrArg List.length (haround (s ++ [59]) (by simp))
        rw [List.length_map, List.length_append] at hone htwo
        rw [SqlText.length_breakout hbare] at htwo
        omega

/-- **A template of placeholders alone** can be emptied, and the head goes with it. -/
theorem InjectionFree.exists_byte (hwraps : Wraps sqlText head)
    (h : InjectionFree (Substituted sqlText template) k) {pieces : List SqlText.Piece}
    (hpieces : templatePieces 0 k template = some pieces) (hk : k ≠ 0) :
    ∃ b, .byte b ∈ pieces := by
  by_contra hnone
  have hbytes : ∀ b, .byte b ∉ pieces := fun b hb => hnone ⟨b, hb⟩
  have hplaced := h.placed hwraps hpieces
  obtain ⟨ts, hcount, htokens⟩ := h.only_tokens hpieces
  have hholes := templatePieces_holes hpieces
  cases pieces with
  | nil => simp [hk] at hholes
  | cons p rest =>
      cases p with
      | byte b => exact hbytes b List.mem_cons_self
      | hole i =>
          have hik : i < k := by
            have hin : i ∈ (List.range' 0 k).reverse := by simp [← hholes]
            simpa using hin
          have hnotrest : i ∉ SqlText.holesOf rest := by
            have hnodup : (SqlText.holesOf (.hole i :: rest)).Nodup := by
              rw [hholes, List.nodup_reverse]
              exact List.nodup_range' ..
            exact (List.nodup_cons.mp hnodup).1
          have hrest : SqlText.fill (SqlText.only i []) rest = [] :=
            SqlText.fill_only_nil fun b hb => hbytes b (List.mem_cons_of_mem _ hb)
          -- The head ends in a literal, since the first hole stands in one.
          obtain ⟨hfirst, _⟩ := hplaced
          cases hmode : Runs.run SqlText.step .bare (SqlText.plain head) with
          | literal q content =>
              obtain ⟨content', hshorter, hempty⟩ := hwraps.empty q content hmode
              obtain ⟨out, hfill, hlex⟩ := htokens i hik []
              obtain ⟨out', hfill', hlex'⟩ := htokens i hik [120]
              rw [SqlText.fill_cons, SqlText.fill_hole, hrest] at hfill
              obtain rfl : out = [] := by
                simpa [SqlText.only, SqlText.escape, SqlText.plain] using hfill
              rw [SqlText.fill_cons, SqlText.fill_hole, SqlText.fill_only_of_notMem hnotrest,
                hrest] at hfill'
              obtain rfl : out' = [120] := by
                simpa [SqlText.only, SqlText.escape, SqlText.escapeByte, SqlText.plain]
                  using hfill'
              have hletter : SqlText.lexFrom (.literal q content) (SqlText.plain [120]) =
                  [.literal q (content ++ [.byte 120]) false] := by
                cases q <;> rfl
              rw [hwraps.wrap [120] (by simp), SqlText.plain_append, SqlText.lex,
                SqlText.lexFrom_append, hmode, hletter] at hlex'
              rw [hempty] at hlex
              have hlen := SqlText.length_last_literal (hcount i hik).le hlex.symm hlex'.symm
              rw [List.length_append, List.length_singleton] at hlen
              omega
          | _ =>
              rw [hmode] at hfirst
              exact absurd hfirst id

/-- Argument lists that differ in two places. -/
theorem argAt_two {szArg₁ szArg₁' szArg₂ szArg₂' : Bytes} (hapart₁ : SqlText.Apart szArg₁ szArg₁')
    (hapart₂ : SqlText.Apart szArg₂ szArg₂') (left right : List Bytes) (i : Nat) :
    argAt 0 (left ++ szArg₁ :: szArg₂ :: right) i =
        argAt 0 (left ++ szArg₁' :: szArg₂' :: right) i ∨
      SqlText.Apart (argAt 0 (left ++ szArg₁ :: szArg₂ :: right) i)
        (argAt 0 (left ++ szArg₁' :: szArg₂' :: right) i) := by
  induction left generalizing i with
  | nil =>
      match i with
      | 0 => exact .inr hapart₁
      | 1 => exact .inr hapart₂
      | i + 2 => exact .inl rfl
  | cons szArg left ih =>
      cases i with
      | zero => exact .inl rfl
      | succ i => exact ih i

/-- **A placeholder that does not stand left of the one before it** can be brought along by
the argument of that one: two lists of arguments send the same statement. -/
theorem InjectionFree.templatePieces_ne_none
    (h : InjectionFree (Substituted sqlText template) k)
    (hfirst : find (placeholder 0) template ≠ none) : templatePieces 0 k template ≠ none := by
  intro hnone
  rcases templatePieces_eq_none hnone with hmissing | ⟨j, left, right, _, hjk, rfl, hfind,
    hbefore, hnext⟩
  · exact hfirst hmissing
  · rw [Nat.zero_add] at hjk
    obtain ⟨ts, hcount, htokens⟩ := h
    have hall : ∀ l ≤ j, (find (placeholder l) (left ++ (placeholder j ++ right))).isSome :=
      fun l hl => hbefore l (Nat.zero_le l) hl
    -- `{j+1}` and then `xz`, against `x{j+1}` and then `z`
    have hsent : substituteArgs SqlText.escape 0 (misplacedArgs j k [] [120, 122])
        (left ++ (placeholder j ++ right)) =
          some (left ++ [] ++ ([120, 122] ++ (laterPlaceholders j k ++ right))) :=
      substituteArgs_misplaced hfind hall nofun rfl (by rwa [List.append_nil])
    have hsent' : substituteArgs SqlText.escape 0 (misplacedArgs j k [120] [122])
        (left ++ (placeholder j ++ right)) =
          some (left ++ [120] ++ ([122] ++ (laterPlaceholders j k ++ right))) := by
      apply substituteArgs_misplaced hfind hall (by simp [SqlText.escapeByte]) rfl
      refine find_concat_eq_none (placeholder_ne_nil _) ?_ hnext
      intro init heq
      have hlast := congrArg List.getLast? heq
      rw [placeholder, ← List.cons_append, List.getLast?_concat, List.getLast?_concat] at hlast
      exact absurd (Option.some.inj hlast) (by decide)
    have htext : left ++ [120] ++ ([122] ++ (laterPlaceholders j k ++ right)) =
        left ++ [] ++ ([120, 122] ++ (laterPlaceholders j k ++ right)) := by
      simp
    have htoken := htokens _ (length_misplacedArgs hjk _ _) _ ⟨_, hsent, rfl⟩
    have htoken' := htokens _ (length_misplacedArgs hjk _ _) _ ⟨_, hsent', rfl⟩
    rw [htext, htoken] at htoken'
    have hfirstApart : SqlText.Apart ([] ++ (placeholder (j + 1) ++ laterPlaceholders j k))
        ([120] ++ (placeholder (j + 1) ++ laterPlaceholders j k)) :=
      ⟨123, 120, _, _, rfl, rfl, by decide⟩
    have hsecondApart : SqlText.Apart [120, 122] [122] :=
      ⟨120, 122, _, _, rfl, rfl, by decide⟩
    have hin : j ∈ ts.flatMap SqlText.Token.holes := by
      apply List.count_pos_iff.mp
      rw [hcount j (by omega)]
      exact Nat.one_pos
    refine SqlText.tokens_fill_ne (argAt_two hfirstApart hsecondApart _ _) hin ?_ htoken'
    have hfront := argAt_misplacedArgs j k [] [120, 122]
    have hfront' := argAt_misplacedArgs j k [120] [122]
    rw [← hfront, ← hfront'] at hfirstApart
    exact hfirstApart

end Necessary

/-- **The templates that are injection free** are the harmless ones. -/
theorem injectionFree_iff {sqlText : Bytes → Bytes} {head : Bytes} (hwraps : Wraps sqlText head)
    (template : Bytes) (k : Nat) :
    InjectionFree (Substituted sqlText template) k ↔ Harmless head template k := by
  constructor
  · intro h
    by_cases hfirst : find (placeholder 0) template = none
    · exact .inl hfirst
    · obtain ⟨pieces, hpieces⟩ :=
        Option.ne_none_iff_exists'.mp (h.templatePieces_ne_none hfirst)
      refine .inr ⟨pieces, hpieces, h.placed hwraps hpieces, ?_⟩
      by_cases hk : k = 0
      · exact .inl hk
      · exact .inr (h.exists_byte hwraps hpieces hk)
  · exact fun h => h.injectionFree hwraps

end Db
