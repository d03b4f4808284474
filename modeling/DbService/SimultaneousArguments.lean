import DbService.Substitution

/-!
# Which templates are substituted simultaneously

The argument loop of QUERY and CALL replaces the first `{i}` of the text built so far.  For
every argument vector that is the simultaneous substitution exactly if there are no arguments,
if `{0}` is missing, or if every placeholder stands in the template once and left of the one
before it.  A second `{i}` would stay behind, and a `{i+1}` that is missing or stands right of
`{i}` is taken from the text of argument `i`.

* `StandOnce.substituteArgs_eq` -- where the placeholders stand in order the loop is right;
* `loop_wrong_of_misplaced`, `loop_wrong_of_repeated` -- where they do not, it is wrong for some
  arguments;
* `substitution_simultaneous_iff` -- the templates of QUERY and CALL;
* `argument_takes_placeholder` -- an argument `{1}`.
-/

namespace Db

open Reflection ByteText

/-! ## The condition -/

/-- The placeholders `{i}`, `{i+1}` and so on, of `n`, stand once each, every one left of the
one before it. -/
structure StandOnce (i n : Nat) (template : Bytes) : Prop where
  once : ∀ j, i ≤ j → j < i + n → occurrences (placeholder j) template = 1
  leftOf : ∀ j, i ≤ j → j + 1 < i + n → ∀ pos pos', find (placeholder j) template = some pos →
    find (placeholder (j + 1)) template = some pos' → pos' < pos

/-- The loop gives up at once, or meets each placeholder in the template itself. -/
def MeetsInOrder (template : Bytes) (n : Nat) : Prop :=
  occurrences (placeholder 0) template = 0 ∨ StandOnce 0 n template

/-! ## The loop under the condition -/

theorem find_isSome_of_pos {i : Nat} {text : Bytes} (h : 0 < occurrences (placeholder i) text) :
    ∃ pos, find (placeholder i) text = some pos :=
  Option.isSome_iff_exists.mp ((occurrences_pos_iff i text).mp h)

theorem pos_of_find {i pos : Nat} {text : Bytes} (h : find (placeholder i) text = some pos) :
    0 < occurrences (placeholder i) text :=
  (occurrences_pos_iff i text).mpr (by rw [h]; rfl)

/-- Left of the first `{i}` there is none. -/
theorem occurrences_left_of_first {i : Nat} {left right : Bytes}
    (h : find (placeholder i) (left ++ (placeholder i ++ right)) = some left.length) :
    occurrences (placeholder i) left = 0 := by
  rw [occurrences_eq_zero_iff (placeholder_ne_nil i)]
  by_contra hfind
  obtain ⟨pos, hpos⟩ := Option.ne_none_iff_exists'.mp hfind
  have hlonger := find_append hpos (placeholder i ++ right)
  rw [h, Option.some.injEq] at hlonger
  obtain ⟨before, after, heq, hlen⟩ := find_spec hpos
  obtain ⟨tail, hplaceholder, -⟩ := placeholder_eq i
  have hlength := congrArg List.length heq
  simp only [hplaceholder, List.cons_append, List.length_append, List.length_cons] at hlength
  omega

/-- A later placeholder stands left of the first one. -/
theorem StandOnce.before_first {i n : Nat} {text : Bytes} (h : StandOnce i n text) {pos : Nat}
    (hpos : find (placeholder i) text = some pos) {j : Nat} (hij : i < j) (hjn : j < i + n) :
    ∃ pos', find (placeholder j) text = some pos' ∧ pos' < pos := by
  have hfound : ∀ k, i ≤ k → k < i + n → ∃ pos', find (placeholder k) text = some pos' :=
    fun k hik hkn => find_isSome_of_pos (by rw [h.once k hik hkn]; omega)
  induction j, hij using Nat.le_induction with
  | base =>
      obtain ⟨pos', hpos'⟩ := hfound (i + 1) (by omega) hjn
      exact ⟨pos', hpos', h.leftOf i le_rfl hjn pos pos' hpos hpos'⟩
  | succ j hij ih =>
      obtain ⟨pos₁, hpos₁, hlt⟩ := ih (by omega)
      obtain ⟨pos', hpos'⟩ := hfound (j + 1) (by omega) hjn
      have hnext := h.leftOf j (by omega) hjn pos₁ pos' hpos₁ hpos'
      exact ⟨pos', hpos', by omega⟩

/-- Left of `{i}` stand the placeholders behind it, right of it none. -/
theorem StandOnce.split {i n : Nat} {left right : Bytes}
    (h : StandOnce i (n + 1) (left ++ (placeholder i ++ right)))
    (hfind : find (placeholder i) (left ++ (placeholder i ++ right)) = some left.length) :
    StandOnce (i + 1) n left ∧ occurrences (placeholder i) left = 0 ∧
      ∀ j, i ≤ j → j < i + (n + 1) → occurrences (placeholder j) right = 0 := by
  have hleft : ∀ j, i < j → j < i + (n + 1) →
      ∃ pos, find (placeholder j) left = some pos ∧
        find (placeholder j) (left ++ (placeholder i ++ right)) = some pos := by
    intro j hij hjn
    obtain ⟨pos, hpos, hlt⟩ := h.before_first hfind hij hjn
    obtain ⟨tail, heq, htail⟩ := placeholder_eq j
    obtain ⟨tail', heq', -⟩ := placeholder_eq i
    refine ⟨pos, ?_, hpos⟩
    rw [heq, heq', List.cons_append] at hpos
    rw [heq]
    exact find_left htail hpos hlt
  have hcount : ∀ j, i ≤ j → j < i + (n + 1) →
      occurrences (placeholder j) left + (if j = i then 1 else 0) +
        occurrences (placeholder j) right = 1 := by
    intro j hij hjn
    rw [← occurrences_around]
    exact h.once j hij hjn
  refine ⟨⟨?_, ?_⟩, ?_, ?_⟩
  · intro j hij hjn
    obtain ⟨pos, hpos, -⟩ := hleft j (by omega) (by omega)
    have hone := hcount j (by omega) (by omega)
    have hpositive := pos_of_find hpos
    omega
  · intro j hij hjn pos pos' hpos hpos'
    exact h.leftOf j (by omega) (by omega) pos pos' (find_append hpos _) (find_append hpos' _)
  · exact occurrences_left_of_first hfind
  · intro j hij hjn
    have hone := hcount j hij hjn
    rcases Nat.eq_or_lt_of_le hij with rfl | hlt
    · simp only [if_true] at hone
      omega
    · obtain ⟨pos, hpos, -⟩ := hleft j hlt hjn
      have hpositive := pos_of_find hpos
      omega

/-- **The loop does what one pass does** if the placeholders stand in order. -/
theorem StandOnce.substituteArgs_eq {esc : Bytes → Bytes} {i : Nat} {args : List Bytes}
    {text : Bytes} (h : StandOnce i args.length text) :
    substituteArgs esc i args text = some (substituteAll esc i args 0 text) := by
  induction args generalizing i text with
  | nil =>
      have hself : substituteAll esc i [] 0 text = text :=
        substituteAll_self fun j hij hj => absurd hj (by simpa using hij)
      rw [hself, substituteArgs]
  | cons szArg rest ih =>
      obtain ⟨pos, hfind⟩ := find_isSome_of_pos
        (by rw [h.once i le_rfl (by simp)]; omega : 0 < occurrences (placeholder i) text)
      obtain ⟨left, right, rfl, rfl⟩ := find_spec hfind
      obtain ⟨hleft, hfirst, hright⟩ := h.split hfind
      have hunchanged : substituteAll esc i (szArg :: rest) 0 right = right :=
        substituteAll_self fun j hij hj => .inl (hright j hij hj)
      have hpass : substituteAll esc i (szArg :: rest) 0 (left ++ (placeholder i ++ right)) =
          substituteAll esc (i + 1) rest 0 left ++ (esc szArg ++ right) := by
        rw [substituteAll_around le_rfl (by simp), substituteAll_drop hfirst, hunchanged]
        simp [argAt]
      rw [substituteArgs_cons hfind, hpass]
      exact substituteArgs_append (ih hleft) _

/-! ## Templates that go wrong -/

/-- What the loop makes of a template is right for these arguments. -/
def LoopCorrect (esc : Bytes → Bytes) (template : Bytes) (args : List Bytes) : Prop :=
  if ∀ i < args.length, 0 < occurrences (placeholder i) template then
    substituteArgs esc 0 args template = some (substituteAll esc 0 args 0 template)
  else substituteArgs esc 0 args template = none

/-- Arguments that are their own placeholders, but for argument `j`. -/
def onlyArg (j k : Nat) (szArg : Bytes) : List Bytes :=
  (List.range' 0 j).map placeholder ++ szArg :: (List.range' (j + 1) (k - (j + 1))).map placeholder

/-- There are as many arguments as the template has holes. -/
theorem length_onlyArg {j k : Nat} (hj : j < k) (szArg : Bytes) :
    (onlyArg j k szArg).length = k := by
  simp only [onlyArg, List.length_append, List.length_map, List.length_range', List.length_cons]
  omega

theorem argAt_front {j l : Nat} (hl : l < j) (rest : List Bytes) :
    argAt 0 ((List.range' 0 j).map placeholder ++ rest) l = placeholder l := by
  simp [argAt, List.getD_eq_getElem?_getD, List.getElem?_append, hl]

/-- The arguments behind the chosen one are their own placeholders. -/
theorem argAt_back {m n l : Nat} (hml : m ≤ l) (hl : l < m + n) {front : List Bytes}
    (hfront : front.length = m) :
    argAt 0 (front ++ (List.range' m n).map placeholder) l = placeholder l := by
  obtain ⟨d, rfl⟩ := Nat.exists_eq_add_of_le hml
  have hd : d < n := by omega
  simp [argAt, List.getD_eq_getElem?_getD, hfront, hd]

theorem argAt_onlyArg_self (j k : Nat) (szArg : Bytes) :
    argAt 0 (onlyArg j k szArg) j = szArg := by
  simp [argAt, onlyArg]

/-- All but the chosen argument are their own placeholders. -/
theorem argAt_onlyArg_ne {j k l : Nat} (hl : l < k) (hlj : l ≠ j) (szArg : Bytes) :
    argAt 0 (onlyArg j k szArg) l = placeholder l := by
  rcases Nat.lt_or_gt_of_ne hlj with hlt | hgt
  · exact argAt_front hlt _
  · rw [onlyArg, List.append_cons]
    exact argAt_back hgt (by omega) (by simp)

/-- Of the misplaced arguments, too, all but two are their own placeholders. -/
theorem argAt_misplacedArgs_ne {j k l : Nat} (hl : l < k) (hlj : l ≠ j)
    (hlj' : l ≠ j + 1) (szFront szArg : Bytes) :
    argAt 0 (misplacedArgs j k szFront szArg) l = placeholder l := by
  rcases Nat.lt_or_gt_of_ne hlj with hlt | hgt
  · exact argAt_front hlt _
  · rw [misplacedArgs, List.append_cons, List.append_cons]
    exact argAt_back (by omega) (by omega) (by simp)

/-- A placeholder is its own escaped text, so an argument that is one changes nothing when it is
put in for itself. -/
theorem escape_placeholder (i : Nat) : SqlText.escape (placeholder i) = placeholder i :=
  escape_eq_self fun _ hb => escapeByte_placeholder hb

/-- A text that starts with a placeholder does not start with `x`. -/
theorem placeholder_append_ne (i : Nat) (right rest : Bytes) :
    placeholder i ++ right ≠ 120 :: rest := by
  intro h
  rw [placeholder, List.cons_append, List.cons.injEq] at h
  exact absurd h.1 (by decide)

/-- **A missing or misplaced successor:** argument `j` brings `{j+1}` along, and the loop
replaces that one. -/
theorem loop_wrong_of_misplaced {j k : Nat} {left right : Bytes} (hjk : j + 1 < k)
    (hfind : find (placeholder j) (left ++ (placeholder j ++ right)) = some left.length)
    (hbefore : ∀ l ≤ j, (find (placeholder l) (left ++ (placeholder j ++ right))).isSome)
    (hnext : find (placeholder (j + 1)) left = none) :
    ¬ LoopCorrect SqlText.escape (left ++ (placeholder j ++ right))
        (misplacedArgs j k [] [120]) := by
  have hsent : substituteArgs SqlText.escape 0 (misplacedArgs j k [] [120])
      (left ++ (placeholder j ++ right)) =
        some (left ++ [] ++ ([120] ++ (laterPlaceholders j k ++ right))) :=
    substituteArgs_misplaced hfind hbefore nofun rfl (by rwa [List.append_nil])
  have hlen := length_misplacedArgs hjk [] [120]
  intro hcorrect
  unfold LoopCorrect at hcorrect
  split at hcorrect
  · have hleft : substituteAll SqlText.escape 0 (misplacedArgs j k [] [120]) 0 left = left := by
      refine substituteAll_self fun l _ hl => ?_
      rw [Nat.zero_add, hlen] at hl
      by_cases hlj : l = j
      · subst hlj
        exact .inl (occurrences_left_of_first hfind)
      by_cases hlj' : l = j + 1
      · subst hlj'
        exact .inl ((occurrences_eq_zero_iff (placeholder_ne_nil _) left).mpr hnext)
      · rw [argAt_misplacedArgs_ne hl hlj hlj']
        exact .inr (escape_placeholder l)
    have harg : SqlText.escape (placeholder (j + 1) ++ laterPlaceholders j k) =
        placeholder (j + 1) ++ SqlText.escape (laterPlaceholders j k) := by
      rw [SqlText.escape, List.flatMap_append]
      exact congrArg (· ++ _) (escape_placeholder (j + 1))
    rw [hsent, Option.some.injEq, substituteAll_around (Nat.zero_le j) (by omega), hleft,
      argAt_misplacedArgs, List.append_nil, List.append_cancel_left_eq, List.nil_append, harg,
      List.append_assoc] at hcorrect
    exact placeholder_append_ne (j + 1) _ _ hcorrect.symm
  · rw [hsent] at hcorrect
    cases hcorrect

/-- **A second placeholder** stays in the text. -/
theorem loop_wrong_of_repeated {i k : Nat} {left right : Bytes} (hik : i < k)
    (hfind : find (placeholder i) (left ++ (placeholder i ++ right)) = some left.length)
    (hall : ∀ l < k, 0 < occurrences (placeholder l) (left ++ (placeholder i ++ right)))
    (hsecond : 0 < occurrences (placeholder i) right) :
    ¬ LoopCorrect SqlText.escape (left ++ (placeholder i ++ right)) (onlyArg i k [120]) := by
  have hlen := length_onlyArg hik [120]
  have hrest : ∀ l, i + 1 ≤ l → l < i + 1 + (k - (i + 1)) →
      (find (placeholder l) (left ++ ([120] ++ right))).isSome := by
    intro l hil hlk
    have hpos := hall l (by omega)
    have hne : l ≠ i := by omega
    rw [occurrences_around, if_neg hne, Nat.add_zero] at hpos
    rcases Nat.eq_zero_or_pos (occurrences (placeholder l) left) with hzero | hleft
    · obtain ⟨pos, hpos⟩ := find_isSome_of_pos (by omega : 0 < occurrences (placeholder l) right)
      obtain ⟨before, after, rfl, -⟩ := find_spec hpos
      have hfound := find_isSome (placeholder l) (left ++ [120] ++ before) after
      simpa using hfound
    · obtain ⟨pos, hpos⟩ := find_isSome_of_pos hleft
      rw [find_append hpos]
      rfl
  have hsent : substituteArgs SqlText.escape 0 (onlyArg i k [120])
      (left ++ (placeholder i ++ right)) = some (left ++ ([120] ++ right)) := by
    have hself : substituteArgs SqlText.escape 0 ((List.range' 0 i).map placeholder)
        (left ++ (placeholder i ++ right)) = some (left ++ (placeholder i ++ right)) :=
      substituteArgs_self 0 i fun l _ hl => (occurrences_pos_iff _ _).mp (hall l (by omega))
    rw [onlyArg, substituteArgs_two, hself, Option.bind_some, List.length_map,
      List.length_range', Nat.zero_add, substituteArgs_cons hfind]
    exact substituteArgs_self (i + 1) _ hrest
  intro hcorrect
  unfold LoopCorrect at hcorrect
  split at hcorrect
  · have hpass : ∀ {front back : Bytes}, occurrences (placeholder i) front = 0 →
        substituteAll SqlText.escape 0 (onlyArg i k [120]) 0 (front ++ (placeholder i ++ back)) =
          front ++ ([120] ++ substituteAll SqlText.escape 0 (onlyArg i k [120]) 0 back) := by
      intro front back hfront
      have hself : substituteAll SqlText.escape 0 (onlyArg i k [120]) 0 front = front := by
        refine substituteAll_self fun l _ hl => ?_
        by_cases hli : l = i
        · subst hli
          exact .inl hfront
        · rw [argAt_onlyArg_ne (by omega) hli]
          exact .inr (escape_placeholder l)
      rw [substituteAll_around (Nat.zero_le i) (by omega), hself, argAt_onlyArg_self]
      rfl
    obtain ⟨pos, hpos⟩ := find_isSome_of_pos hsecond
    obtain ⟨before, after, rfl, rfl⟩ := find_spec hpos
    rw [hsent, Option.some.injEq, hpass (occurrences_left_of_first hfind),
      List.append_cancel_left_eq, List.append_cancel_left_eq,
      hpass (occurrences_left_of_first hpos), List.append_cancel_left_eq] at hcorrect
    exact placeholder_append_ne i _ _ hcorrect
  · rw [hsent] at hcorrect
    cases hcorrect

/-! ## The order of a template with holes -/

/-- Every placeholder of a template that can be cut into pieces is found, -/
theorem templatePieces_found {i n : Nat} {text : Bytes} {pieces : List SqlText.Piece}
    (h : templatePieces i n text = some pieces) {j : Nat} (hij : i ≤ j) (hjn : j < i + n) :
    ∃ pos, find (placeholder j) text = some pos := by
  induction n generalizing i text pieces with
  | zero => omega
  | succ n ih =>
      obtain ⟨left, right, pieces', rfl, hfind, hleft, -⟩ := templatePieces_split h
      rcases Nat.eq_or_lt_of_le hij with rfl | hlt
      · exact ⟨left.length, hfind⟩
      obtain ⟨pos', hpos'⟩ := ih hleft hlt (by omega)
      exact ⟨pos', find_append hpos' _⟩

/-- each left of the one before it. -/
theorem templatePieces_leftOf {i n : Nat} {text : Bytes} {pieces : List SqlText.Piece}
    (h : templatePieces i n text = some pieces) {j : Nat} (hij : i ≤ j) (hjn : j + 1 < i + n)
    {pos pos' : Nat} (hpos : find (placeholder j) text = some pos)
    (hpos' : find (placeholder (j + 1)) text = some pos') : pos' < pos := by
  induction n generalizing i text pieces with
  | zero => omega
  | succ n ih =>
      obtain ⟨left, right, pieces', rfl, hfind, hleft, -⟩ := templatePieces_split h
      have hin : ∀ l, i + 1 ≤ l → l < i + 1 + n →
          ∃ at', find (placeholder l) left = some at' ∧
            find (placeholder l) (left ++ (placeholder i ++ right)) = some at' := by
        intro l hil hln
        obtain ⟨at', hat⟩ := templatePieces_found hleft hil hln
        exact ⟨at', hat, find_append hat _⟩
      obtain ⟨next, hnext, hnext'⟩ := hin (j + 1) (by omega) (by omega)
      obtain rfl := Option.some.inj (hpos'.symm.trans hnext')
      rcases Nat.eq_or_lt_of_le hij with rfl | hlt
      · obtain rfl := Option.some.inj (hpos.symm.trans hfind)
        obtain ⟨before, after, heq, hlen⟩ := find_spec hnext
        obtain ⟨tail, hplaceholder, -⟩ := placeholder_eq (i + 1)
        have hlength := congrArg List.length heq
        simp only [hplaceholder, List.cons_append, List.length_append,
          List.length_cons] at hlength
        omega
      · obtain ⟨own, hown, hown'⟩ := hin j hlt (by omega)
        obtain rfl := Option.some.inj (hpos.symm.trans hown')
        exact ih hleft hlt (by omega) hown hnext

/-- **When the loop is right for all arguments.** -/
theorem loop_correct_iff (template : Bytes) (n : Nat) :
    (∀ args, args.length = n → LoopCorrect SqlText.escape template args) ↔
      MeetsInOrder template n := by
  constructor
  · intro h
    by_cases hfirst : occurrences (placeholder 0) template = 0
    · exact .inl hfirst
    cases hpieces : templatePieces 0 n template with
    | none =>
        rcases templatePieces_eq_none hpieces with hmissing | ⟨j, left, right, _, hjn, rfl, hfind,
          hbefore, hnext⟩
        · exact absurd ((occurrences_eq_zero_iff (placeholder_ne_nil 0) _).mpr hmissing) hfirst
        · rw [Nat.zero_add] at hjn
          exact absurd (h _ (length_misplacedArgs hjn _ _)) (loop_wrong_of_misplaced hjn hfind
            (fun l hl => hbefore l (Nat.zero_le l) hl) hnext)
    | some pieces =>
        have hall : ∀ l < n, 0 < occurrences (placeholder l) template := by
          intro l hl
          obtain ⟨pos, hpos⟩ := templatePieces_found hpieces (Nat.zero_le l) (by omega)
          exact pos_of_find hpos
        refine .inr ⟨fun i _ hi => ?_, fun j hj hjn pos pos' hpos hpos' =>
          templatePieces_leftOf hpieces hj hjn hpos hpos'⟩
        rw [Nat.zero_add] at hi
        obtain ⟨pos, hpos⟩ := find_isSome_of_pos (hall i hi)
        obtain ⟨left, right, rfl, rfl⟩ := find_spec hpos
        have hone := occurrences_around i i left right
        rw [occurrences_left_of_first hpos, if_pos rfl] at hone
        by_contra hmany
        exact loop_wrong_of_repeated hi hpos hall (by omega) (h _ (length_onlyArg hi _))
  · intro h args hlen
    unfold LoopCorrect
    rcases h with hmissing | hstand
    · cases args with
      | nil =>
          rw [if_pos (by simp)]
          exact StandOnce.substituteArgs_eq ⟨by simp, by simp⟩
      | cons szArg rest =>
          rw [if_neg fun hall => absurd (hall 0 (by simp)) (by omega), substituteArgs,
            (occurrences_eq_zero_iff (placeholder_ne_nil 0) template).mp hmissing]
    · subst hlen
      rw [if_pos fun i hi => by rw [hstand.once i (Nat.zero_le i) (by omega)]; omega]
      exact hstand.substituteArgs_eq

/-! ## QUERY and CALL -/

section Handlers

variable {σ : Type}

/-- With `n` arguments and this template a handler sends the one-pass substitution, wrapped by
`sqlText`, and refuses a template without one of the placeholders. -/
def SubstitutesAtOnce (srv : Server σ)
    (onDbCommand : Message → CDbConnection σ → EResultCode × Option Message × CDbConnection σ)
    (pRequest : List Bytes → Message) (sqlText : Bytes → Bytes) (template : Bytes) (n : Nat) :
    Prop :=
  ∀ args, args.length = n → ∀ conn,
    if ∀ i < n, 0 < occurrences (placeholder i) template then
      ∃ times, textsOf (onDbCommand (pRequest args) conn).2.2.trace = textsOf conn.trace ++
          List.replicate times
            (sqlText (substituteAll (CDbConnection.escape srv) 0 args 0 template)) ∧
        (conn.isConnect = true → times ≠ 0)
    else onDbCommand (pRequest args) conn = (.kRC_SQLPARM_ERROR, none, conn)

/-- The outcome of the loop decides what a handler sends. -/
theorem substitutesAtOnce_iff [Nonempty σ] {srv : Server σ}
    {onDbCommand : Message → CDbConnection σ → EResultCode × Option Message × CDbConnection σ}
    {pRequest : List Bytes → Message} {sqlText : Bytes → Bytes} {template : Bytes}
    (hinj : ∀ left right, sqlText left = sqlText right → left = right)
    (htexts : ∀ args conn, ∃ times,
      textsOf (onDbCommand (pRequest args) conn).2.2.trace = textsOf conn.trace ++
        (match substituteArgs (CDbConnection.escape srv) 0 args template with
        | none => []
        | some text => List.replicate times (sqlText text)) ∧
      (conn.isConnect = true → times ≠ 0))
    (hrefused : ∀ args conn,
      substituteArgs (CDbConnection.escape srv) 0 args template = none →
      onDbCommand (pRequest args) conn = (.kRC_SQLPARM_ERROR, none, conn)) (n : Nat) :
    SubstitutesAtOnce srv onDbCommand pRequest sqlText template n ↔
      ∀ args, args.length = n → LoopCorrect (CDbConnection.escape srv) template args := by
  constructor
  · intro h args hlen
    -- a connection that is open and has sent nothing yet
    have hcase := h args hlen ⟨true, Classical.arbitrary σ, 0, []⟩
    obtain ⟨times, htimes, hpos⟩ := htexts args ⟨true, Classical.arbitrary σ, 0, []⟩
    have hne : times ≠ 0 := hpos rfl
    unfold LoopCorrect
    rw [hlen]
    split at hcase
    · rename_i hall
      rw [if_pos hall]
      obtain ⟨times', htimes', hpos'⟩ := hcase
      have hne' : times' ≠ 0 := hpos' rfl
      rw [htimes', List.append_cancel_left_eq] at htimes
      cases hsubst : substituteArgs (CDbConnection.escape srv) 0 args template with
      | none =>
          rw [hsubst, List.replicate_eq_nil_iff] at htimes
          exact absurd htimes hne'
      | some text =>
          rw [hsubst] at htimes
          have hin : sqlText (substituteAll (CDbConnection.escape srv) 0 args 0 template) ∈
              List.replicate times' _ := List.mem_replicate.mpr ⟨hne', rfl⟩
          rw [htimes] at hin
          rw [hinj _ _ (List.eq_of_mem_replicate hin)]
    · rename_i hall
      rw [if_neg hall]
      rw [hcase] at htimes
      cases hsubst : substituteArgs (CDbConnection.escape srv) 0 args template with
      | none => rfl
      | some text =>
          rw [hsubst] at htimes
          simp [hne] at htimes
  · intro h args hlen conn
    have hloop := h args hlen
    unfold LoopCorrect at hloop
    rw [hlen] at hloop
    split at hloop
    · rename_i hall
      rw [if_pos hall]
      obtain ⟨times, htimes, hpos⟩ := htexts args conn
      rw [hloop] at htimes
      exact ⟨times, htimes, hpos⟩
    · rename_i hall
      rw [if_neg hall]
      exact hrefused args conn hloop

/-- The statement of a QUERY tells the where clause. -/
theorem queryText_inj (table_name : String) {left right : Bytes}
    (h : queryText table_name left = queryText table_name right) : left = right := by
  have hwhere : ∀ clause : Bytes, queryHead table_name ++ clause ≠
      utf8 "select * from " ++ utf8 table_name := by
    intro clause heq
    have hlength := congrArg List.length heq
    have hspace : 0 < (utf8 " where ").length := by decide
    simp only [queryHead, List.length_append] at hlength
    omega
  unfold queryText at h
  cases left with
  | nil =>
      cases right with
      | nil => rfl
      | cons b right => exact absurd h.symm (hwhere _)
  | cons a left =>
      cases right with
      | nil => exact absurd h (hwhere _)
      | cons b right => simpa using h

/-- **Which templates QUERY and CALL substitute simultaneously,** for all arguments. -/
theorem substitution_simultaneous_iff [Nonempty σ] (pb : Runtime) {srv : Server σ}
    (hescape : srv.escape = SqlText.escape) (table_name : String) (template : Bytes) (n : Nat) :
    (SubstitutesAtOnce srv (CDbCommandQueryHandler.onDbCommand pb srv)
        (fun args => .query_command table_name template args) (queryText table_name) template n ↔
      MeetsInOrder template n) ∧
    (SubstitutesAtOnce srv (CDbCommandCallHandler.onDbCommand srv)
        (fun args => .call_command template args) id template n ↔
      MeetsInOrder template n) := by
  have hloop := loop_correct_iff template n
  rw [← escape_of_library hescape] at hloop
  constructor
  · refine (substitutesAtOnce_iff (fun _ _ => queryText_inj table_name) ?_ ?_ n).trans hloop
    · intro args conn
      refine ⟨if conn.isConnect then 1 else 0, ?_, fun h => by simp [h]⟩
      rw [textsOf_queryHandler]
      cases substituteArgs (CDbConnection.escape srv) 0 args template with
      | none => rfl
      | some text => cases conn.isConnect <;> rfl
    · intro args conn hsubst
      simp [CDbCommandQueryHandler.onDbCommand, hsubst]
  · refine (substitutesAtOnce_iff (fun _ _ h => h) ?_ ?_ n).trans hloop
    · intro args conn
      exact textsOf_callHandler srv template args conn
    · intro args conn hsubst
      simp [CDbCommandCallHandler.onDbCommand, hsubst]

end Handlers

/-- `f({1},{0})` -/
def twoPlaceholders : Bytes := [102, 40, 123, 49, 125, 44, 123, 48, 125, 41]

/-- `f({0},{1})` -/
def twoPlaceholdersForward : Bytes := [102, 40, 123, 48, 125, 44, 123, 49, 125, 41]

/-- With `{1}` in front of `{0}` a stored procedure gets any two arguments as they are. -/
theorem substitution_simultaneous_iff_twoPlaceholders :
    SubstitutesAtOnce escapingServer (CDbCommandCallHandler.onDbCommand escapingServer)
      (fun args => .call_command twoPlaceholders args) id twoPlaceholders 2 := by
  refine (substitution_simultaneous_iff setRuntime (rfl : escapingServer.escape = SqlText.escape)
    "" twoPlaceholders 2).2.mpr (.inr ⟨by decide, ?_⟩)
  intro j _ hj pos pos' hpos hpos'
  obtain rfl : j = 0 := by omega
  have hzero : find (placeholder 0) twoPlaceholders = some 6 := by decide
  have hone : find (placeholder 1) twoPlaceholders = some 2 := by decide
  rw [hzero, Option.some.injEq] at hpos
  rw [hone, Option.some.injEq] at hpos'
  omega

/-- `f({0},{1})` with the arguments `{1}` and `7` is sent as `f(7,{1})` instead of `f({1},7)`,
and `{0}` with these arguments as `7`, though `{1}` is missing. -/
theorem argument_takes_placeholder :
    Sends (CDbCommandCallHandler.onDbCommand escapingServer)
        (.call_command twoPlaceholdersForward [[123, 49, 125], [55]])
        [102, 40, 55, 44, 123, 49, 125, 41] ∧
      substituteAll SqlText.escape 0 [[123, 49, 125], [55]] 0 twoPlaceholdersForward =
        [102, 40, 123, 49, 125, 44, 55, 41] ∧
      ¬ Sends (CDbCommandCallHandler.onDbCommand escapingServer)
        (.call_command twoPlaceholdersForward [[123, 49, 125], [55]])
        [102, 40, 123, 49, 125, 44, 55, 41] ∧
      occurrences (placeholder 1) [123, 48, 125] = 0 ∧
      Sends (CDbCommandCallHandler.onDbCommand escapingServer)
        (.call_command [123, 48, 125] [[123, 49, 125], [55]]) [55] := by
  simp only [sends_call_iff]
  decide

end Db
