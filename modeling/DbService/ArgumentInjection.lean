import DbService.InjectionFreedom
import DbService.RowRoundTrip

/-!
# Arguments in statements

What QUERY and CALL send for a template and its arguments, on whatever connection and however
often, is the substituted template; QUERY puts `select * from T where ` in front of it.  So
their templates are injection free exactly if they are harmless, and the documented `id={0}`
is not.

* `sends_query_iff`, `sends_call_iff` -- what the handlers send;
* `arguments_injection_free_iff` -- the templates that are injection free are the harmless ones;
* `bare_id_injected` -- `id={0}` with the argument `1 or 1`.
-/

namespace Db

open Reflection ByteText

/-! ## What the handlers send -/

/-- The bytes of a name. -/
def utf8 (s : String) : Bytes := s.toList.flatMap String.utf8EncodeChar

/-- What QUERY puts in front of a where clause. -/
def queryHead (table_name : String) : Bytes :=
  utf8 "select * from " ++ utf8 table_name ++ utf8 " where "

/-- The text QUERY executes. -/
def queryText (table_name : String) (szWhereClause : Bytes) : Bytes :=
  if szWhereClause.isEmpty then utf8 "select * from " ++ utf8 table_name
  else queryHead table_name ++ szWhereClause

/-- The text of a statement of QUERY or CALL. -/
def Statement.text : Statement → Option Bytes
  | .queryRows szTableName szWhereClause => some (queryText szTableName szWhereClause)
  | .callText szSQL => some szSQL
  | _ => none

/-- The texts of QUERY and CALL among the statements of a connection. -/
def textsOf (trace : List SqlEvent) : List Bytes :=
  trace.filterMap fun event =>
    match event with
    | .sql stmt _ => stmt.text
    | _ => none

/-- A handler sends `text` for a request, on some connection. -/
def Sends {σ : Type}
    (onDbCommand : Message → CDbConnection σ → EResultCode × Option Message × CDbConnection σ)
    (pRequest : Message) (text : Bytes) : Prop :=
  ∃ conn events, (onDbCommand pRequest conn).2.2.trace = conn.trace ++ events ∧
    text ∈ textsOf events

@[simp] theorem textsOf_append (left right : List SqlEvent) :
    textsOf (left ++ right) = textsOf left ++ textsOf right := List.filterMap_append

section Handlers

variable {σ : Type} (pb : Runtime) (srv : Server σ)

/-- A statement that reaches the server adds its text, if it is one of those with a text. -/
theorem textsOf_execute (conn : CDbConnection σ) (stmt : Statement) (wanted : Bool) :
    textsOf (conn.execute srv stmt wanted).2.2.trace =
      textsOf conn.trace ++ (if conn.isConnect then stmt.text.toList else []) := by
  unfold CDbConnection.execute
  split
  · rw [CDbConnection.sent_trace, textsOf_append]
    cases htext : stmt.text with
    | none => simp [textsOf, htext]
    | some text => simp [textsOf, htext]
  · simp

theorem textsOf_send (conn : CDbConnection σ) {stmt : Statement} (hstmt : stmt.text = none) :
    textsOf (conn.send srv stmt).trace = textsOf conn.trace := by
  simp [CDbConnection.send, textsOf_execute, hstmt]

theorem textsOf_autoCommit (conn : CDbConnection σ) (enable : Bool) :
    textsOf (conn.autoCommit srv enable).trace = textsOf conn.trace := textsOf_send srv conn rfl

/-- A QUERY sends the substituted clause once, on an open connection. -/
theorem textsOf_queryHandler (table_name : String) (where_clause : Bytes) (args : List Bytes)
    (conn : CDbConnection σ) :
    textsOf (CDbCommandQueryHandler.onDbCommand pb srv
        (.query_command table_name where_clause args) conn).2.2.trace =
      textsOf conn.trace ++
        match substituteArgs (CDbConnection.escape srv) 0 args where_clause with
        | none => []
        | some szWhereClause =>
            if conn.isConnect then [queryText table_name szWhereClause] else [] := by
  unfold CDbCommandQueryHandler.onDbCommand
  simp only
  cases substituteArgs (CDbConnection.escape srv) 0 args where_clause with
  | none => simp
  | some szWhereClause =>
      have hquery : textsOf (conn.execute srv
            (.queryRows table_name szWhereClause) true).2.2.trace =
          textsOf conn.trace ++
            if conn.isConnect then [queryText table_name szWhereClause] else [] :=
        textsOf_execute srv conn (.queryRows table_name szWhereClause) true
      simp only
      split
      · exact hquery
      · split
        · exact hquery
        · split <;> exact hquery

/-- **Every attempt of CALL sends the same text.** -/
theorem textsOf_attempts (szSQL : Bytes) (n : Nat) (conn : CDbConnection σ) :
    ∃ times, textsOf (CDbCommandCallHandler.attempts srv szSQL n conn).2.2.trace =
        textsOf conn.trace ++ List.replicate times szSQL ∧
      (conn.isConnect = true → n ≠ 0 → times ≠ 0) := by
  induction n generalizing conn with
  | zero => exact ⟨0, by simp [CDbCommandCallHandler.attempts], nofun⟩
  | succ n ih =>
      unfold CDbCommandCallHandler.attempts
      have hsent := textsOf_execute srv (conn.send srv .begin) (.callText szSQL) true
      rcases hexecute : (conn.send srv .begin).execute srv (.callText szSQL) true with
        ⟨nErrorType, pDbRecordset, conn'⟩
      rw [hexecute, textsOf_send srv conn rfl, CDbConnection.send_isConnect] at hsent
      have hone : textsOf conn'.trace = textsOf conn.trace ++
          List.replicate (if conn.isConnect then 1 else 0) szSQL := by
        rw [hsent]
        split <;> rfl
      have hpos : conn.isConnect = true → (if conn.isConnect then 1 else 0) ≠ 0 := by
        intro h
        simp [h]
      simp only
      split
      · obtain ⟨times, htexts, _⟩ := ih (conn'.send srv .rollback)
        refine ⟨(if conn.isConnect then 1 else 0) + times, ?_, ?_⟩
        · rw [htexts, textsOf_send srv conn' rfl, hone, List.append_assoc,
            List.replicate_append_replicate]
        · intro h _
          have := hpos h
          omega
      · refine ⟨if conn.isConnect then 1 else 0, ?_, fun h _ => hpos h⟩
        split
        · rw [textsOf_send srv conn' rfl, hone]
        · rw [textsOf_send srv conn' rfl, hone]

/-- A CALL sends the substituted statement, on an open connection at least once; it is sent again
after each wait for a lock that timed out. -/
theorem textsOf_callHandler (sql : Bytes) (args : List Bytes) (conn : CDbConnection σ) :
    ∃ times,
      textsOf (CDbCommandCallHandler.onDbCommand srv
          (.call_command sql args) conn).2.2.trace = textsOf conn.trace ++
          (match substituteArgs (CDbConnection.escape srv) 0 args sql with
          | none => []
          | some szSQL => List.replicate times szSQL) ∧
      (conn.isConnect = true → times ≠ 0) := by
  unfold CDbCommandCallHandler.onDbCommand
  simp only
  cases substituteArgs (CDbConnection.escape srv) 0 args sql with
  | none => exact ⟨1, by simp, by simp⟩
  | some szSQL =>
      obtain ⟨times, htexts, hpos⟩ :=
        textsOf_attempts srv szSQL TRY_DEAD_LOOP_COUNT (conn.autoCommit srv false)
      refine ⟨times, ?_, ?_⟩
      · rw [textsOf_autoCommit] at htexts
        simp only [textsOf_autoCommit]
        exact htexts
      · intro h
        exact hpos (by rwa [CDbConnection.autoCommit, CDbConnection.send_isConnect]) (by decide)

/-- **What QUERY sends** are the substituted where clauses. -/
theorem sends_query_iff [Nonempty σ] (table_name : String) (where_clause : Bytes)
    (args : List Bytes) (text : Bytes) :
    Sends (CDbCommandQueryHandler.onDbCommand pb srv)
        (.query_command table_name where_clause args) text ↔
      ∃ szWhereClause,
        substituteArgs (CDbConnection.escape srv) 0 args where_clause = some szWhereClause ∧
        text = queryText table_name szWhereClause := by
  constructor
  · intro h
    obtain ⟨conn, events, htrace, htext⟩ := h
    have htexts := textsOf_queryHandler pb srv table_name where_clause args conn
    rw [htrace, textsOf_append, List.append_cancel_left_eq] at htexts
    rw [htexts] at htext
    cases hsubst : substituteArgs (CDbConnection.escape srv) 0 args where_clause with
    | none =>
        rw [hsubst] at htext
        cases htext
    | some szWhereClause =>
        rw [hsubst] at htext
        refine ⟨szWhereClause, rfl, ?_⟩
        simp only at htext
        split at htext
        · exact List.mem_singleton.mp htext
        · cases htext
  · intro h
    obtain ⟨szWhereClause, hsubst, rfl⟩ := h
    refine ⟨⟨true, Classical.arbitrary σ, 0, []⟩, _, rfl, ?_⟩
    rw [textsOf_queryHandler, hsubst]
    simp [CDbConnection.isConnect]

/-- **What CALL sends** are the substituted texts. -/
theorem sends_call_iff [Nonempty σ] (sql : Bytes) (args : List Bytes) (text : Bytes) :
    Sends (CDbCommandCallHandler.onDbCommand srv) (.call_command sql args) text ↔
      substituteArgs (CDbConnection.escape srv) 0 args sql = some text := by
  constructor
  · intro h
    obtain ⟨conn, events, htrace, htext⟩ := h
    obtain ⟨times, htexts, _⟩ := textsOf_callHandler srv sql args conn
    rw [htrace, textsOf_append, List.append_cancel_left_eq] at htexts
    rw [htexts] at htext
    cases hsubst : substituteArgs (CDbConnection.escape srv) 0 args sql with
    | none =>
        rw [hsubst] at htext
        cases htext
    | some szSQL =>
        rw [hsubst] at htext
        rw [List.eq_of_mem_replicate htext]
  · intro hsubst
    obtain ⟨times, htexts, hpos⟩ :=
      textsOf_callHandler srv sql args ⟨true, Classical.arbitrary σ, 0, []⟩
    refine ⟨⟨true, Classical.arbitrary σ, 0, []⟩, _, rfl, ?_⟩
    rw [htexts, hsubst]
    exact List.mem_append_right _ (List.mem_replicate.mpr ⟨hpos rfl, rfl⟩)

end Handlers

/-! ## The wrapping of QUERY and CALL -/

/-- A CALL puts nothing in front of its template. -/
theorem wraps_call : Wraps id [] where
  wrap := fun _ _ => rfl
  empty := by
    intro q content hmode
    cases hmode

/-- ` where ` ends inside a literal only if it stands in it. -/
theorem run_where {m : SqlText.Mode} {q : SqlText.Quote} {content : List SqlText.Piece}
    (hmode : Runs.run SqlText.step m (SqlText.plain (utf8 " where ")) = .literal q content) :
    (Runs.outputs SqlText.step m (SqlText.plain (utf8 " where "))).flatten = [] ∧
      ∃ content', content'.length + 1 < content.length ∧
        SqlText.finish m = [.literal q content' false] := by
  cases m with
  | literal q' content' =>
      cases q' <;>
      · cases hmode
        exact ⟨rfl, content', by simp, rfl⟩
  | literalEscape q' content' =>
      cases q' <;>
      · cases hmode
        exact ⟨rfl, content' ++ [.byte 92], by simp, rfl⟩
  | literalQuote q' content' =>
      cases q' <;> cases hmode
  | _ => cases hmode

/-- A QUERY puts its head in front of a clause that is not empty.  The table's name may leave a
literal open; then the head without ` where ` leaves the same one open, with fewer bytes. -/
theorem wraps_query (table_name : String) :
    Wraps (queryText table_name) (queryHead table_name) where
  wrap := by
    intro text hne
    simp [queryText, hne]
  empty := by
    intro q content hmode
    rw [queryHead, SqlText.plain_append, Runs.run_append] at hmode
    obtain ⟨hout, content', hlen, hfinish⟩ := run_where hmode
    refine ⟨content', hlen, ?_⟩
    rw [queryHead, SqlText.plain_append _ (utf8 " where "), Runs.outputs_append,
      List.flatten_append, hout, List.append_nil, ← hfinish]
    rfl

/-! ## Injection freedom of QUERY and CALL -/

/-- The escaping of the connection is that of the library, also for the empty text. -/
theorem escape_of_library {σ : Type} {srv : Server σ} (hescape : srv.escape = SqlText.escape) :
    CDbConnection.escape srv = SqlText.escape := by
  funext s
  rw [CDbConnection.escape, hescape]
  cases s <;> rfl

/-- **Which templates of QUERY and CALL are injection free:** the harmless ones, and no
others. -/
theorem arguments_injection_free_iff {σ : Type} [Nonempty σ] (pb : Runtime) {srv : Server σ}
    (hescape : srv.escape = SqlText.escape) (table_name : String) (template : Bytes) (k : Nat) :
    (InjectionFree (fun args => Sends (CDbCommandQueryHandler.onDbCommand pb srv)
        (.query_command table_name template args)) k ↔
      Harmless (queryHead table_name) template k) ∧
    (InjectionFree (fun args => Sends (CDbCommandCallHandler.onDbCommand srv)
        (.call_command template args)) k ↔
      Harmless [] template k) := by
  have hquery : (fun args => Sends (CDbCommandQueryHandler.onDbCommand pb srv)
      (.query_command table_name template args)) =
        Substituted (queryText table_name) template := by
    funext args text
    rw [sends_query_iff, escape_of_library hescape]
    rfl
  have hcall : (fun args => Sends (CDbCommandCallHandler.onDbCommand srv)
      (.call_command template args)) = Substituted id template := by
    funext args text
    rw [sends_call_iff, escape_of_library hescape]
    simp [Substituted]
  rw [hquery, hcall]
  exact ⟨injectionFree_iff (wraps_query table_name) template k,
    injectionFree_iff wraps_call template k⟩

/-- `id='{0}'` -/
def quotedId : Bytes := [105, 100, 61, 39, 123, 48, 125, 39]

/-- A quoted placeholder is injection free. -/
theorem quoted_id_injection_free :
    InjectionFree (fun args => Sends (CDbCommandQueryHandler.onDbCommand setRuntime
      escapingServer) (.query_command "player_base" quotedId args)) 1 :=
  (arguments_injection_free_iff setRuntime (rfl : escapingServer.escape = SqlText.escape)
    "player_base" quotedId 1).1.mpr (.inr
      ⟨SqlText.plain [105, 100, 61, 39] ++ .hole 0 :: SqlText.plain [39], by decide,
        Runs.guarded_append.mpr ⟨SqlText.guarded_plain _ _, trivial, SqlText.guarded_plain _ _⟩,
        .inr ⟨39, by decide⟩⟩)

/-- With `id={0}` the arguments `5` and `1 or 1` are not of one shape. -/
theorem bare_id_injected :
    ¬ ∀ (σ : Type) (_ : Nonempty σ) (pb : Runtime) (srv : Server σ),
        srv.escape = SqlText.escape → ∀ (table_name : String) (template : Bytes) (k : Nat),
        InjectionFree (fun args => Sends (CDbCommandQueryHandler.onDbCommand pb srv)
          (.query_command table_name template args)) k ∧
        InjectionFree (fun args => Sends (CDbCommandCallHandler.onDbCommand srv)
          (.call_command template args)) k := by
  intro h
  have hfree := (h Unit ⟨()⟩ setRuntime escapingServer rfl "player_base"
    [105, 100, 61, 123, 48, 125] 1).1
  have hfive : Sends (CDbCommandQueryHandler.onDbCommand setRuntime escapingServer)
      (.query_command "player_base" [105, 100, 61, 123, 48, 125] [[53]])
      (queryText "player_base" [105, 100, 61, 53]) :=
    (sends_query_iff setRuntime escapingServer _ _ _ _).mpr ⟨_, by decide, rfl⟩
  have hor : Sends (CDbCommandQueryHandler.onDbCommand setRuntime escapingServer)
      (.query_command "player_base" [105, 100, 61, 123, 48, 125] [[49, 32, 111, 114, 32, 49]])
      (queryText "player_base" [105, 100, 61, 49, 32, 111, 114, 32, 49]) :=
    (sends_query_iff setRuntime escapingServer _ _ _ _).mpr ⟨_, by decide, rfl⟩
  have hsame := hfree.sameButContent (by rfl) (by rfl) hfive hor
  exact absurd hsame.length_eq (by decide)

end Db
