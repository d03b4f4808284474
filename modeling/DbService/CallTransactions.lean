import DbService.Transactions
import DbService.LostConnection
import DbService.Tables

/-!
# CALL as a transaction

CALL switches autocommit off, makes up to five attempts of begin, execute, and commit or
rollback, and switches autocommit on again.  It looks at the outcome of the execution alone.
So what it answers and leaves behind is that of one transaction (`CallLaw`) exactly if the
statements it does not look at succeed (`ControlsSucceed`).

* `attempts_events` -- what the attempts put on an open connection;
* `Attempts.law_iff` -- the attempts are a transaction exactly if the control statements succeed;
* `call_runs_as_transaction_iff` -- the same of the whole handler, whatever the server answers;
* `call_commit_ignored` -- a commit that fails and is reported as done.
-/

namespace Db

open ByteText Transactions

/-- `execute` returns an error for the text of a CALL. -/
def Reply.Fails (reply : Reply) : Prop := (CDbConnection.outcome true reply).1 ≠ kMET_OK

/-- What a statement does with transactions, if that is all it does. -/
def Statement.control : Statement → Option Control
  | .setAutocommit enable => some (.setAutocommit enable)
  | .begin => some .begin
  | .commit => some .commit
  | .rollback => some .rollback
  | _ => none

/-- The session after an event.  `effect` is what the other statements do; a new connection has
a new session. -/
def SqlEvent.session (effect : Statement → Reply → Session → Session) (session : Session) :
    SqlEvent → Session
  | .sql stmt reply =>
      match stmt.control with
      | some control => if reply.Succeeds then session.after control else session
      | none => effect stmt reply session
  | .connect _ | .close => .fresh

def sessionAfter (effect : Statement → Reply → Session → Session) (session : Session)
    (events : List SqlEvent) : Session :=
  events.foldl (SqlEvent.session effect) session

/-- What a handler did on the connection. -/
def eventsSince {σ : Type} (conn conn' : CDbConnection σ) : List SqlEvent :=
  conn'.trace.drop conn.trace.length

/-- A rollback ended the attempt before it, or the server did when the connection broke. -/
def RolledBack (szSQL : Bytes) (reply reply' : Reply) : Prop :=
  reply'.Succeeds ∨ (SqlEvent.sql (.callText szSQL) reply).IsLost ∨
    (SqlEvent.sql .rollback reply').IsLost

/-- **CALL is one transaction.**  A failed attempt is rolled back before anything else; nothing
is executed or committed after a commit; success is a commit that succeeded; and a connection
that is still alive is left without a transaction and with autocommit on. -/
structure CallLaw (effect : Statement → Reply → Session → Session) (code : EResultCode)
    (events : List SqlEvent) : Prop where
  rolledBack : ∀ (i : Nat) szSQL reply, events[i]? = some (.sql (.callText szSQL) reply) →
    reply.Fails →
    ∃ reply', events[i + 1]? = some (.sql .rollback reply') ∧ RolledBack szSQL reply reply'
  committedLast : ∀ (i j : Nat) reply, events[i]? = some (.sql .commit reply) → i < j →
    ∀ reply', events[j]? ≠ some (.sql .commit reply') ∧
      ∀ szSQL, events[j]? ≠ some (.sql (.callText szSQL) reply')
  committed : code = .kRC_OK → ∃ reply, .sql .commit reply ∈ events ∧ reply.Succeeds
  closed : (∀ event ∈ events, ¬ event.IsLost) → sessionAfter effect .fresh events = .fresh

/-- The statements whose outcome CALL does not look at succeed: the rollback of each failed
attempt and the commit; and if the connection lives, the last `set autocommit = 1`, unless
autocommit is on already. -/
structure ControlsSucceed (effect : Statement → Reply → Session → Session) (session : Session)
    (events : List SqlEvent) : Prop where
  rollback : ∀ (i : Nat) szSQL reply reply', events[i]? = some (.sql (.callText szSQL) reply) →
    reply.Fails → events[i + 1]? = some (.sql .rollback reply') → RolledBack szSQL reply reply'
  commit : ∀ reply, .sql .commit reply ∈ events → reply.Succeeds
  autocommit : ∀ before reply, events = before ++ [.sql (.setAutocommit true) reply] →
    (∀ event ∈ events, ¬ event.IsLost) →
    reply.Succeeds ∨ (sessionAfter effect session before).autocommit = true

theorem ControlsSucceed.tail {effect : Statement → Reply → Session → Session} {session : Session}
    {event : SqlEvent} {events : List SqlEvent}
    (h : ControlsSucceed effect session (event :: events)) (hlive : ¬ event.IsLost) :
    ControlsSucceed effect (event.session effect session) events where
  rollback := fun i szSQL reply reply' hcall hfails hrollback =>
    h.rollback (i + 1) szSQL reply reply' hcall hfails hrollback
  commit := fun reply hin => h.commit reply (List.mem_cons_of_mem _ hin)
  autocommit := by
    intro before reply heq hall
    refine h.autocommit (event :: before) reply (by rw [heq]; rfl) ?_
    intro event' hin
    rcases List.mem_cons.mp hin with rfl | hin
    · exact hlive
    · exact hall event' hin

namespace CDbCommandCallHandler

variable {σ : Type} {srv : Server σ}

/-- **The attempts of a CALL,** with the `set autocommit = 1` that ends it. -/
inductive Attempts (szSQL : Bytes) : Nat → EResultCode → List SqlEvent → Prop
  | exhausted (last : Reply) : Attempts szSQL 0 .kRC_MYSQL_ERROR [.sql (.setAutocommit true) last]
  | retried (n : Nat) (code : EResultCode) (events : List SqlEvent) (begun reply undone : Reply)
      (hfailed : reply.Fails) (hrest : Attempts szSQL n code events) :
      Attempts szSQL (n + 1) code
        (.sql .begin begun :: .sql (.callText szSQL) reply :: .sql .rollback undone :: events)
  | failed (n : Nat) (code : EResultCode) (begun reply undone last : Reply)
      (hfailed : reply.Fails) (hcode : code ≠ .kRC_OK) :
      Attempts szSQL (n + 1) code
        [.sql .begin begun, .sql (.callText szSQL) reply, .sql .rollback undone,
          .sql (.setAutocommit true) last]
  | done (n : Nat) (begun reply committed last : Reply) (hok : ¬ reply.Fails) :
      Attempts szSQL (n + 1) .kRC_OK
        [.sql .begin begun, .sql (.callText szSQL) reply, .sql .commit committed,
          .sql (.setAutocommit true) last]

theorem errorCode_eq_none {nErrorType : Nat} (h : errorCode nErrorType = none) :
    nErrorType = kMET_OK := by
  unfold errorCode at h
  split at h
  · cases h
  · split at h
    · cases h
    · rename_i hok
      exact not_not.mp hok

theorem errorCode_eq_some {nErrorType : Nat} {code : EResultCode}
    (h : errorCode nErrorType = some code) : nErrorType ≠ kMET_OK ∧ code ≠ .kRC_OK := by
  unfold errorCode at h
  split at h
  · rename_i hlost
    cases h
    exact ⟨hlost ▸ by decide, by decide⟩
  · split at h
    · rename_i hne
      cases h
      exact ⟨hne, by decide⟩
    · cases h

/-- A statement on an open connection is one event. -/
theorem send_trace (srv : Server σ) {conn : CDbConnection σ} (hopen : conn.isConnect = true)
    (stmt : Statement) :
    ∃ reply, (conn.send srv stmt).trace = conn.trace ++ [.sql stmt reply] := by
  unfold CDbConnection.send
  rw [CDbConnection.execute_of_isConnect srv hopen]
  exact ⟨_, rfl⟩

/-- Without a connection none goes out. -/
theorem send_closed {conn : CDbConnection σ} (hclosed : conn.isConnect = false)
    (stmt : Statement) : conn.send srv stmt = conn := by
  rw [CDbConnection.send, CDbConnection.execute, if_neg (by simp [hclosed])]

/-- The way out of an attempt. -/
theorem ended_trace (srv : Server σ) {conn : CDbConnection σ} (hopen : conn.isConnect = true)
    (stmt : Statement) :
    ∃ reply last, ((conn.send srv stmt).autoCommit srv true).trace =
      conn.trace ++ [.sql stmt reply, .sql (.setAutocommit true) last] := by
  obtain ⟨reply, hreply⟩ := send_trace srv hopen stmt
  obtain ⟨last, hlast⟩ := send_trace srv
    ((CDbConnection.send_isConnect srv conn stmt).trans hopen) (.setAutocommit true)
  refine ⟨reply, last, ?_⟩
  rw [CDbConnection.autoCommit, hlast, hreply, List.append_assoc]
  rfl

/-- **What the attempts put on an open connection,** up to the last `set autocommit = 1`. -/
theorem attempts_events (srv : Server σ) (szSQL : Bytes) (n : Nat) {conn : CDbConnection σ}
    (hopen : conn.isConnect = true) :
    ∃ events, Attempts szSQL n (attempts srv szSQL n conn).1 events ∧
      ((attempts srv szSQL n conn).2.2.autoCommit srv true).trace = conn.trace ++ events := by
  induction n generalizing conn with
  | zero =>
      obtain ⟨last, hlast⟩ := send_trace srv hopen (.setAutocommit true)
      exact ⟨_, .exhausted last, hlast⟩
  | succ n ih =>
      obtain ⟨begun, hbegun⟩ := send_trace srv hopen .begin
      have hopen₁ : (conn.send srv .begin).isConnect = true :=
        (CDbConnection.send_isConnect srv conn .begin).trans hopen
      unfold attempts
      rw [CDbConnection.execute_of_isConnect srv hopen₁]
      simp only
      generalize hconn : (conn.send srv .begin).sent srv (.callText szSQL) = conn'
      have hopen' : conn'.isConnect = true := by rw [← hconn]; exact hopen₁
      have htrace : conn'.trace = conn.trace ++ [.sql .begin begun, .sql (.callText szSQL)
          (srv.query (conn.send srv .begin).server (.callText szSQL)).1] := by
        rw [← hconn, CDbConnection.sent_trace, hbegun, List.append_assoc]
        rfl
      generalize (srv.query (conn.send srv .begin).server (.callText szSQL)).1 = reply at *
      split
      · -- A deadlock: rolled back, and the next attempt.
        rename_i hdeadloop
        obtain ⟨undone, hundone⟩ := send_trace srv hopen' .rollback
        obtain ⟨events, hattempts, hevents⟩ := ih
          ((CDbConnection.send_isConnect srv conn' .rollback).trans hopen')
        refine ⟨_, .retried n _ events begun reply undone ?_ hattempts, ?_⟩
        · rw [Reply.Fails, hdeadloop]
          decide
        · simp [hevents, hundone, htrace]
      · split
        · rename_i code hcode
          obtain ⟨undone, last, hended⟩ := ended_trace srv hopen' .rollback
          obtain ⟨hfails, hne⟩ := errorCode_eq_some hcode
          refine ⟨_, .failed n code begun reply undone last hfails hne, ?_⟩
          simp [hended, htrace]
        · rename_i hcode
          obtain ⟨committed, last, hended⟩ := ended_trace srv hopen' .commit
          have hsucceeded := not_not_intro (errorCode_eq_none hcode)
          refine ⟨_, .done n begun reply committed last hsucceeded, ?_⟩
          simp [hended, htrace]

variable {szSQL : Bytes} {n : Nat} {code : EResultCode} {events : List SqlEvent}

/-- A failed attempt is followed by a rollback. -/
theorem Attempts.rollback_next (h : Attempts szSQL n code events) {i : Nat} {szSQL' : Bytes}
    {reply : Reply} (hcall : events[i]? = some (.sql (.callText szSQL') reply))
    (hfails : reply.Fails) : ∃ reply', events[i + 1]? = some (.sql .rollback reply') := by
  induction h generalizing i with
  | exhausted last =>
      rcases i with _ | i <;> simp at hcall
  | retried n code events begun reply₁ undone _ _ ih =>
      rcases i with _ | _ | _ | i
      · simp at hcall
      · exact ⟨undone, rfl⟩
      · simp at hcall
      · exact ih hcall
  | failed n code begun reply₁ undone last =>
      rcases i with _ | _ | _ | _ | i
      · simp at hcall
      · exact ⟨undone, rfl⟩
      · simp at hcall
      · simp at hcall
      · simp at hcall
  | done n begun reply₁ committed last hok =>
      rcases i with _ | _ | _ | _ | i
      · simp at hcall
      · obtain ⟨_, rfl⟩ : Statement.callText szSQL = .callText szSQL' ∧ reply₁ = reply := by
          simpa using hcall
        exact absurd hfails hok
      · simp at hcall
      · simp at hcall
      · simp at hcall

/-- A commit is the last statement but one. -/
theorem Attempts.commit_last (h : Attempts szSQL n code events) {i : Nat} {reply : Reply}
    (hcommit : events[i]? = some (.sql .commit reply)) :
    code = .kRC_OK ∧ ∃ last, events[i + 1]? = some (.sql (.setAutocommit true) last) ∧
      events.length = i + 2 := by
  induction h generalizing i with
  | exhausted last =>
      rcases i with _ | i <;> simp at hcommit
  | retried n code events begun reply₁ undone _ _ ih =>
      rcases i with _ | _ | _ | i
      · simp at hcommit
      · simp at hcommit
      · simp at hcommit
      · obtain ⟨hcode, last, hlast, hlength⟩ := ih hcommit
        exact ⟨hcode, last, hlast, by simp [hlength]⟩
  | failed n code begun reply₁ undone last =>
      rcases i with _ | _ | _ | _ | i <;> simp at hcommit
  | done n begun reply₁ committed last hok =>
      rcases i with _ | _ | _ | _ | i
      · simp at hcommit
      · simp at hcommit
      · exact ⟨rfl, last, rfl, rfl⟩
      · simp at hcommit
      · simp at hcommit

/-- Success is a commit. -/
theorem Attempts.exists_commit (h : Attempts szSQL n code events) (hcode : code = .kRC_OK) :
    ∃ reply, .sql .commit reply ∈ events := by
  induction h with
  | exhausted last => cases hcode
  | retried n code events begun reply₁ undone _ _ ih =>
      obtain ⟨reply, hin⟩ := ih hcode
      exact ⟨reply, by simp [hin]⟩
  | failed n code begun reply₁ undone last _ hne => exact absurd hcode hne
  | done n begun reply₁ committed last => exact ⟨committed, by simp⟩

/-- The last statement, after a transaction that was closed. -/
theorem closed_fresh {effect : Statement → Reply → Session → Session} {session : Session}
    (hclosed : session.isOpen = false) {last : Reply}
    (h : ControlsSucceed effect session [.sql (.setAutocommit true) last])
    (hlive : ¬ (SqlEvent.sql (.setAutocommit true) last).IsLost) :
    sessionAfter effect session [.sql (.setAutocommit true) last] = .fresh := by
  have hauto := h.autocommit [] last rfl (by simpa using hlive)
  simp only [sessionAfter, List.foldl_cons, List.foldl_nil, SqlEvent.session, Statement.control]
  split
  · exact after_setAutocommit hclosed
  · rename_i hfailed
    exact fresh_of_closed hclosed (hauto.resolve_left hfailed)

theorem session_commit {effect : Statement → Reply → Session → Session} {session : Session}
    {stmt : Statement} (hcontrol : stmt.control = some .commit ∨ stmt.control = some .rollback)
    {reply : Reply} (hok : reply.Succeeds) :
    ((SqlEvent.sql stmt reply).session effect session).isOpen = false := by
  rcases hcontrol with hcontrol | hcontrol <;>
    simp [SqlEvent.session, hcontrol, hok, Session.after]

/-- An attempt that ended in a rollback, on a connection that is alive. -/
theorem session_rolledBack {effect : Statement → Reply → Session → Session} {session : Session}
    {reply undone : Reply} (h : RolledBack szSQL reply undone)
    (hlive : ¬ (SqlEvent.sql (.callText szSQL) reply).IsLost)
    (hlive' : ¬ (SqlEvent.sql .rollback undone).IsLost) :
    ((SqlEvent.sql .rollback undone).session effect session).isOpen = false :=
  session_commit (.inr rfl) ((h.resolve_right fun hlost => hlost.elim hlive hlive'))

/-- **A connection that is alive is left as it was.** -/
theorem Attempts.fresh {effect : Statement → Reply → Session → Session} {session : Session}
    (h : Attempts szSQL n code events) (hclosed : n = 0 → session.isOpen = false)
    (hcontrols : ControlsSucceed effect session events)
    (hlive : ∀ event ∈ events, ¬ event.IsLost) :
    sessionAfter effect session events = .fresh := by
  induction h generalizing session with
  | exhausted last => exact closed_fresh (hclosed rfl) hcontrols (hlive _ List.mem_cons_self)
  | retried n code events begun reply undone hfails _ ih =>
      simp only [List.forall_mem_cons] at hlive
      obtain ⟨hbegin, hcall, hrollback, hrest⟩ := hlive
      have hundone := hcontrols.rollback 1 szSQL reply undone rfl hfails rfl
      exact ih (fun _ => session_rolledBack hundone hcall hrollback)
        (((hcontrols.tail hbegin).tail hcall).tail hrollback) hrest
  | failed n code begun reply undone last hfails _ =>
      simp only [List.forall_mem_cons] at hlive
      obtain ⟨hbegin, hcall, hrollback, hlast, _⟩ := hlive
      have hundone := hcontrols.rollback 1 szSQL reply undone rfl hfails rfl
      exact closed_fresh (session_rolledBack hundone hcall hrollback)
        (((hcontrols.tail hbegin).tail hcall).tail hrollback) hlast
  | done n begun reply committed last hok =>
      simp only [List.forall_mem_cons] at hlive
      obtain ⟨hbegin, hcall, hcommit, hlast, _⟩ := hlive
      have hcommitted := hcontrols.commit committed (by simp)
      exact closed_fresh (session_commit (.inl rfl) hcommitted)
        (((hcontrols.tail hbegin).tail hcall).tail hcommit) hlast

/-- There is one commit. -/
theorem Attempts.commit_unique (h : Attempts szSQL n code events) {reply reply' : Reply}
    (hin : .sql .commit reply ∈ events) (hin' : .sql .commit reply' ∈ events) :
    reply = reply' := by
  obtain ⟨i, hi⟩ := List.mem_iff_getElem?.mp hin
  obtain ⟨j, hj⟩ := List.mem_iff_getElem?.mp hin'
  obtain ⟨_, _, _, hlength⟩ := h.commit_last hi
  obtain ⟨_, _, _, hlength'⟩ := h.commit_last hj
  obtain rfl : i = j := by omega
  simpa using hi.symm.trans hj

/-- **The attempts obey the law** exactly if the control statements succeed. -/
theorem Attempts.law_iff {effect : Statement → Reply → Session → Session}
    (h : Attempts szSQL (n + 1) code events) (first : Reply) :
    CallLaw effect code (.sql (.setAutocommit false) first :: events) ↔
      ControlsSucceed effect .fresh (.sql (.setAutocommit false) first :: events) := by
  have htail : ∀ reply, SqlEvent.sql .commit reply ∈
      SqlEvent.sql (.setAutocommit false) first :: events → .sql .commit reply ∈ events := by
    intro reply hin
    simpa using hin
  constructor
  · intro hlaw
    constructor
    · intro i szSQL' reply reply' hcall hfails hrollback
      obtain ⟨reply'', hrollback', hundone⟩ := hlaw.rolledBack i szSQL' reply hcall hfails
      obtain rfl : reply'' = reply' := by simpa using hrollback'.symm.trans hrollback
      exact hundone
    · intro reply hin
      obtain ⟨i, hi⟩ := List.mem_iff_getElem?.mp (htail reply hin)
      obtain ⟨reply', hin', hok⟩ := hlaw.committed (h.commit_last hi).1
      rw [h.commit_unique (htail reply hin) (htail reply' hin')]
      exact hok
    · intro before reply heq hlive
      have hfresh := hlaw.closed hlive
      rw [heq, sessionAfter, List.foldl_concat] at hfresh
      by_cases hok : reply.Succeeds
      · exact .inl hok
      · refine .inr ?_
        simp only [SqlEvent.session, Statement.control, if_neg hok] at hfresh
        rw [sessionAfter, hfresh]
        rfl
  · intro hcontrols
    constructor
    · intro i szSQL' reply hcall hfails
      rcases i with _ | i
      · simp at hcall
      · obtain ⟨reply', hrollback⟩ := h.rollback_next hcall hfails
        exact ⟨reply', hrollback, hcontrols.rollback (i + 1) szSQL' reply reply' hcall hfails
          hrollback⟩
    · intro i j reply hcommit hij reply'
      rcases i with _ | i
      · simp at hcommit
      · rcases j with _ | j
        · omega
        · obtain ⟨_, last, hlast, hlength⟩ := h.commit_last hcommit
          have hafter : events[j]? = some (.sql (.setAutocommit true) last) ∨
              events[j]? = none := by
            rcases Nat.lt_or_ge j events.length with hlt | hge
            · obtain rfl : j = i + 1 := by omega
              exact .inl hlast
            · exact .inr (List.getElem?_eq_none hge)
          rcases hafter with hafter | hafter <;> simp [hafter]
    · intro hcode
      obtain ⟨reply, hin⟩ := h.exists_commit hcode
      exact ⟨reply, List.mem_cons_of_mem _ hin, hcontrols.commit reply (List.mem_cons_of_mem _ hin)⟩
    · intro hlive
      have hfirst := hlive _ List.mem_cons_self
      exact h.fresh (fun hzero => absurd hzero (Nat.succ_ne_zero n)) (hcontrols.tail hfirst)
        fun event hin => hlive event (List.mem_cons_of_mem _ hin)

/-- Without a connection nothing is sent. -/
theorem attempts_closed (srv : Server σ) (szSQL : Bytes) (n : Nat) {conn : CDbConnection σ}
    (hclosed : conn.isConnect = false) :
    (attempts srv szSQL n conn).1 ≠ .kRC_OK ∧ (attempts srv szSQL n conn).2.2 = conn := by
  have hsend : ∀ stmt, conn.send srv stmt = conn := fun stmt => send_closed hclosed stmt
  cases n with
  | zero => exact ⟨by simp [attempts], rfl⟩
  | succ n =>
      unfold attempts
      rw [hsend, CDbConnection.execute, if_neg (by simp [hclosed])]
      have hcode : errorCode kMET_Unknwon = some .kRC_MYSQL_ERROR := by decide
      have hother : kMET_Unknwon ≠ kMET_Deadloop := by decide
      simp only [if_neg hother, hcode, hsend]
      exact ⟨by decide, trivial⟩

end CDbCommandCallHandler

/-- Nothing done: the law and the condition hold of themselves. -/
theorem callLaw_nil_iff {effect : Statement → Reply → Session → Session} {code : EResultCode}
    (hcode : code ≠ .kRC_OK) :
    CallLaw effect code [] ↔ ControlsSucceed effect .fresh [] := by
  refine iff_of_true ?_ ?_
  · constructor
    · simp
    · simp
    · exact fun hok => absurd hok hcode
    · exact fun _ => rfl
  · constructor <;> simp

/-- **CALL is one transaction exactly if the control statements succeed,** whatever the server
answers to each statement. -/
theorem call_runs_as_transaction_iff {σ : Type} (srv : Server σ)
    (effect : Statement → Reply → Session → Session) (pRequest : Message)
    (conn : CDbConnection σ) :
    CallLaw effect (CDbCommandCallHandler.onDbCommand srv pRequest conn).1
        (eventsSince conn (CDbCommandCallHandler.onDbCommand srv pRequest conn).2.2) ↔
      ControlsSucceed effect .fresh
        (eventsSince conn (CDbCommandCallHandler.onDbCommand srv pRequest conn).2.2) := by
  have hnone : eventsSince conn conn = [] := List.drop_length
  unfold CDbCommandCallHandler.onDbCommand
  split
  · rename_i sql args
    split
    · simp only [hnone]
      exact callLaw_nil_iff (by decide)
    · rename_i szSQL _
      simp only
      cases hopen : conn.isConnect with
      | false =>
          have hsend : ∀ enable, conn.autoCommit srv enable = conn :=
            fun enable => CDbCommandCallHandler.send_closed hopen (.setAutocommit enable)
          obtain ⟨hcode, hconn⟩ := CDbCommandCallHandler.attempts_closed srv szSQL
            TRY_DEAD_LOOP_COUNT hopen
          simp only [hsend, hconn, hnone]
          exact callLaw_nil_iff hcode
      | true =>
          obtain ⟨first, hfirst⟩ := CDbCommandCallHandler.send_trace srv hopen
            (.setAutocommit false)
          have hopen' : (conn.autoCommit srv false).isConnect = true :=
            (CDbConnection.send_isConnect srv conn _).trans hopen
          obtain ⟨events, hattempts, hevents⟩ :=
            CDbCommandCallHandler.attempts_events srv szSQL TRY_DEAD_LOOP_COUNT hopen'
          have htrace := hevents.trans (congrArg (· ++ events) hfirst)
          rw [List.append_assoc] at htrace
          rw [eventsSince, htrace, List.drop_left]
          exact hattempts.law_iff first
  · simp only [hnone]
    exact callLaw_nil_iff (by decide)

/-- A server that carries out everything but commits. -/
def commitFails : Server Unit where
  query := fun _ stmt => (if stmt = .commit then .failed 1180 else .done kMET_OK 1, ())
  connect := fun _ => (true, ())
  escape := fun szSQL => szSQL

/-- The answer says success and nothing was committed. -/
theorem call_commit_ignored :
    ¬ ∀ (σ : Type) (srv : Server σ) (effect : Statement → Reply → Session → Session)
      (pRequest : Message) (conn : CDbConnection σ),
      CallLaw effect (CDbCommandCallHandler.onDbCommand srv pRequest conn).1
        (eventsSince conn (CDbCommandCallHandler.onDbCommand srv pRequest conn).2.2) := by
  intro h
  have hlaw := h Unit commitFails (fun _ _ session => session) (.call_command [] [])
    ⟨true, (), 0, []⟩
  obtain ⟨reply, hin, hok⟩ := hlaw.committed rfl
  have hreply : reply = .failed 1180 := by
    have hevents : eventsSince ⟨true, (), 0, []⟩ (CDbCommandCallHandler.onDbCommand commitFails
        (.call_command [] []) ⟨true, (), 0, []⟩).2.2 =
        [.sql (.setAutocommit false) (.done kMET_OK 1), .sql .begin (.done kMET_OK 1),
          .sql (.callText []) (.done kMET_OK 1), .sql .commit (.failed 1180),
          .sql (.setAutocommit true) (.done kMET_OK 1)] := rfl
    rw [hevents] at hin
    simpa using hin
  rw [hreply] at hok
  exact hok

end Db
