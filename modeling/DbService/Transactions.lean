/-!
# Transactions of a session

What a database session knows of its transactions: whether autocommit is on, and whether a
transaction is open.  Begin and switching autocommit on commit what is open; commit and rollback
close it, whatever the session was.
-/

namespace Transactions

/-- What is known of a session: the mode it is in, and whether a transaction waits for its end. -/
structure Session where
  autocommit : Bool
  isOpen : Bool
  deriving DecidableEq

/-- A session nothing was done on. -/
def Session.fresh : Session := ⟨true, false⟩

/-- The statements that control transactions. -/
inductive Control
  | setAutocommit (enable : Bool)
  | begin
  | commit
  | rollback
  deriving DecidableEq

/-- The session after a control statement that succeeded.  One that failed changes nothing. -/
def Session.after (session : Session) : Control → Session
  | .setAutocommit enable => ⟨enable, session.isOpen && (session.autocommit || !enable)⟩
  | .begin => ⟨session.autocommit, true⟩
  | .commit | .rollback => ⟨session.autocommit, false⟩

variable {session : Session}

/-- Without an open transaction, switching autocommit on leaves a fresh session. -/
theorem after_setAutocommit (hclosed : session.isOpen = false) :
    session.after (.setAutocommit true) = .fresh := by
  simp [Session.after, Session.fresh, hclosed]

/-- A session with autocommit on and nothing open is as a new one. -/
theorem fresh_of_closed (hclosed : session.isOpen = false) (hauto : session.autocommit = true) :
    session = .fresh := by
  obtain ⟨autocommit, isOpen⟩ := session
  subst hclosed hauto
  rfl

end Transactions
