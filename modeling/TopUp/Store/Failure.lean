/-! # How a store operation fails

    A store keeps transactions in memory or in a database. Whatever it is, its
    operations fail in one of five ways; two of them pass by themselves, so the
    operation may be tried again. `Store.Fault` lists what a database driver reports
    and `Fault.failure` sorts it into the five.
-/

namespace TopUp.Store

/-- Why a store operation was not carried out. -/
inductive Failure where
  /-- There is no such entity. -/
  | missing (entity id : String)
  /-- A value that has to be unique is taken. -/
  | duplicate (constraint : String)
  /-- The store could not be reached. -/
  | disconnected (message : String)
  /-- The store gave up the operation in favour of another one. -/
  | conflict (message : String)
  /-- Anything else. -/
  | other (message : String)
  deriving DecidableEq, Repr

namespace Failure

/-- The wording for operators. -/
def message : Failure → String
  | .missing entity id => entity ++ " not found: " ++ id
  | .duplicate constraint => "unique constraint violated: " ++ constraint
  | .disconnected m => "database connection error: " ++ m
  | .conflict m => "transaction conflict: " ++ m
  | .other m => "database error: " ++ m

/-- Whether the operation may be tried again. -/
def retryable : Failure → Bool
  | .disconnected _ | .conflict _ => true
  | .missing _ _ | .duplicate _ | .other _ => false

end Failure

/-! ### Databases -/

/-- What a database driver reports. -/
inductive Fault where
  /-- A query for one row found none. -/
  | noRow
  /-- No connection of the pool became free in time. -/
  | poolTimedOut
  /-- The pool has been closed. -/
  | poolClosed
  /-- The connection failed. -/
  | connection (message : String)
  /-- The task that drives a connection is gone. -/
  | workerGone
  /-- A row lacks a column. -/
  | noColumn (name : String)
  /-- The server sent something unexpected. -/
  | protocol (message : String)
  /-- The connection settings are of no use. -/
  | settings (message : String)
  /-- The server refused a statement, with an SQLSTATE code. -/
  | refused (code : String) (constraint : Option String) (message : String)
  deriving DecidableEq, Repr

namespace Fault

/-- The SQLSTATE code of a violated unique constraint. -/
def uniqueViolation : String := "23505"

/-- The SQLSTATE codes of a transaction that lost against another one. -/
def abortedCodes : List String := ["40001", "40P01"]

/-- The driver's own wording. -/
def message : Fault → String
  | .noRow => "no rows returned by a query that expected to return at least one row"
  | .poolTimedOut => "pool timed out while waiting for an open connection"
  | .poolClosed => "attempted to acquire a connection on a closed pool"
  | .connection m => "error communicating with database: " ++ m
  | .workerGone => "attempted to communicate with a crashed background worker"
  | .noColumn name => "no column found for name: " ++ name
  | .protocol m => "encountered unexpected or invalid data: " ++ m
  | .settings m => "error with configuration: " ++ m
  | .refused _ _ m => m

/-- The failure of the operation that met the fault. -/
def failure (f : Fault) : Failure :=
  match f with
  | .noRow => .missing "row" ""
  | .poolTimedOut | .poolClosed | .connection _ => .disconnected f.message
  | .refused code constraint m =>
    if code = uniqueViolation then .duplicate (constraint.getD "")
    else if abortedCodes.contains code then .conflict m
    else .other m
  | .workerGone | .noColumn _ | .protocol _ | .settings _ => .other f.message

end Fault

end TopUp.Store
