import TopUp.Data.Dict
import TopUp.Store.Transaction

/-! # The ledger

    The committed transactions, found by reference and, through an index, by
    idempotency key. A status is written only if the stored one may give way to it;
    the mark of a poll loop is set only if it is clear.
-/

namespace TopUp.Store

open TopUp.Data

/-- The committed transactions. -/
structure Ledger where
  /-- The transactions by reference. -/
  rows : Dict String Transaction := .empty
  /-- The references by idempotency key. -/
  refs : Dict Uuid String := .empty
  deriving DecidableEq

namespace Ledger

/-- The transaction of a reference. -/
def find? (l : Ledger) (reference : String) : Option Transaction := l.rows.find? reference

/-- The transaction of an idempotency key. -/
def byKey? (l : Ledger) (key : Uuid) : Option Transaction := (l.refs.find? key).bind l.find?

/-- The ledger with a transaction. -/
def put (l : Ledger) (t : Transaction) : Ledger :=
  { rows := l.rows.insert t.reference t, refs := l.refs.insert t.key t.reference }

/-- The ledger with the transaction of a reference changed by `f`. -/
def change (l : Ledger) (reference : String) (f : Transaction → Transaction) : Ledger :=
  match l.find? reference with
  | some t => { l with rows := l.rows.insert reference (f t) }
  | none => l

/-- Whether the stored status of a reference may give way to `status`. -/
def mayTake (l : Ledger) (reference : String) (status : Status) : Bool :=
  match l.find? reference with
  | some t => t.status.canBecome status
  | none => false

/-- Writes a status if the stored one may give way to it, and tells whether it did. -/
def writeStatus (l : Ledger) (reference : String) (status : Status) : Bool × Ledger :=
  if l.mayTake reference status then (true, l.change reference fun t => { t with status })
  else (false, l)

/-- Marks a transaction as attended to if it is not, and tells whether it did. -/
def claim (l : Ledger) (reference : String) : Bool × Ledger :=
  match l.find? reference with
  | some t =>
    if t.polling then (false, l)
    else (true, l.change reference fun t => { t with polling := true })
  | none => (false, l)

/-- Takes the mark of a poll loop away. -/
def clear (l : Ledger) (reference : String) : Ledger :=
  l.change reference fun t => { t with polling := false }

end Ledger

end TopUp.Store
