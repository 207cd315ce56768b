import TopUp.Store.Failure
import TopUp.Store.Ledger

/-! # Units of work

    A unit of work gathers writes that become visible together when it is committed.
    It sees the transactions it made itself and otherwise the ledger as it is. A
    status write on a committed transaction is checked against the ledger when it is
    asked for and again when the unit is committed.
-/

namespace TopUp.Store

/-- The writes of an open unit of work. -/
structure Draft where
  /-- The transactions it made. -/
  created : List Transaction := []
  /-- The statuses it is to write on committed transactions. -/
  updates : List (String × Status) := []
  deriving DecidableEq

namespace Draft

/-- The constraint that idempotency keys are unique. -/
def keyConstraint : String := "gateway_transactions_idempotency_key_key"

/-- The constraint that references are unique. -/
def referenceConstraint : String := "gateway_transactions_txn_ref_no_key"

/-- The transaction of an idempotency key, as the unit of work sees it. -/
def byKey? (d : Draft) (l : Ledger) (key : Uuid) : Option Transaction :=
  (d.created.find? fun t => t.key = key).or (l.byKey? key)

/-- Makes a transaction; its key and its reference must be new. -/
def create (d : Draft) (l : Ledger) (n : NewTransaction) (id : Uuid) (now : Int) :
    Except Failure (Transaction × Draft) :=
  if l.refs.contains n.key || d.created.any fun t => t.key = n.key then
    .error (.duplicate keyConstraint)
  else if l.rows.contains n.reference || d.created.any fun t => t.reference = n.reference then
    .error (.duplicate referenceConstraint)
  else
    let t := n.opened id now
    .ok (t, { d with created := d.created ++ [t] })

/-- The transactions with the status of the first one of the given reference
    replaced. -/
def restate (reference : String) (status : Status) : List Transaction → List Transaction
  | [] => []
  | t :: rest =>
    if t.reference = reference then { t with status } :: rest
    else t :: restate reference status rest

/-- Asks for a status to be written, and tells whether it will be. -/
def writeStatus (d : Draft) (l : Ledger) (reference : String) (status : Status) :
    Bool × Draft :=
  match d.created.find? fun t => t.reference = reference with
  | some t =>
    if t.status.canBecome status then
      (true, { d with created := restate reference status d.created })
    else (false, d)
  | none =>
    if l.mayTake reference status then
      (true, { d with updates := d.updates ++ [(reference, status)] })
    else (false, d)

/-- The ledger with the writes of the unit of work. -/
def commit (d : Draft) (l : Ledger) : Ledger :=
  d.updates.foldl (fun l u => (l.writeStatus u.1 u.2).2) (d.created.foldl Ledger.put l)

end Draft

end TopUp.Store
