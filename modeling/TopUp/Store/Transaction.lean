import TopUp.Payment.Status
import TopUp.Uuid

/-! # Transactions

    A top-up that was made has one transaction. Its identity, its owner, its amount
    and its references never change; its status and the mark that a poll loop
    attends to it do. Amounts are in paisa, times in microseconds since 1970.
-/

namespace TopUp.Store

/-- What a caller gives of a transaction to be stored. -/
structure NewTransaction where
  user : Uuid
  key : Uuid
  billReference : String
  reference : String
  method : Method
  amount : Int64
  deriving DecidableEq

/-- A stored transaction. -/
structure Transaction where
  id : Uuid
  user : Uuid
  /-- The idempotency key of the request that made it. -/
  key : Uuid
  billReference : String
  reference : String
  method : Method
  amount : Int64
  status : Status
  /-- Whether a poll loop attends to it. -/
  polling : Bool
  /-- When it was made, in microseconds since 1970. -/
  createdAt : Int
  deriving DecidableEq

/-- The transaction that a fresh request is stored as: pending and unattended. -/
def NewTransaction.opened (n : NewTransaction) (id : Uuid) (createdAt : Int) : Transaction :=
  { id, createdAt
    user := n.user
    key := n.key
    billReference := n.billReference
    reference := n.reference
    method := n.method
    amount := n.amount
    status := .pending
    polling := false }

end TopUp.Store
