import TopUp.Call.Failure
import TopUp.Payment.Identity
import TopUp.Store.Transaction

/-! # Top-up requests and receipts

    A request names its idempotency key: requests with one key are one top-up. A
    receipt tells what became of it. An unknown outcome is shown as pending.
-/

namespace TopUp

open TopUp.Gateway TopUp.Store

/-- What a customer asks for. The amount is in paisa. -/
structure Request where
  key : Uuid
  amount : Int64
  method : Method
  phoneNumber : Option String
  nationalId : Option String
  deriving DecidableEq

/-- How the gateway knows a wallet. -/
structure Wallet where
  /-- The mobile number in local form. -/
  mobileNumber : String
  /-- The last six digits of the national identity number. -/
  nationalId : String
  deriving DecidableEq, Repr

namespace Request

/-- The wallet of a request; both numbers must be given and be of use. -/
def wallet (r : Request) : Except Gateway.Failure Wallet := do
  let phone ← match r.phoneNumber with
    | some s => .ok s
    | none =>
      .error (.invalidField "phone_number" "phone number is required for wallet payments")
  let identity ← match r.nationalId with
    | some s => .ok s
    | none => .error (.invalidField "cnic_last6" "CNIC is required for wallet payments")
  let mobileNumber ← Identity.mobileNumber phone
  let nationalId ← Identity.nationalId identity
  return { mobileNumber, nationalId }

/-- Checks a request. A wallet payment has a wallet, a card payment has none. -/
def validate (r : Request) : Except Gateway.Failure (Option Wallet) := do
  Identity.checkAmount r.amount
  match r.method with
  | .wallet => return some (← r.wallet)
  | .card => return none

end Request

/-- What a caller is told of a top-up. -/
structure Receipt where
  id : Uuid
  reference : String
  status : Status
  message : String
  redirect : Option CardRedirect
  amount : Int64
  deriving DecidableEq

namespace Receipt

/-- The message of a transaction that was paid before. -/
def alreadyCompleted : String := "Transaction has already completed"

/-- The message of a transaction that had failed before. -/
def alreadyFailed : String := "Transaction has failed"

/-- The message of a transaction that was open for too long. -/
def tooLate : String := "Transaction has timed out. Please try again."

/-- The message of a card payment that goes on elsewhere. -/
def goOnByCard : String := "Complete the payment on the card page"

/-- The receipt of a transaction with a status and a message. -/
def ofTransaction (t : Transaction) (status : Status) (message : String) : Receipt :=
  { id := t.id
    reference := t.reference
    status := status.clientVisible
    message := message
    redirect := none
    amount := t.amount }

/-- The receipt of a transaction that is settled. -/
def settled (t : Transaction) : Receipt :=
  ofTransaction t t.status (if t.status = .success then alreadyCompleted else alreadyFailed)

/-- The receipt of a transaction as it is stored; the message is for an open one. -/
def stored (t : Transaction) (message : String) : Receipt :=
  if t.status.isTerminal then settled t else ofTransaction t t.status message

end Receipt

end TopUp
