import TopUp.Gateway.Merchant
import TopUp.Payment.ResponseCode

/-! # Verified outcomes

    What the gateway says about a transaction once its signature has been checked:
    the answer to a wallet debit, the answer to an inquiry, and the fields that the
    hosted card page sends back with the customer.
-/

namespace TopUp.Gateway

open TopUp.Data TopUp.Text

/-- The outcome of a verified exchange. -/
structure Outcome where
  /-- The status that the effective response code stands for. -/
  status : Status
  /-- The code of the request itself. -/
  responseCode : String
  /-- The code of the payment that an inquiry was about. -/
  paymentCode : Option String
  /-- The gateway's own reference. -/
  retrievalReference : Option String
  /-- The message that the effective response code stands for. -/
  message : String
  /-- The members of the answer. -/
  raw : List (String × Json)

/-- The text of a member without blanks at its ends; a blank or missing one is none. -/
def memberText? (name : String) (members : List (String × Json)) : Option String :=
  ((Fields.get? name members).map fun v => trim (fieldText v)).filter fun s => !s.isEmpty

/-- The answer to a wallet debit. -/
def walletOutcome (members : List (String × Json)) : Outcome :=
  let code := (memberText? "pp_ResponseCode" members).getD ""
  { status := ResponseCode.classify code
    responseCode := code
    paymentCode := none
    retrievalReference := memberText? "pp_RetreivalReferenceNo" members
    message := ResponseCode.userMessage code
    raw := members }

/-- The answer to an inquiry. The code of the payment, where there is one, counts for
    more than the code of the inquiry. -/
def inquiryOutcome (members : List (String × Json)) : Outcome :=
  let code := (memberText? "pp_ResponseCode" members).getD ""
  let paymentCode := memberText? "pp_PaymentResponseCode" members
  let effective := paymentCode.getD code
  { status := ResponseCode.classify effective
    responseCode := code
    paymentCode := paymentCode
    retrievalReference := memberText? "pp_RetreivalReferenceNo" members
    message := ResponseCode.userMessage effective
    raw := members }

/-- What the hosted card page reports. -/
structure CardReturn where
  reference : String
  status : Status
  responseCode : String
  responseMessage : String
  retrievalReference : Option String
  fields : FieldMap
  deriving DecidableEq

/-- A posted field without blanks at its ends; a missing one is empty. -/
def postedText (name : String) (posted : FieldMap) : String :=
  trim ((posted.get? name).getD "")

/-- Checks and reads the fields that the hosted card page posted. -/
def readCardReturn (s : Signer) (posted : FieldMap) : Except Failure CardReturn := do
  s.verifyFields posted
  let reference := postedText "pp_TxnRefNo" posted
  if reference.isEmpty then
    throw (.invalidField "pp_TxnRefNo" "card callback is missing the transaction reference")
  let code := postedText "pp_ResponseCode" posted
  let retrieval := postedText "pp_RetreivalReferenceNo" posted
  return {
    reference := reference
    status := ResponseCode.classify code
    responseCode := code
    responseMessage := postedText "pp_ResponseMessage" posted
    retrievalReference := if retrieval.isEmpty then none else some retrieval
    fields := posted }

end TopUp.Gateway
