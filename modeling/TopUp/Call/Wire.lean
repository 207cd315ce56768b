import TopUp.Call.Request
import TopUp.Json.Printer
import TopUp.Json.Shape

/-! # Requests and receipts on the wire

    Requests, receipts and card redirects as JSON text. Each is an object; a reader
    also takes an array of the members in their order, in which members that need
    not be given may be missing at the end. A member given twice is refused. Members
    that are absent are written as null in a request and left out elsewhere.

    A reader fills a draft whose members are all absent at first.
-/

namespace TopUp

open TopUp.Data TopUp.Gateway TopUp.Json

/-! ### Names -/

/-- Reads a payment method. -/
def Method.reader : Reader Method := Reader.oneOf Method.ofWire?

/-- Reads a status. -/
def Status.reader : Reader Status := Reader.oneOf Status.ofWire?

/-! ### Requests -/

namespace Request

/-- A request under construction. -/
structure Partial where
  /-- The idempotency key. -/
  key : Option Uuid := none
  /-- The amount. -/
  amount : Option Int64 := none
  /-- The payment method. -/
  method : Option Method := none
  /-- The mobile number, which may be given as null. -/
  phoneNumber : Option (Option String) := none
  /-- The national identity number, which may be given as null. -/
  nationalId : Option (Option String) := none

/-- The members of a request. -/
def members : List (Reader.Member Partial) :=
  [{ name := "idempotency_key"
     read := (fun v d => { d with key := some v }) <$> Reader.uuid
     given := fun d => d.key.isSome },
   { name := "amount"
     read := (fun v d => { d with amount := some v }) <$> Reader.int64
     given := fun d => d.amount.isSome },
   { name := "method"
     read := (fun v d => { d with method := some v }) <$> Method.reader
     given := fun d => d.method.isSome },
   { name := "phone_number"
     read := (fun v d => { d with phoneNumber := some v }) <$> Reader.optional Reader.text
     given := fun d => d.phoneNumber.isSome
     trailing := true },
   { name := "cnic_last6"
     read := (fun v d => { d with nationalId := some v }) <$> Reader.optional Reader.text
     given := fun d => d.nationalId.isSome
     trailing := true }]

/-- The request of a draft that has what it needs. -/
def ofPartial (d : Partial) : Option Request := do
  return {
    key := ← d.key
    amount := ← d.amount
    method := ← d.method
    phoneNumber := d.phoneNumber.getD none
    nationalId := d.nationalId.getD none }

/-- Reads a request. -/
def reader : Reader Request := Reader.record members {} ofPartial

/-- A request as JSON. -/
def toJson (r : Request) : Json :=
  .object
    [("idempotency_key", .string r.key.toText), ("amount", .ofInt r.amount.toInt),
     ("method", .string r.method.wire), ("phone_number", .ofText? r.phoneNumber),
     ("cnic_last6", .ofText? r.nationalId)]

end Request

/-! ### Card redirects -/

namespace Gateway.CardRedirect

/-- A redirect under construction. -/
structure Partial where
  /-- The address of the card page. -/
  postUrl : Option String := none
  /-- The signed fields. -/
  fields : Option FieldMap := none
  /-- Where the card page sends the customer back to; may be given as null. -/
  returnUrl : Option (Option String) := none

/-- The members of a redirect. -/
def members : List (Reader.Member Partial) :=
  [{ name := "post_url"
     read := (fun v d => { d with postUrl := some v }) <$> Reader.text
     given := fun d => d.postUrl.isSome },
   { name := "fields"
     read := (fun v d => { d with fields := some v }) <$> Reader.fields
     given := fun d => d.fields.isSome },
   { name := "return_url"
     read := (fun v d => { d with returnUrl := some v }) <$> Reader.optional Reader.text
     given := fun d => d.returnUrl.isSome }]

/-- The redirect of a draft that has what it needs. -/
def ofPartial (d : Partial) : Option CardRedirect := do
  return {
    postUrl := ← d.postUrl
    fields := ← d.fields
    returnUrl := d.returnUrl.getD none }

/-- Reads a redirect. -/
def reader : Reader CardRedirect := Reader.record members {} ofPartial

/-- A redirect as JSON. -/
def toJson (r : CardRedirect) : Json :=
  .object
    ([("post_url", .string r.postUrl), ("fields", .ofFields r.fields)]
      ++ (r.returnUrl.map fun u => ("return_url", .string u)).toList)

end Gateway.CardRedirect

/-! ### Receipts -/

namespace Receipt

/-- A receipt under construction. -/
structure Partial where
  /-- The identifier of the transaction. -/
  id : Option Uuid := none
  /-- The merchant's transaction reference. -/
  reference : Option String := none
  /-- The state of the payment. -/
  status : Option Status := none
  /-- The message for the customer. -/
  message : Option String := none
  /-- The redirect, which may be given as null. -/
  redirect : Option (Option CardRedirect) := none
  /-- The amount. -/
  amount : Option Int64 := none

/-- The members of a receipt. -/
def members : List (Reader.Member Partial) :=
  [{ name := "id"
     read := (fun v d => { d with id := some v }) <$> Reader.uuid
     given := fun d => d.id.isSome },
   { name := "txn_ref_no"
     read := (fun v d => { d with reference := some v }) <$> Reader.text
     given := fun d => d.reference.isSome },
   { name := "status"
     read := (fun v d => { d with status := some v }) <$> Status.reader
     given := fun d => d.status.isSome },
   { name := "message"
     read := (fun v d => { d with message := some v }) <$> Reader.text
     given := fun d => d.message.isSome },
   { name := "redirect"
     read := (fun v d => { d with redirect := some v }) <$> Reader.optional CardRedirect.reader
     given := fun d => d.redirect.isSome
     trailing := true },
   { name := "amount"
     read := (fun v d => { d with amount := some v }) <$> Reader.int64
     given := fun d => d.amount.isSome }]

/-- The receipt of a draft that has what it needs. -/
def ofPartial (d : Partial) : Option Receipt := do
  return {
    id := ← d.id
    reference := ← d.reference
    status := ← d.status
    message := ← d.message
    redirect := d.redirect.getD none
    amount := ← d.amount }

/-- Reads a receipt. -/
def reader : Reader Receipt := Reader.record members {} ofPartial

/-- A receipt as JSON. -/
def toJson (r : Receipt) : Json :=
  .object
    ([("id", .string r.id.toText), ("txn_ref_no", .string r.reference),
      ("status", .string r.status.wire), ("message", .string r.message)]
      ++ (r.redirect.map fun d => ("redirect", d.toJson)).toList
      ++ [("amount", .ofInt r.amount.toInt)])

end Receipt

end TopUp
