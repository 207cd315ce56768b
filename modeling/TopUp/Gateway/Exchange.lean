import TopUp.Gateway.Outcome
import TopUp.Json.Reader

/-! # Exchanges with the gateway

    A message is posted once. The answer counts only if its status is 200, its body
    is a JSON object and, for the merchant's own operations, its signature is right.
    Every other delivery is a failure; a status of 500 or above is one after which
    the message may be sent again.

    Wallet debits and inquiries have addresses of their own (`Client.debitOver`,
    `Client.inquireOver`). A card payment is prepared without an exchange.
-/

namespace TopUp.Gateway

open TopUp.Text

/-- An answer as it came over the wire. -/
structure Answer where
  status : Nat
  body : String
  deriving DecidableEq, Repr

/-- What becomes of a posted message. -/
inductive Delivery where
  /-- An answer came. -/
  | answered (a : Answer)
  /-- The connection failed or broke. -/
  | broken
  /-- No answer came in time. -/
  | silent
  deriving DecidableEq, Repr

/-! ### Status lines -/

/-- The registered phrases of HTTP statuses. -/
def statusPhrases : List (Nat × String) :=
  [(100, "Continue"), (101, "Switching Protocols"), (102, "Processing"), (103, "Early Hints"),
   (200, "OK"), (201, "Created"), (202, "Accepted"), (203, "Non Authoritative Information"),
   (204, "No Content"), (205, "Reset Content"), (206, "Partial Content"), (207, "Multi-Status"),
   (208, "Already Reported"), (226, "IM Used"), (300, "Multiple Choices"),
   (301, "Moved Permanently"), (302, "Found"), (303, "See Other"), (304, "Not Modified"),
   (305, "Use Proxy"), (307, "Temporary Redirect"), (308, "Permanent Redirect"),
   (400, "Bad Request"), (401, "Unauthorized"), (402, "Payment Required"), (403, "Forbidden"),
   (404, "Not Found"), (405, "Method Not Allowed"), (406, "Not Acceptable"),
   (407, "Proxy Authentication Required"), (408, "Request Timeout"), (409, "Conflict"),
   (410, "Gone"), (411, "Length Required"), (412, "Precondition Failed"),
   (413, "Payload Too Large"), (414, "URI Too Long"), (415, "Unsupported Media Type"),
   (416, "Range Not Satisfiable"), (417, "Expectation Failed"), (418, "I'm a teapot"),
   (421, "Misdirected Request"), (422, "Unprocessable Entity"), (423, "Locked"),
   (424, "Failed Dependency"), (425, "Too Early"), (426, "Upgrade Required"),
   (428, "Precondition Required"), (429, "Too Many Requests"),
   (431, "Request Header Fields Too Large"), (451, "Unavailable For Legal Reasons"),
   (500, "Internal Server Error"), (501, "Not Implemented"), (502, "Bad Gateway"),
   (503, "Service Unavailable"), (504, "Gateway Timeout"), (505, "HTTP Version Not Supported"),
   (506, "Variant Also Negotiates"), (507, "Insufficient Storage"), (508, "Loop Detected"),
   (510, "Not Extended"), (511, "Network Authentication Required")]

/-- A status with its phrase. -/
def statusText (status : Nat) : String :=
  decimal status ++ " " ++ (statusPhrases.lookup status).getD "<unknown status code>"

/-! ### Reading an answer -/

/-- A body without a byte-order mark in front. -/
def withoutMark (body : String) : String :=
  match body.toList with
  | c :: rest => if c.toNat = 0xFEFF then String.ofList rest else body
  | [] => body

/-- The text that an answer brings: answers of the statuses 204 and 304 bring none. -/
def Answer.text (a : Answer) : String :=
  if a.status = 204 ∨ a.status = 304 then "" else withoutMark a.body

/-- The members of an answer of status 200 whose text is a JSON object. -/
def readAnswer (provider : String) (a : Answer) : Except Failure (List (String × Json)) :=
  if a.status ≠ 200 then
    .error (.refused provider ("HTTP " ++ statusText a.status ++ ": " ++ a.text)
      (some (decimal a.status)) (500 ≤ a.status && a.status < 600))
  else match Json.parse a.text with
    | .ok (.object members) => .ok members
    | .ok _ => .error (.refused provider "gateway response is not a JSON object" none false)
    | .error _ => .error (.refused provider "invalid provider JSON response" none false)

/-- The members that a delivery brings. -/
def receive (provider : String) (timeoutSeconds : Nat) :
    Delivery → Except Failure (List (String × Json))
  | .answered a => readAnswer provider a
  | .broken => .error (.unreachable "provider request failed")
  | .silent => .error (.timedOut timeoutSeconds)

/-! ### The merchant's operations -/

/-- A message as it is posted: the address, and the signed fields that are its body. -/
structure Posting where
  url : String
  fields : Data.FieldMap
  deriving DecidableEq

/-- What becomes of each message that is posted. -/
abbrev Network := Posting → Delivery

/-- How card payments are prepared: the redirect of a request, or why there is none. -/
abbrev CardPage := CardRequest → Except Failure CardRedirect

/-- A merchant with a usable account and the signer that goes with it. -/
structure Client where
  merchant : Merchant
  signer : Signer

namespace Client

/-- A client for an account, if the account is usable. -/
def open? (mac : Mac) (m : Merchant) : Except Failure Client := do
  m.validate
  return ⟨m, ⟨mac, m.salt⟩⟩

/-- The verified members that a delivery brings. -/
def exchange (c : Client) (d : Delivery) : Except Failure (List (String × Json)) := do
  let members ← receive providerName c.merchant.timeoutSeconds d
  -- nothing is read from an answer that is not signed
  c.signer.verify members
  return members

/-- The signed fields of a wallet debit. -/
def walletFields (c : Client) (r : WalletRequest) : Data.FieldMap :=
  c.signer.outbound (c.merchant.walletPayload r)

/-- The signed fields of an inquiry; a blank reference is refused before anything is
    sent. -/
def inquiryFields (c : Client) (reference : String) : Except Failure Data.FieldMap :=
  if isBlankText reference then
    .error (.invalidField "txn_ref_no" "transaction reference is required")
  else .ok (c.signer.outbound (c.merchant.inquiryPayload reference))

/-- The message of a wallet debit. -/
def walletPosting (c : Client) (r : WalletRequest) : Posting :=
  { url := c.merchant.walletUrl, fields := c.walletFields r }

/-- The message of an inquiry. -/
def inquiryPosting (c : Client) (reference : String) : Except Failure Posting := do
  let fields ← c.inquiryFields reference
  return { url := c.merchant.inquiryUrl, fields }

/-- The outcome of a wallet debit, by what becomes of its message. -/
def submitWallet (c : Client) (d : Delivery) : Except Failure Outcome :=
  (c.exchange d).map walletOutcome

/-- Debits a wallet over a network. -/
def debitOver (c : Client) (net : Network) (r : WalletRequest) : Except Failure Outcome :=
  c.submitWallet (net (c.walletPosting r))

/-- Inquires about a transaction over a network. -/
def inquireOver (c : Client) (net : Network) (reference : String) : Except Failure Outcome := do
  let message ← c.inquiryPosting reference
  (c.exchange (net message)).map inquiryOutcome

/-- The outcome of an inquiry, by what becomes of its message, if there is one. -/
def inquire (c : Client) (reference : String) (d : Delivery) : Except Failure Outcome :=
  c.inquireOver (fun _ => d) reference

/-- The redirect of a card payment. -/
def initiateCard (c : Client) (r : CardRequest) : CardRedirect :=
  c.merchant.cardRedirect c.signer r

/-- The card page of a client prepares every payment. -/
def cardPage (c : Client) : CardPage := fun r => .ok (c.initiateCard r)

/-- Checks and reads the fields that the hosted card page posted. -/
def cardReturn (c : Client) (posted : Data.FieldMap) : Except Failure CardReturn :=
  readCardReturn c.signer posted

end Client

end TopUp.Gateway
