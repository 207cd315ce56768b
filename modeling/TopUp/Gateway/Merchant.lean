import TopUp.Gateway.Failure
import TopUp.Gateway.Signature

/-! # Merchant accounts

    What a merchant is known by at the gateway, and the messages a merchant sends:
    a wallet debit, a card payment on the hosted page and a status inquiry. Each
    message is a payload; the hosted page is reached by a redirect of the customer's
    browser, so its signed fields are handed out and not sent.
-/

namespace TopUp.Gateway

open TopUp.Data TopUp.Text

/-- The name of the gateway in messages. -/
def providerName : String := "jazzcash"

/-- A merchant's account at the gateway. -/
structure Merchant where
  /-- The merchant's identifier. -/
  merchantId : String := ""
  /-- The merchant's password. -/
  password : String := ""
  /-- The secret that signatures are made with. -/
  salt : String := ""
  /-- Where the hosted page sends the customer back to. -/
  returnUrl : String := ""
  /-- Where wallet debits are posted to. -/
  walletUrl : String :=
    "https://sandbox.jazzcash.com.pk/ApplicationAPI/API/2.0/Purchase/DoMWalletTransaction"
  /-- The address of the hosted card page. -/
  cardUrl : String :=
    "https://sandbox.jazzcash.com.pk/CustomerPortal/transactionmanagement/merchantform/"
  /-- Where status inquiries are posted to. -/
  inquiryUrl : String :=
    "https://sandbox.jazzcash.com.pk/ApplicationAPI/API/PaymentInquiry/Inquire"
  /-- How many seconds an answer may take. -/
  timeoutSeconds : Nat := 45
  deriving DecidableEq, Repr

/-- A wallet debit. The amount is in paisa. -/
structure WalletRequest where
  amount : Int64
  billReference : String
  reference : String
  description : String
  mobileNumber : String
  /-- The last six digits of the customer's national identity number. -/
  nationalId : String
  /-- When the request was issued, in gateway local time. -/
  issuedAt : String
  /-- When the request expires, in gateway local time. -/
  expiresAt : String
  deriving DecidableEq, Repr

/-- A payment on the hosted card page. The amount is in paisa. -/
structure CardRequest where
  amount : Int64
  billReference : String
  reference : String
  description : String
  /-- When the request was issued, in gateway local time. -/
  issuedAt : String
  /-- When the request expires, in gateway local time. -/
  expiresAt : String
  deriving DecidableEq, Repr

/-- The signed form that a customer's browser posts to the hosted card page. -/
structure CardRedirect where
  postUrl : String
  fields : FieldMap
  returnUrl : Option String
  deriving DecidableEq

namespace Merchant

/-- Wallet debits and inquiries need different addresses, and an answer some time. -/
def validate (m : Merchant) : Except Failure Unit :=
  if m.walletUrl = m.inquiryUrl then
    .error (.invalidField "JAZZCASH_WALLET_PAYMENT_URL"
      "wallet payment and status inquiry endpoints must differ")
  else if m.timeoutSeconds = 0 then
    .error (.invalidField "JAZZCASH_TIMEOUT_SECONDS" "timeout must be greater than zero")
  else .ok ()

/-- The fields that name the operation and the merchant. -/
def heading (m : Merchant) (version kind : String) : List (String × String) :=
  [("pp_Version", version), ("pp_TxnType", kind), ("pp_Language", "EN"),
   ("pp_MerchantID", m.merchantId), ("pp_Password", m.password)]

/-- The payload of a wallet debit. -/
def walletPayload (m : Merchant) (r : WalletRequest) : Payload :=
  .ofList (m.heading "2.0" "MWALLET" ++
    [("pp_Amount", decimalInt r.amount.toInt), ("pp_BillReference", r.billReference),
     ("pp_TxnRefNo", r.reference), ("pp_Description", r.description),
     ("pp_MobileNumber", r.mobileNumber), ("pp_CNIC", r.nationalId),
     ("pp_TxnDateTime", r.issuedAt), ("pp_TxnExpiryDateTime", r.expiresAt)])

/-- The payload of a card payment. -/
def cardPayload (m : Merchant) (r : CardRequest) : Payload :=
  .ofList (m.heading "1.1" "CARDPAYMENT" ++
    [("pp_Amount", decimalInt r.amount.toInt), ("pp_BillReference", r.billReference),
     ("pp_TxnRefNo", r.reference), ("pp_Description", r.description),
     ("pp_ReturnURL", m.returnUrl), ("pp_TxnDateTime", r.issuedAt),
     ("pp_TxnExpiryDateTime", r.expiresAt)])

/-- The payload of a status inquiry. -/
def inquiryPayload (m : Merchant) (reference : String) : Payload :=
  .ofList
    [("pp_TxnRefNo", reference), ("pp_MerchantID", m.merchantId), ("pp_Password", m.password)]

/-- The redirect of a card payment. -/
def cardRedirect (m : Merchant) (s : Signer) (r : CardRequest) : CardRedirect :=
  { postUrl := m.cardUrl
    fields := s.outbound (m.cardPayload r)
    returnUrl := if m.returnUrl.isEmpty then none else some m.returnUrl }

end Merchant

end TopUp.Gateway
