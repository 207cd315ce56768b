import TopUp.Json.Value
import TopUp.Text.Decimal

/-! # Problems that callers are told of

    Every failure of the service ends as a problem: a kind with a stable code, an
    HTTP status, a wording for people and the advice whether to try again. Details
    of the infrastructure and of the gateway stay inside.
-/

namespace TopUp

open TopUp.Text

namespace Problem

/-- The stable names of problems. -/
inductive Code where
  /-- The caller is not known. -/
  | unauthorized
  /-- The phone number is of no use. -/
  | invalidPhoneNumber
  /-- The national identity number is of no use. -/
  | invalidNationalId
  /-- The amount is of no use. -/
  | invalidAmount
  /-- Another part of the request is of no use. -/
  | validation
  /-- The store failed. -/
  | database
  /-- The settings are of no use. -/
  | configuration
  /-- A payment was taken and its outcome is not stored. -/
  | unrecordedOutcome
  /-- The gateway failed. -/
  | provider
  /-- The gateway's answer is not to be trusted. -/
  | integrity
  /-- The gateway did not answer. -/
  | timeout
  /-- A fault of the service. -/
  | internal
  deriving DecidableEq, Repr

namespace Code

/-- The codes with their names on the wire. -/
def table : List (String × Code) :=
  [("UNAUTHORIZED", .unauthorized), ("INVALID_PHONE_NUMBER", .invalidPhoneNumber),
   ("INVALID_NATIONAL_ID", .invalidNationalId), ("INVALID_AMOUNT", .invalidAmount),
   ("VALIDATION_ERROR", .validation), ("DATABASE_ERROR", .database),
   ("CONFIGURATION_ERROR", .configuration),
   ("UNRECORDED_GATEWAY_OUTCOME", .unrecordedOutcome), ("PAYMENT_PROVIDER_ERROR", .provider),
   ("GATEWAY_INTEGRITY_ERROR", .integrity), ("EXTERNAL_SERVICE_TIMEOUT", .timeout),
   ("INTERNAL_ERROR", .internal)]

/-- The name on the wire. -/
def wire (c : Code) : String := ((table.find? fun e => e.2 = c).map Prod.fst).getD ""

/-- The code of a wire name. -/
def ofWire? (s : String) : Option Code := table.lookup s

@[simp] theorem ofWire?_wire (c : Code) : ofWire? c.wire = some c := by
  cases c <;> decide

end Code

/-- What went wrong. -/
inductive Kind where
  /-- No caller is named. -/
  | missingIdentity
  /-- The named caller is no identifier. -/
  | invalidIdentity (reason : String)
  /-- The store failed. -/
  | storage (message : String) (retryable : Bool)
  /-- The settings are of no use. -/
  | configuration (message : String)
  /-- The gateway took a payment whose outcome could not be stored. -/
  | unrecordedOutcome (reference message : String)
  /-- A fault of the service. -/
  | internal (message : String)
  /-- The gateway failed. -/
  | provider (name message : String) (retryable : Bool)
  /-- The gateway's answer could not be verified. -/
  | unverified (name message : String)
  /-- A service did not answer in time. -/
  | timedOut (service : String) (seconds : Nat)
  /-- The phone number is of no use. -/
  | phoneNumber (reason : String)
  /-- The national identity number is of no use. -/
  | nationalId (reason : String)
  /-- The amount is of no use. -/
  | amount (given reason : String)
  /-- A field is missing. -/
  | missingField (field : String)
  /-- A field is of no use. -/
  | invalidField (field reason : String)
  deriving DecidableEq, Repr

namespace Kind

/-- The HTTP status of an answer that reports the problem. -/
def httpStatus : Kind → Nat
  | .missingIdentity | .invalidIdentity _ => 401
  | .storage _ _ | .configuration _ | .unrecordedOutcome _ _ | .internal _ => 500
  | .provider _ _ _ | .unverified _ _ => 502
  | .timedOut _ _ => 504
  | .phoneNumber _ | .nationalId _ | .amount _ _ | .missingField _ | .invalidField _ _ => 400

/-- The stable code. -/
def code : Kind → Code
  | .missingIdentity | .invalidIdentity _ => .unauthorized
  | .storage _ _ => .database
  | .configuration _ => .configuration
  | .unrecordedOutcome _ _ => .unrecordedOutcome
  | .internal _ => .internal
  | .provider _ _ _ => .provider
  | .unverified _ _ => .integrity
  | .timedOut _ _ => .timeout
  | .phoneNumber _ => .invalidPhoneNumber
  | .nationalId _ => .invalidNationalId
  | .amount _ _ => .invalidAmount
  | .missingField _ | .invalidField _ _ => .validation

/-- The wording for people. -/
def userMessage : Kind → String
  | .missingIdentity | .invalidIdentity _ => "Authentication required"
  | .unrecordedOutcome reference _ =>
    "Your payment " ++ reference
      ++ " is being processed. Please check its status before retrying"
  | .storage _ _ | .configuration _ | .internal _ =>
    "Service temporarily unavailable. Please try again later"
  | .provider name _ true =>
    "Payment provider (" ++ name ++ ") is temporarily unavailable. Please try again"
  | .provider _ _ false => "Payment processing failed. Please contact support"
  | .unverified _ _ =>
    "Payment provider response could not be verified. Please contact support"
  | .timedOut service secs =>
    service ++ " request timed out after " ++ decimal secs ++ " seconds. Please try again"
  | .phoneNumber reason => "Invalid phone number: " ++ reason
  | .nationalId reason => "Invalid CNIC: " ++ reason
  | .amount given reason => "Invalid amount '" ++ given ++ "': " ++ reason
  | .missingField field => "Required field '" ++ field ++ "' is missing"
  | .invalidField field reason => "Invalid value for '" ++ field ++ "': " ++ reason

/-- Whether the caller may send the same request again. -/
def retryable : Kind → Bool
  | .storage _ again => again
  | .provider _ _ again => again
  | .timedOut _ _ => true
  | _ => false

/-- The name of the field that the problem is about. -/
def field? : Kind → Option String
  | .missingField field | .invalidField field _ => some field
  | _ => none

end Kind

end Problem

end TopUp
