import TopUp.Text.Decimal

/-! # How a gateway exchange fails

    A failure is named for its cause. Its wording for operators is `message`, its
    wording for callers is `userMessage`.
-/

namespace TopUp.Gateway

open TopUp.Text

/-- Why a payment operation was not carried out. -/
inductive Failure where
  /-- The request was refused before anything was sent. -/
  | invalid (message : String) (field : Option String)
  /-- The gateway could not be reached, or the connection broke. -/
  | unreachable (message : String)
  /-- The gateway did not answer in time. -/
  | timedOut (seconds : Nat)
  /-- The answer's signature is missing or wrong. -/
  | unverified (message : String)
  /-- The gateway answered with an error, or with something that is no answer. -/
  | refused (provider message : String) (code : Option String) (retryable : Bool)
  deriving DecidableEq, Repr

namespace Failure

/-- A refused field. -/
def invalidField (field message : String) : Failure := .invalid message (some field)

/-- The wording for operators. -/
def message : Failure → String
  | .invalid m _ => "Validation error: " ++ m
  | .unreachable m => "Network error: " ++ m
  | .timedOut secs => "Gateway request timed out after " ++ decimal secs ++ "s"
  | .unverified m => "Integrity check failed: " ++ m
  | .refused p m _ _ => "Provider error: provider=" ++ p ++ ", message=" ++ m

/-- Whether the same request may be sent again. -/
def retryable : Failure → Bool
  | .invalid _ _ => false
  | .unreachable _ => true
  | .timedOut _ => true
  | .unverified _ => false
  | .refused _ _ _ again => again

/-- The HTTP status of an answer that reports the failure. -/
def httpStatus : Failure → Nat
  | .invalid _ _ => 400
  | .unreachable _ => 503
  | .timedOut _ => 504
  | .unverified _ => 502
  | .refused _ _ _ _ => 502

/-- The wording for callers. -/
def userMessage : Failure → String
  | .invalid m _ => m
  | .unreachable _ => "Payment provider is temporarily unavailable"
  | .timedOut _ => "Payment provider is temporarily unavailable"
  | .unverified _ => "Payment provider response could not be verified"
  | .refused _ _ _ _ => "Payment provider returned an error"

end Failure

end TopUp.Gateway
