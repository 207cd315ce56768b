import TopUp.Gateway.Merchant
import TopUp.Problem.Kind
import TopUp.Store.Failure

/-! # How a payment call fails

    A call fails because of the gateway or because of the store. A store that fails
    after the gateway has answered leaves a payment whose outcome is not recorded;
    such a call must not simply be repeated.
-/

namespace TopUp

open TopUp.Gateway

/-- The kind of problem that a gateway failure is reported as. -/
def Gateway.Failure.problem : Gateway.Failure → Problem.Kind
  | .invalid m (some "phone_number") => .phoneNumber m
  | .invalid m (some "cnic_last6") => .nationalId m
  | .invalid m (some "amount") => .amount "" m
  | .invalid m field => .invalidField (field.getD "request") m
  | .timedOut secs => .timedOut "Payment gateway" secs
  | .unverified m => .unverified providerName m
  | .unreachable m => .provider providerName m true
  | .refused provider m _ again => .provider provider m again

/-- The kind of problem that a store failure is reported as. -/
def Store.Failure.problem (f : Store.Failure) : Problem.Kind := .storage f.message f.retryable

namespace Call

/-- Why a payment call ended without an answer. -/
inductive Failure where
  /-- The gateway failed, or the request was refused. -/
  | gateway (cause : Gateway.Failure)
  /-- The store failed. -/
  | store (cause : Store.Failure)
  /-- The store failed after the gateway had answered. -/
  | unrecorded (reference : String) (cause : Store.Failure)
  deriving DecidableEq, Repr

namespace Failure

/-- The wording for operators. -/
def message : Failure → String
  | .gateway cause => cause.message
  | .store cause => cause.message
  | .unrecorded reference cause =>
    "gateway outcome for " ++ reference ++ " was not recorded: " ++ cause.message

/-- The kind of problem that the failure is reported as. -/
def problem : Failure → Problem.Kind
  | .gateway cause => cause.problem
  | .store cause => cause.problem
  | .unrecorded reference cause => .unrecordedOutcome reference cause.message

end Failure

end Call

end TopUp
