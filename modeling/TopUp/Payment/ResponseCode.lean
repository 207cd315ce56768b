import TopUp.Payment.Status

/-! # Response codes

    The gateway reports an outcome as a code. A code has a status and a message for
    the customer; the two tables are independent. Blanks around a code do not
    matter, and a code that neither table knows is still answered.
-/

namespace TopUp.ResponseCode

open TopUp.Text

/-- Codes of a settled, paid transaction. -/
def successCodes : List String := ["000", "121", "200"]

/-- Codes of a settled, unpaid transaction. -/
def failedCodes : List String := ["101", "105", "110", "111", "112", "115", "118", "199", "999"]

/-- Codes of a transaction that waits for a confirmation. -/
def pendingCodes : List String := ["124", "157", "210"]

/-- A declined card: a four and two more digits. -/
def isCardDecline (code : String) : Bool :=
  match code.toList with
  | ['4', a, b] => a.isDigit && b.isDigit
  | _ => false

/-- The status that a code stands for. -/
def classify (code : String) : Status :=
  let code := trim code
  if successCodes.contains code then .success
  else if failedCodes.contains code || isCardDecline code then .failed
  else if pendingCodes.contains code then .pending
  else .unknown

/-- The messages of the known codes. -/
def messages : List (String × String) :=
  [("000", "Transaction completed successfully"),
   ("121", "Transaction confirmed successfully"),
   ("200", "Transaction approved"),
   ("001", "Transaction limit exceeded. Please contact your bank"),
   ("002", "Account not found. Please verify your account details"),
   ("003", "Account is inactive. Please contact your wallet provider"),
   ("004", "Insufficient balance. Please add funds to your account"),
   ("024", "Incorrect MPIN. Please try again with the correct MPIN"),
   ("102", "Card is blocked. Please contact your bank"),
   ("404", "Card has expired. Please use a valid card"),
   ("405", "Insufficient balance on card. Please check your card balance"),
   ("415", "3D Secure verification failed. Please check your 3D Secure ID"),
   ("416", "CVV verification failed. Please check your CVV and try again"),
   ("419",
    "Card is not enrolled in 3D Secure. Please contact your bank to activate 3D Secure"),
   ("424", "Incorrect CVV. Please enter the correct CVV and try again"),
   ("101", "Invalid merchant credentials"),
   ("105", "Transaction exceeds limit. Please contact support"),
   ("110", "Invalid transaction value"),
   ("111", "Transaction not allowed"),
   ("112", "Transaction was cancelled"),
   ("115", "Security verification failed. Please try again"),
   ("116", "Transaction has expired. Please initiate a new transaction"),
   ("134", "Transaction timed out. Please try again"),
   ("999", "Transaction failed due to a technical issue. Please try again later"),
   ("124", "Order is pending. Waiting for payment confirmation"),
   ("157", "Transaction is pending. Please wait for confirmation"),
   ("210", "Authorization pending. Please wait"),
   ("410", "Transaction was cancelled by you"),
   ("412", "Transaction was cancelled by you"),
   ("118", "Service is temporarily under maintenance. Please try again later"),
   ("127", "Service is temporarily under maintenance. Please try again later"),
   ("", "Transaction failed. Please try again")]

/-- The message that a customer is shown for a code. -/
def userMessage (code : String) : String :=
  let code := trim code
  match messages.lookup code with
  | some m => m
  | none => "Transaction failed with code: " ++ code ++ ". Please contact support"

/-! ### Sanity checks -/

example : classify " 477\t" = .failed := by decide
example : classify "4AB" = .unknown := by decide
example : userMessage "777" = "Transaction failed with code: 777. Please contact support" := by
  decide

end TopUp.ResponseCode
