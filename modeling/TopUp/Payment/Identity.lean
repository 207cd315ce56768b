import TopUp.Gateway.Failure

/-! # Customer identifiers and amounts

    The gateway is sent a mobile number of eleven digits in local form and the last
    six digits of the national identity number. Both are made from whatever the
    customer typed: only its ASCII digits count.
-/

namespace TopUp.Identity

open TopUp.Gateway TopUp.Text

/-- The ASCII digits of a text, in order. -/
def digits (s : String) : List Char := s.toList.filter Char.isDigit

/-- The local form of a number's digits: eleven digits that start with a zero stay,
    the country code 92 gives way to a zero (a thirteenth digit is dropped), and a
    zero goes in front of ten digits. -/
def localForm? (ds : List Char) : Option (List Char) :=
  if ds.length = 11 ∧ ds.take 1 = ['0'] then some ds
  else if (ds.length = 12 ∨ ds.length = 13) ∧ ds.take 2 = ['9', '2'] then
    some ('0' :: (ds.drop 2).take 10)
  else if ds.length = 10 then some ('0' :: ds)
  else none

/-- The mobile number that the gateway is sent. -/
def mobileNumber (s : String) : Except Failure String :=
  let ds := digits s
  if ds.isEmpty then .error (.invalidField "phone_number" "phone number contains no digits")
  else match localForm? ds with
    | some number => .ok (String.ofList number)
    | none => .error (.invalidField "phone_number"
        ("invalid phone number format: expected 10-13 digits, got " ++ decimal ds.length))

/-- The last six digits of a national identity number. -/
def nationalId (s : String) : Except Failure String :=
  let ds := digits s
  if ds.isEmpty then .error (.invalidField "cnic_last6" "CNIC contains no digits")
  else if ds.length < 6 then
    .error (.invalidField "cnic_last6"
      ("CNIC must have at least 6 digits, got " ++ decimal ds.length))
  else .ok (String.ofList (ds.drop (ds.length - 6)))

/-- An amount must be above zero. -/
def checkAmount (amount : Int64) : Except Failure Unit :=
  if amount ≤ 0 then .error (.invalidField "amount" "amount must be greater than zero") else .ok ()

/-! ### Sanity checks -/

example : (mobileNumber "+92 300 1234567").toOption = some "03001234567" := by decide
example : (mobileNumber "9230012345678").toOption = some "03001234567" := by decide
example : (nationalId "35202-1234567-1").toOption = some "345671" := by decide

end TopUp.Identity
