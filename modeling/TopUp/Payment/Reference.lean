import TopUp.Calendar.Stamp

/-! # References

    A transaction carries two references of the merchant's making: a bill reference
    with the second of its creation and a transaction reference with the date at the
    gateway. Three random characters end both. The alphabet leaves out letters and
    digits that look alike.
-/

namespace TopUp.Reference

open TopUp.Calendar TopUp.Text

/-- The characters of a random ending: no 0, 1, I, L or O. -/
def alphabet : List Char := "ABCDEFGHJKMNPQRSTUVWXYZ23456789".toList

/-- The number of random characters of a reference. -/
def endingLength : Nat := 3

/-- The random ending made of the given draws, each taken modulo the alphabet. -/
def ending (draws : List Nat) : String :=
  String.ofList (draws.map fun n => alphabet.getD (n % alphabet.length) 'A')

/-- The bill reference of an instant. -/
def bill (unix : Int) (ending : String) : String := "BILL" ++ decimalInt unix ++ ending

/-- The transaction reference of an instant. -/
def transaction (unix : Int) (minutes : Int32) (ending : String) : String :=
  "GIKITU" ++ String.ofList (dateStamp (unix + offsetSeconds minutes)) ++ ending

/-! ### Sanity checks -/

example : transaction 1735675200 300 "ABC" = "GIKITU20250101ABC" := by decide
example : bill 1735689600 "XYZ" = "BILL1735689600XYZ" := by decide

end TopUp.Reference
