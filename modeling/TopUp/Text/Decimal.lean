/-! # Whole numbers as text

    A number is written with the fewest decimal digits and a minus sign in front
    of a negative one. A setting is read strictly: an optional plus sign, then
    digits, nothing else, and the value must lie in the range of its type.
-/

namespace TopUp.Text

/-- A natural number in decimal digits. -/
def decimal (n : Nat) : String := String.ofList (Nat.toDigits 10 n)

/-- An integer in decimal digits, with a minus sign when negative. -/
def decimalInt : Int → String
  | .ofNat n => decimal n
  | .negSucc n => "-" ++ decimal (n + 1)

/-- A number in decimal digits, filled up with zeros on the left to `width`. -/
def paddedDigits (width n : Nat) : List Char :=
  let ds := Nat.toDigits 10 n
  List.replicate (width - ds.length) '0' ++ ds

/-- The value of a non-empty run of ASCII digits; anything else has none. -/
def readDigits? (cs : List Char) : Option Nat :=
  if cs.isEmpty || !cs.all Char.isDigit then none else some (Nat.ofDigitChars 10 cs 0)

/-- An unsigned setting of at most `bound`: an optional plus sign, then digits. -/
def readNat? (bound : Nat) (s : String) : Option Nat :=
  let digits := match s.toList with
    | '+' :: rest => rest
    | cs => cs
  (readDigits? digits).filter (· ≤ bound)

/-- A signed setting between `low` and `high`: an optional sign, then digits. -/
def readInt? (low high : Int) (s : String) : Option Int :=
  let value := match s.toList with
    | '+' :: rest => (readDigits? rest).map Int.ofNat
    | '-' :: rest => (readDigits? rest).map fun n => -Int.ofNat n
    | cs => (readDigits? cs).map Int.ofNat
  value.filter fun v => low ≤ v && v ≤ high

/-! ### Sanity checks -/

example : readNat? 65535 "+8080" = some 8080 := by decide
example : readNat? 65535 "-0" = none := by decide
example : readInt? (-128) 127 "-128" = some (-128) := by decide

end TopUp.Text
