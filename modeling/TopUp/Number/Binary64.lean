/-! # Binary fractions of 53 bits

    A finite binary fraction is a sign, a whole significand below `2 ^ 53` and a
    power of two no smaller than `2 ^ -1074`. Every operation is exact arithmetic on
    naturals followed by one rounding: to the nearest fraction, a tie going to the
    even significand. A result too large for the format has no value.

    The significand of a value is as large as the format allows, so that equal
    values have equal representations; the sign of zero is kept.
-/

namespace TopUp.Number

/-- The finite value `(-1)^negative * significand * 2 ^ exponent`. -/
structure Binary64 where
  /-- The sign. -/
  negative : Bool
  /-- A whole number below `2 ^ 53`. -/
  significand : Nat
  /-- A power of two between `-1074` and `971`. -/
  exponent : Int
  deriving DecidableEq, Repr

namespace Binary64

/-- The least exponent of the format. -/
def minExponent : Int := -1074

/-- The greatest exponent of the format. -/
def maxExponent : Int := 971

/-- The number of bits of a significand. -/
def bits : Nat := 53

/-- A quotient rounded to the nearest whole number, a half to the even one. -/
def roundHalfEven (num den : Nat) : Nat :=
  let q := num / den
  let r := num % den
  if 2 * r < den then q
  else if den < 2 * r then q + 1
  else if q % 2 = 0 then q else q + 1

/-- The two sides of `num / (den * 2 ^ e)` as naturals. -/
def scaled (num den : Nat) (e : Int) : Nat × Nat := (num <<< (-e).toNat, den <<< e.toNat)

/-- The exponent at which `num / den` has a quotient of exactly 53 bits, but not
    below the least exponent. -/
def fittingExponent (num den : Nat) : Int :=
  let guess := max ((num.log2 : Int) - den.log2 - bits) minExponent
  let (n, d) := scaled num den guess
  if 1 <<< bits ≤ n / d then guess + 1 else guess

/-- The fraction nearest to `num / den`; none when it is too large. -/
def ofRatio (negative : Bool) (num den : Nat) : Option Binary64 :=
  if num = 0 then some ⟨negative, 0, minExponent⟩
  else
    let e := fittingExponent num den
    let (n, d) := scaled num den e
    let m := roundHalfEven n d
    let (m, e) := if m = 1 <<< bits then (1 <<< (bits - 1), e + 1) else (m, e)
    if maxExponent < e then none else some ⟨negative, m, e⟩

/-- Positive zero. -/
def zero : Binary64 := ⟨false, 0, minExponent⟩

/-- Whether the value is a zero of either sign. -/
def isZero (x : Binary64) : Bool := x.significand = 0

/-- The value with the opposite sign. -/
def neg (x : Binary64) : Binary64 := { x with negative := !x.negative }

/-- The absolute value as a quotient of naturals. -/
def ratio (x : Binary64) : Nat × Nat :=
  (x.significand <<< x.exponent.toNat, 1 <<< (-x.exponent).toNat)

/-- The fraction nearest to a natural number. -/
def ofNat? (n : Nat) : Option Binary64 := ofRatio false n 1

/-- The rounded product; none when it is too large. -/
def mul? (x y : Binary64) : Option Binary64 :=
  let (a, b) := x.ratio
  let (c, d) := y.ratio
  ofRatio (x.negative != y.negative) (a * c) (b * d)

/-- The rounded quotient by a value other than zero; none when it is too large. -/
def div? (x y : Binary64) : Option Binary64 :=
  let (a, b) := x.ratio
  let (c, d) := y.ratio
  ofRatio (x.negative != y.negative) (a * d) (b * c)

/-! ### Sanity checks -/

example : ofNat? 1 = some ⟨false, 2 ^ 52, -52⟩ := by decide +kernel
example : ofRatio false 1 10 = some ⟨false, 7205759403792794, -56⟩ := by decide +kernel
example : ofRatio false (2 ^ 1024) 1 = none := by decide +kernel

end Binary64

end TopUp.Number
