import TopUp.Number.Binary64

/-! # Shortest decimals

    Of all decimals that read back as a given binary fraction, the printed one has
    the fewest digits and, among those, lies nearest to the fraction. It is found by
    trying one digit, two digits, and so on: on the decimal grid of that many
    digits only the two neighbours of the value can be nearest, and they are
    compared in exact arithmetic.
-/

namespace TopUp.Number

/-- A decimal `digits * 10 ^ exponent`. -/
structure Decimal where
  digits : Nat
  exponent : Int
  deriving DecidableEq, Repr

namespace Shortest

/-- The decimal exponent of the leading digit of the positive quotient `num / den`. -/
def leadingExponent (num den : Nat) : Int :=
  if den ≤ num then ((Nat.toDigits 10 (num / den)).length : Int) - 1
  else -((Nat.toDigits 10 ((den + num - 1) / num - 1)).length : Int)

/-- The fractions that round to a value lie between two bounds. All three are given
    over a common denominator, with whether the bounds themselves belong. -/
structure Interval where
  /-- The lower bound. -/
  low : Nat
  /-- The value. -/
  mid : Nat
  /-- The upper bound. -/
  high : Nat
  /-- The denominator of all three. -/
  den : Nat
  /-- Whether the two bounds round to the value. -/
  closed : Bool

/-- The interval of a positive fraction. The gap below a power of two is half the
    gap above it, and a bound rounds to an even significand. -/
def Interval.of (x : Binary64) : Interval :=
  let up := 1 <<< x.exponent.toNat
  let m := 4 * x.significand
  let gap := if x.significand = 1 <<< (Binary64.bits - 1) ∧ Binary64.minExponent < x.exponent
    then 1 else 2
  { low := (m - gap) * up, mid := m * up, high := (m + 2) * up,
    den := 4 <<< (-x.exponent).toNat, closed := x.significand % 2 = 0 }

/-- Whether the grid point `c * num / den` lies in the interval. -/
def Interval.holds (i : Interval) (c num den : Nat) : Bool :=
  let point := c * num * i.den
  if i.closed then i.low * den ≤ point && point ≤ i.high * den
  else i.low * den < point && point < i.high * den

/-- The nearer of the value's two neighbours on the grid of `10 ^ e`, if one lies in
    the interval. At equal distance the even neighbour is taken. -/
def onGrid (i : Interval) (e : Int) : Option Nat :=
  let num := Nat.pow 10 e.toNat
  let den := Nat.pow 10 (-e).toNat
  let below := (i.mid * den) / (i.den * num)
  let rest := i.mid * den - below * (i.den * num)
  let half := i.den * num
  match i.holds below num den, i.holds (below + 1) num den with
  | true, true =>
    if 2 * rest < half ∨ (2 * rest = half ∧ below % 2 = 0) then some below else some (below + 1)
  | true, false => some below
  | false, true => some (below + 1)
  | false, false => none

/-- The first hit on the grids of `count`, `count + 1`, … digits, `fuel` grids at most. -/
def search (i : Interval) (lead : Int) : Nat → Nat → Option Decimal
  | 0, _ => none
  | fuel + 1, count =>
    let e := lead - count + 1
    match onGrid i e with
    | some c => if c = 0 then search i lead fuel (count + 1) else some ⟨c, e⟩
    | none => search i lead fuel (count + 1)

/-- A decimal without zeros at its end. -/
def dropZeros : Nat → Decimal → Decimal
  | 0, d => d
  | fuel + 1, d =>
    if d.digits % 10 = 0 ∧ d.digits ≠ 0 then dropZeros fuel ⟨d.digits / 10, d.exponent + 1⟩ else d

end Shortest

open Shortest in
/-- The shortest decimal that reads back as the absolute value of `x`. Seventeen
    digits always suffice. -/
def Binary64.shortest (x : Binary64) : Decimal :=
  if x.significand = 0 then ⟨0, 0⟩
  else
    let (num, den) := x.ratio
    let found := search (Interval.of x) (leadingExponent num den) 17 1
    dropZeros 18 (found.getD ⟨0, 0⟩)

/-! ### Sanity checks -/

example : (Binary64.ofRatio false 1 10).map Binary64.shortest = some ⟨1, -1⟩ := by decide +kernel
example : Binary64.shortest ⟨false, 1, -1074⟩ = ⟨5, -324⟩ := by decide +kernel
example : (Binary64.ofRatio false 1 3).map Binary64.shortest = some ⟨3333333333333333, -16⟩ := by
  decide +kernel

end TopUp.Number
