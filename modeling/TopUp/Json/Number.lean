import TopUp.Number.Shortest
import TopUp.Text.Decimal

/-! # Numbers in JSON text

    A literal without fraction and exponent that fits a 64-bit integer, signed or
    unsigned, stays a whole number; minus zero and every other literal becomes a
    binary fraction. The digits of a literal are gathered into one 64-bit number;
    digits past its capacity only move the decimal point. The gathered number is
    then multiplied or divided by one power of ten, so the last bit can differ from
    the fraction nearest to the literal.
-/

namespace TopUp.Json

open TopUp.Number TopUp.Text

/-- A number as kept by the reader. -/
inductive Number where
  /-- A 64-bit integer, signed or unsigned. -/
  | integer (value : Int)
  /-- A finite binary fraction. -/
  | real (value : Binary64)
  deriving DecidableEq, Repr

/-! ### Literals -/

/-- The parts of a number literal. -/
structure Literal where
  /-- A minus sign stands in front. -/
  negative : Bool
  /-- The digits before the point. -/
  whole : List Char
  /-- The digits after the point, if there is one. -/
  fraction : Option (List Char)
  /-- Whether the exponent is negative, and its digits. -/
  exponent : Option (Bool × List Char)
  deriving DecidableEq, Repr

namespace Literal

/-- The digits before the point: a single zero, or digits that start with another one. -/
def scanWhole : List Char → Option (List Char × List Char)
  | [] => none
  | c :: cs =>
    if c = '0' then
      if (cs.head?.map Char.isDigit).getD false then none else some (['0'], cs)
    else if c.isDigit then some (c :: cs.takeWhile Char.isDigit, cs.dropWhile Char.isDigit)
    else none

/-- At least one digit. -/
def scanDigits (cs : List Char) : Option (List Char × List Char) :=
  let ds := cs.takeWhile Char.isDigit
  if ds.isEmpty then none else some (ds, cs.dropWhile Char.isDigit)

/-- The fraction, if a point stands first. -/
def scanFraction : List Char → Option (Option (List Char) × List Char)
  | '.' :: cs => (scanDigits cs).map fun (ds, rest) => (some ds, rest)
  | cs => some (none, cs)

/-- The exponent, if its mark stands first. -/
def scanExponent : List Char → Option (Option (Bool × List Char) × List Char)
  | c :: cs =>
    if c = 'e' ∨ c = 'E' then
      match cs with
      | '+' :: rest => (scanDigits rest).map fun (ds, rest) => (some (false, ds), rest)
      | '-' :: rest => (scanDigits rest).map fun (ds, rest) => (some (true, ds), rest)
      | _ => (scanDigits cs).map fun (ds, rest) => (some (false, ds), rest)
    else some (none, c :: cs)
  | [] => some (none, [])

/-- Splits a literal off the front of a text. -/
def scan (cs : List Char) : Option (Literal × List Char) := do
  let (negative, cs) := match cs with
    | '-' :: rest => (true, rest)
    | _ => (false, cs)
  let (whole, cs) ← scanWhole cs
  let (fraction, cs) ← scanFraction cs
  let (exponent, cs) ← scanExponent cs
  some (⟨negative, whole, fraction, exponent⟩, cs)

/-! ### Values -/

/-- The greatest number that digits are gathered into. -/
def capacity : Nat := UInt64.size - 1

/-- The greatest size of an exponent. -/
def exponentBound : Nat := 2147483647

/-- The value of a digit. -/
def digit (c : Char) : Nat := c.toNat - 48

/-- Gathers digits while they fit; the second number counts those left over. -/
def gather (sum : Nat) : List Char → Nat × Nat
  | [] => (sum, 0)
  | c :: cs =>
    let next := sum * 10 + digit c
    if capacity < next then (sum, cs.length + 1) else gather next cs

/-- The power of ten with a place in the table of exact steps. -/
def largestStep : Nat := 308

/-- Divides by the largest step while the exponent lies below the table. Three
    steps bring every gathered number to zero. -/
def stepDown : Nat → Binary64 → Int → Option (Binary64 × Int)
  | 0, x, _ => some (x, 0)
  | fuel + 1, x, e =>
    if -(largestStep : Int) ≤ e then some (x, e)
    else if x.isZero then some (x, 0)
    else do
      let step ← Binary64.ofNat? (Nat.pow 10 largestStep)
      let x ← x.div? step
      stepDown fuel x (e + largestStep)

/-- The gathered number times a power of ten; none when it is too large. -/
def scale (sum : Nat) (e : Int) : Option Binary64 := do
  let x ← Binary64.ofNat? sum
  if x.isZero then some x
  else if (largestStep : Int) < e then none
  else
    let (x, e) ← stepDown 4 x e
    let power ← Binary64.ofNat? (Nat.pow 10 e.natAbs)
    if 0 ≤ e then x.mul? power else x.div? power

/-- The fraction of a literal; none when it is too large. -/
def real? (l : Literal) : Option Binary64 := do
  let (sum, left) := gather 0 l.whole
  let (sum, shift) := match l.fraction with
    | none => (sum, (left : Int))
    | some ds =>
      let (all, unused) := gather sum ds
      (all, (left : Int) - (ds.length - unused))
  let size ← match l.exponent with
    | none => scale sum shift
    | some (below, ds) =>
      let e := Nat.ofDigitChars 10 ds 0
      if exponentBound < e then
        if sum = 0 ∨ below = true then some Binary64.zero else none
      else scale sum (if below then shift - e else shift + e)
  some (if l.negative then size.neg else size)

/-- The value of a literal; none when it is too large for a binary fraction. -/
def value? (l : Literal) : Option Number :=
  if l.fraction.isNone && l.exponent.isNone then
    let n := Nat.ofDigitChars 10 l.whole 0
    if !l.negative && n ≤ capacity then some (.integer n)
    else if l.negative && 0 < n && n ≤ UInt64.size / 2 then some (.integer (-(n : Int)))
    else l.real?.map .real
  else l.real?.map .real

end Literal

/-! ### Printing -/

/-- Fractions whose leading digit has an exponent in this range are written without
    one: from a hundred-thousandth up to below ten to the sixteenth. -/
def plainExponents : Int × Int := (-5, 15)

/-- The digits of a decimal with the point after the first one. -/
def scientific (ds : List Char) (lead : Int) : List Char :=
  let mantissa := match ds with
    | [d] => [d]
    | d :: rest => d :: '.' :: rest
    | [] => []
  let sign := if lead < 0 then '-' else '+'
  mantissa ++ 'e' :: sign :: Nat.toDigits 10 lead.natAbs

/-- The digits of a decimal with the point at its place and at least one digit on
    either side. -/
def plain (ds : List Char) (lead : Int) : List Char :=
  if lead < 0 then
    '0' :: '.' :: (List.replicate (lead.natAbs - 1) '0' ++ ds)
  else
    let before := lead.toNat + 1
    if ds.length ≤ before then ds ++ List.replicate (before - ds.length) '0' ++ ['.', '0']
    else ds.take before ++ '.' :: ds.drop before

/-- A binary fraction as its shortest decimal. -/
def realChars (x : Binary64) : List Char :=
  let size :=
    if x.isZero then ['0', '.', '0']
    else
      let d := x.shortest
      let ds := Nat.toDigits 10 d.digits
      let lead := d.exponent + ds.length - 1
      if plainExponents.1 ≤ lead ∧ lead ≤ plainExponents.2 then plain ds lead
      else scientific ds lead
  if x.negative then '-' :: size else size

/-- A number as JSON text. -/
def Number.toChars : Number → List Char
  | .integer i => (decimalInt i).toList
  | .real x => realChars x

/-! ### Sanity checks -/

/-- The text of the number a literal stands for. -/
def rewritten (s : String) : Option String :=
  (Literal.scan s.toList).bind fun (l, rest) =>
    if rest.isEmpty then l.value?.map fun n => String.ofList n.toChars else none

example : rewritten "100.00" = some "100.0" := by decide +kernel
example : rewritten "-0" = some "-0.0" := by decide +kernel
example : rewritten "18446744073709551615" = some "18446744073709551615" := by decide +kernel
example : rewritten "18446744073709551616" = some "1.8446744073709552e+19" := by decide +kernel
example : rewritten "0.00001" = some "0.00001" := by decide +kernel
example : rewritten "1e400" = none := by decide +kernel

end TopUp.Json
