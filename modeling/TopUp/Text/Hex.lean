/-! # Hexadecimal digits

    Bytes are printed as pairs of upper-case digits, identifiers as lower-case
    digits; both cases are read.
-/

namespace TopUp.Text

/-- The lower-case digit of a value below sixteen. -/
def hexLower (d : Fin 16) : Char :=
  if d.val < 10 then Char.ofNat (48 + d.val) else Char.ofNat (87 + d.val)

/-- The upper-case digit of a value below sixteen. -/
def hexUpper (d : Fin 16) : Char :=
  if d.val < 10 then Char.ofNat (48 + d.val) else Char.ofNat (55 + d.val)

/-- The value of a digit in either case. -/
def hexValue? (c : Char) : Option (Fin 16) :=
  let n := c.toNat
  if h : 48 ≤ n ∧ n ≤ 57 then some ⟨n - 48, by omega⟩
  else if h : 97 ≤ n ∧ n ≤ 102 then some ⟨n - 87, by omega⟩
  else if h : 65 ≤ n ∧ n ≤ 70 then some ⟨n - 55, by omega⟩
  else none

/-- A lower-case digit reads back. -/
@[simp] theorem hexValue?_hexLower : ∀ d : Fin 16, hexValue? (hexLower d) = some d := by
  decide

/-- An upper-case digit reads back. -/
@[simp] theorem hexValue?_hexUpper : ∀ d : Fin 16, hexValue? (hexUpper d) = some d := by
  decide

/-- The value of the last digit of a number. -/
def lowDigit (n : Nat) : Fin 16 := ⟨n % 16, Nat.mod_lt n (by decide)⟩

/-- The two digits of a byte, the high one first. -/
def hexPair (b : UInt8) : List Char :=
  [hexUpper (lowDigit (b.toNat / 16)), hexUpper (lowDigit b.toNat)]

/-- Bytes as pairs of upper-case digits. -/
def upperHex (bytes : List UInt8) : String := String.ofList (bytes.flatMap hexPair)

/-! ### Sanity checks -/

example : upperHex [0x00, 0xAF, 0x10] = "00AF10" := by decide

end TopUp.Text
