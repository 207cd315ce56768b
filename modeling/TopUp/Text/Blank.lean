/-! # Blank characters

    The characters a reader skips at the two ends of a text: those with the
    Unicode property `White_Space`. The property is wider than `Char.isWhitespace`
    (it has the no-break spaces and the line separators) and it leaves out the
    zero-width space and the byte-order mark.
-/

namespace TopUp.Text

/-- The code points with the property `White_Space`, as closed ranges. -/
def blankRanges : List (Nat × Nat) :=
  [(0x09, 0x0D), (0x20, 0x20), (0x85, 0x85), (0xA0, 0xA0), (0x1680, 0x1680),
   (0x2000, 0x200A), (0x2028, 0x2029), (0x202F, 0x202F), (0x205F, 0x205F), (0x3000, 0x3000)]

/-- A character is blank when its code point lies in one of the ranges. -/
def isBlank (c : Char) : Bool :=
  blankRanges.any fun (low, high) => low ≤ c.toNat && c.toNat ≤ high

/-- A list of characters without its blanks at either end. -/
def trimChars (cs : List Char) : List Char :=
  ((cs.dropWhile isBlank).reverse.dropWhile isBlank).reverse

/-- A text without its blanks at either end. -/
def trim (s : String) : String := String.ofList (trimChars s.toList)

/-- A text of blanks alone, or of nothing. -/
def isBlankText (s : String) : Bool := s.toList.all isBlank

/-! ### Sanity checks -/

example : trim "\u00a0 a b\u2003\n" = "a b" := by decide
example : trim "\u200b" = "\u200b" := by decide

end TopUp.Text
