/-! # Words compared without case

    Settings and wire names are compared by their upper-case (or lower-case)
    form. The words compared with are ASCII, so a character matters only when its
    full case form is made of ASCII letters. Besides the ASCII letters these are
    the dotless i, the long s, the sharp s, the Latin ligatures and the Kelvin
    sign; every other character keeps a form that no ASCII word contains.
-/

namespace TopUp.Text

/-- The upper-case form of a character, as far as ASCII words can contain it. -/
def upperForm (c : Char) : List Char :=
  match c.toNat with
  | 0x00DF => ['S', 'S']
  | 0x0131 => ['I']
  | 0x017F => ['S']
  | 0xFB00 => ['F', 'F']
  | 0xFB01 => ['F', 'I']
  | 0xFB02 => ['F', 'L']
  | 0xFB03 => ['F', 'F', 'I']
  | 0xFB04 => ['F', 'F', 'L']
  | 0xFB05 => ['S', 'T']
  | 0xFB06 => ['S', 'T']
  | _ => [c.toUpper]

/-- The lower-case form of a character, as far as ASCII words can contain it. -/
def lowerForm (c : Char) : Char :=
  if c.toNat = 0x212A then 'k' else c.toLower

/-- Whether the upper-case form of `text` is the upper-case ASCII word `word`. -/
def spellsUpper (text word : String) : Bool :=
  text.toList.flatMap upperForm == word.toList

/-- Whether the lower-case form of `text` is the lower-case ASCII word `word`. -/
def spellsLower (text word : String) : Bool :=
  text.toList.map lowerForm == word.toList

/-! ### Sanity checks -/

example : spellsUpper "ſuccess" "SUCCESS" = true := by decide
example : spellsUpper "SUCCEß" "SUCCESS" = true := by decide
example : spellsLower "True" "true" = true := by decide

end TopUp.Text
