import TopUp.Json.Value
import TopUp.Text.Hex

/-! # JSON text of a value

    The text is compact: no blanks between its parts. In a string only the quote,
    the backslash and the control characters are escaped, five of the latter by a
    letter and the others by four lower-case hexadecimal digits.
-/

namespace TopUp.Json

open TopUp.Text

/-- The letter that stands for a character after a backslash, if it has one. -/
def escapeLetter? (c : Char) : Option Char :=
  match c.toNat with
  | 0x22 => some '"'
  | 0x5C => some '\\'
  | 0x08 => some 'b'
  | 0x0C => some 'f'
  | 0x0A => some 'n'
  | 0x0D => some 'r'
  | 0x09 => some 't'
  | _ => none

/-- A character inside a printed string. -/
def escapeChar (c : Char) : List Char :=
  match escapeLetter? c with
  | some letter => ['\\', letter]
  | none =>
    if c.toNat < 0x20 then
      ['\\', 'u', '0', '0', hexLower (lowDigit (c.toNat / 16)), hexLower (lowDigit c.toNat)]
    else [c]

/-- A printed string with its quotes. -/
def quoted (s : String) : List Char := '"' :: (s.toList.flatMap escapeChar ++ ['"'])

mutual

/-- The characters of the text of a value. -/
def toChars : Json → List Char
  | .null => ['n', 'u', 'l', 'l']
  | .bool true => ['t', 'r', 'u', 'e']
  | .bool false => ['f', 'a', 'l', 's', 'e']
  | .number n => n.toChars
  | .string s => quoted s
  | .array elements => '[' :: (elementChars elements ++ [']'])
  | .object members => '\x7b' :: (memberChars members ++ ['\x7d'])

/-- The elements of an array, joined by commas. -/
def elementChars : List Json → List Char
  | [] => []
  | [v] => v.toChars
  | v :: w :: rest => v.toChars ++ ',' :: elementChars (w :: rest)

/-- The members of an object, joined by commas. -/
def memberChars : List (String × Json) → List Char
  | [] => []
  | [(k, v)] => quoted k ++ ':' :: v.toChars
  | (k, v) :: e :: rest => quoted k ++ ':' :: (v.toChars ++ ',' :: memberChars (e :: rest))

end

/-- The text of a value. -/
def render (v : Json) : String := String.ofList v.toChars

end TopUp.Json
