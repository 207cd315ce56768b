import TopUp.Text.Hex

/-! # Identifiers

    An identifier is thirty-two hexadecimal digits. It is written in lower case in
    five groups joined by hyphens, and read from that form, from the bare digits,
    from the form in braces and from the form with the `urn:uuid:` lead, in any
    letter case.
-/

namespace TopUp

open TopUp.Text

/-- A 128-bit identifier, as its digits from the highest. -/
structure Uuid where
  digits : Vector (Fin 16) 32
  deriving DecidableEq

namespace Uuid

/-- The identifier of zeros. -/
def nil : Uuid := ⟨Vector.replicate 32 (lowDigit 0)⟩

/-- The identifier with the given number in its lowest digits. -/
def ofNat (n : Nat) : Uuid := ⟨Vector.ofFn fun i => lowDigit (n >>> (4 * (31 - i.val)))⟩

/-- The digits in groups of eight, four, four, four and twelve, joined by hyphens. -/
def toChars (u : Uuid) : List Char :=
  let ds := u.digits.toList.map hexLower
  ds.take 8 ++ '-' :: (ds.drop 8).take 4 ++ '-' :: (ds.drop 12).take 4 ++
    '-' :: (ds.drop 16).take 4 ++ '-' :: ds.drop 20

/-- The written form. -/
def toText (u : Uuid) : String := String.ofList u.toChars

/-- An identifier from exactly thirty-two digits. -/
def ofDigits? (cs : List Char) : Option Uuid := do
  let ds ← cs.mapM hexValue?
  if h : ds.length = 32 then
    some ⟨⟨ds.toArray, by simpa using h⟩⟩
  else
    none

/-- The digits of the hyphenated form, if the hyphens stand where they belong. -/
def unhyphenate? (cs : List Char) : Option (List Char) :=
  if cs.length = 36 && cs[8]? == some '-' && cs[13]? == some '-' && cs[18]? == some '-'
      && cs[23]? == some '-' then
    some (cs.take 8 ++ (cs.drop 9).take 4 ++ (cs.drop 14).take 4 ++ (cs.drop 19).take 4 ++
      cs.drop 24)
  else
    none

/-- What follows the `urn:uuid:` lead, which may be in any letter case. -/
def dropUrn? (cs : List Char) : Option (List Char) :=
  let lead := "urn:uuid:".toList
  if (cs.take lead.length).map Char.toLower = lead then some (cs.drop lead.length) else none

/-- What stands between braces. -/
def dropBraces? (cs : List Char) : Option (List Char) :=
  match cs with
  | '\x7b' :: rest =>
    if rest.getLast? = some '\x7d' then some rest.dropLast else none
  | _ => none

/-- Reads an identifier in any of its forms. The forms in braces and behind the
    lead hold the hyphenated form. -/
def parse? (s : String) : Option Uuid :=
  let cs := s.toList
  if cs.length = 32 then ofDigits? cs
  else
    let hyphenated := ((dropUrn? cs).orElse fun _ => dropBraces? cs).getD cs
    (unhyphenate? hyphenated).bind ofDigits?

/-! ### Sanity checks -/

example : (ofNat 0x32).toText = "00000000-0000-0000-0000-000000000032" := by decide

end Uuid

end TopUp
