import TopUp.Data.FieldMap
import TopUp.Digest.Hmac
import TopUp.Gateway.Failure
import TopUp.Json.Printer

/-! # Signatures

    A message to or from the gateway carries a signature over its recognised
    fields: those whose name starts with `pp_` or `ppmpf_`, the signature itself
    and fields with an empty value left out. The values, in ascending order of
    their names, are joined by `&` behind the merchant's salt; the keyed digest of
    that text, with the salt as its key, is written in upper-case hexadecimal
    digits. Names are not part of the signed text.

    The digest is a parameter of the signer: no rule here depends on how it is
    computed.
-/

namespace TopUp.Gateway

open TopUp.Data TopUp.Text

/-- A keyed digest: a key and a message to a digest. -/
abbrev Mac := List UInt8 → List UInt8 → List UInt8

/-- The name of the field that carries the signature. -/
def hashField : String := "pp_SecureHash"

/-- How the names of recognised fields start. -/
def recognisedLeads : List String := ["pp_", "ppmpf_"]

/-- Whether a field of this name is signed. -/
def isSigned (name : String) : Bool :=
  name != hashField && recognisedLeads.any fun lead => lead.toList.isPrefixOf name.toList

/-- The part of a field map that a signature covers. -/
def signedView (m : FieldMap) : FieldMap :=
  m.filter fun name value => !value.isEmpty && isSigned name

/-! ### Payloads -/

/-- The fields of a message before it is signed: none is empty and none is the
    signature. -/
structure Payload where
  /-- The fields. -/
  fields : FieldMap
  /-- Each field has a value and is not the signature. -/
  filled : ∀ e ∈ fields.toList, e.1 ≠ hashField ∧ e.2 ≠ ""

namespace Payload

/-- No fields. -/
def empty : Payload := ⟨.empty, by simp [FieldMap.empty]⟩

/-- The payload with `value` under `name`. An empty value and a value for the
    signature are ignored. -/
def insert (p : Payload) (name value : String) : Payload :=
  if h : value = "" ∨ name = hashField then p
  else
    ⟨p.fields.insert name value, by
      intro e he
      rcases Fields.mem_insert he with rfl | he
      · simp_all
      · exact p.filled e he⟩

/-- The payload of a list of fields, put in one after the other. -/
def ofList (l : List (String × String)) : Payload :=
  l.foldl (fun p e => p.insert e.1 e.2) empty

/-- The fields to send: those of the payload and the signature. -/
def withHash (p : Payload) (hash : String) : FieldMap := p.fields.insert hashField hash

end Payload

/-! ### Signing -/

/-- What a merchant signs with. -/
structure Signer where
  mac : Mac
  salt : String

/-- The bytes of a text. -/
def utf8 (s : String) : List UInt8 := s.toUTF8.data.toList

/-- Two byte strings are the same. Every byte is compared whatever the outcome. -/
def sameBytes (a b : List UInt8) : Bool :=
  a.length == b.length && (List.zipWith (· ^^^ ·) a b).foldl (· ||| ·) 0 == 0

/-- The text of a member as the signature covers it: a string is its own text, null
    is empty, any other value is its JSON text. -/
def fieldText : Json → String
  | .string s => s
  | .null => ""
  | v => v.render

/-- The texts of an object's members. -/
def fieldTexts (members : List (String × Json)) : FieldMap :=
  .ofList (members.map fun e => (e.1, fieldText e.2))

namespace Signer

/-- The signer that uses the keyed SHA-256 digest. -/
def standard (salt : String) : Signer := ⟨Digest.hmacSha256, salt⟩

/-- The text that is digested. -/
def message (s : Signer) (m : FieldMap) : String :=
  s.salt ++ "&" ++ "&".intercalate (signedView m).values

/-- The signature of a field map. -/
def sign (s : Signer) (m : FieldMap) : String :=
  upperHex (s.mac (utf8 s.salt) (utf8 (s.message m)))

/-- The fields to send for a payload. -/
def outbound (s : Signer) (p : Payload) : FieldMap := p.withHash (s.sign p.fields)

/-- Compares a received signature with the expected one. -/
def compare (expected received : String) : Except Failure Unit :=
  if sameBytes (utf8 expected) (utf8 received) then .ok ()
  else .error (.unverified "secure hash mismatch")

/-- Checks the signature of an answer's members. -/
def verify (s : Signer) (members : List (String × Json)) : Except Failure Unit :=
  match Fields.get? hashField members with
  | some (.string received) =>
    if received.isEmpty then
      .error (.unverified (hashField ++ " missing from gateway response"))
    else compare (s.sign (fieldTexts members)) received
  | _ => .error (.unverified (hashField ++ " missing from gateway response"))

/-- Checks the signature of posted fields. -/
def verifyFields (s : Signer) (m : FieldMap) : Except Failure Unit :=
  match m.get? hashField with
  | some received =>
    if received.isEmpty then
      .error (.unverified (hashField ++ " missing from callback fields"))
    else compare (s.sign m) received
  | none => .error (.unverified (hashField ++ " missing from callback fields"))

end Signer

end TopUp.Gateway
