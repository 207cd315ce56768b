/-! # Media types

    A media type is a kind and a form joined by a slash, both made of token
    characters, and then parameters, each behind a semicolon. A parameter is a name,
    an equals sign and a token or a quoted text. Spaces may stand before a
    parameter's name and after a quoted text, nowhere else. What follows the last
    plus sign of the form, unless it stands first, is the form's suffix. Letter case
    does not matter.
-/

namespace TopUp.Http

/-- A media type without its parameters, in lower case. -/
structure MediaType where
  /-- What stands before the slash. -/
  kind : List Char
  /-- What stands after the slash, up to the last plus sign. -/
  form : List Char
  /-- What follows the last plus sign. -/
  suffix : Option (List Char)
  deriving DecidableEq, Repr

namespace MediaType

/-- The characters of a token. -/
def isToken (c : Char) : Bool := c.isAlphanum || "!#$%&'*+-.^_\x60|~".toList.contains c

/-- The characters of a quoted text: all but the controls. -/
def isQuoted (c : Char) : Bool := 0x20 ≤ c.toNat && c.toNat != 0x7F

/-- What follows a quoted text whose opening quote has been read. Its first character
    may itself be a quote; the next quote closes it. -/
def quotedRest? : List Char → Option (List Char)
  | [] => none
  | c :: cs =>
    if isQuoted c then
      match cs.dropWhile fun d => isQuoted d && d != '"' with
      | '"' :: rest => some rest
      | _ => none
    else none

/-- What follows a quoted text: spaces, then the end or a semicolon. -/
def afterQuoted (cs : List Char) : Option (List Char) :=
  match cs.dropWhile (· = ' ') with
  | [] => some []
  | ';' :: rest => some rest
  | _ => none

/-- One parameter off the front of a text; what follows its semicolon is left. -/
def parameter? (cs : List Char) : Option (List Char) :=
  let name := cs.takeWhile isToken
  match cs.dropWhile isToken with
  | '=' :: rest =>
    if name.isEmpty then none
    else match rest with
      | '"' :: quoted => (quotedRest? quoted).bind afterQuoted
      | value =>
        match value.dropWhile isToken with
        | [] => some []
        | ';' :: rest => if (value.takeWhile isToken).isEmpty then none else some rest
        | _ => none
  | _ => none

/-- Whether a text is a list of parameters. The count bounds their number. -/
def areParameters : Nat → List Char → Bool
  | 0, _ => false
  | count + 1, cs =>
    match cs.dropWhile (· = ' ') with
    | [] => true
    | cs => match parameter? cs with
      | some rest => areParameters count rest
      | none => false

/-- A form cut at its last plus sign, unless that stands first. -/
def cutForm (form : List Char) : List Char × Option (List Char) :=
  let tail := (form.reverse.takeWhile (· != '+')).reverse
  let front := form.take (form.length - tail.length - 1)
  if tail.length = form.length ∨ front.isEmpty then (form, none) else (front, some tail)

/-- Reads a media type. -/
def parse? (s : String) : Option MediaType :=
  let cs := s.toList
  let kind := cs.takeWhile isToken
  match cs.dropWhile isToken with
  | '/' :: rest =>
    let form := rest.takeWhile isToken
    let parameters := rest.dropWhile isToken
    let wellFormed := match parameters with
      | [] => true
      | ';' :: ps => !form.isEmpty && areParameters (ps.length + 1) ps
      | _ => false
    if kind.isEmpty ∨ !wellFormed then none
    else
      let (form, suffix) := cutForm (form.map Char.toLower)
      some ⟨kind.map Char.toLower, form, suffix⟩
  | _ => none

/-- Whether bodies of the type are JSON text. -/
def isJson (m : MediaType) : Bool :=
  m.kind = "application".toList && (m.form = "json".toList || m.suffix = some "json".toList)

/-! ### Sanity checks -/

/-- Whether a text is a media type of JSON bodies. -/
def namesJson (s : String) : Bool := ((parse? s).map isJson).getD false

example : namesJson "Application/JSON; charset=utf-8" = true := by decide +kernel
example : namesJson "application/problem+json" = true := by decide +kernel
example : namesJson "application/json; charset" = false := by decide +kernel
example : namesJson "text/json" = false := by decide +kernel

end MediaType

end TopUp.Http
