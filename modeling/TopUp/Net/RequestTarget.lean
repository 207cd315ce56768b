import TopUp.Text.Hex

/-! # Request targets

    The target of a request is the path and the query of the address it is sent to.
    The path starts with a slash, a backslash counts as one, and the segments `.` and
    `..` are resolved. A character that may not stand in an address is written as its
    bytes, each a percent sign and two hexadecimal digits. A fragment is not sent.
-/

namespace TopUp.Net

open TopUp.Text

/-- A character, or its escaped bytes if it is one of the given characters, a blank, a
    control or outside ASCII. -/
def escaped (reserved : List Char) (c : Char) : List Char :=
  if c.toNat ≤ 32 ∨ 127 ≤ c.toNat ∨ c ∈ reserved then
    (String.utf8EncodeChar c).flatMap fun b => '%' :: hexPair b
  else [c]

/-- A part of an address with what may not stand in it escaped. -/
def escapedAll (reserved cs : List Char) : List Char := cs.flatMap (escaped reserved)

/-- The characters that are escaped in a path. -/
def pathReserved : List Char := ['\x22', '#', '<', '>', '?', '\x60', '\x7b', '\x7d']

/-- The characters that are escaped in a query. -/
def queryReserved : List Char := ['\x22', '#', '<', '>', '\x27']

/-- The segments of a path. -/
def segments : List Char → List (List Char)
  | [] => [[]]
  | c :: rest =>
    if c = '/' ∨ c = '\\' then [] :: segments rest
    else match segments rest with
      | s :: others => (c :: s) :: others
      | [] => [[c]]

/-- How many points a segment consists of; an escaped point counts too. -/
def points? : List Char → Option Nat
  | [] => some 0
  | '.' :: rest => (points? rest).map (· + 1)
  | '%' :: '2' :: 'e' :: rest => (points? rest).map (· + 1)
  | '%' :: '2' :: 'E' :: rest => (points? rest).map (· + 1)
  | _ => none

/-- The segments that are left, last first, when `.` and `..` are resolved behind the
    segments `before`. At the end of a path either leaves an empty segment. -/
def resolved (before : List (List Char)) : List (List Char) → List (List Char)
  | [] => before
  | s :: rest =>
    let before := if points? s = some 2 then before.tail else before
    if points? s = some 1 ∨ points? s = some 2 then
      resolved (if rest.isEmpty then [] :: before else before) rest
    else resolved (s :: before) rest

/-- The target of a request to what follows the host in an address. -/
def requestTarget (behindHost : String) : String :=
  let cs := behindHost.toList.takeWhile (· != '#')
  let path := cs.takeWhile (· != '?')
  let query := cs.dropWhile (· != '?')
  let inner := match path with
    | '/' :: rest => rest
    | '\\' :: rest => rest
    | rest => rest
  let out := (resolved [] (segments inner)).reverse.flatMap fun s =>
    '/' :: escapedAll pathReserved s
  String.ofList (out ++ escapedAll queryReserved query)

/-- Whether a text can follow the host of an address. -/
def followsHost (text : String) : Bool :=
  match text.toList with
  | [] => true
  | c :: _ => c = '/' || c = '\\' || c = '?' || c = '#'

/-! ### Sanity checks -/

example : requestTarget "" = "/" := by decide +kernel
example : requestTarget "?a=b c#d" = "/?a=b%20c" := by decide +kernel
example : requestTarget "/a/./b/../c\\é" = "/a/c/%C3%A9" := by decide +kernel
example : requestTarget "/a/b/.." = "/a/" := by decide +kernel

end TopUp.Net
