import TopUp.Json.Value

/-! # HTTP requests and responses

    A request has its headers in the order in which they came; of several with one
    name the first counts, and the letter case of names does not matter. The text of
    a header can be read if it is made of visible ASCII characters, spaces and tabs.
-/

namespace TopUp.Http

/-- A request. -/
structure Request where
  method : String
  target : String
  headers : List (String × String)
  body : String

/-- The body of a response. -/
inductive Body where
  | empty
  | text (s : String)
  | json (v : Json)

/-- A response. -/
structure Response where
  status : Nat
  contentType : Option String
  allow : Option String
  body : Body

namespace Request

/-- The path without the query and the fragment. -/
def path (r : Request) : String :=
  String.ofList (r.target.toList.takeWhile fun c => c != '?' && c != '#')

/-- The first header of a lower-case name. -/
def header? (r : Request) (name : String) : Option String :=
  (r.headers.find? fun e => e.1.toLower = name).map Prod.snd

end Request

/-- The text of a header, if it can be read. -/
def readable? (value : String) : Option String :=
  if value.toList.all fun c => (0x20 ≤ c.toNat && c.toNat ≤ 0x7E) || c = '\t' then some value
  else none

namespace Response

/-- A response without a body. -/
def bare (status : Nat) (allow : Option String) : Response := ⟨status, none, allow, .empty⟩

/-- A response with a JSON body. -/
def ofJson (status : Nat) (v : Json) : Response :=
  ⟨status, some "application/json", none, .json v⟩

/-- A response with a text body. -/
def ofText (status : Nat) (s : String) : Response :=
  ⟨status, some "text/plain; charset=utf-8", none, .text s⟩

/-- The response without its body. -/
def withoutBody (r : Response) : Response := { r with body := .empty }

end Response

end TopUp.Http
