import TopUp.Data.FieldMap
import TopUp.Json.Number

/-! # JSON values

    The members of an object read from text have distinct names in ascending
    order; an object built to be printed keeps the order it is given.
-/

namespace TopUp

open TopUp.Data

/-- A JSON value. -/
inductive Json where
  | null
  | bool (value : Bool)
  | number (value : Json.Number)
  | string (value : String)
  | array (elements : List Json)
  | object (members : List (String × Json))
  deriving Repr, Inhabited

namespace Json

/-- A whole number as a value. -/
def ofInt (i : Int) : Json := .number (.integer i)

/-- A natural number as a value. -/
def ofNat (n : Nat) : Json := ofInt n

/-- A text that may be absent, as a value. -/
def ofText? (s : Option String) : Json := (s.map Json.string).getD .null

/-- A field map as an object of texts. -/
def ofFields (m : FieldMap) : Json := .object (m.toList.map fun e => (e.1, .string e.2))

/-- The member of an object with the given name. -/
def member? (name : String) : Json → Option Json
  | .object members => Fields.get? name members
  | _ => none

end Json

end TopUp
