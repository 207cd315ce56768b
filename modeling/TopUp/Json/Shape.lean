import TopUp.Json.Reader
import TopUp.Uuid

/-! # Reading JSON text of a known shape

    A record is read either from an object, whose members may come in any order
    among members of other names, or from an array of its members in their declared
    order. The members are gathered in a draft: a value of `σ` that knows which
    members it has. An object must not repeat a member; an array must have no
    element beyond the declared ones.

    Where a scalar stands in the place of another shape it is still read to its
    end, so a fault inside it is reported before the mismatch; an array or object
    in the wrong place is a mismatch at its first character.
-/

namespace TopUp.Json.Reader

/-- Stops: the text has another shape. The scalar that stands here is read first. -/
def mismatch {α : Type} : Reader α := do
  match ← peek with
  | none => malformed
  | some c =>
    if c = '"' then
      drop
      discard stringRest
    else if startsNumber c then discard number
    else if c = 'n' then exactly ['n', 'u', 'l', 'l']
    else if c = 't' then exactly ['t', 'r', 'u', 'e']
    else if c = 'f' then exactly ['f', 'a', 'l', 's', 'e']
    else if c = '[' ∨ c = '\x7b' then pure ()
    else malformed
    throw .mismatch

/-- A text. -/
def text : Reader String := do
  if (← peek) = some '"' then
    drop
    stringRest
  else mismatch

/-- A whole number of 64 bits with sign. -/
def int64 : Reader Int64 := do
  match ← peek with
  | some c =>
    if startsNumber c then
      match ← number with
      | .integer i =>
        if Int64.minValue.toInt ≤ i ∧ i ≤ Int64.maxValue.toInt then pure (Int64.ofInt i)
        else throw .mismatch
      | .real _ => throw .mismatch
    else mismatch
  | none => malformed

/-- A truth value. -/
def boolean : Reader Bool := do
  match ← peek with
  | some 't' =>
    exactly ['t', 'r', 'u', 'e']
    pure true
  | some 'f' =>
    exactly ['f', 'a', 'l', 's', 'e']
    pure false
  | _ => mismatch

/-- Null, or what `r` reads. -/
def optional {α : Type} (r : Reader α) : Reader (Option α) := do
  if (← peek) = some 'n' then
    exactly ['n', 'u', 'l', 'l']
    pure none
  else some <$> r

/-- A text that `f` accepts. -/
def textAs {α : Type} (f : String → Option α) : Reader α := do
  match f (← text) with
  | some a => pure a
  | none => throw .mismatch

/-- An identifier. -/
def uuid : Reader Uuid := textAs Uuid.parse?

/-- Null. -/
def unit : Reader Unit := do
  if (← peek) = some 'n' then exactly ['n', 'u', 'l', 'l'] else mismatch

/-- One of a set of names: the name as a text, or an object whose one member has
    that name and the value null. -/
def oneOf {α : Type} (f : String → Option α) : Reader α := do
  match ← peek with
  | some '"' => textAs f
  | some '\x7b' =>
    drop
    let a ← textAs f
    colon
    unit
    if (← peek) = some '\x7d' then
      drop
      pure a
    else malformed
  | _ => malformed

/-- The texts of an object, up to its end; of two members of one name the later one
    is kept. -/
def fieldsRest : Nat → Bool → Data.FieldMap → Reader Data.FieldMap
  | 0, _, _ => malformed
  | fuel + 1, first, m => do
    if ← moreMembers first then
      let name ← stringRest
      colon
      let v ← text
      fieldsRest fuel false (m.insert name v)
    else
      drop
      pure m

/-- An object of texts. -/
def fields : Reader Data.FieldMap := do
  if (← peek) = some '\x7b' then
    drop
    fun cs => fieldsRest (cs.length + 1) true .empty cs
  else mismatch

/-! ### Records -/

/-- A member of a record under construction. -/
structure Member (σ : Type) where
  /-- The name of the member in an object. -/
  name : String
  /-- Reads the member's value and puts it into a draft. -/
  read : Reader (σ → σ)
  /-- Whether a draft already has the member. -/
  given : σ → Bool
  /-- Whether an array may end before this member. -/
  trailing : Bool := false

/-- The members of an object, up to its end. Unknown members are skipped. -/
def membersRest {σ : Type} (known : List (Member σ)) : Nat → Bool → σ → Reader σ
  | 0, _, _ => malformed
  | fuel + 1, first, draft => do
    if ← moreMembers first then
      let name ← stringRest
      match known.find? fun m => m.name = name with
      | some m =>
        if m.given draft then throw .mismatch
        else
          colon
          let put ← m.read
          membersRest known fuel false (put draft)
      | none =>
        colon
        skipValue
        membersRest known fuel false draft
    else pure draft

/-- The elements of an array that holds the members in their order. -/
def elementsRest {σ : Type} : List (Member σ) → Bool → σ → Reader σ
  | [], _, draft => pure draft
  | m :: rest, first, draft => do
    if ← moreElements first then
      let put ← m.read
      elementsRest rest false (put draft)
    else if m.trailing then elementsRest rest first draft
    else throw .mismatch

/-- A record with the given members: `finish` makes it from a draft that has all
    members it needs. -/
def record {σ α : Type} (known : List (Member σ)) (blank : σ) (finish : σ → Option α) :
    Reader α := do
  match ← peek with
  | some '\x7b' =>
    drop
    let draft ← fun cs => membersRest known (cs.length + 1) true blank cs
    match finish draft with
    | some a =>
      drop
      pure a
    | none => throw .mismatch
  | some '[' =>
    drop
    let draft ← elementsRest known true blank
    match finish draft with
    | some a =>
      match ← peek with
      | some ']' =>
        drop
        pure a
      | _ => malformed
    | none => throw .mismatch
  | _ => mismatch

end TopUp.Json.Reader
