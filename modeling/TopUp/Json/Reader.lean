import TopUp.Json.Value
import TopUp.Text.Hex

/-! # Reading JSON text

    A reader consumes characters from the front of a text. It stops at the first
    fault, which is of one of two kinds: the text is not JSON there, or it is JSON
    of another shape than the reader asked for. Readers work from left to right, so
    of two faults in one text the earlier one is reported.

    Recursion is bounded by a count of steps computed from the length of the text,
    and the nesting of a value that is kept by a fixed number of levels. A value
    that is skipped may be nested without bound.
-/

namespace TopUp.Json

open TopUp.Data TopUp.Text

/-- Why a text was refused. -/
inductive Fault where
  /-- The text is not JSON. -/
  | malformed
  /-- The text is JSON of another shape. -/
  | mismatch
  deriving DecidableEq, Repr

/-- A function that takes a value off the front of a text. -/
abbrev Reader := StateT (List Char) (Except Fault)

/-- The number of nested arrays and objects that a kept value may have. -/
def nesting : Nat := 127

namespace Reader

/-- Stops: the text is not JSON. -/
def malformed {α : Type} : Reader α := throw .malformed

/-- The blanks of JSON text. -/
def isSpace (c : Char) : Bool := c = ' ' || c = '\n' || c = '\t' || c = '\r'

/-- Skips blanks and looks at the next character. -/
def peek : Reader (Option Char) := fun cs =>
  let rest := cs.dropWhile isSpace
  .ok (rest.head?, rest)

/-- Drops one character. -/
def drop : Reader Unit := fun cs => .ok ((), cs.tail)

/-- Takes exactly the given characters. -/
def exactly (word : List Char) : Reader Unit := fun cs =>
  if cs.take word.length = word then .ok ((), cs.drop word.length) else .error .malformed

/-! ### Strings -/

/-- The value of four hexadecimal digits. -/
def unit? (a b c d : Char) : Option Nat := do
  let a ← hexValue? a
  let b ← hexValue? b
  let c ← hexValue? c
  let d ← hexValue? d
  some (((a.val * 16 + b.val) * 16 + c.val) * 16 + d.val)

/-- The unit begins a pair. -/
def isLead (n : Nat) : Bool := 0xD800 ≤ n && n ≤ 0xDBFF

/-- The unit ends a pair. -/
def isTrail (n : Nat) : Bool := 0xDC00 ≤ n && n ≤ 0xDFFF

/-- The character of a pair of units. -/
def pairChar (lead trail : Nat) : Char :=
  Char.ofNat (0x10000 + (lead - 0xD800) * 0x400 + (trail - 0xDC00))

/-- The character that a letter stands for after a backslash. -/
def unescape? (c : Char) : Option Char :=
  match c with
  | '"' => some '"'
  | '\\' => some '\\'
  | '/' => some '/'
  | 'b' => some '\x08'
  | 'f' => some '\x0c'
  | 'n' => some '\n'
  | 'r' => some '\r'
  | 't' => some '\t'
  | _ => none

/-- The rest of a string after its opening quote. The characters read so far come
    first, in reverse. -/
def stringBody (read : List Char) : List Char → Except Fault (List Char × List Char)
  | [] => .error .malformed
  | '"' :: rest => .ok (read.reverse, rest)
  | '\\' :: 'u' :: a :: b :: c :: d :: rest =>
    match unit? a b c d with
    | none => .error .malformed
    | some n =>
      if isTrail n then .error .malformed
      else if isLead n then
        match rest with
        | '\\' :: 'u' :: e :: f :: g :: h :: rest =>
          match unit? e f g h with
          | none => .error .malformed
          | some m =>
            if isTrail m then stringBody (pairChar n m :: read) rest else .error .malformed
        | _ => .error .malformed
      else stringBody (Char.ofNat n :: read) rest
  | '\\' :: c :: rest =>
    match unescape? c with
    | some x => stringBody (x :: read) rest
    | none => .error .malformed
  | c :: rest =>
    if c.toNat < 0x20 ∨ c = '\\' then .error .malformed else stringBody (c :: read) rest

/-- The rest of a string that is not kept: its escapes need not denote characters. -/
def skipString : List Char → Except Fault (Unit × List Char)
  | [] => .error .malformed
  | '"' :: rest => .ok ((), rest)
  | '\\' :: 'u' :: a :: b :: c :: d :: rest =>
    if (unit? a b c d).isSome then skipString rest else .error .malformed
  | '\\' :: c :: rest => if (unescape? c).isSome then skipString rest else .error .malformed
  | c :: rest => if c.toNat < 0x20 ∨ c = '\\' then .error .malformed else skipString rest

/-- A string whose opening quote has been read. -/
def stringRest : Reader String := fun cs =>
  (stringBody [] cs).map fun (read, rest) => (String.ofList read, rest)

/-! ### Numbers -/

/-- A number literal. -/
def literal : Reader Literal := fun cs =>
  match Literal.scan cs with
  | some r => .ok r
  | none => .error .malformed

/-- A number. -/
def number : Reader Number := do
  let l ← literal
  match l.value? with
  | some n => pure n
  | none => malformed

/-- Whether a number may start with the character. -/
def startsNumber (c : Char) : Bool := c = '-' || c.isDigit

/-! ### Separators -/

/-- Whether another element follows before the end of an array. -/
def moreElements (first : Bool) : Reader Bool := do
  match ← peek with
  | none => malformed
  | some c =>
    if c = ']' then pure false
    else if first then pure true
    else if c = ',' then
      drop
      match ← peek with
      | none => malformed
      | some d => if d = ']' then malformed else pure true
    else malformed

/-- Whether another member follows before the end of an object. If one does, its
    opening quote has been read. -/
def moreMembers (first : Bool) : Reader Bool := do
  match ← peek with
  | none => malformed
  | some c =>
    if c = '\x7d' then pure false
    else
      let next ← if first then pure (some c)
        else if c = ',' then do
          drop
          peek
        else malformed
      if next = some '"' then
        drop
        pure true
      else malformed

/-- The colon between a name and its value. -/
def colon : Reader Unit := do
  match ← peek with
  | some ':' => drop
  | _ => malformed

/-! ### Whole values -/

mutual

/-- A value with at most `levels` nested arrays and objects. -/
def value : Nat → Nat → Reader Json
  | 0, _ => malformed
  | fuel + 1, levels => do
    match ← peek with
    | none => malformed
    | some c =>
      if c = '"' then
        drop
        return .string (← stringRest)
      else if startsNumber c then
        return .number (← number)
      else if c = 'n' then
        exactly ['n', 'u', 'l', 'l']
        return .null
      else if c = 't' then
        exactly ['t', 'r', 'u', 'e']
        return .bool true
      else if c = 'f' then
        exactly ['f', 'a', 'l', 's', 'e']
        return .bool false
      else if c = '[' then
        match levels with
        | 0 => malformed
        | levels + 1 =>
          drop
          return .array (← elements fuel levels true [])
      else if c = '\x7b' then
        match levels with
        | 0 => malformed
        | levels + 1 =>
          drop
          return .object (← members fuel levels true [])
      else malformed

/-- The elements up to the end of an array; those read so far come in reverse. -/
def elements : Nat → Nat → Bool → List Json → Reader (List Json)
  | 0, _, _, _ => malformed
  | fuel + 1, levels, first, read => do
    if ← moreElements first then
      let v ← value fuel levels
      elements fuel levels false (v :: read)
    else
      drop
      return read.reverse

/-- The members up to the end of an object. Of two members of one name the later
    one is kept. -/
def members : Nat → Nat → Bool → List (String × Json) → Reader (List (String × Json))
  | 0, _, _, _ => malformed
  | fuel + 1, levels, first, read => do
    if ← moreMembers first then
      let name ← stringRest
      colon
      let v ← value fuel levels
      members fuel levels false (Fields.insert name v read)
    else
      drop
      return read

end

mutual

/-- Skips a value of any nesting. Its numbers may be too large to be kept. -/
def skip : Nat → Reader Unit
  | 0 => malformed
  | fuel + 1 => do
    match ← peek with
    | none => malformed
    | some c =>
      if c = '"' then
        drop
        skipString
      else if startsNumber c then
        discard literal
      else if c = 'n' then exactly ['n', 'u', 'l', 'l']
      else if c = 't' then exactly ['t', 'r', 'u', 'e']
      else if c = 'f' then exactly ['f', 'a', 'l', 's', 'e']
      else if c = '[' then
        drop
        skipElements fuel true
      else if c = '\x7b' then
        drop
        skipMembers fuel true
      else malformed

/-- Skips the elements up to the end of an array. -/
def skipElements : Nat → Bool → Reader Unit
  | 0, _ => malformed
  | fuel + 1, first => do
    if ← moreElements first then
      skip fuel
      skipElements fuel false
    else drop

/-- Skips the members up to the end of an object. -/
def skipMembers : Nat → Bool → Reader Unit
  | 0, _ => malformed
  | fuel + 1, first => do
    if ← moreMembers first then
      skipString
      colon
      skip fuel
      skipMembers fuel false
    else drop

end

/-- A value with at most `levels` nested arrays and objects. -/
def json (levels : Nat) : Reader Json := fun cs => value (cs.length + 1) levels cs

/-- Skips a value. -/
def skipValue : Reader Unit := fun cs => skip (cs.length + 1) cs

/-- Runs a reader on a whole text: only blanks may follow what it takes. -/
def run {α : Type} (r : Reader α) (text : String) : Except Fault α :=
  match r text.toList with
  | .error e => .error e
  | .ok (a, rest) => if rest.all isSpace then .ok a else .error .malformed

end Reader

/-- The value of a text. -/
def parse (text : String) : Except Fault Json := Reader.run (Reader.json nesting) text

end TopUp.Json
