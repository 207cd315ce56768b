import TopUp.Text.Decimal
import TopUp.Text.Hex

/-! # Socket addresses

    A socket address is an internet address and a port. An address of four bytes is
    written in decimal numbers joined by points, without leading zeros. One of eight
    groups is written in hexadecimal numbers of up to four digits, joined by colons,
    in brackets; one run of zero groups may be left out between two colons, the last
    two groups may be written as four bytes, and a scope may follow behind a percent
    sign. Names and blanks are not allowed.

    A reader takes what it can off the front of a text and returns the rest.
-/

namespace TopUp.Net

open TopUp.Text

/-- An internet address. -/
inductive Address where
  /-- Four bytes. -/
  | v4 (octets : List Nat)
  /-- Eight groups of sixteen bits, and a scope. -/
  | v6 (groups : List Nat) (scope : Nat)
  deriving DecidableEq, Repr

/-- A socket address. -/
structure SocketAddress where
  address : Address
  port : Nat
  deriving DecidableEq, Repr

namespace SocketAddress

/-- A character that must stand in front. -/
def mark? (c : Char) : List Char → Option (List Char)
  | d :: rest => if d = c then some rest else none
  | [] => none

/-- The value of a hexadecimal digit, as a number. -/
def hexDigit? (c : Char) : Option Nat := (hexValue? c).map Fin.val

/-- A decimal number of at most `bound`. -/
def number? (bound : Nat) (cs : List Char) : Option (Nat × List Char) := do
  let n ← readDigits? (cs.takeWhile Char.isDigit)
  if n ≤ bound then some (n, cs.dropWhile Char.isDigit) else none

/-- A byte in decimal digits, without leading zeros. -/
def octet? (cs : List Char) : Option (Nat × List Char) := do
  let ds := cs.takeWhile Char.isDigit
  if 3 < ds.length ∨ (1 < ds.length ∧ ds.head? = some '0') then none
  else number? 255 cs

/-- Four bytes joined by points. -/
def octets? (cs : List Char) : Option (List Nat × List Char) := do
  let (a, cs) ← octet? cs
  let (b, cs) ← (mark? '.' cs).bind octet?
  let (c, cs) ← (mark? '.' cs).bind octet?
  let (d, cs) ← (mark? '.' cs).bind octet?
  some ([a, b, c, d], cs)

/-- A group: one to four hexadecimal digits. -/
def group? (cs : List Char) : Option (Nat × List Char) :=
  let ds := cs.takeWhile fun c => (hexDigit? c).isSome
  if ds.isEmpty ∨ 4 < ds.length then none
  else
    some (ds.foldl (fun n c => 16 * n + (hexDigit? c).getD 0) 0,
      cs.dropWhile fun c => (hexDigit? c).isSome)

/-- What stands before a group: nothing before the first, a colon before the others. -/
def separator? (first : Bool) (cs : List Char) : Option (List Char) :=
  if first then some cs else mark? ':' cs

/-- Up to `room` groups, the last two perhaps as four bytes. Returns the groups,
    whether they end in four bytes, and the rest. -/
def groups : Nat → Bool → List Char → List Nat × Bool × List Char
  | 0, _, cs => ([], false, cs)
  | room + 1, first, cs =>
    let bytes := if 1 ≤ room then (separator? first cs).bind octets? else none
    match bytes with
    | some (bs, rest) =>
      ([bs.getD 0 0 * 256 + bs.getD 1 0, bs.getD 2 0 * 256 + bs.getD 3 0], true, rest)
    | none =>
      match (separator? first cs).bind group? with
      | some (g, rest) =>
        let (gs, four, rest) := groups room false rest
        (g :: gs, four, rest)
      | none => ([], false, cs)

/-- Eight groups, or fewer with two colons in place of the others. -/
def eightGroups? (cs : List Char) : Option (List Nat × List Char) := do
  let (head, four, cs) := groups 8 true cs
  if head.length = 8 then some (head, cs)
  else if four then none
  else
    let cs ← (mark? ':' cs).bind (mark? ':')
    let (tail, _, cs) := groups (7 - head.length) true cs
    some (head ++ List.replicate (8 - head.length - tail.length) 0 ++ tail, cs)

/-- A colon and a port at the end of a text. -/
def port? (cs : List Char) : Option Nat := do
  let (n, rest) ← (mark? ':' cs).bind (number? (UInt16.size - 1))
  if rest.isEmpty then some n else none

/-- A scope, if there is one. -/
def scope? (cs : List Char) : Option (Nat × List Char) :=
  match cs with
  | '%' :: rest => number? (UInt32.size - 1) rest
  | _ => some (0, cs)

/-- Reads a socket address. -/
def parse? (s : String) : Option SocketAddress :=
  match octets? s.toList with
  | some (bytes, rest) => (port? rest).map fun port => ⟨.v4 bytes, port⟩
  | none => do
    let cs ← mark? '[' s.toList
    let (gs, cs) ← eightGroups? cs
    let (scope, cs) ← scope? cs
    let cs ← mark? ']' cs
    let port ← port? cs
    some ⟨.v6 gs scope, port⟩

/-! ### Sanity checks -/

example : (parse? "127.0.0.1:80").isSome = true := by decide +kernel
example : parse? "01.2.3.4:80" = none := by decide +kernel
example : parse? "[::ffff:1.2.3.4]:8080"
    = some ⟨.v6 [0, 0, 0, 0, 0, 0xffff, 0x102, 0x304] 0, 8080⟩ := by decide +kernel

end SocketAddress

end TopUp.Net
