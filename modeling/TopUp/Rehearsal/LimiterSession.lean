import TopUp.Data.Dict
import TopUp.Poll.Limiter

/-! # Limiter sessions

    A session works on one limiter by named slots. A name stands for a slot that is
    held or for a request that waits. After each step everyone who was granted a
    permit has counted it.
-/

namespace TopUp.Rehearsal

open TopUp.Data TopUp.Poll

/-- A limiter and the names of those who use it. -/
structure LimiterSession where
  /-- The limiter. -/
  limiter : Limiter
  /-- The owner that a name stands for. -/
  owners : Dict String Nat := .empty
  /-- The number of the next owner. -/
  next : Nat := 0

namespace LimiterSession

/-- A step of a session. -/
inductive Step where
  /-- Asks for a slot under a name. -/
  | acquire (name : String)
  /-- Lets go of what a name stands for. -/
  | letGo (name : String)
  /-- Gives a slot back that nobody named. -/
  | release
  /-- Changes nothing. -/
  | look
  deriving DecidableEq, Repr

/-- What a step comes to. -/
inductive Reply where
  /-- Nothing to tell. -/
  | silent
  /-- A held slot was given back. -/
  | returned
  /-- A waiting request was given up. -/
  | abandoned
  /-- No slot has the name. -/
  | unknown
  /-- Whether a slot was in use. -/
  | released (done : Bool)
  deriving DecidableEq, Repr

/-- A session on a limiter of the given capacity. -/
def ofCapacity (capacity : Nat) : LimiterSession := { limiter := .ofCapacity capacity }

/-- Everyone who was granted a permit counts it. -/
def settle (l : Limiter) : Limiter := l.granted.foldl Limiter.count l

/-- The names whose owner satisfies `p`. -/
def names (s : LimiterSession) (p : Nat → Bool) : List String :=
  (s.owners.entries.filter fun e => p e.2).map Prod.fst

/-- The names that wait. -/
def waiting (s : LimiterSession) : List String := s.names s.limiter.queue.contains

/-- The names that hold a slot. -/
def held (s : LimiterSession) : List String := s.names fun n => !s.limiter.queue.contains n

/-- One step. -/
def step (s : LimiterSession) : Step → Reply × LimiterSession
  | .acquire name =>
    (.silent,
      { limiter := settle (s.limiter.request s.next)
        owners := s.owners.insert name s.next
        next := s.next + 1 })
  | .letGo name =>
    match s.owners.find? name with
    | none => (.unknown, s)
    | some owner =>
      let owners := s.owners.erase name
      if s.limiter.queue.contains owner then
        (.abandoned, { s with owners, limiter := s.limiter.cancel owner })
      else
        let (_, limiter) := Slot.dispose {} s.limiter
        (.returned, { s with owners, limiter := settle limiter })
  | .release =>
    let (done, limiter) := s.limiter.release
    (.released done, { s with limiter := settle limiter })
  | .look => (.silent, s)

end LimiterSession

end TopUp.Rehearsal
