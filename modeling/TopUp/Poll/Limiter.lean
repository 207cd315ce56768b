import TopUp.Text.Decimal

/-! # The gateway budget

    All poll loops share a number of slots for calls to the gateway. Taking a slot
    is two steps: a permit is taken, then it is counted as in use. Giving it back is
    two steps as well: the count goes down, then the permit returns. Between its two
    steps an operation is visible in the limiter, as a permit that was granted or one
    that is returning. Permits go to those who wait in the order of their coming.
    A slot may be given back without being held; that is ignored when none is in
    use.
-/

namespace TopUp.Poll

open TopUp.Text

/-- A number of slots. Owners are numbers. -/
structure Limiter where
  /-- The number of slots. -/
  capacity : Nat
  /-- The permits that are free. -/
  permits : Nat
  /-- The permits that are counted as in use. -/
  inUse : Nat := 0
  /-- Those who wait for a permit, first come first. -/
  queue : List Nat := []
  /-- Those who were granted a permit that is not counted yet. -/
  granted : List Nat := []
  /-- The permits that are no longer counted and not yet free. -/
  returning : Nat := 0
  deriving DecidableEq, Repr

namespace Limiter

/-- The number of slots where no other is given. -/
def defaultCapacity : Nat := 10

/-- A limiter with all slots free. It has at least one. -/
def ofCapacity (capacity : Nat) : Limiter :=
  { capacity := max capacity 1, permits := max capacity 1 }

/-! ### Taking a slot -/

/-- Asks for a permit: takes a free one or waits. -/
def request (l : Limiter) (owner : Nat) : Limiter :=
  if 0 < l.permits then { l with permits := l.permits - 1, granted := l.granted ++ [owner] }
  else { l with queue := l.queue ++ [owner] }

/-- Whether a permit was granted that is not counted yet. -/
def isGranted (l : Limiter) (owner : Nat) : Bool := l.granted.contains owner

/-- Counts a granted permit as in use. -/
def count (l : Limiter) (owner : Nat) : Limiter :=
  if l.isGranted owner then
    { l with granted := l.granted.erase owner, inUse := l.inUse + 1 }
  else l

/-- A permit becomes free, or goes to the first who waits. -/
def passOn (l : Limiter) : Limiter :=
  match l.queue with
  | owner :: rest => { l with queue := rest, granted := l.granted ++ [owner] }
  | [] => { l with permits := l.permits + 1 }

/-- Gives up a request: a place in the queue, or a permit that was granted. -/
def cancel (l : Limiter) (owner : Nat) : Limiter :=
  if l.isGranted owner then passOn { l with granted := l.granted.erase owner }
  else { l with queue := l.queue.erase owner }

/-! ### Giving a slot back -/

/-- Takes one permit off the count, unless none is counted. -/
def uncount? (l : Limiter) : Option Limiter :=
  if 0 < l.inUse then some { l with inUse := l.inUse - 1, returning := l.returning + 1 }
  else none

/-- Ends the return of one permit. -/
def giveBack (l : Limiter) : Limiter :=
  if 0 < l.returning then passOn { l with returning := l.returning - 1 } else l

/-- Gives one slot back, and tells whether one was in use. -/
def release (l : Limiter) : Bool × Limiter :=
  match l.uncount? with
  | some l => (true, l.giveBack)
  | none => (false, l)

/-- The limiter as text. -/
def describe (l : Limiter) : String :=
  "GatewayRateLimiter \x7b capacity: " ++ decimal l.capacity ++ ", in_use: " ++ decimal l.inUse
    ++ " \x7d"

end Limiter

/-! ### Slots -/

/-- A slot that was taken. Whatever becomes of it, it gives back at most once. -/
structure Slot where
  /-- Whether it has been given back. -/
  spent : Bool := false
  deriving DecidableEq, Repr

/-- Disposes of a slot. -/
def Slot.dispose (s : Slot) (l : Limiter) : Slot × Limiter :=
  if s.spent then (s, l) else (⟨true⟩, l.release.2)

end TopUp.Poll
