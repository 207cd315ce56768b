import TopUp.Data.Dict
import TopUp.Uuid

/-! # Key locks

    Units of work on one idempotency key run one after another: each holds the lock
    of its key. Locks are found in a table. Whoever is about to take a lock first
    looks it up, which gives a handle to it, and then asks for it; a lock that is
    held is handed over in the order of asking. A lookup first clears the table of
    locks to which nobody has a handle, whatever their key. Owners are numbers.
-/

namespace TopUp.Store

open TopUp.Data

/-- A lock and everyone with a handle to it. -/
structure KeyLock where
  /-- Those who looked the lock up and have not asked for it yet. -/
  visitors : List Nat := []
  /-- The one who holds it. -/
  holder : Option Nat := none
  /-- Those who wait for it, first come first. -/
  waiting : List Nat := []
  deriving DecidableEq, Repr

namespace KeyLock

/-- Nobody has a handle. -/
def isIdle (l : KeyLock) : Bool := l.visitors.isEmpty && l.holder.isNone && l.waiting.isEmpty

/-- Someone asks for the lock. -/
def ask (l : KeyLock) (owner : Nat) : KeyLock :=
  let l := { l with visitors := l.visitors.erase owner }
  match l.holder with
  | none => { l with holder := some owner }
  | some _ => { l with waiting := l.waiting ++ [owner] }

/-- Someone gives the handle up. A holder hands the lock to the first who waits. -/
def leave (l : KeyLock) (owner : Nat) : KeyLock :=
  if l.holder = some owner then
    { l with holder := l.waiting.head?, waiting := l.waiting.tail }
  else { l with visitors := l.visitors.erase owner, waiting := l.waiting.erase owner }

end KeyLock

/-- The locks of all keys. -/
structure KeyLocks where
  /-- The number of the lock of a key. -/
  table : Dict Uuid Nat := .empty
  /-- The locks by number. -/
  locks : Dict Nat KeyLock := .empty
  /-- The number of the next lock. -/
  next : Nat := 0
  deriving DecidableEq

namespace KeyLocks

/-- The locks without the idle ones. -/
def prune (k : KeyLocks) : KeyLocks :=
  let locks := k.locks.filter fun _ l => !l.isIdle
  { k with locks, table := k.table.filter fun _ n => locks.contains n }

/-- Changes the lock of a number. -/
def change (k : KeyLocks) (n : Nat) (f : KeyLock → KeyLock) : KeyLocks :=
  match k.locks.find? n with
  | some l => { k with locks := k.locks.insert n (f l) }
  | none => k

/-- A handle to the lock of a key, which is a new one if the table has none. -/
def lookup (k : KeyLocks) (key : Uuid) (owner : Nat) : Nat × KeyLocks :=
  let k := k.prune
  match k.table.find? key with
  | some n => (n, k.change n fun l => { l with visitors := l.visitors ++ [owner] })
  | none =>
    (k.next,
      { table := k.table.insert key k.next
        locks := k.locks.insert k.next { visitors := [owner] }
        next := k.next + 1 })

/-- Someone asks for the lock of a number. -/
def ask (k : KeyLocks) (n owner : Nat) : KeyLocks := k.change n fun l => l.ask owner

/-- Someone gives up the handle to the lock of a number. -/
def leave (k : KeyLocks) (n owner : Nat) : KeyLocks := k.change n fun l => l.leave owner

/-- Whether someone holds the lock of a number. -/
def holds (k : KeyLocks) (n owner : Nat) : Bool :=
  match k.locks.find? n with
  | some l => l.holder = some owner
  | none => false

end KeyLocks

end TopUp.Store
