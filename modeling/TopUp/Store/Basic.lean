import TopUp.Store.Draft
import TopUp.Store.KeyLocks

/-! # The store

    The store in memory keeps the ledger and the key locks; its status writes can be
    switched off. A store may lie behind a layer of faults: for each operation an
    effect that takes the place of the operation. Without faults the layer changes
    nothing.
-/

namespace TopUp.Store

/-- The store in memory. -/
structure Memory where
  /-- The committed transactions. -/
  ledger : Ledger := {}
  /-- The locks of the idempotency keys. -/
  locks : KeyLocks := {}
  /-- Whether status writes are switched off. -/
  readOnly : Bool := false
  deriving DecidableEq

namespace Memory

/-- The failure of a status write that is switched off. -/
def writesDisabled : Failure := .disconnected "status writes disabled"

/-- Writes a status and tells whether it did. -/
def update (m : Memory) (reference : String) (status : Status) : Except Failure (Bool × Memory) :=
  if m.readOnly then .error writesDisabled
  else
    let (written, ledger) := m.ledger.writeStatus reference status
    .ok (written, { m with ledger })

/-- Marks a transaction as attended to and tells whether it did. -/
def claim (m : Memory) (reference : String) : Bool × Memory :=
  let (claimed, ledger) := m.ledger.claim reference
  (claimed, { m with ledger })

/-- Takes the mark of a poll loop away. -/
def clear (m : Memory) (reference : String) : Memory :=
  { m with ledger := m.ledger.clear reference }

/-- Asks a unit of work to write a status, and tells whether it will. -/
def updateDraft (m : Memory) (d : Draft) (reference : String) (status : Status) :
    Except Failure (Bool × Draft) :=
  if m.readOnly then .error writesDisabled
  else .ok (d.writeStatus m.ledger reference status)

/-- Writes what a unit of work has gathered. -/
def commit (m : Memory) (d : Draft) : Memory := { m with ledger := d.commit m.ledger }

/-- Puts a transaction into the ledger as it is. -/
def seed (m : Memory) (t : Transaction) : Memory := { m with ledger := m.ledger.put t }

end Memory

/-! ### Faults -/

/-- The operations of a store. -/
inductive Operation where
  /-- Opening a unit of work. -/
  | begin
  /-- A unit of work reads by key. -/
  | getByKey
  /-- A unit of work makes a transaction. -/
  | create
  /-- A unit of work is committed. -/
  | commit
  /-- A unit of work writes a status. -/
  | updateDraft
  /-- A status is written. -/
  | update
  /-- The mark of a poll loop is set. -/
  | claim
  /-- The mark of a poll loop is taken away. -/
  | clear
  /-- A transaction is read by reference. -/
  | get
  /-- The store is asked whether it is well. -/
  | health
  deriving DecidableEq, Repr

/-- What happens in place of an operation. -/
inductive Effect where
  /-- It fails. -/
  | fail (cause : Failure)
  /-- A write is refused: nothing is written. -/
  | refuse
  /-- A read finds nothing. -/
  | absent
  /-- It never ends. -/
  | hang
  deriving DecidableEq, Repr

/-- The effects that take the place of operations. -/
abbrev Faults := List (Operation × Effect)

/-- The effect in place of an operation. -/
def Faults.effect? (f : Faults) (o : Operation) : Option Effect := f.lookup o

end Store

/-- A store behind a layer of faults. -/
structure Store where
  memory : Store.Memory := {}
  faults : Store.Faults := []
  deriving DecidableEq

namespace Store

/-- The failure in place of an operation, if it is to fail. -/
def failure? (s : Store) (o : Operation) : Option Failure :=
  match s.faults.effect? o with
  | some (.fail cause) => some cause
  | _ => none

/-- Whether the effect in place of an operation is the given one. -/
def meets (s : Store) (o : Operation) (e : Effect) : Bool := s.faults.effect? o = some e

/-- Reads a transaction by reference. -/
def get (s : Store) (reference : String) : Except Failure (Option Transaction) :=
  match s.failure? .get with
  | some cause => .error cause
  | none => .ok (if s.meets .get .absent then none else s.memory.ledger.find? reference)

/-- Writes a status and tells whether it did. -/
def update (s : Store) (reference : String) (status : Status) : Except Failure (Bool × Store) :=
  match s.failure? .update with
  | some cause => .error cause
  | none =>
    if s.meets .update .refuse then .ok (false, s)
    else (s.memory.update reference status).map fun (written, memory) =>
      (written, { s with memory })

/-- Marks a transaction as attended to and tells whether it did. -/
def claim (s : Store) (reference : String) : Except Failure (Bool × Store) :=
  match s.failure? .claim with
  | some cause => .error cause
  | none =>
    let (claimed, memory) := s.memory.claim reference
    .ok (claimed, { s with memory })

/-- Takes the mark of a poll loop away. -/
def clear (s : Store) (reference : String) : Except Failure Store :=
  match s.failure? .clear with
  | some cause => .error cause
  | none => .ok { s with memory := s.memory.clear reference }

/-! ### Units of work -/

/-- Looks up the lock of a key for a unit of work. -/
def lookupLock (s : Store) (key : Uuid) (owner : Nat) : Except Failure (Nat × Store) :=
  match s.failure? .begin with
  | some cause => .error cause
  | none =>
    let (lock, locks) := s.memory.locks.lookup key owner
    .ok (lock, { s with memory := { s.memory with locks } })

/-- Asks for a lock that was looked up. -/
def askLock (s : Store) (lock owner : Nat) : Store :=
  { s with memory := { s.memory with locks := s.memory.locks.ask lock owner } }

/-- Gives a lock up. -/
def leaveLock (s : Store) (lock owner : Nat) : Store :=
  { s with memory := { s.memory with locks := s.memory.locks.leave lock owner } }

/-- Whether the lock is held by the owner. -/
def holdsLock (s : Store) (lock owner : Nat) : Bool := s.memory.locks.holds lock owner

/-- A unit of work reads by key. -/
def readDraft (s : Store) (d : Draft) (key : Uuid) : Except Failure (Option Transaction) :=
  match s.failure? .getByKey with
  | some cause => .error cause
  | none => .ok (d.byKey? s.memory.ledger key)

/-- A unit of work makes a transaction. -/
def createDraft (s : Store) (d : Draft) (n : NewTransaction) (id : Uuid) (now : Int) :
    Except Failure (Transaction × Draft) :=
  match s.failure? .create with
  | some cause => .error cause
  | none => d.create s.memory.ledger n id now

/-- A unit of work asks for a status to be written, and tells whether it will be. -/
def updateDraft (s : Store) (d : Draft) (reference : String) (status : Status) :
    Except Failure (Bool × Draft) :=
  match s.failure? .updateDraft with
  | some cause => .error cause
  | none =>
    if s.meets .updateDraft .refuse then .ok (false, d)
    else s.memory.updateDraft d reference status

/-- Commits a unit of work. -/
def commitDraft (s : Store) (d : Draft) : Except Failure Store :=
  match s.failure? .commit with
  | some cause => .error cause
  | none => .ok { s with memory := s.memory.commit d }

end Store

end TopUp
