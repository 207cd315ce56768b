import TopUp.Store.Basic

/-! # Store sessions

    A session works on one store in memory by named units of work. Opening a unit
    of work waits while another one holds the key; after each step every unit that
    can be opened is open.
-/

namespace TopUp.Rehearsal

open TopUp.Data TopUp.Store

namespace StoreSession

/-- A unit of work: its owner, its lock and its writes. -/
structure Handle where
  /-- The number under which it waits for the lock. -/
  owner : Nat
  /-- The number of the lock. -/
  lock : Nat
  /-- The writes. -/
  draft : Draft := {}

/-- A step of a session. -/
inductive Step where
  /-- Opens a unit of work on a key. -/
  | begin (name : String) (key : Uuid)
  /-- Commits a unit of work. -/
  | commit (name : String)
  /-- Drops a unit of work. -/
  | drop (name : String)
  /-- A unit of work reads by key. -/
  | read (name : String) (key : Uuid)
  /-- A unit of work writes a status. -/
  | write (name reference : String) (status : Status)
  /-- A unit of work makes a transaction. -/
  | create (name : String) (new : NewTransaction)
  /-- Puts a transaction into the ledger. -/
  | seed (t : Transaction)
  /-- Switches status writes off or on. -/
  | readOnly (on : Bool)
  /-- Writes a status. -/
  | update (reference : String) (status : Status)
  /-- Sets the mark of a poll loop. -/
  | claim (reference : String)
  /-- Takes the mark of a poll loop away. -/
  | clear (reference : String)
  /-- Reads by reference. -/
  | get (reference : String)
  /-- Asks the store whether it is well. -/
  | health

/-- What a step comes to. -/
inductive Reply where
  /-- Nothing to tell. -/
  | silent
  /-- An open unit of work was dropped. -/
  | dropped
  /-- A waiting unit of work was given up. -/
  | abandoned
  /-- The unit of work is not open yet. -/
  | waiting
  /-- No unit of work has the name. -/
  | unknown
  /-- The operation was done. -/
  | done
  /-- A truth value. -/
  | told (b : Bool)
  /-- A transaction, if there is one. -/
  | found (t : Option Transaction)
  /-- The operation failed. -/
  | failed (cause : Failure)

end StoreSession

open StoreSession

/-- A store and the units of work on it. -/
structure StoreSession where
  /-- The store. -/
  memory : Memory := {}
  /-- The units of work by name. -/
  handles : Dict String Handle := .empty
  /-- The number of the next unit of work. -/
  next : Nat := 0

namespace StoreSession

/-- Whether a unit of work is open. -/
def isOpen (s : StoreSession) (h : Handle) : Bool := s.memory.locks.holds h.lock h.owner

/-- The names of the units of work that are open, or of those that wait. -/
def names (s : StoreSession) (opened : Bool) : List String :=
  (s.handles.entries.filter fun e => s.isOpen e.2 == opened).map Prod.fst

/-- A unit of work gives its lock up. -/
def leave (s : StoreSession) (name : String) (h : Handle) : StoreSession :=
  { s with
    handles := s.handles.erase name
    memory := { s.memory with locks := s.memory.locks.leave h.lock h.owner } }

/-- Works on the open unit of work of a name. -/
def onOpen (s : StoreSession) (name : String) (f : Handle → Reply × StoreSession) :
    Reply × StoreSession :=
  match s.handles.find? name with
  | none => (.unknown, s)
  | some h => if s.isOpen h then f h else (.waiting, s)

/-- Replaces the writes of a unit of work. -/
def keep (s : StoreSession) (name : String) (h : Handle) (draft : Draft) : StoreSession :=
  { s with handles := s.handles.insert name { h with draft } }

/-- One step. The identifier and the time are for a transaction that is made. -/
def step (s : StoreSession) (id : Uuid) (now : Int) : Step → Reply × StoreSession
  | .begin name key =>
    let (lock, locks) := s.memory.locks.lookup key s.next
    (.silent,
      { memory := { s.memory with locks := locks.ask lock s.next }
        handles := s.handles.insert name { owner := s.next, lock }
        next := s.next + 1 })
  | .commit name => s.onOpen name fun h =>
      (.done, { s with memory := s.memory.commit h.draft }.leave name h)
  | .drop name =>
    match s.handles.find? name with
    | none => (.unknown, s)
    | some h => (if s.isOpen h then .dropped else .abandoned, s.leave name h)
  | .read name key => s.onOpen name fun h => (.found (h.draft.byKey? s.memory.ledger key), s)
  | .write name reference status => s.onOpen name fun h =>
      match s.memory.updateDraft h.draft reference status with
      | .ok (written, draft) => (.told written, s.keep name h draft)
      | .error cause => (.failed cause, s)
  | .create name new => s.onOpen name fun h =>
      match h.draft.create s.memory.ledger new id now with
      | .ok (t, draft) => (.found (some t), s.keep name h draft)
      | .error cause => (.failed cause, s)
  | .seed t => (.silent, { s with memory := s.memory.seed t })
  | .readOnly on => (.silent, { s with memory := { s.memory with readOnly := on } })
  | .update reference status =>
    match s.memory.update reference status with
    | .ok (written, memory) => (.told written, { s with memory })
    | .error cause => (.failed cause, s)
  | .claim reference =>
    let (claimed, memory) := s.memory.claim reference
    (.told claimed, { s with memory })
  | .clear reference => (.done, { s with memory := s.memory.clear reference })
  | .get reference => (.found (s.memory.ledger.find? reference), s)
  | .health => (.done, s)

end StoreSession

end TopUp.Rehearsal
