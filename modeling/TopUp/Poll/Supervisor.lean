import TopUp.Poll.Loop

/-! # The supervisor of poll loops

    At most one loop attends to a transaction. The supervisor starts a loop only
    after it has marked the transaction in the store, and it keeps every loop in a
    registry until someone has waited for its end, a later start finds it finished,
    or a shutdown takes it over.

    Starting, joining and shutting down are state machines of their own, since they
    wait for the store and for loops.
-/

namespace TopUp.Poll

open TopUp.Data

/-- The loops of a service. -/
structure Supervisor where
  /-- Whether a shutdown was asked for. -/
  stopping : Bool := false
  /-- The number of the registered loop of a reference. -/
  registry : Dict String Nat := .empty
  /-- All loops that were started, by number. -/
  loops : Dict Nat Loop := .empty
  /-- The number of the next loop. -/
  next : Nat := 0
  deriving DecidableEq

namespace Supervisor

/-- Whether the loop of a number is over. -/
def isFinished (v : Supervisor) (n : Nat) : Bool :=
  match v.loops.find? n with
  | some x => x.isFinished
  | none => true

/-- Whether a registered loop still attends to a reference. -/
def attends (v : Supervisor) (reference : String) : Bool :=
  match v.registry.find? reference with
  | some n => !v.isFinished n
  | none => false

/-- The number of registered loops, over or not. -/
def registered (v : Supervisor) : Nat := v.registry.size

/-- The number of registered loops that are not over. -/
def active (v : Supervisor) : Nat := (v.registry.values.filter fun n => !v.isFinished n).length

/-- Starts a loop. Registered loops that are over leave the registry. -/
def spawn (v : Supervisor) (reference : String) : Supervisor :=
  let kept := v.registry.filter fun _ n => !v.isFinished n
  { v with
    registry := kept.insert reference v.next
    loops := v.loops.insert v.next { reference }
    next := v.next + 1 }

/-- Changes the loop of a number. -/
def put (v : Supervisor) (n : Nat) (x : Loop) : Supervisor :=
  { v with loops := v.loops.insert n x }

/-- One step of the loop of a number. -/
def stepLoop (v : Supervisor) (p : Pace) (now n : Nat) (e : Event) (s : Store) (l : Limiter) :
    Option (Supervisor × Store × Limiter) := do
  let x ← v.loops.find? n
  let (s, l, x) ← x.step p v.stopping now n e s l
  some (v.put n x, s, l)

end Supervisor

/-! ### Starting -/

/-- Where a start stands. -/
inductive Start where
  /-- It is about to look at the supervisor. -/
  | checking
  /-- It is about to mark the transaction. -/
  | claiming
  /-- It has marked the transaction and is about to start the loop. -/
  | spawning
  /-- It is over; a loop was started or not. -/
  | done (started : Bool)
  deriving DecidableEq, Repr

/-- One step of a start. -/
def Start.step (reference : String) (v : Supervisor) (s : Store) :
    Start → Option (Supervisor × Store × Start)
  | .checking =>
    if v.stopping || v.attends reference then some (v, s, .done false) else some (v, s, .claiming)
  | .claiming =>
    match s.claim reference with
    | .ok (true, s) => some (v, s, .spawning)
    | .ok (false, s) => some (v, s, .done false)
    | .error _ => some (v, s, .done false)
  | .spawning => some (v.spawn reference, s, .done true)
  | .done _ => none

/-! ### Joining -/

/-- Where a join stands. -/
inductive Join where
  /-- It is about to look for the loop. -/
  | looking
  /-- It waits for the end of a loop. -/
  | awaiting (loop : Nat)
  /-- It is over, with the outcome of a loop that ended. -/
  | done (outcome : Option Outcome)
  deriving DecidableEq, Repr

/-- One step of a join. -/
def Join.step (reference : String) (v : Supervisor) : Join → Option (Supervisor × Join)
  | .looking =>
    match v.registry.find? reference with
    | some n => some ({ v with registry := v.registry.erase reference }, .awaiting n)
    | none => some (v, .done none)
  | .awaiting n =>
    match (v.loops.find? n).map Loop.phase with
    | some (.ended outcome) => some (v, .done (some outcome))
    | some .killed | none => some (v, .done none)
    | some _ => none
  | .done _ => none

/-! ### Shutting down -/

/-- Where a shutdown stands. -/
inductive Shutdown where
  /-- It is about to ask the loops to stop. -/
  | asking
  /-- It waits for the end of loops. -/
  | awaiting (loops : List Nat)
  /-- It is over. -/
  | done
  deriving DecidableEq, Repr

/-- One step of a shutdown. -/
def Shutdown.step (v : Supervisor) : Shutdown → Option (Supervisor × Shutdown)
  | .asking =>
    some ({ v with stopping := true, registry := .empty }, .awaiting v.registry.values)
  | .awaiting loops => if loops.all v.isFinished then some (v, .done) else none
  | .done => none

end TopUp.Poll
