import TopUp.Call.CardCallback

/-! # The service

    The service is a store, a gateway budget, the poll loops and the calls that were
    made. Calls and loops are tasks; each takes its steps by itself, and whatever
    happens to the service is a sequence of such steps in some order. `Service.step`
    is one step of one task; it is not possible when the task has to wait.
-/

namespace TopUp

open TopUp.Data TopUp.Gateway

/-- What the service is set up with. -/
structure Setup where
  calls : CallSettings
  pace : Poll.Pace
  client : Client
  /-- What prepares the redirects of card payments. -/
  page : CardPage := client.cardPage

/-- A call to the service. -/
inductive Call where
  /-- Initiates a top-up. -/
  | initiate (i : Initiation)
  /-- Takes what the hosted card page reports. -/
  | cardReport (p : CardCallback.Phase)
  /-- Starts a poll loop. -/
  | start (reference : String) (p : Poll.Start)
  /-- Waits for the end of a poll loop. -/
  | join (reference : String) (p : Poll.Join)
  /-- Ends all poll loops. -/
  | shutdown (p : Poll.Shutdown)

namespace Call

/-- Whether a call is over. -/
def isOver : Call → Bool
  | .initiate i => i.result?.isSome
  | .cardReport (.done _) => true
  | .start _ (.done _) => true
  | .join _ (.done _) => true
  | .shutdown .done => true
  | _ => false

end Call

/-- A task of the service. -/
inductive Task where
  | call (n : Nat)
  | loop (n : Nat)
  deriving DecidableEq, Repr

/-- What a task asks of the gateway. -/
inductive Exchange where
  | wallet (request : WalletRequest)
  | inquiry (reference : String)
  deriving DecidableEq, Repr

/-- The service. -/
structure Service where
  /-- The store. -/
  store : Store := {}
  /-- The gateway budget. -/
  limiter : Poll.Limiter
  /-- The poll loops. -/
  supervisor : Poll.Supervisor := {}
  /-- The calls that were made, by number. -/
  calls : Dict Nat Call := .empty
  /-- The number of the next call. -/
  next : Nat := 0

namespace Service

/-- A service at rest: an empty store and all slots free. -/
def atRest (u : Setup) : Service := { limiter := .ofCapacity u.pace.maxConcurrent }

/-- The service with a call that has just been made, and the number of the call. -/
def begin (s : Service) (c : Call) : Nat × Service :=
  (s.next, { s with calls := s.calls.insert s.next c, next := s.next + 1 })

/-- Replaces the call of a number. -/
def put (s : Service) (n : Nat) (c : Call) : Service := { s with calls := s.calls.insert n c }

/-- One step of the call of a number. -/
def stepCall (u : Setup) (m : Moment) (n : Nat) (e : Event) (s : Service) : Option Service := do
  let c ← s.calls.find? n
  match c, e with
  | .initiate i, e =>
    let (scene, phase) ← i.step u.calls u.page m n e ⟨s.store, s.supervisor⟩
    some ({ s with store := scene.store, supervisor := scene.supervisor }.put n
      (.initiate { i with phase }))
  | .cardReport p, .turn =>
    let (store, p) ← CardCallback.step s.store p
    some ({ s with store }.put n (.cardReport p))
  | .start reference p, .turn =>
    let (supervisor, store, p) ← p.step reference s.supervisor s.store
    some ({ s with supervisor, store }.put n (.start reference p))
  | .join reference p, .turn =>
    let (supervisor, p) ← p.step reference s.supervisor
    some ({ s with supervisor }.put n (.join reference p))
  | .shutdown p, .turn =>
    let (supervisor, p) ← p.step s.supervisor
    some ({ s with supervisor }.put n (.shutdown p))
  | _, _ => none

/-- One step of a task. -/
def step (u : Setup) (m : Moment) (t : Task) (e : Event) (s : Service) : Option Service :=
  match t with
  | .call n => s.stepCall u m n e
  | .loop n =>
    (s.supervisor.stepLoop u.pace m.now n e s.store s.limiter).map
      fun (supervisor, store, limiter) => { s with supervisor, store, limiter }

/-- What a task waits for from the gateway. -/
def exchange? (s : Service) : Task → Option Exchange
  | .call n =>
    match s.calls.find? n with
    | some (.initiate i) =>
      match i.phase with
      | .inquiring _ t => some (.inquiry t.reference)
      | .submitting _ _ r => some (.wallet r)
      | _ => none
    | _ => none
  | .loop n =>
    match s.supervisor.loops.find? n with
    | some x => if x.phase = .inquiring then some (.inquiry x.reference) else none
    | none => none

/-- When a task that waits can go on at the latest, if time alone decides. -/
def due? (s : Service) : Task → Option Nat
  | .call _ => none
  | .loop n => (s.supervisor.loops.find? n).bind Poll.Loop.due?

/-- Whether the call of a number is over. -/
def isOver (s : Service) (n : Nat) : Bool := ((s.calls.find? n).map Call.isOver).getD true

/-- The calls and loops that are not over, calls first. -/
def tasks (s : Service) : List Task :=
  (s.calls.entries.filter fun e => !e.2.isOver).map (fun e => Task.call e.1) ++
    (s.supervisor.loops.entries.filter fun e => !e.2.isFinished).map fun e => Task.loop e.1

end Service

end TopUp
