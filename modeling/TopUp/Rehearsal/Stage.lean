import TopUp.Rehearsal.Script
import TopUp.Service

/-! # The stage of a rehearsal

    A rehearsal plays a service against a scripted gateway under a virtual clock.
    Tasks that can go on wait in line; each in its turn goes on until it has to wait.
    Only when no task can go on does the clock move, to the next moment at which one
    can; tasks that wake at the same moment do so in the order in which they came to
    rest. The calendar does not follow that clock: each step finds it one microsecond
    later.

    The play is bounded by a number of rounds, far more than any rehearsal takes.
-/

namespace TopUp.Rehearsal

open TopUp.Gateway TopUp.Text

/-- A call to the gateway that is under way. -/
structure UnderWay where
  task : Task
  exchange : Exchange
  due : Nat
  answer : Answer

/-- An initiation as the gateway saw it. -/
inductive Sent where
  /-- A wallet debit, sent at a time. -/
  | wallet (r : WalletRequest) (wall : Int)
  /-- A redirect to the card page, handed out at a time. -/
  | card (amount : Int64) (r : CardRedirect) (wall : Int)

/-- A stage. -/
structure Stage where
  /-- What the service is set up with. -/
  setup : Setup
  /-- The service. -/
  service : Service
  /-- The answers to wallet debits. -/
  walletScript : Script
  /-- The answers to inquiries. -/
  inquiryScript : Script
  /-- The virtual time in milliseconds. -/
  now : Nat := 0
  /-- How many steps have been taken. -/
  steps : Nat := 0
  /-- The tasks that can go on, first come first. -/
  ready : List Task := []
  /-- The tasks that wait, in the order in which they came to rest. -/
  resting : List Task := []
  /-- The calls to the gateway that are under way. -/
  underWay : List UnderWay := []
  /-- What was sent to the gateway, last first. -/
  sent : List Sent := []
  /-- The number of wallet debits. -/
  walletCalls : Nat := 0
  /-- The number of inquiries. -/
  inquiryCalls : Nat := 0
  /-- The most inquiries that were under way at once. -/
  mostInquiries : Nat := 0

namespace Stage

/-- The first instant of the calendar of rehearsals: the first of June 2087. -/
def epoch : Int := 3705177600

/-- The time by the calendar, in microseconds since 1970. -/
def wall (g : Stage) : Int := epoch * 1000000 + g.steps

/-- The identifier of a number, with the marks of a random one. -/
def identifier (n : Nat) : Uuid := .ofNat (0x5eed0000000040008000000000000000 + n)

/-- The ending of the references that a call makes. Calls have different ones. -/
def ending (call : Nat) : String :=
  let base := Reference.alphabet.length
  Reference.ending [call / base / base, call / base, call]

/-- What the world outside gives to the next step of a task. -/
def moment (g : Stage) (t : Task) : Moment :=
  let last := match t with
    | .call n => ending n
    | .loop n => ending n
  { now := g.now
    wall := g.wall
    id := identifier g.steps
    billEnding := last
    referenceEnding := last }

/-! ### Calls to the gateway -/

/-- The call to the gateway that a task waits for. -/
def pending? (g : Stage) (t : Task) : Option UnderWay := g.underWay.find? fun u => u.task = t

/-- The call that a task waits for, if it ends now. -/
def ending? (g : Stage) (t : Task) : Option UnderWay :=
  (g.pending? t).filter fun u => u.due ≤ g.now

/-- What a task is given for its next step. -/
def event (g : Stage) (t : Task) : Event :=
  match g.ending? t with
  | some u => u.answer.ending.event (match u.exchange with
      | .wallet _ => walletOutcome
      | .inquiry _ => inquiryOutcome)
  | none => .turn

/-- The reference that a call to the gateway is about. -/
def subject : Exchange → String
  | .wallet r => r.reference
  | .inquiry reference => reference

/-- Whether a call to the gateway is an inquiry. -/
def isInquiry (u : UnderWay) : Bool :=
  match u.exchange with
  | .inquiry _ => true
  | .wallet _ => false

/-- The transaction of a call that ends may have settled by itself. -/
def settleItself (g : Stage) (u : UnderWay) : Stage :=
  match u.answer.settle with
  | none => g
  | some status =>
    match g.service.store.memory.update (subject u.exchange) status with
    | .ok (_, memory) =>
      { g with service := { g.service with store := { g.service.store with memory } } }
    | .error _ => g

/-- A task begins a call to the gateway: the script tells how it will end. -/
def beginExchange (g : Stage) (t : Task) (e : Exchange) : Stage :=
  match e with
  | .wallet r =>
    let (answer, walletScript) := g.walletScript.take r.reference
    { g with
      walletScript
      walletCalls := g.walletCalls + 1
      sent := .wallet r g.wall :: g.sent
      underWay := g.underWay ++ [⟨t, e, g.now + answer.delay, answer⟩] }
  | .inquiry reference =>
    let (answer, inquiryScript) := g.inquiryScript.take reference
    let underWay := g.underWay ++ [⟨t, e, g.now + answer.delay, answer⟩]
    { g with
      inquiryScript, underWay
      inquiryCalls := g.inquiryCalls + 1
      mostInquiries := max g.mostInquiries (underWay.filter isInquiry).length }

/-- Brings the calls to the gateway in line with what a task waits for. -/
def follow (g : Stage) (t : Task) : Stage :=
  match g.service.exchange? t, g.pending? t with
  | some e, none => g.beginExchange t e
  | none, some _ => { g with underWay := g.underWay.filter fun u => u.task ≠ t }
  | _, _ => g

/-- The redirect that a call has just made. -/
def redirect? (before after : Service) : Task → Option (Int64 × CardRedirect)
  | .loop _ => none
  | .call n =>
    match before.calls.find? n, after.calls.find? n with
    | some (.initiate i), some (.initiate j) =>
      match i.phase, j.phase with
      | .creating _, .committing _ receipt _ _ => receipt.redirect.map fun r => (receipt.amount, r)
      | _, _ => none
    | _, _ => none

/-! ### Steps -/

/-- One step of a task, if it can go on. -/
def step? (g : Stage) (t : Task) : Option Stage :=
  let ended := g.ending? t
  let event := g.event t
  -- the transaction settles before its caller hears of it
  let before := (ended.map g.settleItself).getD g
  (before.service.step g.setup (g.moment t) t event).map fun service =>
    let sent := match redirect? before.service service t with
      | some (amount, r) => .card amount r g.wall :: g.sent
      | none => g.sent
    let underWay := if ended.isSome then g.underWay.filter fun u => u.task ≠ t else g.underWay
    { before with service, sent, underWay, steps := g.steps + 1 }.follow t

/-- Whether a task can go on. -/
def canStep (g : Stage) (t : Task) : Bool :=
  (g.service.step g.setup (g.moment t) t (g.event t)).isSome

/-- A task goes on until it has to wait. -/
def run : Nat → Stage → Task → Stage
  | 0, g, _ => g
  | rounds + 1, g, t =>
    match g.step? t with
    | some g => run rounds g t
    | none => { g with resting := g.resting.filter (· ≠ t) ++ [t] }

/-- The tasks that can go on and are not in line yet. -/
def awakened (g : Stage) : List Task :=
  g.service.tasks.filter fun t => !g.ready.contains t && g.canStep t

/-- All tasks go on until all have to wait. -/
def settle : Nat → Stage → Stage
  | 0, g => g
  | rounds + 1, g =>
    match g.ready with
    | [] => g
    | t :: rest =>
      let g := { g with ready := rest }
      -- a task in line may have lost what it was woken for
      let g := if g.canStep t then run rounds g t else g
      settle rounds { g with ready := g.ready ++ g.awakened }

/-- The moments at which tasks can go on by time alone. -/
def dueTimes (g : Stage) : List Nat :=
  g.service.tasks.filterMap fun t =>
    match g.pending? t, g.service.due? t with
    | some u, some n => some (min u.due n)
    | some u, none => some u.due
    | none, due => due

/-- The next moment at which a task can go on by time alone. -/
def nextDue? (g : Stage) : Option Nat := g.dueTimes.min?

/-- The clock moves; the tasks that can go on wake in the order of their rest. -/
def moveTo (g : Stage) (time : Nat) : Stage :=
  let g := { g with now := max g.now time }
  { g with ready := g.resting.filter g.canStep }

/-- The bound on the rounds of a play. -/
def bound : Nat := 1000000

/-- All tasks that can go on do. -/
def quiesce (g : Stage) : Stage := settle bound { g with ready := g.ready ++ g.awakened }

/-- Plays until a condition holds, at the latest until the given time. The condition
    is looked at when all tasks have to wait. -/
def playUntil (goal : Stage → Bool) (limit : Option Nat) : Nat → Stage → Stage
  | 0, g => g
  | rounds + 1, g =>
    if goal g then g
    else match g.nextDue?, limit with
      | none, none => g
      | none, some last => g.moveTo last
      | some time, none => playUntil goal limit rounds (settle bound (g.moveTo time))
      | some time, some last =>
        if last < time then g.moveTo last
        else playUntil goal limit rounds (settle bound (g.moveTo time))

/-- Waits until the virtual time has moved on by some milliseconds. -/
def sleep (g : Stage) (milliseconds : Nat) : Stage :=
  (playUntil (fun _ => false) (some (g.now + milliseconds)) bound g.quiesce).quiesce

/-- Makes calls, in order, and waits until all are over. -/
def perform (g : Stage) (calls : List Call) : List Nat × Stage :=
  let (ns, service) := calls.foldl
    (fun (ns, s) c => let (n, s) := Service.begin s c; (ns ++ [n], s)) ([], g.service)
  let g := { g with service, ready := g.ready ++ ns.map Task.call }
  (ns, (playUntil (fun g => ns.all g.service.isOver) none bound (settle bound g)).quiesce)

end Stage

end TopUp.Rehearsal
