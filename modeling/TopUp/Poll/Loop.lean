import TopUp.Gateway.Outcome
import TopUp.Poll.Pace
import TopUp.Store.Basic

/-! # Poll loops

    A loop attends to one open transaction. Once per interval it takes a gateway
    slot, inquires and, if the answer is terminal, writes the status and ends. At its
    deadline it marks the transaction as failed and ends; a shutdown ends it without
    a write. Whichever way it ends, it takes its mark off the transaction.

    A loop is a state machine. `Loop.step` is one uninterrupted stretch of it: other
    tasks may run before and after it, not within. A step is not possible when the
    loop has to wait for time to pass, for a slot or for an answer.
-/

namespace TopUp

/-- What a step of a task is given. -/
inductive Event where
  /-- Its turn, and nothing else. -/
  | turn
  /-- The gateway's answer. -/
  | answer (result : Except Gateway.Failure Gateway.Outcome)
  /-- The task is killed while it calls the gateway. -/
  | crash

namespace Poll

/-- How a loop ended. -/
inductive Outcome where
  /-- The gateway reported a terminal status. -/
  | settled (status : Status)
  /-- The deadline came first. -/
  | timedOut
  /-- The supervisor was shut down. -/
  | cancelled
  deriving DecidableEq, Repr

/-- Where a loop stands. -/
inductive Phase where
  /-- It was started and has not run. -/
  | fresh
  /-- It is at the head of its cycle. -/
  | head
  /-- It waits for the deadline, a shutdown or the next tick. -/
  | waiting
  /-- It waits for a slot. -/
  | slotWait
  /-- It holds a slot and waits for the gateway. -/
  | inquiring
  /-- It gives its slot back; the answer may have been terminal. -/
  | returning (answer : Option Status)
  /-- It is about to write a terminal status. -/
  | settling (status : Status)
  /-- It is about to mark its transaction as failed. -/
  | expiring
  /-- It is about to take its mark away. -/
  | clearing (outcome : Outcome)
  /-- It has ended. -/
  | ended (outcome : Outcome)
  /-- It was killed. -/
  | killed
  deriving DecidableEq, Repr

/-- A loop. -/
structure Loop where
  /-- The reference of its transaction. -/
  reference : String
  /-- Where it stands. -/
  phase : Phase := .fresh
  /-- When its lifetime is over. -/
  deadline : Nat := 0
  /-- When it inquires next. -/
  nextTick : Nat := 0
  deriving DecidableEq, Repr

namespace Loop

/-- Whether a loop is over. -/
def isFinished (x : Loop) : Bool :=
  match x.phase with
  | .ended _ | .killed => true
  | _ => false

/-- How late a tick may be taken without moving the ones after it. -/
def tolerance : Nat := 5

/-- The tick after one that was due at `due` and is taken at `now`. -/
def tickAfter (interval due now : Nat) : Nat :=
  if now ≤ due + tolerance then due + interval else now + interval

/-- The terminal status of an answer, if it has one. -/
def terminal? : Except Gateway.Failure Gateway.Outcome → Option Status
  | .ok o => if o.status.isTerminal then some o.status else none
  | .error _ => none

/-- The phase after an inquiry is over. -/
def afterInquiry : Option Status → Phase
  | some status => .settling status
  | none => .head

/-- Takes the slot of a loop off the count once its inquiry is over. -/
def endInquiry (l : Limiter) (x : Loop) (answer : Option Status) : Limiter × Loop :=
  match l.uncount? with
  | some l => (l, { x with phase := .returning answer })
  | none => (l, { x with phase := afterInquiry answer })

/-- One step of the loop of the given number. -/
def step (p : Pace) (stopping : Bool) (now id : Nat) (e : Event) (s : Store) (l : Limiter)
    (x : Loop) : Option (Store × Limiter × Loop) :=
  match x.phase, e with
  | .fresh, .turn =>
    -- ticks need a period; without one the loop dies and keeps its mark
    if p.interval = 0 then some (s, l, { x with phase := .killed })
    else
      some (s, l,
        { x with phase := .head, deadline := now + p.deadline, nextTick := now + p.interval })
  | .head, .turn =>
    some (s, l, { x with phase := if stopping then .clearing .cancelled else .waiting })
  | .waiting, .turn =>
    -- of several things that are due, the deadline goes first and the tick last
    if x.deadline ≤ now then some (s, l, { x with phase := .expiring })
    else if stopping then some (s, l, { x with phase := .clearing .cancelled })
    else if x.nextTick ≤ now then
      some (s, l.request id,
        { x with phase := .slotWait, nextTick := tickAfter p.interval x.nextTick now })
    else none
  | .slotWait, .turn =>
    -- a permit that is granted at the deadline still counts
    if l.isGranted id then some (s, l.count id, { x with phase := .inquiring })
    else if x.deadline ≤ now then some (s, l.cancel id, { x with phase := .head })
    else none
  | .inquiring, .answer result =>
    let (l, x) := endInquiry l x (terminal? result)
    some (s, l, x)
  | .inquiring, .turn =>
    if x.deadline ≤ now then
      let (l, x) := endInquiry l x none
      some (s, l, x)
    else none
  -- the mark stays, since nobody is left to take it away
  | .inquiring, .crash => some (s, l.release.2, { x with phase := .killed })
  | .returning answer, .turn => some (s, l.giveBack, { x with phase := afterInquiry answer })
  | .settling status, .turn =>
    match s.update x.reference status with
    | .ok (_, s) => some (s, l, { x with phase := .clearing (.settled status) })
    -- the next tick tries again
    | .error _ => some (s, l, { x with phase := .head })
  | .expiring, .turn =>
    let s := match s.update x.reference .failed with
      | .ok (_, s) => s
      | .error _ => s
    some (s, l, { x with phase := .clearing .timedOut })
  | .clearing outcome, .turn =>
    let s := match s.clear x.reference with
      | .ok s => s
      | .error _ => s
    some (s, l, { x with phase := .ended outcome })
  | _, _ => none

/-- When a waiting loop can go on at the latest, if time alone decides. -/
def due? (x : Loop) : Option Nat :=
  match x.phase with
  | .waiting => some (min x.deadline x.nextTick)
  | .slotWait | .inquiring => some x.deadline
  | _ => none

end Loop

end Poll

end TopUp
