import TopUp.Poll.Limiter

/-! # The pace of poll loops

    A loop inquires once per interval until its deadline. Both are in milliseconds.
-/

namespace TopUp.Poll

/-- How often and how long poll loops inquire. -/
structure Pace where
  /-- The time between two inquiries. -/
  interval : Nat := 5000
  /-- The lifetime of a loop. -/
  deadline : Nat := 120000
  /-- The number of gateway slots. -/
  maxConcurrent : Nat := Limiter.defaultCapacity
  deriving DecidableEq, Repr

/-- Why a pace is of no use. -/
inductive Pace.Fault where
  /-- There is no time between two inquiries. -/
  | noInterval
  /-- The lifetime is shorter than the interval. -/
  | shortDeadline
  /-- There is no slot. -/
  | noSlots
  deriving DecidableEq, Repr

/-- The wording of a fault. -/
def Pace.Fault.message : Pace.Fault → String
  | .noInterval => "POLL_INTERVAL_SECONDS must be greater than 0"
  | .shortDeadline => "POLL_DEADLINE_SECONDS must be >= POLL_INTERVAL_SECONDS"
  | .noSlots => "GATEWAY_MAX_CONCURRENT must be greater than 0"

/-- Checks a pace. -/
def Pace.validate (p : Pace) : Except Pace.Fault Unit :=
  if p.interval = 0 then .error .noInterval
  else if p.deadline < p.interval then .error .shortDeadline
  else if p.maxConcurrent = 0 then .error .noSlots
  else .ok ()

end TopUp.Poll
