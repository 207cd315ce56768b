import TopUp.Json.Value
import TopUp.Poll.Supervisor
import TopUp.Store.Failure

/-! # Health

    The service is unhealthy when its store does not answer, or answers with a
    failure. A used-up gateway budget only degrades it.
-/

namespace TopUp

namespace Health

open TopUp.Text

/-- The state of the service. -/
inductive State where
  /-- All is well. -/
  | healthy
  /-- The service works at its limit. -/
  | degraded
  /-- The service cannot work. -/
  | unhealthy
  deriving DecidableEq, Repr

/-- The state of a part of the service. -/
inductive PartState where
  /-- It works. -/
  | up
  /-- It does not work. -/
  | down
  /-- It works at its limit. -/
  | warning
  deriving DecidableEq, Repr

/-- A part of the service. -/
structure Part where
  /-- Its state. -/
  state : PartState
  /-- How many milliseconds it took to answer. -/
  responseTime : Option Nat
  /-- More about it. -/
  details : Option String
  deriving DecidableEq, Repr

/-- How many milliseconds the store may take to answer. -/
def patience : Nat := 5000

/-- What came of asking the store whether it is well. -/
inductive Probe where
  /-- It answered in so many milliseconds. -/
  | well (milliseconds : Nat)
  /-- It failed. -/
  | failed (cause : Store.Failure)
  /-- It did not answer. -/
  | silent
  deriving DecidableEq, Repr

/-- The name of a state. -/
def State.wire : State → String
  | .healthy => "Healthy"
  | .degraded => "Degraded"
  | .unhealthy => "Unhealthy"

/-- The name of the state of a part. -/
def PartState.wire : PartState → String
  | .up => "Up"
  | .down => "Down"
  | .warning => "Warning"

/-- A part as JSON. -/
def Part.toJson (p : Part) : Json :=
  .object
    [("status", .string p.state.wire),
     ("response_time_ms", (p.responseTime.map Json.ofNat).getD .null),
     ("details", .ofText? p.details)]

end Health

/-- The health of the service. -/
structure Health where
  state : Health.State := .healthy
  parts : List (String × Health.Part) := []
  deriving DecidableEq, Repr

namespace Health

open TopUp.Text

/-- Whether all is well. -/
def isHealthy (h : Health) : Bool := h.state = .healthy

/-- The store after it was asked. -/
def storePart : Probe → Part
  | .well ms => ⟨.up, some ms, none⟩
  | .failed cause => ⟨.down, none, some cause.message⟩
  | .silent => ⟨.down, none, some "Timeout"⟩

/-- The gateway budget. -/
def budgetPart (l : Poll.Limiter) (active : Nat) : Part :=
  let details := decimal l.inUse ++ " of " ++ decimal l.capacity ++ " gateway slots in use, "
    ++ decimal active ++ " poll loops active"
  ⟨if l.permits = 0 then .warning else .up, none, some details⟩

/-- The health of a service whose store was asked. -/
def report (p : Probe) (l : Poll.Limiter) (active : Nat) : Health :=
  let store := storePart p
  { state :=
      if store.state = .down then .unhealthy
      else if l.permits = 0 then .degraded
      else .healthy
    parts := [("store", store), ("gateway_budget", budgetPart l active)] }

/-- The health as JSON. -/
def toJson (h : Health) (timestamp : String) : Json :=
  .object
    [("status", .string h.state.wire),
     ("checks", .object (h.parts.map fun e => (e.1, e.2.toJson))),
     ("timestamp", .string timestamp)]

end Health

end TopUp
