import TopUp.Gateway.Failure
import TopUp.Text.Blank
import TopUp.Text.Letters

/-! # Payment methods and statuses

    A transaction starts pending. A status is terminal when no later one may take
    its place; an unknown outcome is open and is shown to clients as pending.
-/

namespace TopUp

open TopUp.Text

/-- How a top-up is paid. -/
inductive Method where
  | wallet
  | card
  deriving DecidableEq, Repr

/-- The state of a payment. -/
inductive Status where
  /-- Not settled yet. -/
  | pending
  /-- Settled: paid. -/
  | success
  /-- Settled: not paid. -/
  | failed
  /-- The gateway's answer could not be classified. -/
  | unknown
  deriving DecidableEq, Repr

namespace Method

/-- The name on the wire. -/
def wire : Method → String
  | .wallet => "MWALLET"
  | .card => "CARD"

/-- The method of a wire name. -/
def ofWire? (s : String) : Option Method :=
  if s = wire .wallet then some .wallet
  else if s = wire .card then some .card
  else none

/-- The method of a name in any letter case, with blanks around it. -/
def parse (s : String) : Except Gateway.Failure Method :=
  let name := trim s
  if spellsUpper name (wire .wallet) then .ok .wallet
  else if spellsUpper name (wire .card) then .ok .card
  else .error (.invalidField "method" ("unsupported payment method: " ++ s))

@[simp] theorem ofWire?_wire (m : Method) : ofWire? m.wire = some m := by
  cases m <;> decide

end Method

namespace Status

/-- The name on the wire. -/
def wire : Status → String
  | .pending => "PENDING"
  | .success => "SUCCESS"
  | .failed => "FAILED"
  | .unknown => "UNKNOWN"

/-- The status of a wire name. -/
def ofWire? (s : String) : Option Status :=
  if s = wire .pending then some .pending
  else if s = wire .success then some .success
  else if s = wire .failed then some .failed
  else if s = wire .unknown then some .unknown
  else none

/-- The status of a name in any letter case, with blanks around it. -/
def parse (s : String) : Except Gateway.Failure Status :=
  let name := trim s
  if spellsUpper name (wire .pending) then .ok .pending
  else if spellsUpper name (wire .success) then .ok .success
  else if spellsUpper name (wire .failed) then .ok .failed
  else if spellsUpper name (wire .unknown) then .ok .unknown
  else .error (.invalidField "status" ("unknown payment status: " ++ s))

/-- Settled for good. -/
def isTerminal : Status → Bool
  | .success | .failed => true
  | .pending | .unknown => false

/-- Whether a stored status may give way to `next`. -/
def canBecome (s next : Status) : Bool := !s.isTerminal && next != .pending

/-- The status that clients are shown. -/
def clientVisible : Status → Status
  | .unknown => .pending
  | s => s

@[simp] theorem ofWire?_wire (s : Status) : ofWire? s.wire = some s := by
  cases s <;> decide

end Status

end TopUp
