import TopUp.Problem.Kind

/-! # Error envelopes

    An answer that reports a problem carries an envelope: the code, the wording, the
    request's own identifier, the time, and, for a field that is missing or of no
    use, the name of the field.
-/

namespace TopUp

/-- A problem with the request it belongs to. -/
structure Problem where
  kind : Problem.Kind
  requestId : Option String := none
  context : Option String := none
  deriving DecidableEq, Repr

namespace Problem

/-- What a caller is told. -/
structure Envelope where
  /-- The stable code. -/
  error : Code
  /-- The wording for people. -/
  message : String
  /-- The identifier of the request. -/
  requestId : Option String
  /-- When the problem was reported. -/
  timestamp : String
  /-- More about the problem. -/
  details : Option Json
  /-- Whether the caller may send the same request again. -/
  retryable : Option Bool

namespace Envelope

/-- The envelope as a JSON object. -/
def toJson (e : Envelope) : Json :=
  .object
    ([("error", .string e.error.wire), ("message", .string e.message),
      ("request_id", .ofText? e.requestId), ("timestamp", .string e.timestamp)]
      ++ (e.details.map fun d => ("details", d)).toList
      ++ (e.retryable.map fun b => ("retryable", .bool b)).toList)

end Envelope

/-- The problem of a kind that belongs to the request of the given identifier. -/
def ofKind (kind : Kind) (requestId : Option String) : Problem := { kind, requestId }

/-- The envelope of a problem. -/
def envelope (p : Problem) (timestamp : String) : Envelope :=
  { error := p.kind.code
    message := p.kind.userMessage
    requestId := p.requestId
    timestamp := timestamp
    details := p.kind.field?.map fun f => .object [("field", .string f)]
    retryable := some p.kind.retryable }

/-- The envelope that is sent: a fault of the service is not described. -/
def answer (p : Problem) (timestamp : String) : Envelope :=
  if p.kind.httpStatus = 500 ∧ p.kind.code = .internal then
    { error := .internal
      message := "An internal server error occurred. Please try again later."
      requestId := p.requestId
      timestamp := timestamp
      details := none
      retryable := some false }
  else p.envelope timestamp

end Problem

end TopUp
