import TopUp.Json.Shape
import TopUp.Problem.Envelope

/-! # Reading error envelopes

    An envelope is read like the other records of the service. Its details may be
    any value; null counts as absent.
-/

namespace TopUp.Problem

open TopUp.Json

/-- Reads a problem code. -/
def Code.reader : Reader Code := Reader.oneOf Code.ofWire?

namespace Envelope

/-- An envelope under construction. -/
structure Partial where
  /-- The stable code. -/
  error : Option Code := none
  /-- The wording for people. -/
  message : Option String := none
  /-- The identifier of the request, which may be given as null. -/
  requestId : Option (Option String) := none
  /-- When the problem was reported. -/
  timestamp : Option String := none
  /-- More about the problem, which may be given as null. -/
  details : Option (Option Json) := none
  /-- Whether the caller may send the same request again; may be given as null. -/
  retryable : Option (Option Bool) := none

/-- The members of an envelope. -/
def members : List (Reader.Member Partial) :=
  [{ name := "error"
     read := (fun v d => { d with error := some v }) <$> Code.reader
     given := fun d => d.error.isSome },
   { name := "message"
     read := (fun v d => { d with message := some v }) <$> Reader.text
     given := fun d => d.message.isSome },
   { name := "request_id"
     read := (fun v d => { d with requestId := some v }) <$> Reader.optional Reader.text
     given := fun d => d.requestId.isSome },
   { name := "timestamp"
     read := (fun v d => { d with timestamp := some v }) <$> Reader.text
     given := fun d => d.timestamp.isSome },
   { name := "details"
     read := (fun v d => { d with details := some v }) <$>
       Reader.optional (Reader.json (nesting - 1))
     given := fun d => d.details.isSome },
   { name := "retryable"
     read := (fun v d => { d with retryable := some v }) <$> Reader.optional Reader.boolean
     given := fun d => d.retryable.isSome }]

/-- The envelope of a draft that has what it needs. -/
def ofPartial (d : Partial) : Option Envelope := do
  return {
    error := ← d.error
    message := ← d.message
    requestId := d.requestId.getD none
    timestamp := ← d.timestamp
    details := d.details.getD none
    retryable := d.retryable.getD none }

/-- Reads an envelope. -/
def reader : Reader Envelope := Reader.record members {} ofPartial

end Envelope

end TopUp.Problem
