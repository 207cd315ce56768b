import TopUp.Call.Wire
import TopUp.Health
import TopUp.Http.MediaType
import TopUp.Http.Message
import TopUp.Problem.Envelope

/-! # The routes of the service

    Three paths are served: top-ups, health and liveness. A top-up is made for the
    caller that an earlier hop has named in a header. A header that names nobody is
    refused whatever the method; a missing one only where a caller is needed, and
    before the body is looked at. A classified outcome is answered with status 200,
    also when the payment failed.

    `Http.plan` decides what a request comes to without touching the service.
-/

namespace TopUp.Http

open TopUp.Text

/-- The header that names the caller. -/
def userHeader : String := "x-user-id"

/-- The header that names the request. -/
def requestHeader : String := "x-request-id"

/-- The path of top-ups. -/
def topUpPath : String := "/api/payments/topup"

/-- The most bytes of a body. -/
def bodyLimit : Nat := 2097152

/-- What a request comes to. -/
inductive Plan where
  /-- A response at once. -/
  | respond (r : Response)
  /-- A top-up for a caller. -/
  | topUp (user : Uuid) (request : TopUp.Request)
  /-- A report on the health of the service. -/
  | health (withBody : Bool)

/-- The identifier of a request: the one it brought, or a new one. -/
def requestId (r : Request) (fresh : String) : String := (r.header? requestHeader).getD fresh

/-- The response that reports a problem. -/
def ofProblem (r : Request) (fresh timestamp : String) (k : Problem.Kind) : Response :=
  let p := Problem.ofKind k (readable? (requestId r fresh))
  .ofJson k.httpStatus (p.answer timestamp).toJson

/-! ### The caller -/

/-- The caller that a request names. -/
def caller (r : Request) : Except Problem.Kind (Option Uuid) :=
  match r.header? userHeader with
  | none => .ok none
  | some value =>
    match readable? value with
    | none => .error (.invalidIdentity (userHeader ++ " contains non-ASCII characters"))
    | some text =>
      match Uuid.parse? (trim text) with
      | some user => .ok (some user)
      | none => .error (.invalidIdentity (userHeader ++ " is not a valid UUID"))

/-! ### The body -/

/-- Why a body was not taken. -/
inductive Refusal where
  /-- It is not said to be JSON. -/
  | notJson
  /-- It is too long. -/
  | tooLong
  /-- It is not JSON. -/
  | malformed
  /-- It is JSON of another shape. -/
  | mismatch
  deriving DecidableEq, Repr

/-- The wording of a refusal. -/
def Refusal.message : Refusal → String
  | .notJson => "Expected request with \x60Content-Type: application/json\x60"
  | .tooLong => "Failed to buffer the request body"
  | .malformed => "Failed to parse the request body as JSON"
  | .mismatch => "Failed to deserialize the JSON body into the target type"

/-- Whether a request says that its body is JSON. -/
def saysJson (r : Request) : Bool :=
  match (r.header? "content-type").bind readable? with
  | some value => MediaType.namesJson value
  | none => false

/-- The top-up request in a body. -/
def topUpRequest (r : Request) : Except Refusal TopUp.Request :=
  if !saysJson r then .error .notJson
  else if bodyLimit < r.body.utf8ByteSize then .error .tooLong
  else match Json.Reader.run TopUp.Request.reader r.body with
    | .ok q => .ok q
    | .error .malformed => .error .malformed
    | .error .mismatch => .error .mismatch

/-! ### Routes -/

/-- What a request on the path of top-ups comes to, given what its body was read as. -/
def planTopUp (r : Request) (fresh timestamp : String) (body : Except Refusal TopUp.Request) :
    Plan :=
  let report := ofProblem r fresh timestamp
  let wrongMethod := r.method != "POST"
  match caller r with
  | .error k =>
    -- refused even where the method is wrong; the methods are named all the same
    let response := report k
    let response := if wrongMethod then { response with allow := some "POST" } else response
    .respond (if r.method = "HEAD" then response.withoutBody else response)
  | .ok user =>
    if wrongMethod then .respond (.bare 405 (some "POST"))
    else match user with
      | none => .respond (report .missingIdentity)
      | some user =>
        match body with
        | .ok q => .topUp user q
        | .error refusal => .respond (report (.invalidField "body" refusal.message))

/-- What a request comes to, given a new identifier for it and the time. -/
def plan (r : Request) (fresh timestamp : String) : Plan :=
  let reads := r.method = "GET" ∨ r.method = "HEAD"
  if r.path = topUpPath then planTopUp r fresh timestamp (topUpRequest r)
  else if r.path = "/health" then
    if reads then .health (r.method = "GET") else .respond (.bare 405 (some "GET,HEAD"))
  else if r.path = "/health/live" then
    if reads then
      let response := Response.ofText 200 "OK"
      .respond (if r.method = "HEAD" then response.withoutBody else response)
    else .respond (.bare 405 (some "GET,HEAD"))
  else .respond (.bare 404 none)

/-- The response that tells what became of a top-up. -/
def ofResult (r : Request) (fresh timestamp : String) :
    Except Call.Failure Receipt → Response
  | .ok receipt => .ofJson 200 receipt.toJson
  | .error cause => ofProblem r fresh timestamp cause.problem

/-- The response that reports the health of the service. -/
def ofHealth (h : Health) (withBody : Bool) (timestamp : String) : Response :=
  let response := Response.ofJson (if h.state = .unhealthy then 503 else 200) (h.toJson timestamp)
  if withBody then response else response.withoutBody

end TopUp.Http
