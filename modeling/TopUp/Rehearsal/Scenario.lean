import TopUp.Http.Router
import TopUp.Rehearsal.Stage

/-! # Scenarios

    A scenario is a rehearsal in steps: calls to the service, requests over HTTP,
    waits, looks at the store and changes to it from outside. After each step all
    tasks that can go on have done so.

    References that the service makes are random. In a scenario they go by a name
    that tells the idempotency key of their transaction, or that none was stored.
-/

namespace TopUp.Rehearsal

open TopUp.Data TopUp.Gateway TopUp.Store TopUp.Text

/-- A step of a scenario. -/
inductive Step where
  /-- Puts a transaction of the given age in seconds into the ledger. -/
  | seed (t : NewTransaction) (status : Status) (polling : Bool) (age : Int)
  /-- Initiates top-ups, all at once. -/
  | initiate (requests : List (Uuid × Request))
  /-- Reports from the card page, with the right signature put in if asked for. -/
  | callback (fields : FieldMap) (sign : Bool)
  /-- Starts a poll loop. -/
  | start (reference : String)
  /-- Waits for the end of a poll loop. -/
  | join (reference : String)
  /-- Ends all poll loops. -/
  | shutdown
  /-- Lets time pass. -/
  | advance (milliseconds : Nat)
  /-- Writes a status from outside. -/
  | update (reference : String) (status : Status)
  /-- Sets the mark of a poll loop from outside. -/
  | claim (reference : String)
  /-- Takes the mark of a poll loop away from outside. -/
  | clear (reference : String)
  /-- Reads from outside. -/
  | get (reference : String)
  /-- Replaces the faults of the store. -/
  | fault (faults : Faults)
  /-- Switches status writes off or on. -/
  | readOnly (on : Bool)
  /-- Takes a gateway slot under a name. -/
  | hold (name : String)
  /-- Gives a named gateway slot back. -/
  | unhold (name : String)
  /-- Looks at the pace of the poll loops. -/
  | pace
  /-- Asks for the health of the service. -/
  | health
  /-- Sends a request over HTTP. -/
  | http (r : Http.Request)

/-- What a step comes to. -/
inductive Reply where
  /-- Nothing to tell. -/
  | silent
  /-- The outcome of a top-up. -/
  | outcome (r : Except Call.Failure Receipt)
  /-- The outcomes of several top-ups. -/
  | outcomes (rs : List (Except Call.Failure Receipt))
  /-- A truth value. -/
  | told (b : Bool)
  /-- How a poll loop ended. -/
  | joined (o : Option Poll.Outcome)
  /-- The operation was done. -/
  | done
  /-- Whether something was changed. -/
  | changed (b : Bool)
  /-- A transaction, if there is one. -/
  | found (t : Option Transaction)
  /-- The store failed. -/
  | failed (cause : Store.Failure)
  /-- The pace of the poll loops. -/
  | pace (p : Poll.Pace)
  /-- The health of the service. -/
  | health (h : Health)
  /-- A response over HTTP, with the identifier of the request. -/
  | http (r : Http.Response) (requestId : String)

/-- A scenario that is being played. -/
structure Scenario where
  /-- The stage. -/
  stage : Stage
  /-- The names of gateway slots that are held from outside. -/
  held : List String := []
  /-- The references that the service has made, oldest first. -/
  made : List String := []

namespace Scenario

/-- A scenario with an empty store. -/
def ofSetup (u : Setup) (wallet inquiry : Script) : Scenario :=
  { stage :=
      { setup := u, service := .atRest u, walletScript := wallet, inquiryScript := inquiry } }

/-! ### Names -/

/-- The ledger of the service. -/
def ledger (s : Scenario) : Ledger := s.stage.service.store.memory.ledger

/-- The name of a reference that the service made. -/
def nameOf (s : Scenario) (reference : String) : String :=
  match s.ledger.find? reference with
  | some t => "TXN<" ++ t.key.toText ++ ">"
  | none => "TXN<uncommitted>"

/-- How the identifiers of requests are written that brought none. -/
def freshName : String := "<generated>"

/-- The identifier of a request that brought none. -/
def freshId : String := (Stage.identifier 0xffffffff).toText

/-- A text with the names of references in their place. -/
def publicText (s : Scenario) (text : String) : String :=
  s.made.foldl (fun t r => t.replace r (s.nameOf r)) (text.replace freshId freshName)

/-- The reference that a name stands for. -/
def resolve (s : Scenario) (name : String) : String :=
  (s.made.find? fun r => s.nameOf r = name).getD name

/-- The reference of an initiation. -/
def sentReference : Sent → String
  | .wallet r _ => r.reference
  | .card _ r _ => (r.fields.get? "pp_TxnRefNo").getD ""

/-- Remembers the references that were made on the stage. -/
def remember (s : Scenario) : Scenario :=
  let fresh := (s.stage.sent.reverse.map sentReference).filter fun r => !s.made.contains r
  { s with made := s.made ++ fresh }

/-! ### Steps -/

/-- Makes one call and waits until it is over. -/
def call (s : Scenario) (c : Call) : Option Call × Scenario :=
  let (ns, stage) := s.stage.perform [c]
  let finished := ns.head?.bind stage.service.calls.find?
  (finished, { s with stage }.remember)

/-- The answer of a call that initiated a top-up or took a report. -/
def resultOf : Option Call → Except Call.Failure Receipt
  | some (.initiate ⟨_, _, _, .done r⟩) => r
  | some (.cardReport (.done r)) => r
  | _ => .error (.store (.other "the call is not over"))

/-- Changes the store in memory. -/
def onMemory (s : Scenario) (m : Memory) : Scenario :=
  let service := { s.stage.service with store := { s.stage.service.store with memory := m } }
  { s with stage := { s.stage with service } }

/-- The store in memory. -/
def memory (s : Scenario) : Memory := s.stage.service.store.memory

/-- Asks the store whether it is well; a store that does not answer takes time. -/
def probe (s : Scenario) : Health.Probe × Scenario :=
  let store := s.stage.service.store
  match store.failure? .health with
  | some cause => (.failed cause, s)
  | none =>
    if store.meets .health .hang then
      (.silent, { s with stage := s.stage.sleep Health.patience })
    else (.well 0, s)

/-- The health of the service. -/
def health (s : Scenario) : Health × Scenario :=
  let (p, s) := s.probe
  (Health.report p s.stage.service.limiter s.stage.service.supervisor.active, s)

/-- Posted fields with the right signature. -/
def signed (s : Scenario) (fields : FieldMap) : FieldMap :=
  fields.insert hashField (s.stage.setup.client.signer.sign fields)

/-- Posted fields with the reference that a name stands for. -/
def withReference (s : Scenario) (fields : FieldMap) : FieldMap :=
  match fields.get? "pp_TxnRefNo" with
  | some name => fields.insert "pp_TxnRefNo" (s.resolve name)
  | none => fields

/-- Takes a gateway slot, if one is free. A slot that the name stood for before is
    given back. -/
def hold (s : Scenario) (name : String) : Bool × Scenario :=
  let limiter := s.stage.service.limiter
  if limiter.permits = 0 then (false, s)
  else
    let owner := s.stage.service.supervisor.next
    let limiter := (limiter.request owner).count owner
    let limiter := if s.held.contains name then limiter.release.2 else limiter
    (true,
      { s with
        held := s.held.erase name ++ [name]
        stage := { s.stage with service := { s.stage.service with limiter } } })

/-- Gives a gateway slot back. -/
def unhold (s : Scenario) (name : String) : Bool × Scenario :=
  if s.held.contains name then
    let (_, limiter) := s.stage.service.limiter.release
    (true,
      { s with
        held := s.held.erase name
        stage := { s.stage with service := { s.stage.service with limiter } } })
  else (false, s)

/-- How times are written. -/
def timestamp : String := "<time>"

/-- Sends a request over HTTP. -/
def http (s : Scenario) (r : Http.Request) : Http.Response × Scenario :=
  match Http.plan r freshId timestamp with
  | .respond response => (response, s)
  | .topUp user request =>
    let (c, s) := s.call (.initiate (.ofRequest user request))
    (Http.ofResult r freshId timestamp (resultOf c), s)
  | .health withBody =>
    let (h, s) := s.health
    (Http.ofHealth h withBody timestamp, s)

/-- What a step comes to, before the tasks that it woke go on. -/
def act (s : Scenario) : Step → Reply × Scenario
  | .seed n status polling age =>
    let t := n.opened (Stage.identifier s.stage.steps) (s.stage.wall - age * 1000000)
    let stage := { s.stage with steps := s.stage.steps + 1 }
    (.silent, { s with stage }.onMemory (s.memory.seed { t with status, polling }))
  | .initiate requests =>
    let calls := requests.map fun (user, request) => Call.initiate (.ofRequest user request)
    let (ns, stage) := s.stage.perform calls
    let results := ns.map fun n => resultOf (stage.service.calls.find? n)
    (.outcomes results, { s with stage }.remember)
  | .callback fields sign =>
    let fields := s.withReference fields
    let fields := if sign then s.signed fields else fields
    let (c, s) := s.call (.cardReport (CardCallback.ofPosted s.stage.setup.client fields))
    (.outcome (resultOf c), s)
  | .start name =>
    let (c, s) := s.call (.start (s.resolve name) .checking)
    (.told (match c with
      | some (.start _ (.done started)) => started
      | _ => false), s)
  | .join name =>
    let (c, s) := s.call (.join (s.resolve name) .looking)
    (.joined (match c with
      | some (.join _ (.done outcome)) => outcome
      | _ => none), s)
  | .shutdown =>
    let (_, s) := s.call (.shutdown .asking)
    (.silent, s)
  | .advance milliseconds => (.silent, { s with stage := s.stage.sleep milliseconds })
  | .update name status =>
    match s.memory.update (s.resolve name) status with
    | .ok (written, m) => (.changed written, s.onMemory m)
    | .error cause => (.failed cause, s)
  | .claim name =>
    let (claimed, m) := s.memory.claim (s.resolve name)
    (.changed claimed, s.onMemory m)
  | .clear name => (.done, s.onMemory (s.memory.clear (s.resolve name)))
  | .get name => (.found (s.ledger.find? (s.resolve name)), s)
  | .fault faults =>
    let service := { s.stage.service with store := { s.stage.service.store with faults } }
    (.silent, { s with stage := { s.stage with service } })
  | .readOnly on => (.silent, s.onMemory { s.memory with readOnly := on })
  | .hold name =>
    let (taken, s) := s.hold name
    (.told taken, s)
  | .unhold name =>
    let (given, s) := s.unhold name
    (.told given, s)
  | .pace => (.pace s.stage.setup.pace, s)
  | .health =>
    let (h, s) := s.health
    (.health h, s)
  | .http r =>
    let (response, s) := s.http r
    (.http response (Http.requestId r freshId), s)

/-- One step, after which all tasks that can go on have done so. What was sent to the
    gateway before is forgotten. -/
def step (s : Scenario) (a : Step) : Reply × Scenario :=
  let (reply, s) := { s with stage := { s.stage with sent := [] } }.act a
  (reply, { s with stage := s.stage.quiesce }.remember)

/-! ### What was sent -/

/-- How many seconds may lie between two looks at the calendar. -/
def slack : Nat := 5

/-- Whether the times of an initiation are right: issued when it was sent, by the
    gateway's clock, and open for a day. -/
def timesOk (c : CallSettings) (wall : Int) (issuedAt expiresAt : String) : Bool :=
  let sentAt := wall / 1000000 + Calendar.offsetSeconds c.utcOffsetMinutes
  match Calendar.readStamp? issuedAt, Calendar.readStamp? expiresAt with
  | some issued, some expires =>
    (sentAt - issued).natAbs ≤ slack && expires = issued + Calendar.requestLifetime
  | _, _ => false

/-- The start of a text without its random ending, if it has one. -/
def withoutEnding? (s : String) : Option (List Char) :=
  let cs := s.toList
  let n := cs.length - Reference.endingLength
  if (cs.drop n).all Reference.alphabet.contains && (cs.drop n).length = Reference.endingLength then
    some (cs.take n)
  else none

/-- Whether the references of an initiation are right: one with the second in which it
    was sent, one with the date of its issue. -/
def referencesOk (wall : Int) (issuedAt bill reference : String) : Bool :=
  let unix := (wall / 1000000).toNat
  let billOk := match withoutEnding? bill with
    | some cs =>
      cs.take 4 = "BILL".toList &&
        ((readDigits? (cs.drop 4)).map fun n => unix - n ≤ slack && n ≤ unix).getD false
    | none => false
  let referenceOk := withoutEnding? reference = some ("GIKITU".toList ++ issuedAt.toList.take 8)
  billOk && referenceOk

end Scenario

end TopUp.Rehearsal
