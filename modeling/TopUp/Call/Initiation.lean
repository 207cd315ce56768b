import TopUp.Call.Request
import TopUp.Gateway.Exchange
import TopUp.Payment.Reference
import TopUp.Poll.Supervisor

/-! # Initiating a top-up

    An initiation turns a request into exactly one transaction. All its reads and
    writes happen in one unit of work on the request's idempotency key, so of several
    calls with one key the later ones find the transaction of the first. A call that
    finds an open transaction does not pay again: it inquires once, writes what it
    learns, and fails the transaction if it has been open for too long.

    A unit of work is committed after the gateway has answered. Whatever fails before
    leaves no trace in the store. If the store fails after the gateway took a
    payment, the caller is told so and must not try again.

    An initiation is a state machine; `Initiation.step` is one uninterrupted stretch
    of it. What the world outside decides comes with each step as a `Moment`.
-/

namespace TopUp

open TopUp.Gateway TopUp.Store

/-- What the world outside gives to a step. -/
structure Moment where
  /-- The time of timers, in milliseconds. -/
  now : Nat
  /-- The time, in microseconds since 1970. -/
  wall : Int
  /-- A new identifier. -/
  id : Uuid
  /-- A random ending for a bill reference. -/
  billEnding : String
  /-- A random ending for a transaction reference. -/
  referenceEnding : String

/-- The settings of payment calls. -/
structure CallSettings where
  /-- What customers see of a payment. -/
  description : String := "Wallet Top Up"
  /-- The age in seconds up to which a transaction may stay open. -/
  reconcileSeconds : Nat := 120
  /-- The gateway's time zone, in minutes east of UTC. -/
  utcOffsetMinutes : Int32 := 300
  deriving DecidableEq

namespace Initiation

/-- An open unit of work: its lock and its writes. -/
structure Work where
  lock : Nat
  draft : Draft
  deriving DecidableEq

/-- Where an initiation stands. -/
inductive Phase where
  /-- The request is valid; the lock of its key is to be looked up. -/
  | opening
  /-- The lock was looked up and is to be asked for. -/
  | entering (lock : Nat)
  /-- The lock was asked for. -/
  | queued (lock : Nat)
  /-- The transaction of the key is to be read. -/
  | reading (w : Work)
  /-- An open transaction was found; its inquiry runs. -/
  | inquiring (w : Work) (t : Transaction)
  /-- A terminal status is to be written on the transaction that was found. -/
  | amending (w : Work) (t : Transaction) (status : Status) (message : String)
  /-- The write was refused; the transaction is to be read again. -/
  | rereading (w : Work) (t : Transaction) (message : String)
  /-- A transaction is to be made. -/
  | creating (w : Work)
  /-- The card page has declined the payment; the unit of work is to be dropped. -/
  | declined (w : Work) (cause : Gateway.Failure)
  /-- The wallet debit runs. -/
  | submitting (w : Work) (t : Transaction) (request : WalletRequest)
  /-- The outcome of the debit is to be written. -/
  | recording (w : Work) (t : Transaction) (status : Status) (message : String)
  /-- The unit of work is to be committed; then the receipt is given out, and a poll
      loop is started for the reference, if one is named. A debit may have been
      taken for the transaction that was made, if one is named. -/
  | committing (w : Work) (receipt : Receipt) (attend : Option String) (paid : Option String)
  /-- A poll loop is being started. -/
  | attending (receipt : Receipt) (reference : String) (start : Poll.Start)
  /-- The call is over. -/
  | done (result : Except Call.Failure Receipt)

end Initiation

/-- A call that initiates a top-up. -/
structure Initiation where
  user : Uuid
  request : Request
  wallet : Option Wallet
  phase : Initiation.Phase

namespace Initiation

/-- A call at its start: an invalid request ends it at once. -/
def ofRequest (user : Uuid) (request : Request) : Initiation :=
  match request.validate with
  | .ok wallet => { user, request, wallet, phase := .opening }
  | .error cause => { user, request, wallet := none, phase := .done (.error (.gateway cause)) }

/-- What a step changes besides the call itself. -/
structure Scene where
  store : Store
  supervisor : Poll.Supervisor

/-- Ends a call that holds a lock: its unit of work is dropped. -/
def abandon (me : Nat) (s : Scene) (w : Work) (cause : Call.Failure) : Scene × Phase :=
  ({ s with store := s.store.leaveLock w.lock me }, .done (.error cause))

/-- The age of a transaction exceeds the limit. One from the future has no age. -/
def isTooOld (c : CallSettings) (wall : Int) (t : Transaction) : Bool :=
  (c.reconcileSeconds * 1000000 : Nat) < (wall - t.createdAt).toNat

/-- After an inquiry about an open transaction. -/
def afterInquiry (c : CallSettings) (wall : Int) (w : Work) (t : Transaction) (o : Outcome) :
    Phase :=
  if o.status.isTerminal then .amending w t o.status o.message
  else if isTooOld c wall t then .amending w t .failed Receipt.tooLate
  else
    .committing w (.ofTransaction t .pending o.message)
      (if t.method = .wallet then some t.reference else none) none

/-- The transaction that a request is stored as. -/
def newTransaction (c : CallSettings) (m : Moment) (i : Initiation) : NewTransaction :=
  let unix := m.wall / 1000000
  { user := i.user
    key := i.request.key
    billReference := Reference.bill unix m.billEnding
    reference := Reference.transaction unix c.utcOffsetMinutes m.referenceEnding
    method := i.request.method
    amount := i.request.amount }

/-- After a transaction was made. -/
def afterCreation (c : CallSettings) (page : CardPage) (wall : Int) (wallet : Option Wallet)
    (w : Work) (t : Transaction) : Phase :=
  let (issuedAt, expiresAt) := Calendar.requestStamps (wall / 1000000) c.utcOffsetMinutes
  match wallet with
  | some known =>
    .submitting w t
      { amount := t.amount
        billReference := t.billReference
        reference := t.reference
        description := c.description
        mobileNumber := known.mobileNumber
        nationalId := known.nationalId
        issuedAt, expiresAt }
  | none =>
    match page
      { amount := t.amount
        billReference := t.billReference
        reference := t.reference
        description := c.description
        issuedAt, expiresAt } with
    | .ok redirect =>
      .committing w
        { Receipt.ofTransaction t .pending Receipt.goOnByCard with redirect := some redirect }
        none none
    | .error cause => .declined w cause

/-- After the outcome of a debit was written, or needed no writing. -/
def afterDebit (w : Work) (t : Transaction) (status : Status) (message : String) : Phase :=
  .committing w (.ofTransaction t status message)
    (if status.isTerminal then none else some t.reference) (some t.reference)

/-- One step of the call of the given number. -/
def step (c : CallSettings) (page : CardPage) (m : Moment) (me : Nat) (e : Event) (s : Scene)
    (i : Initiation) : Option (Scene × Phase) :=
  match i.phase, e with
  | .opening, .turn =>
    match s.store.lookupLock i.request.key me with
    | .ok (lock, store) => some ({ s with store }, .entering lock)
    | .error cause => some (s, .done (.error (.store cause)))
  | .entering lock, .turn =>
    some ({ s with store := s.store.askLock lock me }, .queued lock)
  | .queued lock, .turn =>
    if s.store.holdsLock lock me then some (s, .reading ⟨lock, {}⟩) else none
  | .reading w, .turn =>
    match s.store.readDraft w.draft i.request.key with
    | .ok (some t) =>
      if t.status.isTerminal then some (s, .committing w (.settled t) none none)
      else some (s, .inquiring w t)
    | .ok none => some (s, .creating w)
    | .error cause => some (abandon me s w (.store cause))
  | .inquiring w t, .answer result =>
    match result with
    | .ok o => some (s, afterInquiry c m.wall w t o)
    | .error cause => some (abandon me s w (.gateway cause))
  | .amending w t status message, .turn =>
    match s.store.updateDraft w.draft t.reference status with
    | .ok (true, draft) =>
      some (s, .committing { w with draft } (.ofTransaction t status message) none none)
    -- the transaction has settled elsewhere: what is stored counts
    | .ok (false, draft) => some (s, .rereading { w with draft } t message)
    | .error cause => some (abandon me s w (.store cause))
  | .rereading w t message, .turn =>
    match s.store.get t.reference with
    | .ok (some current) => some (s, .committing w (.stored current message) none none)
    | .ok none =>
      some (abandon me s w (.store (.missing "gateway_transaction" t.reference)))
    | .error cause => some (abandon me s w (.store cause))
  | .creating w, .turn =>
    match s.store.createDraft w.draft (newTransaction c m i) m.id m.wall with
    | .ok (t, draft) => some (s, afterCreation c page m.wall i.wallet { w with draft } t)
    | .error cause => some (abandon me s w (.store cause))
  | .declined w cause, .turn => some (abandon me s w (.gateway cause))
  | .submitting w t _, .answer result =>
    match result with
    | .ok o =>
      -- the draft is pending already
      if o.status = .pending then some (s, afterDebit w t o.status o.message)
      else some (s, .recording w t o.status o.message)
    | .error cause => some (abandon me s w (.gateway cause))
  | .recording w t status message, .turn =>
    match s.store.updateDraft w.draft t.reference status with
    | .ok (_, draft) => some (s, afterDebit { w with draft } t status message)
    | .error cause => some (abandon me s w (.unrecorded t.reference cause))
  | .committing w receipt attend paid, .turn =>
    match s.store.commitDraft w.draft with
    | .ok store =>
      some ({ s with store := store.leaveLock w.lock me },
        match attend with
        | some reference => .attending receipt reference .checking
        | none => .done (.ok receipt))
    | .error cause =>
      -- a debit that was taken and is not recorded must not look harmless
      some (abandon me s w (match paid with
        | some reference => .unrecorded reference cause
        | none => .store cause))
  | .attending receipt reference start, .turn =>
    match start with
    | .done _ => some (s, .done (.ok receipt))
    | start => (start.step reference s.supervisor s.store).map fun (supervisor, store, start) =>
      ({ supervisor, store }, .attending receipt reference start)
  | _, _ => none

/-- The answer of a call that is over. -/
def result? (i : Initiation) : Option (Except Call.Failure Receipt) :=
  match i.phase with
  | .done r => some r
  | _ => none

end Initiation

end TopUp
