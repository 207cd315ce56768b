import TopUp.Call.Initiation

/-! # What the hosted card page reports

    The fields that the card page posts are checked before the store is touched. A
    verified outcome is written unless the transaction has settled; a settled
    transaction is reported as it is stored.
-/

namespace TopUp

open TopUp.Gateway TopUp.Store

namespace CardCallback

/-- Where a callback stands. -/
inductive Phase where
  /-- The transaction is to be read. -/
  | reading (r : CardReturn)
  /-- The outcome is to be written. -/
  | writing (t : Transaction) (status : Status) (message : String)
  /-- The write was refused; the transaction is to be read again. -/
  | rereading (reference message : String)
  /-- The call is over. -/
  | done (result : Except Call.Failure Receipt)

/-- A call at its start: fields that cannot be trusted end it at once. -/
def ofPosted (client : Client) (posted : Data.FieldMap) : Phase :=
  match client.cardReturn posted with
  | .ok r => .reading r
  | .error cause => .done (.error (.gateway cause))

/-- The message of a report: the gateway's own, or that of its code. -/
def message (r : CardReturn) : String :=
  if r.responseMessage.isEmpty then ResponseCode.userMessage r.responseCode
  else r.responseMessage

/-- The failure of a call about a transaction that is not stored. -/
def unknownReference (reference : String) : Call.Failure :=
  .store (.missing "gateway_transaction" reference)

/-- One step of a call. -/
def step (s : Store) : Phase → Option (Store × Phase)
  | .reading r =>
    match s.get r.reference with
    | .ok (some t) =>
      if t.status.isTerminal then some (s, .done (.ok (.settled t)))
      else if r.status = .pending then
        some (s, .done (.ok (.ofTransaction t r.status (message r))))
      else some (s, .writing t r.status (message r))
    | .ok none => some (s, .done (.error (unknownReference r.reference)))
    | .error cause => some (s, .done (.error (.store cause)))
  | .writing t status message =>
    match s.update t.reference status with
    | .ok (true, s) => some (s, .done (.ok (.ofTransaction t status message)))
    | .ok (false, s) => some (s, .rereading t.reference message)
    | .error cause => some (s, .done (.error (.store cause)))
  | .rereading reference message =>
    match s.get reference with
    | .ok (some current) => some (s, .done (.ok (.stored current message)))
    | .ok none => some (s, .done (.error (unknownReference reference)))
    | .error cause => some (s, .done (.error (.store cause)))
  | .done _ => none

end CardCallback

end TopUp
