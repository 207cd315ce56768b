import TopUp.Proofs.Gateway.Outcome
import TopUp.Proofs.Service.Learning

/-! # Where a settled status comes from

    A service that reads the gateway's answers with its client stores that a
    transaction was paid only after a signed payload about it has said so, and that it
    failed only after a signed payload has said so or the transaction was given up: as
    too old when its call inquired, or by its poll loop at the deadline.

    No delivery and no posted field map is excluded: what is not signed, or is signed
    and about another transaction, has no effect on a stored status.
-/

namespace TopUp

open TopUp.Data TopUp.Gateway TopUp.Store

/-- The response code that the answer to an exchange comes down to. -/
def Exchange.effectiveCode (members : List (String × Json)) : Exchange → String
  | .wallet _ => walletCode members
  | .inquiry _ => inquiryCode members

namespace Service

/-- Answers as a client reads them. -/
def reader (c : Client) : Reader Delivery
  | .wallet _, d => c.submitWallet d
  | .inquiry reference, d => c.inquire reference d

/-- A signed payload about the transaction of a reference, with its effective response code,
    came in the course of a trace. -/
inductive Reported (u : Setup) (tr : List (Service × Action Delivery)) (r code : String) :
    Prop where
  /-- The gateway answered an exchange about it. -/
  | answer {s : Service} {m : Moment} {t : Task} {d : Delivery} {x : Exchange}
      {members : List (String × Json)} (hmem : (s, .reply m t d) ∈ tr)
      (hx : s.exchange? t = some x) (href : x.reference = r) (hbrings : u.client.Brings d members)
      (hcode : x.effectiveCode members = code) : Reported u tr r code
  /-- The card page posted fields about it. -/
  | report {s : Service} {posted : FieldMap} (hmem : (s, .arrive (.cardReport posted)) ∈ tr)
      (href : postedText "pp_TxnRefNo" posted = r)
      (hverify : u.client.signer.verifyFields posted = .ok ())
      (hcode : postedText "pp_ResponseCode" posted = code) : Reported u tr r code

/-- The transaction of a reference was given up in the course of a trace. -/
inductive GivenUp (u : Setup) (tr : List (Service × Action Delivery)) (r : String) : Prop where
  /-- The inquiry of a call was answered when the stored transaction was too old. -/
  | reconciled {s : Service} {m : Moment} {n : Nat} {d : Delivery}
      {members : List (String × Json)} {row : Transaction}
      (hmem : (s, .reply m (.call n) d) ∈ tr) (hx : s.exchange? (.call n) = some (.inquiry r))
      (hbrings : u.client.Brings d members) (hrow : s.ledger.find? r = some row)
      (hage : (u.calls.reconcileSeconds * 1000000 : Int) < m.wall - row.createdAt) :
      GivenUp u tr r
  /-- A poll loop took its turn when its deadline had come. -/
  | expired {s : Service} {m : Moment} {n : Nat} {x : Poll.Loop}
      (hmem : (s, .turn m (.loop n)) ∈ tr) (hloop : s.supervisor.loops.find? n = some x)
      (href : x.reference = r) (hwaiting : x.phase = .waiting) (hdue : x.deadline ≤ m.now) :
      GivenUp u tr r

variable {u : Setup} {s : Service} {tr : List (Service × Action Delivery)} {r : String}
  {status : Status} {t : Transaction}

theorem brings_of_reader {c : Client} {x : Exchange} {d : Delivery} {o : Outcome}
    (h : reader c x d = .ok o) :
    ∃ members, c.Brings d members ∧
      o.status = ResponseCode.classify (x.effectiveCode members) := by
  cases x with
  | wallet request => exact Client.brings_of_submitWallet h
  | inquiry reference => exact Client.brings_of_inquire h

theorem age_of_isTooOld {c : CallSettings} {wall : Int}
    (h : Initiation.isTooOld c wall t = true) :
    (c.reconcileSeconds * 1000000 : Int) < wall - t.createdAt := by
  have hlt : c.reconcileSeconds * 1000000 < (wall - t.createdAt).toNat := by
    simpa [Initiation.isTooOld] using h
  omega

/-- What was learned was read from a signed payload, or is the end of a transaction that was
    given up. -/
theorem reported_of_learns {a : Action Delivery} (hmem : (s, a) ∈ tr)
    (h : Learns u (reader u.client) s a r status) :
    (∃ code, Reported u tr r code ∧ Text.trim code = code ∧
      status = ResponseCode.classify code) ∨
    status = .failed ∧ GivenUp u tr r := by
  cases h with
  | @answer m t d x o hx ho =>
    obtain ⟨members, hbrings, hstatus⟩ := brings_of_reader ho
    refine Or.inl ⟨x.effectiveCode members, .answer hmem hx rfl hbrings rfl, ?_, hstatus⟩
    cases x with
    | wallet request => exact trim_walletCode members
    | inquiry reference => exact trim_inquiryCode members
  | @report posted c hc =>
    obtain ⟨hverify, href, hstatus⟩ := Client.cardReturn_eq_ok hc
    exact Or.inl ⟨_, .report hmem href.symm hverify rfl, trim_postedText _ _, hstatus⟩
  | tooOld hx ho _ hrow hold =>
    obtain ⟨members, hbrings, -⟩ := brings_of_reader ho
    exact Or.inr ⟨rfl, .reconciled hmem hx hbrings hrow (age_of_isTooOld hold)⟩
  | deadline hloop hwaiting hdue => exact Or.inr ⟨rfl, .expired hmem hloop rfl hwaiting hdue⟩

/-- Whatever the interleaving, whatever the gateway delivers and whatever is posted: a stored
    transaction is paid only if a signed payload about it had a code of a paid transaction,
    and failed only if one had a code of a failed transaction or the transaction was given
    up. -/
theorem settled_status_founded (h : Run (act u (reader u.client)) (atRest u) tr s)
    (hrefs : ((made u tr).map Transaction.reference).Nodup) (hrow : s.ledger.find? r = some t) :
    (t.status = .success → ∃ code ∈ ["000", "121", "200"], Reported u tr r code) ∧
    (t.status = .failed →
      (∃ code, Reported u tr r code ∧ ResponseCode.classify code = .failed) ∨
        GivenUp u tr r) := by
  have hlearned : Learned u (reader u.client) tr r t.status := learned_of_run h hrefs hrow
  constructor
  · intro hsuccess
    rw [hsuccess] at hlearned
    rcases hlearned with hpending | ⟨e, he, hlearns⟩
    · exact absurd hpending (by decide)
    · rcases reported_of_learns he hlearns with ⟨code, hreported, htrim, hclass⟩ | ⟨hfailed, -⟩
      · -- the code is read without blanks, so it is in the list itself
        have hcode : code ∈ ResponseCode.successCodes :=
          (ResponseCode.classify_eq_success htrim).mp hclass.symm
        exact ⟨code, hcode, hreported⟩
      · exact absurd hfailed (by decide)
  · intro hfailed
    rw [hfailed] at hlearned
    rcases hlearned with hpending | ⟨e, he, hlearns⟩
    · exact absurd hpending (by decide)
    · rcases reported_of_learns he hlearns with ⟨code, hreported, -, hclass⟩ | ⟨-, hgivenUp⟩
      · exact Or.inl ⟨code, hreported, hclass.symm⟩
      · exact Or.inr hgivenUp

/-- An answer with a code of a paid transaction, signed for the merchant `plain`. -/
def signedAnswer : Answer :=
  { status := 200
    body := "\x7b\"pp_ResponseCode\":\"000\",\"pp_SecureHash\":" ++
      "\"489584CB5F079D5706A3E16A9E6041B3AAC5FBED410EBF63F282106EE44DE20C\"\x7d" }

/-- Somebody asks to pay by card, under the key of a number. -/
def cardDemand (key : Nat) : Demand :=
  .topUp .nil
    { key := .ofNat key
      amount := 50000
      method := .card
      phoneNumber := none
      nationalId := none }

/-- One customer pays by wallet, with a signed answer. Another one is sent to the card page
    and never comes back, until a poll loop gives the payment up. -/
def settling : List (Action Delivery) :=
  .arrive (walletDemand 1) :: List.replicate 5 (.turn (moment 7) (.call 0)) ++
    .reply (moment 7) (.call 0) (.answered signedAnswer) ::
      List.replicate 2 (.turn (moment 7) (.call 0)) ++
    .arrive (cardDemand 2) :: List.replicate 6 (.turn (moment 8) (.call 1)) ++
    .arrive (.attend "GIKITU20250101JJJ") :: List.replicate 3 (.turn (moment 8) (.call 2)) ++
    List.replicate 2 (.turn (moment 8) (.loop 0)) ++
      List.replicate 2 (.turn (moment 200000) (.loop 0))

/-- The first payment has succeeded and the second one has failed, each with a reason. -/
theorem settling_founded :
    let run := Run.play (act plain (reader plain.client)) settling (atRest plain)
    ((run.2.ledger.find? "GIKITU20250101HHH").map Transaction.status = some .success ∧
      ∃ code ∈ ["000", "121", "200"], Reported plain run.1 "GIKITU20250101HHH" code) ∧
    (run.2.ledger.find? "GIKITU20250101JJJ").map Transaction.status = some .failed ∧
      ((∃ code, Reported plain run.1 "GIKITU20250101JJJ" code ∧
          ResponseCode.classify code = .failed) ∨
        GivenUp plain run.1 "GIKITU20250101JJJ") := by
  intro run
  have hrun : Run (act plain (reader plain.client)) _ run.1 run.2 := Run.of_play settling _
  -- the run is played once, for all that is needed of it
  have hplay : ((made plain run.1).map Transaction.reference).Nodup ∧
      (run.2.ledger.find? "GIKITU20250101HHH").map Transaction.status = some .success ∧
      (run.2.ledger.find? "GIKITU20250101JJJ").map Transaction.status = some .failed := by
    decide +kernel
  obtain ⟨hrefs, hpaid, hfailed⟩ := hplay
  obtain ⟨t, ht, hstatus⟩ := Option.map_eq_some_iff.mp hpaid
  obtain ⟨t', ht', hstatus'⟩ := Option.map_eq_some_iff.mp hfailed
  exact ⟨⟨hpaid, (settled_status_founded hrun hrefs ht).1 hstatus⟩,
    hfailed, (settled_status_founded hrun hrefs ht').2 hstatus'⟩

end Service

end TopUp
