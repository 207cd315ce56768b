import TopUp.Proofs.Gateway.Outcome

/-! # Exchanges fail closed

    An exchange has an outcome in one case only: the answer has status 200, its text is a
    JSON object, and the object is signed. Every other answer fails at the first of these
    checks that it does not pass, and the failure says which one that was. The outcome is
    then read from the very object whose signature was checked.

    This holds of both operations that exchange messages with the gateway over whatever
    network (`Client.Operation`); each posts one message to an address of its own, and what
    becomes of it is all that matters. An inquiry about a blank reference fails before there is
    anything to send.
-/

namespace TopUp.Gateway

open TopUp.Data TopUp.Text

variable {c : Client} {d : Delivery} {a : Answer} {members : List (String × Json)}

/-! ### One exchange -/

namespace Client

/-- What is signed is read. -/
theorem exchange_of_brings (h : c.Brings d members) : c.exchange d = .ok members := by
  obtain ⟨a, rfl, hstatus, hparse, hverify⟩ := h
  rw [exchange_answered hstatus hparse, hverify]
  rfl

theorem exchange_eq_ok : c.exchange d = .ok members ↔ c.Brings d members :=
  ⟨brings_of_exchange, exchange_of_brings⟩

/-- An answer that cannot be read fails the exchange as it is. -/
theorem exchange_of_unread {f : Failure} (h : readAnswer providerName a = .error f) :
    c.exchange (.answered a) = .error f := by
  simp only [exchange, receive, h]
  rfl

/-- An answer of another status than 200 is an error of the gateway under that status, and for
    the time being exactly if the status says that the gateway is not in order. -/
theorem exchange_of_status (hstatus : a.status ≠ 200) :
    ∃ message, c.exchange (.answered a) = .error (.refused providerName message
      (some (decimal a.status)) (decide (500 ≤ a.status ∧ a.status < 600))) := by
  refine ⟨"HTTP " ++ statusText a.status ++ ": " ++ a.text, exchange_of_unread ?_⟩
  rw [readAnswer, if_pos hstatus, Bool.decide_and]

/-- An answer whose text is no object is an error of the gateway for good. -/
theorem exchange_of_text (hstatus : a.status = 200)
    (htext : ∀ members, Json.parse a.text ≠ .ok (.object members)) :
    ∃ message, c.exchange (.answered a) = .error (.refused providerName message none false) := by
  have hread : ∃ message,
      readAnswer providerName a = .error (.refused providerName message none false) := by
    unfold readAnswer
    rw [if_neg (by simpa using hstatus)]
    split
    · next members hparse => exact absurd hparse (htext members)
    · exact ⟨_, rfl⟩
    · exact ⟨_, rfl⟩
  obtain ⟨message, hread⟩ := hread
  exact ⟨message, exchange_of_unread hread⟩

/-- An object that is not signed is not trusted. -/
theorem exchange_of_unsigned (hstatus : a.status = 200)
    (hparse : Json.parse a.text = .ok (.object members))
    (hverify : c.signer.verify members ≠ .ok ()) :
    ∃ message, c.exchange (.answered a) = .error (.unverified message) := by
  rw [exchange_answered hstatus hparse]
  cases h : c.signer.verify members with
  | ok => exact absurd h hverify
  | error f =>
    obtain ⟨message, rfl⟩ := Signer.unverified_of_verify h
    exact ⟨message, rfl⟩

/-! ### The operations -/

/-- An operation that exchanges messages: the message that it posts, what becomes of it over
    each network, and how it reads an object whose signature is right. -/
inductive Operation (c : Client) : Posting → (Network → Except Failure Outcome) →
    (List (String × Json) → Outcome) → Prop where
  /-- A wallet debit. -/
  | debit (r : WalletRequest) :
      Operation c ⟨c.merchant.walletUrl, c.signer.outbound (c.merchant.walletPayload r)⟩
        (c.debitOver · r) walletOutcome
  /-- An inquiry about a reference that is not blank. -/
  | inquiry {reference : String} (h : isBlankText reference = false) :
      Operation c ⟨c.merchant.inquiryUrl, c.signer.outbound (c.merchant.inquiryPayload reference)⟩
        (c.inquireOver · reference) inquiryOutcome

variable {message : Posting} {op : Network → Except Failure Outcome}
  {read : List (String × Json) → Outcome} {net : Network}

/-- An operation is one exchange and nothing else. -/
theorem Operation.eq_map (h : c.Operation message op read) (net : Network) :
    op net = (c.exchange (net message)).map read := by
  cases h with
  | debit => rfl
  | inquiry hreference =>
    simp only [inquireOver, inquiryPosting, inquiryFields, hreference]
    rfl

/-- What fails the exchange fails the operation. -/
theorem Operation.eq_error (h : c.Operation message op read) {f : Failure}
    (hd : c.exchange (net message) = .error f) : op net = .error f := by
  rw [h.eq_map, hd]
  rfl

end Client

/-! ### Reading -/

/-- The text of a member without blanks at its ends; it is empty if there is none. -/
def memberText (name : String) (members : List (String × Json)) : String :=
  trim (((Fields.get? name members).map fieldText).getD "")

theorem getD_memberText? (name : String) (members : List (String × Json)) (other : String) :
    (memberText? name members).getD other =
      if memberText name members = "" then other else memberText name members := by
  unfold memberText? memberText
  cases Fields.get? name members with
  | none =>
    have hempty : trim "" = "" := by decide
    simp [hempty]
  | some v => by_cases hempty : trim (fieldText v) = "" <;> simp [Option.filter, hempty]

theorem walletCode_eq (members : List (String × Json)) :
    walletCode members = memberText "pp_ResponseCode" members := by
  rw [walletCode, getD_memberText?]
  split
  · next hempty => exact hempty.symm
  · rfl

/-- The code of the payment goes before the code of the inquiry, unless it is empty. -/
theorem inquiryCode_eq (members : List (String × Json)) :
    inquiryCode members =
      if memberText "pp_PaymentResponseCode" members = "" then memberText "pp_ResponseCode" members
      else memberText "pp_PaymentResponseCode" members := by
  rw [inquiryCode, getD_memberText?, walletCode_eq]

theorem walletOutcome_message (members : List (String × Json)) :
    (walletOutcome members).message = ResponseCode.userMessage (walletCode members) := by
  simp only [walletOutcome, walletCode]

theorem inquiryOutcome_message (members : List (String × Json)) :
    (inquiryOutcome members).message = ResponseCode.userMessage (inquiryCode members) := by
  simp only [inquiryOutcome, inquiryCode, walletCode]

/-! ### What becomes of an answer -/

/-- There is nothing to send about a blank reference. -/
theorem Client.inquiryPosting_of_blank {reference : String} (h : isBlankText reference = true) :
    c.inquiryPosting reference =
      .error (.invalid "transaction reference is required" (some "txn_ref_no")) := by
  rw [inquiryPosting, inquiryFields, if_pos h]
  rfl

/-- An operation has an outcome exactly if its message is answered with status 200 and a text
    that is a JSON object and signed, and the outcome is then read from that object, an
    inquiry's by the code of the payment if there is one. All other answers fail, each for the
    first of these reasons that applies; a blank reference fails with nothing to send. -/
theorem Client.exchange_fails_closed (c : Client) :
    (∀ message op read, c.Operation message op read →
      (∀ net o, op net = .ok o ↔ ∃ a members, net message = .answered a ∧ a.status = 200 ∧
        Json.parse a.text = .ok (.object members) ∧ c.signer.verify members = .ok () ∧
        o = read members) ∧
      (∀ net a, net message = .answered a → a.status ≠ 200 →
        ∃ text, op net = .error (.refused providerName text
          (some (decimal a.status)) (decide (500 ≤ a.status ∧ a.status < 600)))) ∧
      (∀ net a, net message = .answered a → a.status = 200 →
        (∀ members, Json.parse a.text ≠ .ok (.object members)) →
          ∃ text, op net = .error (.refused providerName text none false)) ∧
      ∀ net a members, net message = .answered a → a.status = 200 →
        Json.parse a.text = .ok (.object members) → c.signer.verify members ≠ .ok () →
          ∃ text, op net = .error (.unverified text)) ∧
    (∀ members, let code := memberText "pp_ResponseCode" members
      (walletOutcome members).status = ResponseCode.classify code ∧
        (walletOutcome members).message = ResponseCode.userMessage code) ∧
    (∀ members, let payment := memberText "pp_PaymentResponseCode" members
      let code := if payment = "" then memberText "pp_ResponseCode" members else payment
      (inquiryOutcome members).status = ResponseCode.classify code ∧
        (inquiryOutcome members).message = ResponseCode.userMessage code) ∧
    ∀ reference, isBlankText reference = true →
      c.inquiryPosting reference =
          .error (.invalid "transaction reference is required" (some "txn_ref_no")) ∧
        ∀ net, c.inquireOver net reference =
          .error (.invalid "transaction reference is required" (some "txn_ref_no")) := by
  refine ⟨?_, ?_, ?_, ?_⟩
  · intro message op read hop
    refine ⟨?_, ?_, ?_, ?_⟩
    · intro net o
      rw [hop.eq_map, map_eq_ok]
      simp only [exchange_eq_ok]
      constructor
      · rintro ⟨members, ⟨a, hanswer, hstatus, hparse, hverify⟩, rfl⟩
        exact ⟨a, members, hanswer, hstatus, hparse, hverify, rfl⟩
      · rintro ⟨a, members, hanswer, hstatus, hparse, hverify, rfl⟩
        exact ⟨members, ⟨a, hanswer, hstatus, hparse, hverify⟩, rfl⟩
    · intro net a hanswer hstatus
      obtain ⟨text, hfail⟩ := exchange_of_status (c := c) hstatus
      exact ⟨text, hop.eq_error (hanswer ▸ hfail)⟩
    · intro net a hanswer hstatus htext
      obtain ⟨text, hfail⟩ := exchange_of_text (c := c) hstatus htext
      exact ⟨text, hop.eq_error (hanswer ▸ hfail)⟩
    · intro net a members hanswer hstatus hparse hverify
      obtain ⟨text, hfail⟩ := exchange_of_unsigned hstatus hparse hverify
      exact ⟨text, hop.eq_error (hanswer ▸ hfail)⟩
  · intro members code
    have hcode : walletCode members = code := walletCode_eq members
    rw [← hcode]
    exact ⟨walletOutcome_status members, walletOutcome_message members⟩
  · intro members payment code
    have hcode : inquiryCode members = code := inquiryCode_eq members
    rw [← hcode]
    exact ⟨inquiryOutcome_status members, inquiryOutcome_message members⟩
  · intro reference hblank
    have hposting := inquiryPosting_of_blank (c := c) hblank
    refine ⟨hposting, ?_⟩
    intro net
    rw [inquireOver, hposting]
    rfl

end TopUp.Gateway
