import TopUp.Gateway.Exchange
import TopUp.Proofs.Gateway.Signature
import TopUp.Proofs.Json.Objects
import TopUp.Proofs.Text.Blank

/-! # Where an outcome comes from

    An outcome is read from a payload only if the signature of the payload is right,
    and its status is that of the effective code of the payload. The codes that are
    read have no blanks at their ends, so a code stands for a success exactly if it is
    in the list of those that do.

    If no outcome is read, the message may be sent again exactly if its answer was lost
    (`Delivery.Lost`); what is wrong with an answer that came is for good.
-/

namespace TopUp

open TopUp.Data TopUp.Text

namespace ResponseCode

theorem classify_eq_success {code : String} (htrim : trim code = code) :
    classify code = .success ↔ code ∈ successCodes := by
  unfold classify
  rw [htrim]
  by_cases hsuccess : code ∈ successCodes
  · simp [hsuccess]
  · -- no other list stands for a success
    simp only [List.contains_eq_mem, hsuccess, decide_false, Bool.false_eq_true, if_false,
      iff_false]
    split
    · decide
    · split <;> decide

end ResponseCode

namespace Gateway

variable {c : Client} {d : Delivery} {members : List (String × Json)} {o : Outcome}

/-! ### Effective codes -/

/-- The code that the answer to a wallet debit comes down to. -/
def walletCode (members : List (String × Json)) : String :=
  (memberText? "pp_ResponseCode" members).getD ""

/-- The code that the answer to an inquiry comes down to. -/
def inquiryCode (members : List (String × Json)) : String :=
  (memberText? "pp_PaymentResponseCode" members).getD (walletCode members)

theorem trim_of_memberText? {name text : String} (h : memberText? name members = some text) :
    trim text = text := by
  obtain ⟨hmap, -⟩ := Option.filter_eq_some_iff.mp h
  obtain ⟨v, -, rfl⟩ := Option.map_eq_some_iff.mp hmap
  exact trim_trim _

theorem trim_walletCode (members : List (String × Json)) :
    trim (walletCode members) = walletCode members := by
  unfold walletCode
  cases h : memberText? "pp_ResponseCode" members with
  | none => decide
  | some text => exact trim_of_memberText? h

theorem trim_inquiryCode (members : List (String × Json)) :
    trim (inquiryCode members) = inquiryCode members := by
  unfold inquiryCode
  cases h : memberText? "pp_PaymentResponseCode" members with
  | none => exact trim_walletCode members
  | some text => exact trim_of_memberText? h

theorem trim_postedText (name : String) (posted : FieldMap) :
    trim (postedText name posted) = postedText name posted := trim_trim _

theorem walletOutcome_status (members : List (String × Json)) :
    (walletOutcome members).status = ResponseCode.classify (walletCode members) := by
  simp only [walletOutcome, walletCode]

theorem inquiryOutcome_status (members : List (String × Json)) :
    (inquiryOutcome members).status = ResponseCode.classify (inquiryCode members) := by
  simp only [inquiryOutcome, inquiryCode, walletCode]

/-! ### Answers -/

/-- A delivery brings an answer of status 200 whose text is a JSON object of these members,
    signed with the salt of the client. -/
def Client.Brings (c : Client) (d : Delivery) (members : List (String × Json)) : Prop :=
  ∃ a, d = .answered a ∧ a.status = 200 ∧ Json.parse a.text = .ok (.object members) ∧
    c.signer.verify members = .ok ()

/-- Nothing but a signed answer is read. -/
theorem Client.brings_of_exchange (h : c.exchange d = .ok members) : c.Brings d members := by
  simp only [exchange, bind_eq_ok, pure_eq_ok] at h
  obtain ⟨received, hreceive, ⟨⟩, hverify, rfl⟩ := h
  cases d with
  | answered a =>
    simp only [receive, readAnswer] at hreceive
    split at hreceive
    · exact absurd hreceive (by simp)
    · next hstatus =>
      split at hreceive
      · next hparse =>
        obtain rfl := Except.ok.inj hreceive
        exact ⟨a, rfl, by simpa using hstatus, hparse, hverify⟩
      · exact absurd hreceive (by simp)
      · exact absurd hreceive (by simp)
  | broken => exact absurd hreceive (by simp [receive])
  | silent => exact absurd hreceive (by simp [receive])

/-- An answer of status 200 that is an object counts as far as its signature is right. -/
theorem Client.exchange_answered {a : Answer} (hstatus : a.status = 200)
    (hparse : Json.parse a.text = .ok (.object members)) :
    c.exchange (.answered a) = (c.signer.verify members).map fun _ => members := by
  have hread : readAnswer providerName a = .ok members := by
    simp [readAnswer, hstatus, hparse]
  simp only [exchange, receive, hread, Bind.bind, Except.bind]
  cases c.signer.verify members <;> rfl

/-- The status of a wallet debit is that of a signed answer. -/
theorem Client.brings_of_submitWallet (h : c.submitWallet d = .ok o) :
    ∃ members, c.Brings d members ∧ o.status = ResponseCode.classify (walletCode members) := by
  obtain ⟨members, hexchange, rfl⟩ := map_eq_ok.mp h
  exact ⟨members, brings_of_exchange hexchange, walletOutcome_status members⟩

/-- The status of an inquiry is that of a signed answer. -/
theorem Client.brings_of_inquire {reference : String} (h : c.inquire reference d = .ok o) :
    ∃ members, c.Brings d members ∧ o.status = ResponseCode.classify (inquiryCode members) := by
  simp only [inquire, inquireOver, bind_eq_ok, map_eq_ok] at h
  obtain ⟨-, -, members, hexchange, rfl⟩ := h
  exact ⟨members, brings_of_exchange hexchange, inquiryOutcome_status members⟩

/-! ### Lost answers -/

/-- The answer to a message is lost: the connection failed or broke, no answer came in time,
    or what answered is not in order itself. -/
def Delivery.Lost : Delivery → Prop
  | .answered a => 500 ≤ a.status ∧ a.status < 600
  | .broken | .silent => True

instance : DecidablePred Delivery.Lost := fun d => by
  unfold Delivery.Lost
  split <;> infer_instance

theorem Signer.verify_eq_error {s : Signer} {f : Failure} (h : s.verify members = .error f) :
    f.retryable = false := by
  obtain ⟨text, rfl⟩ := unverified_of_verify h
  rfl

/-- What is read was not lost. -/
theorem not_lost_of_receive {provider : String} {seconds : Nat}
    (h : receive provider seconds d = .ok members) : ¬ d.Lost := by
  cases d with
  | answered a =>
    simp only [receive, readAnswer] at h
    split at h
    · exact absurd h (by simp)
    · next hstatus =>
      simp only [Delivery.Lost]
      omega
  | broken => exact absurd h (by simp [receive])
  | silent => exact absurd h (by simp [receive])

/-- Of what is not read the lost may be asked for again. -/
theorem retryable_of_receive {provider : String} {seconds : Nat} {f : Failure}
    (h : receive provider seconds d = .error f) : f.retryable = true ↔ d.Lost := by
  cases d with
  | answered a =>
    simp only [receive, readAnswer] at h
    split at h
    · obtain rfl := Except.error.inj h
      simp [Failure.retryable, Delivery.Lost]
    · next hstatus =>
      have hkept : ¬ Delivery.Lost (.answered a) := by
        simp only [Delivery.Lost]
        omega
      split at h
      · exact absurd h (by simp)
      · obtain rfl := Except.error.inj h
        simpa [Failure.retryable] using hkept
      · obtain rfl := Except.error.inj h
        simpa [Failure.retryable] using hkept
  | broken =>
    obtain rfl := Except.error.inj h
    simp [Failure.retryable, Delivery.Lost]
  | silent =>
    obtain rfl := Except.error.inj h
    simp [Failure.retryable, Delivery.Lost]

/-- A debit without an outcome may be submitted again exactly if its answer was lost. -/
theorem Client.retryable_of_submitWallet {f : Failure} (h : c.submitWallet d = .error f) :
    f.retryable = true ↔ d.Lost := by
  have hexchange : c.exchange d = .error f := map_eq_error.mp h
  rcases bind_eq_error.mp hexchange with hreceive | ⟨members, hreceive, hrest⟩
  · exact retryable_of_receive hreceive
  · -- the answer came, but its signature is not right
    have hverify : c.signer.verify members = .error f := by
      rcases bind_eq_error.mp hrest with hverify | ⟨-, -, hpure⟩
      · exact hverify
      · exact absurd hpure (by simp [pure, Except.pure])
    simp [Signer.verify_eq_error hverify, not_lost_of_receive hreceive]

/-- A debit with an outcome has an answer. -/
theorem Client.not_lost_of_submitWallet (h : c.submitWallet d = .ok o) : ¬ d.Lost := by
  obtain ⟨members, hexchange, -⟩ := map_eq_ok.mp h
  obtain ⟨received, hreceive, -⟩ := bind_eq_ok.mp hexchange
  exact not_lost_of_receive hreceive

/-! ### The card page -/

/-- A card return is read from signed fields. -/
theorem Client.cardReturn_eq_ok {posted : FieldMap} {r : CardReturn}
    (h : c.cardReturn posted = .ok r) :
    c.signer.verifyFields posted = .ok () ∧ r.reference = postedText "pp_TxnRefNo" posted ∧
      r.status = ResponseCode.classify (postedText "pp_ResponseCode" posted) := by
  simp only [cardReturn, readCardReturn, bind_eq_ok] at h
  obtain ⟨⟨⟩, hverify, h⟩ := h
  split at h
  · obtain ⟨_, hthrow, -⟩ := bind_eq_ok.mp h
    exact absurd hthrow throw_ne_ok
  · obtain rfl := pure_eq_ok.mp h
    refine ⟨hverify, ?_, ?_⟩
    · dsimp only
    · dsimp only

/-- A card return is refused if its signature is, or if it names no transaction. -/
theorem Client.cardReturn_eq_error {posted : FieldMap} :
    (∃ f, c.cardReturn posted = .error f) ↔
      c.signer.verifyFields posted ≠ .ok () ∨ postedText "pp_TxnRefNo" posted = "" := by
  unfold cardReturn readCardReturn
  cases hverify : c.signer.verifyFields posted with
  | error f => simp [Bind.bind, Except.bind]
  | ok _ =>
    by_cases hempty : postedText "pp_TxnRefNo" posted = ""
    · simp [hempty, Bind.bind, Except.bind, throw, throwThe, MonadExceptOf.throw]
    · simp [hempty, Bind.bind, Except.bind, pure, Except.pure]

end Gateway

end TopUp
