import TopUp.Proofs.Call.CardCallback
import TopUp.Proofs.Gateway.Exchange
import TopUp.Proofs.Gateway.Outbound
import TopUp.Proofs.Gateway.Signature
import TopUp.Proofs.Run

/-! # What is not signed has no influence

    All that is read from an answer, or from what the card page posts, is read by names that
    are signed, and blanks and missing texts are read as the signature sees them: as nothing.
    So two payloads with the same signature and the same signed part are checked and read
    alike, up to the copy of the payload that is kept. As answers to the message of a debit or
    an inquiry (`Client.Operation`) they come to the same.

    A report of the card page never looks at its copy, so two such reports change the store
    alike and are answered alike, whatever else happens to the store in between.
-/

namespace TopUp

open TopUp.Data TopUp.Text TopUp.Gateway TopUp.Store

namespace Gateway

variable {s : Signer} {c : Client} {members members' : List (String × Json)}
  {posted posted' : FieldMap} {name : String}

/-! ### Reading by signed names -/

/-- A text that is empty counts as none, before it is trimmed and afterwards. -/
theorem filter_map_trim (text : Option String) :
    (text.map trim).filter (fun t => !t.isEmpty) =
      ((text.filter fun t => !t.isEmpty).map trim).filter fun t => !t.isEmpty := by
  cases text with
  | none => rfl
  | some t =>
    by_cases hempty : t = ""
    · subst hempty
      decide
    · simp [Option.filter, hempty]

/-- What is read from an answer by a signed name is read from its signed part. -/
theorem memberText?_eq (hobject : Fields.Ascending members) (hsigned : isSigned name = true) :
    memberText? name members =
      (((signedView (fieldTexts members)).get? name).map trim).filter fun t => !t.isEmpty := by
  have hmap : (Fields.get? name members).map (fun v => trim (fieldText v)) =
      ((fieldTexts members).get? name).map trim := by
    rw [get?_fieldTexts hobject, Option.map_map]
    rfl
  rw [memberText?, hmap, filter_map_trim, get?_signedView, if_pos hsigned]

/-- What is read from posted fields by a signed name is read from their signed part. -/
theorem postedText_eq (posted : FieldMap) (hsigned : isSigned name = true) :
    postedText name posted = trim (((signedView posted).get? name).getD "") := by
  rw [postedText, get?_signedView, if_pos hsigned]
  cases posted.get? name with
  | none => rfl
  | some t => by_cases hempty : t = "" <;> simp [Option.filter, hempty]

theorem memberText?_congr (hobject : Fields.Ascending members)
    (hobject' : Fields.Ascending members')
    (hview : signedView (fieldTexts members) = signedView (fieldTexts members'))
    (hsigned : isSigned name = true) : memberText? name members = memberText? name members' := by
  rw [memberText?_eq hobject hsigned, memberText?_eq hobject' hsigned, hview]

theorem postedText_congr (hview : signedView posted = signedView posted')
    (hsigned : isSigned name = true) : postedText name posted = postedText name posted' := by
  rw [postedText_eq posted hsigned, postedText_eq posted' hsigned, hview]

/-! ### Checking and reading -/

theorem Signer.verify_congr (s : Signer)
    (hhash : Fields.get? hashField members = Fields.get? hashField members')
    (hview : signedView (fieldTexts members) = signedView (fieldTexts members')) :
    s.verify members = s.verify members' := by
  unfold verify
  rw [hhash, s.sign_congr hview]

theorem Signer.verifyFields_congr (s : Signer)
    (hhash : posted.get? hashField = posted'.get? hashField)
    (hview : signedView posted = signedView posted') :
    s.verifyFields posted = s.verifyFields posted' := by
  unfold verifyFields
  rw [hhash, s.sign_congr hview]

theorem walletOutcome_congr (hobject : Fields.Ascending members)
    (hobject' : Fields.Ascending members')
    (hview : signedView (fieldTexts members) = signedView (fieldTexts members')) :
    walletOutcome members = { walletOutcome members' with raw := members } := by
  have hcode : memberText? "pp_ResponseCode" members = memberText? "pp_ResponseCode" members' :=
    memberText?_congr hobject hobject' hview (by decide)
  have hretrieval : memberText? "pp_RetreivalReferenceNo" members =
      memberText? "pp_RetreivalReferenceNo" members' :=
    memberText?_congr hobject hobject' hview (by decide)
  simp only [walletOutcome, hcode, hretrieval]

theorem inquiryOutcome_congr (hobject : Fields.Ascending members)
    (hobject' : Fields.Ascending members')
    (hview : signedView (fieldTexts members) = signedView (fieldTexts members')) :
    inquiryOutcome members = { inquiryOutcome members' with raw := members } := by
  have hcode : memberText? "pp_ResponseCode" members = memberText? "pp_ResponseCode" members' :=
    memberText?_congr hobject hobject' hview (by decide)
  have hpayment : memberText? "pp_PaymentResponseCode" members =
      memberText? "pp_PaymentResponseCode" members' :=
    memberText?_congr hobject hobject' hview (by decide)
  have hretrieval : memberText? "pp_RetreivalReferenceNo" members =
      memberText? "pp_RetreivalReferenceNo" members' :=
    memberText?_congr hobject hobject' hview (by decide)
  simp only [inquiryOutcome, hcode, hpayment, hretrieval]

/-- A delivery carries these members: it is an answer of status 200 whose text is an object
    of them. -/
def Delivery.Carries (d : Delivery) (members : List (String × Json)) : Prop :=
  ∃ a, d = .answered a ∧ a.status = 200 ∧ Json.parse a.text = .ok (.object members)

theorem Delivery.Carries.ascending {d : Delivery} (h : d.Carries members) :
    Fields.Ascending members := by
  obtain ⟨a, -, -, hparse⟩ := h
  exact Json.ascending_of_parse hparse

/-- An answer that is the text of a field map carries its fields. -/
theorem Delivery.carries_render (m : FieldMap) :
    Delivery.Carries (.answered ⟨200, (Json.ofFields m).render⟩)
      (m.toList.map fun e => (e.1, .string e.2)) := by
  -- a text that starts with a brace has no mark in front
  have hmark : withoutMark (Json.ofFields m).render = (Json.ofFields m).render := by
    simp [withoutMark, Json.render, Json.ofFields, Json.toChars]
  refine ⟨_, rfl, rfl, ?_⟩
  rw [Answer.text, if_neg (by simp), hmark, Json.parse_render_ofFields]
  rfl

theorem Client.exchange_of_carries {d : Delivery} (c : Client) (h : d.Carries members) :
    c.exchange d = (c.signer.verify members).map fun _ => members := by
  obtain ⟨a, rfl, hstatus, hparse⟩ := h
  exact exchange_answered hstatus hparse

theorem Client.Operation.read_congr {message : Posting} {op : Network → Except Failure Outcome}
    {read : List (String × Json) → Outcome} (hop : c.Operation message op read)
    (hobject : Fields.Ascending members) (hobject' : Fields.Ascending members')
    (hview : signedView (fieldTexts members) = signedView (fieldTexts members')) :
    read members = { read members' with raw := members } := by
  cases hop with
  | debit => exact walletOutcome_congr hobject hobject' hview
  | inquiry => exact inquiryOutcome_congr hobject hobject' hview

/-- Two objects that answer a message come to the same, up to the copy. -/
theorem Client.Operation.congr {message : Posting} {op : Network → Except Failure Outcome}
    {read : List (String × Json) → Outcome} (hop : c.Operation message op read)
    {net net' : Network} (hcarries : (net message).Carries members)
    (hcarries' : (net' message).Carries members')
    (hhash : Fields.get? hashField members = Fields.get? hashField members')
    (hview : signedView (fieldTexts members) = signedView (fieldTexts members')) :
    op net = (op net').map fun o => { o with raw := members } := by
  rw [hop.eq_map, hop.eq_map, c.exchange_of_carries hcarries, c.exchange_of_carries hcarries',
    c.signer.verify_congr hhash hview]
  cases c.signer.verify members' with
  | error f => rfl
  | ok _ => simp [Except.map, hop.read_congr hcarries.ascending hcarries'.ascending hview]

theorem Client.cardReturn_congr (c : Client)
    (hhash : posted.get? hashField = posted'.get? hashField)
    (hview : signedView posted = signedView posted') :
    c.cardReturn posted = (c.cardReturn posted').map fun r => { r with fields := posted } := by
  have hverify : c.signer.verifyFields posted = c.signer.verifyFields posted' :=
    c.signer.verifyFields_congr hhash hview
  have hread : ∀ name, isSigned name = true → postedText name posted = postedText name posted' :=
    fun _ hsigned => postedText_congr hview hsigned
  -- the four names that a card return is read by are signed
  have hreference := hread "pp_TxnRefNo" (by decide)
  have hcode := hread "pp_ResponseCode" (by decide)
  have hretrieval := hread "pp_RetreivalReferenceNo" (by decide)
  have hmessage := hread "pp_ResponseMessage" (by decide)
  unfold cardReturn readCardReturn
  rw [hverify, hreference, hcode, hretrieval, hmessage]
  cases c.signer.verifyFields posted' with
  | error f => rfl
  | ok _ =>
    by_cases hempty : postedText "pp_TxnRefNo" posted' = ""
    · simp [hempty, Bind.bind, Except.bind, Except.map, throw, throwThe, MonadExceptOf.throw]
    · simp [hempty, Bind.bind, Except.bind, Except.map, pure, Except.pure]

end Gateway

namespace CardCallback

variable {c : Client} {posted posted' : FieldMap} {p q : Phase}

/-! ### Reports without their copy -/

/-- A phase without the copy of what was posted. -/
def Phase.forget : Phase → Phase
  | .reading r => .reading { r with fields := .empty }
  | p => p

/-- The answer of a call that is over. -/
def Phase.answer? : Phase → Option (Except Call.Failure Receipt)
  | .done result => some result
  | _ => none

/-- A step does not look at the copy. -/
theorem step_forget (s : Store) (p : Phase) : step s p.forget = step s p := by
  cases p <;> rfl

theorem answer?_forget (p : Phase) : p.forget.answer? = p.answer? := by
  cases p <;> rfl

theorem forget_ofPosted (hhash : posted.get? hashField = posted'.get? hashField)
    (hview : signedView posted = signedView posted') :
    (ofPosted c posted).forget = (ofPosted c posted').forget := by
  unfold ofPosted
  rw [c.cardReturn_congr hhash hview]
  cases c.cardReturn posted' with
  | error f => rfl
  | ok r => rfl

/-! ### A report among others -/

/-- What happens while a report is under way. -/
inductive Happening where
  /-- The report takes its next step. -/
  | turn
  /-- Somebody else changes the store. -/
  | other (change : Store → Store)

/-- The report and the store, one thing after the other. -/
def act : Happening → Store × Phase → Option (Store × Phase)
  | .turn, (s, p) => step s p
  | .other change, (s, p) => some (change s, p)

/-- Reports that differ in their copy alone do the same to the store, and answer the same. -/
theorem play_congr (happenings : List Happening) (s : Store) (h : p.forget = q.forget) :
    (Run.play act happenings (s, p)).2.1 = (Run.play act happenings (s, q)).2.1 ∧
      (Run.play act happenings (s, p)).2.2.answer? =
        (Run.play act happenings (s, q)).2.2.answer? := by
  induction happenings generalizing s p q with
  | nil =>
    refine ⟨rfl, ?_⟩
    show p.answer? = q.answer?
    rw [← answer?_forget p, h, answer?_forget]
  | cons happening rest ih =>
    cases happening with
    | turn =>
      have hstep : step s p = step s q := by rw [← step_forget s p, h, step_forget]
      simp only [Run.play, act, hstep]
      -- a report that goes on is the same report from then on
      cases step s q with
      | none => exact ih s h
      | some next => exact ⟨rfl, rfl⟩
    | other change => exact ih (change s) h

/-- Two objects with the same signature and the same signed part are checked and read alike,
    up to the copy that is kept, and as answers to a message they come to the same. Two posted
    forms are read alike too, and the reports about them do the same to the store and are
    answered the same, whatever else happens to it. -/
theorem unsigned_fields_have_no_influence (c : Client) :
    (∀ members members', Fields.Ascending members → Fields.Ascending members' →
      Fields.get? hashField members = Fields.get? hashField members' →
      signedView (fieldTexts members) = signedView (fieldTexts members') →
        c.signer.verify members = c.signer.verify members' ∧
        walletOutcome members = { walletOutcome members' with raw := members } ∧
        inquiryOutcome members = { inquiryOutcome members' with raw := members }) ∧
    (∀ message op read, c.Operation message op read → ∀ net net' members members',
      (net message).Carries members → (net' message).Carries members' →
      Fields.get? hashField members = Fields.get? hashField members' →
      signedView (fieldTexts members) = signedView (fieldTexts members') →
        op net = (op net').map fun o => { o with raw := members }) ∧
    ∀ posted posted' : FieldMap, posted.get? hashField = posted'.get? hashField →
      signedView posted = signedView posted' →
        c.cardReturn posted = (c.cardReturn posted').map (fun r => { r with fields := posted }) ∧
        ∀ happenings store,
          (Run.play act happenings (store, ofPosted c posted)).2.1 =
            (Run.play act happenings (store, ofPosted c posted')).2.1 ∧
          (Run.play act happenings (store, ofPosted c posted)).2.2.answer? =
            (Run.play act happenings (store, ofPosted c posted')).2.2.answer? := by
  refine ⟨?_, ?_, ?_⟩
  · intro members members' hobject hobject' hhash hview
    exact ⟨c.signer.verify_congr hhash hview, walletOutcome_congr hobject hobject' hview,
      inquiryOutcome_congr hobject hobject' hview⟩
  · intro message op read hop net net' members members' hcarries hcarries' hhash hview
    exact hop.congr hcarries hcarries' hhash hview
  · intro posted posted' hhash hview
    exact ⟨c.cardReturn_congr hhash hview, fun happenings store =>
      play_congr happenings store (forget_ofPosted hhash hview)⟩

/-- A form with a note that is not signed, an object with a number for a text and a null, and a
    signed answer with the note are read like the ones without. -/
theorem note_and_null_have_no_influence :
    let c : Client := ⟨{}, .standard "salt"⟩
    let posted := c.signer.outbound (.ofList [("pp_ResponseCode", "000"), ("pp_TxnRefNo", "T1")])
    let noted := posted.insert "note" "thank you"
    let answered : List (String × Json) := [("note", .null), ("pp_ResponseCode", .ofNat 121)]
    let plain : List (String × Json) := [("pp_ResponseCode", .string "121"), ("pp_Version", .null)]
    let answering (m : FieldMap) : Network := fun _ => .answered ⟨200, (Json.ofFields m).render⟩
    (c.cardReturn noted = (c.cardReturn posted).map fun r => { r with fields := noted }) ∧
      (Run.play act [.turn] ({}, ofPosted c noted)).2.2.answer? =
        (Run.play act [.turn] ({}, ofPosted c posted)).2.2.answer? ∧
      walletOutcome answered = { walletOutcome plain with raw := answered } ∧
      ∀ r, ∃ raw, c.debitOver (answering noted) r =
        (c.debitOver (answering posted) r).map fun o => { o with raw } := by
  intro c posted noted answered plain answering
  have hhash : noted.get? hashField = posted.get? hashField := by
    simp [noted, FieldMap.get?_insert, hashField]
  have hview : signedView noted = signedView posted := by
    rw [signedView_eq_iff]
    intro name hsigned
    have hname : "note" ≠ name := by
      rintro rfl
      exact absurd hsigned (by decide)
    simp [noted, FieldMap.get?_insert, hname]
  have hobject : Fields.Ascending answered ∧ Fields.Ascending plain := by
    simp only [Fields.Ascending]
    decide
  have hlaw := unsigned_fields_have_no_influence c
  have hposted := hlaw.2.2 noted posted hhash hview
  have hanswer := hlaw.1 answered plain hobject.1 hobject.2 rfl (by decide)
  refine ⟨hposted.1, (hposted.2 [.turn] {}).2, hanswer.2.1, fun r => ?_⟩
  refine ⟨_, hlaw.2.1 _ _ _ (.debit r) (answering noted) (answering posted) _ _
    (Delivery.carries_render noted) (Delivery.carries_render posted) ?_ ?_⟩
  · rw [Fields.get?_map, Fields.get?_map]
    exact congrArg _ hhash
  · rw [fieldTexts_ofFields, fieldTexts_ofFields, hview]

end CardCallback

end TopUp
