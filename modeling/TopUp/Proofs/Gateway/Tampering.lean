import TopUp.Proofs.Gateway.Outcome
import TopUp.Proofs.Gateway.Signature
import TopUp.Proofs.Text.Pieces

/-! # What a signature fixes

    What is digested is the salt and behind it the signed values of a message, in the order
    of their names, joined by `&` (`signedText`). So a signature fixes that text and nothing
    more: the names are not in it, and a value that has an `&` in it may as well be two
    values.

    Whoever has the signed fields of a message can give them other names. Such a message
    about a card payment is taken for a paid one exactly if a piece of the signed text reads
    as a code of a paid transaction.
-/

namespace TopUp.Gateway

open TopUp.Data TopUp.Text

/-- The signed values of a message, in the order of their names, as they are digested. -/
def signedText (m : FieldMap) : String := joined (signedView m).values

/-- The names of a map in order. -/
def fieldNames (m : FieldMap) : List String := m.toList.map Prod.fst

/-- The digest tells these two messages apart, if they differ. -/
def Signer.Distinguishes (s : Signer) (m n : FieldMap) : Prop :=
  s.mac (utf8 s.salt) (utf8 (s.message m)) = s.mac (utf8 s.salt) (utf8 (s.message n)) →
    s.message m = s.message n

variable {s : Signer} {c : Client} {m n : FieldMap}

/-! ### The signed text -/

theorem Signer.message_eq_message_iff :
    s.message m = s.message n ↔ signedText m = signedText n := by
  show s.salt ++ "&" ++ signedText m = s.salt ++ "&" ++ signedText n ↔ _
  exact String.append_right_inj _

/-- As far as the digest tells messages apart, a signature stands for its signed text. -/
theorem Signer.sign_eq_sign_iff (hdist : s.Distinguishes m n) :
    s.sign m = s.sign n ↔ signedText m = signedText n := by
  rw [← s.message_eq_message_iff]
  constructor
  · intro hsign
    exact hdist (upperHex_injective hsign)
  · intro hmessage
    unfold sign
    rw [hmessage]

/-- Of a message with a signature of somebody else's the check asks for the same signed text. -/
theorem Signer.signedText_of_verifyFields (hdist : s.Distinguishes m n)
    (hhash : n.get? hashField = some (s.sign m)) (hverify : s.verifyFields n = .ok ()) :
    signedText n = signedText m := by
  obtain ⟨received, hget, -, hsign⟩ := verifyFields_eq_ok.mp hverify
  have hsame : s.sign m = s.sign n := by
    rw [← hsign]
    exact Option.some.inj (hhash.symm.trans hget)
  exact ((Signer.sign_eq_sign_iff hdist).mp hsame).symm

/-- Of two messages with the signature of the first one, the second one passes the check
    exactly if it has the same signed text. -/
theorem Signer.verifyFields_iff_signedText (hdist : s.Distinguishes m n)
    (hhash : n.get? hashField = m.get? hashField) (hverify : s.verifyFields m = .ok ()) :
    s.verifyFields n = .ok () ↔ signedText n = signedText m := by
  obtain ⟨received, hget, hfilled, hsign⟩ := verifyFields_eq_ok.mp hverify
  have hcarried : n.get? hashField = some (s.sign m) := by rw [hhash, hget, hsign]
  constructor
  · intro hn
    exact Signer.signedText_of_verifyFields hdist hcarried hn
  · intro htext
    have hsame : s.sign m = s.sign n := (Signer.sign_eq_sign_iff hdist).mpr htext.symm
    exact verifyFields_eq_ok.mpr ⟨_, hcarried, hsign ▸ hfilled, hsame⟩

theorem ne_empty_of_mem_values {value : String} (h : value ∈ (signedView m).values) :
    value ≠ "" := by
  obtain ⟨e, he, rfl⟩ := List.mem_map.mp h
  have hkept := (List.mem_filter.mp he).2
  rintro hempty
  simp [hempty] at hkept

/-- Values without `&` are fixed by the signed text. -/
theorem values_of_signedText
    (hplain : ∀ value ∈ (signedView m).values ++ (signedView n).values, '&' ∉ value.toList)
    (h : signedText m = signedText n) : (signedView m).values = (signedView n).values := by
  have hm : ∀ value ∈ (signedView m).values, '&' ∉ value.toList := fun value hvalue =>
    hplain value (List.mem_append_left _ hvalue)
  have hn : ∀ value ∈ (signedView n).values, '&' ∉ value.toList := fun value hvalue =>
    hplain value (List.mem_append_right _ hvalue)
  exact (joined_inj (fun _ => ne_empty_of_mem_values) (fun _ => ne_empty_of_mem_values) hm hn).mp h

/-- Names and values in order make up a map. -/
theorem eq_of_fieldNames_of_values (hnames : fieldNames m = fieldNames n)
    (hvalues : m.values = n.values) : m = n := by
  apply FieldMap.ext
  rw [← List.zip_unzip m.toList, ← List.zip_unzip n.toList]
  simp only [List.unzip_fst, List.unzip_snd]
  show List.zip (fieldNames m) m.values = List.zip (fieldNames n) n.values
  rw [hnames, hvalues]

/-! ### Card returns -/

/-- A card return stands for a payment only if a signed value reads as a code of one. -/
theorem Client.code_of_cardReturn {r : CardReturn} (h : c.cardReturn n = .ok r)
    (hpaid : r.status = .success) :
    ∃ value ∈ (signedView n).values, '&' ∉ value.toList ∧
      trim value ∈ ResponseCode.successCodes := by
  obtain ⟨-, -, hstatus⟩ := Client.cardReturn_eq_ok h
  rw [hstatus, ResponseCode.classify_eq_success (trim_postedText _ _)] at hpaid
  unfold postedText at hpaid
  cases hget : n.get? "pp_ResponseCode" with
  | none =>
    -- a missing code is no code
    rw [hget] at hpaid
    exact absurd hpaid (by decide)
  | some value =>
    rw [hget, Option.getD_some] at hpaid
    have hfilled : value ≠ "" := by
      rintro rfl
      exact absurd hpaid (by decide)
    have hsigned : isSigned "pp_ResponseCode" = true := by decide
    have hview : (signedView n).get? "pp_ResponseCode" = some value := by
      simp [get?_signedView, hsigned, hget, hfilled]
    have hplain : '&' ∉ value.toList := by
      intro hmem
      have htrim : '&' ∈ (trim value).toList := mem_trim hmem (by decide)
      have hcodes : ∀ code ∈ ResponseCode.successCodes, '&' ∉ code.toList := by decide
      exact hcodes _ hpaid htrim
    exact ⟨value, List.mem_map.mpr ⟨_, FieldMap.get?_eq_some.mp hview, rfl⟩, hplain, hpaid⟩

/-- With the signature of a message, a card return stands for a payment only if a piece of
    the signed text of that message reads as a code of one. -/
theorem Client.piece_of_cardReturn {r : CardReturn} (hdist : c.signer.Distinguishes m n)
    (hhash : n.get? hashField = some (c.signer.sign m)) (h : c.cardReturn n = .ok r)
    (hpaid : r.status = .success) :
    ∃ piece ∈ pieces (signedText m), trim piece ∈ ResponseCode.successCodes := by
  obtain ⟨value, hvalue, hplain, hcode⟩ := Client.code_of_cardReturn h hpaid
  obtain ⟨hverify, -, -⟩ := Client.cardReturn_eq_ok h
  have htext : signedText n = signedText m :=
    c.signer.signedText_of_verifyFields hdist hhash hverify
  have hpiece : value ∈ pieces (signedText n) := mem_pieces_joined hvalue hplain
  exact ⟨value, htext ▸ hpiece, hcode⟩

/-! ### Other names for the same text -/

theorem Signer.sign_of_signedText (h : signedText m = signedText n) : s.sign m = s.sign n := by
  have hmessage : s.message m = s.message n := Signer.message_eq_message_iff.mpr h
  unfold sign
  rw [hmessage]

/-- A signed text cut in three, with the names of a card return for the parts. -/
def respelled (before code reference : String) : Payload :=
  .ofList [("pp_A", before), ("pp_ResponseCode", code), ("pp_TxnRefNo", reference)]

theorem signedText_respelled (before code reference : String) :
    signedText (respelled before code reference).fields =
      joined ([before, code, reference].filter fun text => !text.isEmpty) := by
  have hasc : Fields.Ascending
      [("pp_A", before), ("pp_ResponseCode", code), ("pp_TxnRefNo", reference)] := by
    have hnames : ["pp_A", "pp_ResponseCode", "pp_TxnRefNo"].Pairwise (· < ·) := by decide
    exact Fields.ascending_iff.mpr hnames
  have hview : signedView (respelled before code reference).fields =
      signedView (FieldMap.ofList _) := signedView_ofList hasc
  have hnames : isSigned "pp_A" = true ∧ isSigned "pp_ResponseCode" = true ∧
      isSigned "pp_TxnRefNo" = true := by decide
  obtain ⟨hA, hcode, href⟩ := hnames
  unfold signedText
  rw [hview]
  simp only [signedView, FieldMap.filter, FieldMap.values, FieldMap.toList_ofList hasc]
  congr 1
  by_cases hbefore : before = "" <;> by_cases hc : code = "" <;> by_cases hr : reference = "" <;>
    simp [hA, hcode, href, hbefore, hc, hr]

theorem signedText_withHash (p : Payload) (hash : String) :
    signedText (p.withHash hash) = signedText p.fields := by
  unfold signedText
  rw [signedView_withHash]

/-- Three parts with a code in the middle are the same text again. -/
theorem signedText_of_pieces {before after : List String} {code : String}
    (hpieces : pieces (signedText m) = before ++ code :: after) (hcode : code ≠ "")
    (hbefore : before ≠ [] → joined before ≠ "") (hafter : joined after ≠ "") :
    signedText (respelled (joined before) code (joined after)).fields = signedText m := by
  have hne : after ≠ [] := by
    rintro rfl
    exact hafter rfl
  -- joining the parts and then joining the results is joining all of them
  have hrest : joined (code :: after) = joined [code, joined after] := by
    have happend := joined_append (List.cons_ne_nil code []) hne
    have happend' := joined_append (List.cons_ne_nil code []) (List.cons_ne_nil (joined after) [])
    simp only [joined_singleton, List.cons_append, List.nil_append] at happend happend'
    rw [happend, happend']
  rw [signedText_respelled, ← joined_pieces (signedText m), hpieces]
  by_cases hnil : before = []
  · subst hnil
    have hempty : joined [] = "" := rfl
    simp [hempty, hcode, hafter, hrest]
  · have hfront := joined_append hnil (List.cons_ne_nil code after)
    have hfront' := joined_append (List.cons_ne_nil (joined before) [])
      (List.cons_ne_nil code [joined after])
    simp only [joined_singleton, List.cons_append, List.nil_append] at hfront'
    simp [hbefore hnil, hcode, hafter, hfront, hfront', hrest]

theorem Client.cardReturn_of_verifyFields (hverify : c.signer.verifyFields n = .ok ())
    (hreference : postedText "pp_TxnRefNo" n ≠ "") :
    ∃ r, c.cardReturn n = .ok r ∧
      r.status = ResponseCode.classify (postedText "pp_ResponseCode" n) := by
  unfold cardReturn readCardReturn
  simp [hverify, hreference]

/-- If a piece of a signed text reads as a code of a paid transaction, and something is left
    on both sides of it, the signature makes a card return that stands for a payment. -/
theorem Client.paid_cardReturn_of_pieces {before after : List String} {code : String}
    (hsign : c.signer.sign m ≠ "") (hpieces : pieces (signedText m) = before ++ code :: after)
    (hcode : trim code ∈ ResponseCode.successCodes) (hbefore : before ≠ [] → joined before ≠ "")
    (hafter : trim (joined after) ≠ "") :
    ∃ n r, n.get? hashField = some (c.signer.sign m) ∧ c.cardReturn n = .ok r ∧
      r.status = .success := by
  have hne : code ≠ "" := by
    rintro rfl
    exact absurd hcode (by decide)
  have hreference : joined after ≠ "" := by
    intro hempty
    rw [hempty] at hafter
    exact hafter (by decide)
  -- what is left before the piece goes to a name that nobody reads, what is left behind it is
  -- read as the reference
  let p := respelled (joined before) code (joined after)
  have htext : signedText (p.withHash (c.signer.sign m)) = signedText m := by
    rw [signedText_withHash]
    exact signedText_of_pieces hpieces hne hbefore hreference
  have hhash : (p.withHash (c.signer.sign m)).get? hashField = some (c.signer.sign m) := by
    simp [Payload.withHash, FieldMap.get?_insert]
  have hverify : c.signer.verifyFields (p.withHash (c.signer.sign m)) = .ok () :=
    Signer.verifyFields_eq_ok.mpr ⟨_, hhash, hsign, (Signer.sign_of_signedText htext).symm⟩
  have hget : (p.withHash (c.signer.sign m)).get? "pp_TxnRefNo" = some (joined after) ∧
      (p.withHash (c.signer.sign m)).get? "pp_ResponseCode" = some code := by
    simp [p, respelled, Payload.withHash, Payload.ofList, FieldMap.get?_insert,
      Payload.get?_insert, hashField, hne, hreference]
  obtain ⟨r, hr, hstatus⟩ := Client.cardReturn_of_verifyFields hverify (by
    simpa [postedText, hget] using hafter)
  refine ⟨_, r, hhash, hr, ?_⟩
  rw [hstatus, ResponseCode.classify_eq_success (trim_postedText _ _)]
  simpa [postedText, hget] using hcode

/-! ### Card redirects -/

theorem decimal_plain (k : Nat) : decimal k ≠ "" ∧ '&' ∉ (decimal k).toList := by
  constructor
  · intro h
    simp [decimal, Nat.toDigits_ne_nil] at h
  · intro h
    have hmem : '&' ∈ Nat.toDigits 10 k := by simpa [decimal] using h
    have hdigit := Nat.isDigit_of_mem_toDigits (by decide) (by decide) hmem
    exact absurd hdigit (by decide)

/-- An amount is not empty and has no `&` in it. -/
theorem decimalInt_plain (i : Int) : decimalInt i ≠ "" ∧ '&' ∉ (decimalInt i).toList := by
  cases i with
  | ofNat k => exact decimal_plain k
  | negSucc k =>
    have hdigits := (decimal_plain (k + 1)).2
    simp [decimalInt, hdigits]

/-- The amount comes first in the signed text of a card redirect, and the version last. -/
theorem signedView_cardRedirect (c : Client) (r : CardRequest) : ∃ front rest,
    (signedView (c.initiateCard r).fields).values = decimalInt r.amount.toInt :: rest ∧
    (signedView (c.initiateCard r).fields).values = front ++ ["1.1"] := by
  have hview : signedView (c.initiateCard r).fields = signedView (c.merchant.cardPayload r).fields :=
    signedView_outbound _ _
  have hnames : ∀ e ∈ (signedView (c.initiateCard r).fields).toList,
      "pp_Amount" ≤ e.1 ∧ e.1 ≤ "pp_Version" := by
    intro e he
    rw [hview] at he
    have hlisted := Payload.mem_ofList (List.mem_filter.mp he).1
    have hbetween : ∀ name ∈ ["pp_Version", "pp_TxnType", "pp_Language", "pp_MerchantID",
        "pp_Password", "pp_Amount", "pp_BillReference", "pp_TxnRefNo", "pp_Description",
        "pp_ReturnURL", "pp_TxnDateTime", "pp_TxnExpiryDateTime"],
        "pp_Amount" ≤ name ∧ name ≤ "pp_Version" := by decide
    exact hbetween e.1 (List.mem_map_of_mem (f := Prod.fst) hlisted)
  have hsigned : isSigned "pp_Amount" = true ∧ isSigned "pp_Version" = true := by decide
  have hamount : decimalInt r.amount.toInt ≠ "" := (decimalInt_plain _).1
  have hget : (signedView (c.initiateCard r).fields).get? "pp_Amount" =
        some (decimalInt r.amount.toInt) ∧
      (signedView (c.initiateCard r).fields).get? "pp_Version" = some "1.1" := by
    rw [hview]
    simp [get?_signedView, hsigned, Merchant.cardPayload, Merchant.heading, Payload.ofList,
      Payload.get?_insert, hashField, hamount]
  have hasc := (signedView (c.initiateCard r).fields).ascending
  obtain ⟨rest, hrest⟩ := Fields.eq_cons_of_forall_le hasc (Fields.mem_of_get? hget.1)
    fun e he => (hnames e he).1
  obtain ⟨front, hfront⟩ := Fields.eq_append_of_forall_le hasc (Fields.mem_of_get? hget.2)
    fun e he => (hnames e he).2
  refine ⟨front.map Prod.snd, rest.map Prod.snd, ?_, ?_⟩
  · simp [FieldMap.values, hrest]
  · simp [FieldMap.values, hfront]

/-- The amount of a card redirect is the first piece of its signed text, and its version the
    last. -/
theorem pieces_cardRedirect (c : Client) (r : CardRequest) : ∃ front rest,
    pieces (signedText (c.initiateCard r).fields) = decimalInt r.amount.toInt :: rest ∧
    pieces (signedText (c.initiateCard r).fields) = front ++ ["1.1"] := by
  obtain ⟨front, rest, hrest, hfront⟩ := signedView_cardRedirect c r
  have hamount : pieces (decimalInt r.amount.toInt) = [decimalInt r.amount.toInt] :=
    pieces_of_notMem (decimalInt_plain _).2
  have hversion : pieces "1.1" = ["1.1"] := pieces_of_notMem (by decide)
  refine ⟨front.flatMap pieces, rest.flatMap pieces, ?_, ?_⟩
  · rw [signedText, hrest, pieces_joined (by simp), List.flatMap_cons, hamount]
    rfl
  · rw [signedText, hfront, pieces_joined (by simp), List.flatMap_append]
    simp [hversion]

/-- If a piece of the signed text of a card redirect reads as a code of a paid transaction,
    there is a card return with the signature of the redirect that stands for a payment. -/
theorem Client.paid_cardReturn_of_cardRedirect {r : CardRequest} {piece : String}
    (hsign : c.signer.sign (c.initiateCard r).fields ≠ "")
    (hpiece : piece ∈ pieces (signedText (c.initiateCard r).fields))
    (hcode : trim piece ∈ ResponseCode.successCodes) :
    ∃ n o, n.get? hashField = some (c.signer.sign (c.initiateCard r).fields) ∧
      c.cardReturn n = .ok o ∧ o.status = .success := by
  obtain ⟨before, after, hcut⟩ := List.append_of_mem hpiece
  obtain ⟨front, rest, hrest, hfront⟩ := pieces_cardRedirect c r
  -- what stands before the piece begins with the amount
  have hbefore : before ≠ [] → joined before ≠ "" := by
    intro hne
    obtain ⟨first, others, rfl⟩ := List.exists_cons_of_ne_nil hne
    have hfirst : first = decimalInt r.amount.toInt :=
      List.head_eq_of_cons_eq (hcut.symm.trans hrest)
    exact joined_ne_empty List.mem_cons_self (hfirst ▸ (decimalInt_plain _).1)
  -- what stands behind it ends with the version
  have hafter : trim (joined after) ≠ "" := by
    have hends : before ++ piece :: after = front ++ ["1.1"] := hcut.symm.trans hfront
    rcases List.eq_nil_or_concat after with rfl | ⟨others, last, rfl⟩
    · -- the version itself is no code
      have hlast : piece = "1.1" := List.singleton_inj.mp (List.append_inj' hends rfl).2
      rw [hlast] at hcode
      exact absurd hcode (by decide)
    · have hlast : last = "1.1" := by
        have hsplit : (before ++ piece :: others) ++ [last] = front ++ ["1.1"] := by
          simpa using hends
        exact List.singleton_inj.mp (List.append_inj' hsplit rfl).2
      have hone : '1' ∈ last.toList := by
        rw [hlast]
        decide
      have hmem : '1' ∈ (joined (others.concat last)).toList := mem_joined (by simp) hone
      have htrim : '1' ∈ (trim (joined (others.concat last))).toList := mem_trim hmem (by decide)
      intro hempty
      rw [hempty] at htrim
      simp at htrim
  exact Client.paid_cardReturn_of_pieces hsign hcut hcode hbefore hafter

/-! ### What is and what is not fixed -/

/-- Names are not signed, so a signature fixes the signed text and nothing more. Of two
    messages that carry it, one passes the check if the other one does and their signed texts
    are the same; values without `&` are then the same in order, and under the same names the
    signed parts are. With the signature of a card redirect, a card return stands for a payment
    only if a piece of the redirect's signed text reads as a code of one, and then some do. -/
theorem Client.signature_fixes_signed_text (c : Client) :
    (∀ m n, n.get? hashField = m.get? hashField → c.signer.Distinguishes m n →
      c.signer.verifyFields m = .ok () →
        (c.signer.verifyFields n = .ok () ↔ signedText n = signedText m) ∧
        (c.signer.verifyFields n = .ok () →
          (∀ value ∈ (signedView n).values ++ (signedView m).values, '&' ∉ value.toList) →
            (signedView n).values = (signedView m).values ∧
              (fieldNames (signedView n) = fieldNames (signedView m) →
                signedView n = signedView m))) ∧
    (∀ r n o, n.get? hashField = (c.initiateCard r).fields.get? hashField →
      c.signer.Distinguishes (c.initiateCard r).fields n → c.cardReturn n = .ok o →
        o.status = .success →
          ∃ piece ∈ pieces (signedText (c.initiateCard r).fields),
            trim piece ∈ ResponseCode.successCodes) ∧
    ∀ r, c.signer.sign (c.initiateCard r).fields ≠ "" →
      (∃ piece ∈ pieces (signedText (c.initiateCard r).fields),
        trim piece ∈ ResponseCode.successCodes) →
        ∃ n o, n.get? hashField = (c.initiateCard r).fields.get? hashField ∧
          c.cardReturn n = .ok o ∧ o.status = .success := by
  have hredirect : ∀ r, (c.initiateCard r).fields.get? hashField =
      some (c.signer.sign (c.initiateCard r).fields) := fun r => c.signer.get?_outbound _
  refine ⟨?_, ?_, ?_⟩
  · intro m n hhash hdist hverify
    have hiff := Signer.verifyFields_iff_signedText hdist hhash hverify
    refine ⟨hiff, ?_⟩
    intro hn hplain
    have hvalues := values_of_signedText hplain (hiff.mp hn)
    exact ⟨hvalues, fun hnames => eq_of_fieldNames_of_values hnames hvalues⟩
  · intro r n o hhash hdist h hpaid
    exact Client.piece_of_cardReturn hdist (hhash.trans (hredirect r)) h hpaid
  · rintro r hsign ⟨piece, hpiece, hcode⟩
    rw [hredirect r]
    exact Client.paid_cardReturn_of_cardRedirect hsign hpiece hcode

/-- A merchant whose salt is `salt`. -/
def shop : Client :=
  { merchant :=
      { merchantId := "MC1"
        password := "secret"
        salt := "salt"
        returnUrl := "https://shop.example/return" }
    signer := .standard "salt" }

/-- A payment of two rupees. -/
def twoRupees : CardRequest :=
  { amount := 200
    billReference := "BILL1"
    reference := "T1"
    description := "Top up"
    issuedAt := "20250101120000"
    expiresAt := "20250102120000" }

/-- The values of the redirect for two rupees, with the names of a card return. -/
def renamed : Payload :=
  .ofList
    [("pp_ResponseCode", "200"), ("pp_ResponseMessage", "BILL1"), ("pp_Ret1", "Top up"),
     ("pp_Ret2", "EN"), ("pp_Ret3", "MC1"), ("pp_Ret4", "secret"),
     ("pp_ReturnURL", "https://shop.example/return"), ("pp_TxnDateTime", "20250101120000"),
     ("pp_TxnExpiryDateTime", "20250102120000"), ("pp_TxnRefNo", "T1"),
     ("pp_TxnType", "CARDPAYMENT"), ("pp_Version", "1.1")]

/-- A card return of the renamed values, with the signature of the redirect. -/
def renamedReturn : FieldMap :=
  renamed.withHash (shop.signer.sign (shop.initiateCard twoRupees).fields)

theorem get?_renamedReturn :
    renamedReturn.get? hashField = (shop.initiateCard twoRupees).fields.get? hashField := by
  rw [renamedReturn, Payload.get?_withHash_hashField]
  exact (shop.signer.get?_outbound _).symm

theorem values_renamedReturn : (signedView renamedReturn).values =
    (signedView (shop.initiateCard twoRupees).fields).values := by
  have hview : signedView (shop.initiateCard twoRupees).fields =
      signedView (shop.merchant.cardPayload twoRupees).fields := signedView_outbound _ _
  rw [renamedReturn, signedView_withHash, hview]
  decide

theorem renamedReturn_distinguished :
    shop.signer.Distinguishes (shop.initiateCard twoRupees).fields renamedReturn := by
  intro _
  have htext : signedText renamedReturn = signedText (shop.initiateCard twoRupees).fields :=
    congrArg joined values_renamedReturn
  exact Signer.message_eq_message_iff.mpr htext.symm

theorem redirect_verified :
    shop.signer.verifyFields (shop.initiateCard twoRupees).fields = .ok () :=
  Signer.verifyFields_outbound _ (Signer.sign_standard_ne_empty _ _)

theorem renamedReturn_paid :
    ∃ r, shop.cardReturn renamedReturn = .ok r ∧ r.status = .success := by
  have hverify : shop.signer.verifyFields renamedReturn = .ok () :=
    (Signer.verifyFields_iff_signedText renamedReturn_distinguished get?_renamedReturn
      redirect_verified).mpr (congrArg joined values_renamedReturn)
  have hread : postedText "pp_TxnRefNo" renamedReturn = "T1" ∧
      postedText "pp_ResponseCode" renamedReturn = "200" := by
    simp only [postedText, renamedReturn]
    rw [Payload.get?_withHash (by decide), Payload.get?_withHash (by decide)]
    decide
  obtain ⟨r, hr, hstatus⟩ := Client.cardReturn_of_verifyFields hverify (by rw [hread.1]; decide)
  refine ⟨r, hr, ?_⟩
  rw [hstatus, hread.2]
  decide

/-- The signed text of a redirect for two rupees has the amount as a piece, which reads as the
    code of a paid transaction; a return with the redirect's signature has the same text. -/
theorem two_rupees_read_as_code :
    signedText renamedReturn = signedText (shop.initiateCard twoRupees).fields ∧
      ∃ piece ∈ pieces (signedText (shop.initiateCard twoRupees).fields),
        trim piece ∈ ResponseCode.successCodes := by
  have hfixed := Client.signature_fixes_signed_text shop
  obtain ⟨r, hr, hpaid⟩ := renamedReturn_paid
  have hiff := (hfixed.1 _ _ get?_renamedReturn renamedReturn_distinguished redirect_verified).1
  obtain ⟨hverify, -, -⟩ := Client.cardReturn_eq_ok hr
  exact ⟨hiff.mp hverify,
    hfixed.2.1 _ _ _ get?_renamedReturn renamedReturn_distinguished hr hpaid⟩

/-- The renamed values carry the signature of the redirect and pass the check, though their
    names are others, and they are taken for a paid transaction. -/
theorem renamed_redirect_paid :
    let redirect := (shop.initiateCard twoRupees).fields
    renamedReturn.get? hashField = redirect.get? hashField ∧
      shop.signer.message renamedReturn = shop.signer.message redirect ∧
      shop.signer.verifyFields redirect = .ok () ∧
      shop.signer.verifyFields renamedReturn = .ok () ∧
      signedView renamedReturn ≠ signedView redirect ∧
      ∃ r, shop.cardReturn renamedReturn = .ok r ∧ r.status = .success := by
  intro redirect
  obtain ⟨r, hr, hpaid⟩ := renamedReturn_paid
  have htext : signedText renamedReturn = signedText redirect :=
    congrArg joined values_renamedReturn
  have hview : signedView renamedReturn ≠ signedView redirect := by
    have hview' : signedView redirect = signedView (shop.merchant.cardPayload twoRupees).fields :=
      signedView_outbound _ _
    rw [renamedReturn, signedView_withHash, hview']
    decide
  exact ⟨get?_renamedReturn, Signer.message_eq_message_iff.mpr htext, redirect_verified,
    (Client.cardReturn_eq_ok hr).1, hview, r, hr, hpaid⟩

end TopUp.Gateway
