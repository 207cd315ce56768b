import TopUp.Proofs.Gateway.Signature
import TopUp.Proofs.Text.ByteOrder
import TopUp.Proofs.Text.Pieces

/-! # What a signature depends on

    Fields are put into a payload one after the other, possibly some under one name, some
    without a value, some that are not signed. What counts in the end is the content: for
    each signed name the last value that is not empty, in the order of the names' bytes
    (`Content`). There is always exactly one content, and the signature is the digest of its
    values (`sign_of_content`), so entries that leave the content as it is leave the
    signature as it is.
-/

namespace TopUp.Gateway

open TopUp.Data TopUp.Text

variable {l l' content : List (String × String)} {name : String}

/-- The last value under a name that is not empty. -/
def lastFilled? (name : String) (l : List (String × String)) : Option String :=
  Fields.last? name (l.filter fun e => !e.2.isEmpty)

/-- The entries that count: those with a value under a signed name. -/
def counted (l : List (String × String)) : List (String × String) :=
  l.filter fun e => isSigned e.1 && !e.2.isEmpty

/-- What is signed of the entries of a list. -/
structure Content (l content : List (String × String)) : Prop where
  /-- The names ascend by their bytes. -/
  ascending : content.Pairwise fun e e' => utf8 e.1 < utf8 e'.1
  /-- The values are the last ones under the signed names. -/
  mem_iff : ∀ name value, (name, value) ∈ content ↔
    isSigned name = true ∧ lastFilled? name l = some value

/-! ### The content of a list -/

theorem lt_iff_utf8_lt {a b : String} : a < b ↔ utf8 a < utf8 b := by
  rw [lt_iff_utf8Bytes_lt, utf8Bytes_toList, utf8Bytes_toList]
  rfl

/-- A payload finds the last value of each signed name that is not empty. -/
theorem get?_signedView_ofList (name : String) (l : List (String × String)) :
    (signedView (Payload.ofList l).fields).get? name =
      if isSigned name = true then lastFilled? name l else none := by
  rw [get?_signedView, Payload.fields_ofList, FieldMap.get?_ofList_eq_last?]
  by_cases hsigned : isSigned name = true
  · have hne : name ≠ hashField := ne_hashField_of_isSigned hsigned
    have htaken : Fields.last? name (l.filter fun e => !(e.2.isEmpty || e.1 == hashField)) =
        lastFilled? name l := by
      have hsplit : (l.filter fun e => !(e.2.isEmpty || e.1 == hashField)) =
          (l.filter fun e => !e.2.isEmpty).filter fun e => !(e.1 == hashField) := by
        rw [List.filter_filter]
        apply List.filter_congr
        intro e _
        rw [Bool.not_or, Bool.and_comm]
      rw [hsplit]
      apply Fields.last?_filter
      rintro e - rfl
      simpa using hne
    have hfilled : ∀ value, lastFilled? name l = some value → value.isEmpty = false := by
      intro value hvalue
      obtain ⟨e, he, rfl⟩ := Option.map_eq_some_iff.mp hvalue
      have hmem := List.mem_of_getLast? he
      simp only [List.mem_filter] at hmem
      simpa using hmem.1.2
    rw [htaken]
    cases hvalue : lastFilled? name l with
    | none => simp
    | some value => simp [hsigned, hfilled value hvalue]
  · simp [hsigned]

theorem content_iff :
    Content l content ↔ content = (signedView (Payload.ofList l).fields).toList := by
  have hview : ∀ name value, (name, value) ∈ (signedView (Payload.ofList l).fields).toList ↔
      isSigned name = true ∧ lastFilled? name l = some value := by
    intro name value
    rw [← FieldMap.get?_eq_some, get?_signedView_ofList]
    split <;> simp [*]
  have hasc := (signedView (Payload.ofList l).fields).ascending
  constructor
  · intro h
    have hcontent : Fields.Ascending content :=
      h.ascending.imp fun hlt => lt_iff_utf8_lt.mpr hlt
    refine Fields.ext_get? hcontent hasc fun name => Option.ext fun value => ?_
    rw [Fields.get?_eq_some hcontent, Fields.get?_eq_some hasc, hview, h.mem_iff]
  · rintro rfl
    exact ⟨List.Pairwise.imp (fun hlt => lt_iff_utf8_lt.mp hlt) hasc, hview⟩

/-- Lists with the same last values under the signed names have the same signed part. -/
theorem signedView_ofList_congr
    (h : ∀ name, isSigned name = true → lastFilled? name l = lastFilled? name l') :
    signedView (Payload.ofList l).fields = signedView (Payload.ofList l').fields := by
  apply FieldMap.ext_get?
  intro name
  rw [get?_signedView_ofList, get?_signedView_ofList]
  split
  · next hsigned => exact h name hsigned
  · rfl

/-- Entries that do not count do not matter. -/
theorem lastFilled?_counted (hsigned : isSigned name = true) (l : List (String × String)) :
    lastFilled? name l = Fields.last? name (counted l) := by
  have hsplit : counted l = (l.filter fun e => !e.2.isEmpty).filter fun e => isSigned e.1 := by
    rw [List.filter_filter]
    rfl
  rw [hsplit]
  refine (Fields.last?_filter ?_).symm
  rintro e - rfl
  exact hsigned

/-- Under distinct names the order of the entries does not matter. -/
theorem lastFilled?_perm (h : l.Perm l') (hnames : (l.map Prod.fst).Nodup) (name : String) :
    lastFilled? name l = lastFilled? name l' := by
  have hfilled : ((l.filter fun e => !e.2.isEmpty).map Prod.fst).Nodup :=
    hnames.sublist (List.filter_sublist.map Prod.fst)
  unfold lastFilled?
  rw [← FieldMap.get?_ofList_eq_last?, ← FieldMap.get?_ofList_eq_last?,
    FieldMap.ofList_perm (h.filter _) hfilled]

/-! ### The signature -/

namespace Signer

/-- A signature is the digest of the content, of which there is exactly one: the last values
    under the signed names in the order of the names' bytes. Lists with the same last values
    under the signed names are signed alike, and so are lists of distinct names in another
    order and lists with the same entries apart from those that do not count. -/
theorem sign_of_content (salt : String) (l : List (String × String)) :
    (∃! content, Content l content) ∧
    (∀ content, Content l content → (standard salt).sign (Payload.ofList l).fields =
      upperHex (Digest.hmacSha256 (utf8 salt)
        (utf8 (salt ++ "&" ++ joined (content.map Prod.snd))))) ∧
    (∀ l', (∀ name, isSigned name = true → lastFilled? name l = lastFilled? name l') →
      (standard salt).sign (Payload.ofList l).fields =
        (standard salt).sign (Payload.ofList l').fields) ∧
    (∀ l', l.Perm l' → (l.map Prod.fst).Nodup →
      (standard salt).sign (Payload.ofList l).fields =
        (standard salt).sign (Payload.ofList l').fields) ∧
    (∀ l', counted l = counted l' →
      (standard salt).sign (Payload.ofList l).fields =
        (standard salt).sign (Payload.ofList l').fields) := by
  have hsame : ∀ l', (∀ name, isSigned name = true → lastFilled? name l = lastFilled? name l') →
      (standard salt).sign (Payload.ofList l).fields =
        (standard salt).sign (Payload.ofList l').fields :=
    fun l' h => sign_congr _ (signedView_ofList_congr h)
  refine ⟨⟨_, content_iff.mpr rfl, fun content h => content_iff.mp h⟩, ?_, hsame, ?_, ?_⟩
  · intro content h
    rw [content_iff.mp h]
    rfl
  · intro l' hperm hnames
    exact hsame l' fun name _ => lastFilled?_perm hperm hnames name
  · intro l' hcounted
    refine hsame l' fun name hsigned => ?_
    rw [lastFilled?_counted hsigned, lastFilled?_counted hsigned, hcounted]

/-- Entries with a name twice, an empty value, a name that is not signed and a signature. -/
def untidyEntries : List (String × String) :=
  [("pp_TxnRefNo", "T1"), ("pp_Amount", "100"), ("note", "n"), ("pp_Amount", "50000"),
   ("pp_SecureHash", "ABC"), ("pp_Amount", ""), ("ppmpf_1", "")]

/-- The same in order, with nothing that does not count. -/
def tidyEntries : List (String × String) := [("pp_Amount", "50000"), ("pp_TxnRefNo", "T1")]

/-- Untidy entries are signed like the tidy ones, and those like any order of them. -/
theorem untidy_entries_signed_alike :
    (∀ name, isSigned name = true →
      lastFilled? name untidyEntries = lastFilled? name tidyEntries) ∧
    Content untidyEntries tidyEntries ∧
    (standard "salt").sign (Payload.ofList untidyEntries).fields =
      upperHex (Digest.hmacSha256 (utf8 "salt") (utf8 "salt&50000&T1")) ∧
    (standard "salt").sign (Payload.ofList untidyEntries).fields =
      (standard "salt").sign (Payload.ofList tidyEntries).fields ∧
    (standard "salt").sign (Payload.ofList tidyEntries).fields =
      (standard "salt").sign (Payload.ofList tidyEntries.reverse).fields := by
  have huntidy : counted untidyEntries =
      [("pp_TxnRefNo", "T1"), ("pp_Amount", "100"), ("pp_Amount", "50000")] := by decide
  have htidy : counted tidyEntries = tidyEntries := by decide
  have hlast : ∀ name, isSigned name = true →
      lastFilled? name untidyEntries = lastFilled? name tidyEntries := by
    intro name hsigned
    rw [lastFilled?_counted hsigned, lastFilled?_counted hsigned, huntidy, htidy]
    by_cases hamount : "pp_Amount" = name
    · simp [Fields.last?, tidyEntries, ← hamount]
    · by_cases hreference : "pp_TxnRefNo" = name
      · simp [Fields.last?, tidyEntries, ← hreference]
      · simp [Fields.last?, tidyEntries, hamount, hreference]
  have hcontent : Content untidyEntries tidyEntries := content_iff.mpr (by decide +kernel)
  have hmessage : "salt" ++ "&" ++ joined (tidyEntries.map Prod.snd) = "salt&50000&T1" := by
    decide +kernel
  have hlaw := sign_of_content "salt" untidyEntries
  have hlaw' := sign_of_content "salt" tidyEntries
  exact ⟨hlast, hcontent, hmessage ▸ hlaw.2.1 _ hcontent, hlaw.2.2.1 _ hlast,
    hlaw'.2.2.2.1 _ (List.reverse_perm _).symm (by decide)⟩

end Signer

end TopUp.Gateway
