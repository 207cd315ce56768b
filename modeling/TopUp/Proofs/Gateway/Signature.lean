import TopUp.Gateway.Signature
import TopUp.Proofs.Checks
import TopUp.Proofs.Data.FieldMap

/-! # One law of signatures

    A signature is checked on an answer's members, on posted fields, and made of a
    payload. The three bring their fields into the same form: they agree on the part
    that is signed (`signedView`), and a signature depends on nothing else of a map. So a
    check succeeds exactly if the signature that came is the one that the signer would
    have made of the same fields, byte for byte.
-/

namespace TopUp.Gateway

open TopUp.Data TopUp.Text

/-! ### Bytes -/

theorem foldl_or_eq_zero (l : List UInt8) (seen : UInt8) :
    l.foldl (· ||| ·) seen = 0 ↔ seen = 0 ∧ ∀ b ∈ l, b = 0 := by
  induction l generalizing seen with
  | nil => simp
  | cons b rest ih => simp [ih, UInt8.or_eq_zero_iff, and_assoc]

theorem zipWith_xor_eq_zero {a b : List UInt8} (hlen : a.length = b.length) :
    (∀ x ∈ List.zipWith (· ^^^ ·) a b, x = 0) ↔ a = b := by
  induction a generalizing b with
  | nil =>
    have hb : b = [] := List.length_eq_zero_iff.mp hlen.symm
    simp [hb]
  | cons x rest ih =>
    cases b with
    | nil => simp at hlen
    | cons y rest' =>
      have hrest : rest.length = rest'.length := by simpa using hlen
      simp [ih hrest]

/-- The comparison that looks at every byte decides equality. -/
theorem sameBytes_eq_true {a b : List UInt8} : sameBytes a b = true ↔ a = b := by
  unfold sameBytes
  rw [Bool.and_eq_true, beq_iff_eq, beq_iff_eq, foldl_or_eq_zero]
  constructor
  · rintro ⟨hlen, -, hzero⟩
    exact (zipWith_xor_eq_zero hlen).mp hzero
  · rintro rfl
    exact ⟨rfl, rfl, (zipWith_xor_eq_zero rfl).mpr rfl⟩

/-- A text is known by its bytes. -/
theorem utf8_injective : Function.Injective utf8 := by
  intro a b h
  have hbytes : a.toByteArray = b.toByteArray := by
    apply ByteArray.ext
    exact Array.toList_inj.mp h
  exact String.toByteArray_inj.mp hbytes

/-- The digits of a byte tell which byte it is. -/
theorem hexPair_injective : Function.Injective hexPair := by
  intro a b h
  have hdigit : Function.Injective hexUpper := fun d d' hd => by
    simpa using congrArg hexValue? hd
  simp only [hexPair, List.cons.injEq, and_true] at h
  have hhigh : a.toNat / 16 % 16 = b.toNat / 16 % 16 := congrArg Fin.val (hdigit h.1)
  have hlow : a.toNat % 16 = b.toNat % 16 := congrArg Fin.val (hdigit h.2)
  -- the two digits make up the whole byte
  have ha : a.toNat < 256 := a.toNat_lt
  have hb : b.toNat < 256 := b.toNat_lt
  apply UInt8.toNat_inj.mp
  omega

theorem flatMap_hexPair_injective : ∀ {a b : List UInt8},
    a.flatMap hexPair = b.flatMap hexPair → a = b
  | [], [], _ => rfl
  | [], y :: rest', h => by simp [hexPair] at h
  | x :: rest, [], h => by simp [hexPair] at h
  | x :: rest, y :: rest', h => by
    simp only [List.flatMap_cons] at h
    obtain ⟨hpair, hrest⟩ := List.append_inj h rfl
    rw [hexPair_injective hpair, flatMap_hexPair_injective hrest]

/-- Bytes are known by their digits. -/
theorem upperHex_injective : Function.Injective upperHex := by
  intro a b h
  exact flatMap_hexPair_injective (String.ofList_injective h)

/-! ### What is signed -/

variable {s : Signer} {m n : FieldMap} {members : List (String × Json)}

@[simp] theorem isSigned_hashField : isSigned hashField = false := by decide

theorem ne_hashField_of_isSigned {name : String} (h : isSigned name = true) :
    name ≠ hashField := by
  rintro rfl
  simp at h

theorem get?_signedView (m : FieldMap) (name : String) :
    (signedView m).get? name =
      if isSigned name then (m.get? name).filter fun value => !value.isEmpty else none := by
  unfold signedView
  rw [FieldMap.get?_filter]
  by_cases hsigned : isSigned name = true <;> simp [hsigned]

/-- Maps have the same signed part exactly if every signed name has the same value in both,
    an empty one counting as none. -/
theorem signedView_eq_iff : signedView m = signedView n ↔ ∀ name, isSigned name = true →
    (m.get? name).filter (fun value => !value.isEmpty) =
      (n.get? name).filter fun value => !value.isEmpty := by
  constructor
  · intro hview name hsigned
    have hget : (signedView m).get? name = (signedView n).get? name := by rw [hview]
    simpa [get?_signedView, hsigned] using hget
  · intro h
    apply FieldMap.ext_get?
    intro name
    rw [get?_signedView, get?_signedView]
    by_cases hsigned : isSigned name = true
    · simp [hsigned, h name hsigned]
    · simp [hsigned]

/-- A signature depends on the signed part alone. -/
theorem Signer.sign_congr (s : Signer) (h : signedView m = signedView n) :
    s.sign m = s.sign n := by
  unfold sign message
  rw [h]

/-! ### Payloads -/

/-- A payload is the map of what it does not ignore. -/
theorem Payload.fields_ofList (l : List (String × String)) :
    (Payload.ofList l).fields =
      FieldMap.ofList (l.filter fun e => !(e.2.isEmpty || e.1 == hashField)) := by
  unfold FieldMap.ofList
  rw [List.foldl_filter]
  refine (List.foldl_hom Payload.fields ?_).symm
  rintro p ⟨name, value⟩
  by_cases hignored : value = "" ∨ name = hashField
  · rcases hignored with hvalue | hname <;> simp [Payload.insert, *]
  · obtain ⟨hvalue, hname⟩ := not_or.mp hignored
    simp [Payload.insert, FieldMap.insert, hvalue, hname]

theorem Payload.mem_ofList {l : List (String × String)} {e : String × String}
    (h : e ∈ (Payload.ofList l).fields.toList) : e ∈ l := by
  rw [Payload.fields_ofList] at h
  exact (List.mem_filter.mp (FieldMap.mem_ofList h)).1

theorem Payload.get?_insert (p : Payload) (name other value : String) :
    (p.insert name value).fields.get? other =
      if name = other ∧ value ≠ "" ∧ name ≠ hashField then some value
      else p.fields.get? other := by
  unfold Payload.insert
  split
  · next hignored =>
    rcases hignored with hvalue | hname <;> simp [*]
  · next htaken =>
    obtain ⟨hvalue, hname⟩ := not_or.mp htaken
    simp [FieldMap.get?_insert, hvalue, hname]

/-- What a payload ignores is not signed. -/
theorem signedView_ofList {l : List (String × String)} (hasc : Fields.Ascending l) :
    signedView (Payload.ofList l).fields = signedView (FieldMap.ofList l) := by
  have hkept : Fields.Ascending (l.filter fun e => !(e.2.isEmpty || e.1 == hashField)) :=
    List.Pairwise.filter _ hasc
  apply FieldMap.ext
  simp only [signedView, FieldMap.filter, Payload.fields_ofList, FieldMap.toList_ofList hasc,
    FieldMap.toList_ofList hkept, List.filter_filter]
  apply List.filter_congr
  intro e _
  by_cases hname : e.1 = hashField
  · simp [hname]
  · by_cases hvalue : e.2 = "" <;> simp [hname, hvalue]

@[simp] theorem Payload.get?_withHash_hashField (p : Payload) (hash : String) :
    (p.withHash hash).get? hashField = some hash := by
  simp [Payload.withHash, FieldMap.get?_insert]

theorem Payload.get?_withHash {name : String} (hname : name ≠ hashField) (p : Payload)
    (hash : String) : (p.withHash hash).get? name = p.fields.get? name := by
  simp [Payload.withHash, FieldMap.get?_insert, hname.symm]

/-- The signature that goes with the fields is not signed itself. -/
theorem signedView_withHash (p : Payload) (hash : String) :
    signedView (p.withHash hash) = signedView p.fields := by
  rw [signedView_eq_iff]
  intro name hsigned
  rw [Payload.get?_withHash (ne_hashField_of_isSigned hsigned)]

theorem signedView_outbound (s : Signer) (p : Payload) :
    signedView (s.outbound p) = signedView p.fields := signedView_withHash p _

theorem get?_fieldTexts (hobject : Fields.Ascending members) (name : String) :
    (fieldTexts members).get? name = (Fields.get? name members).map fieldText := by
  unfold FieldMap.get? fieldTexts
  rw [FieldMap.toList_ofList (hobject.map fieldText), Fields.get?_map]

/-! ### Signatures made -/

/-- The keyed SHA-256 digest has thirty-two bytes. -/
theorem length_hmacSha256 (key message : List UInt8) :
    (Digest.hmacSha256 key message).length = 32 := by
  simp [Digest.hmacSha256, Digest.Sha256.digest, Digest.Sha256.bigEndian]

/-- The standard signer never makes an empty signature. -/
theorem Signer.sign_standard_ne_empty (salt : String) (m : FieldMap) :
    (Signer.standard salt).sign m ≠ "" := by
  intro h
  have hempty : upperHex (Digest.hmacSha256 (utf8 salt) (utf8 ((Signer.standard salt).message m))) =
      upperHex [] := h
  have hlen := length_hmacSha256 (utf8 salt) (utf8 ((Signer.standard salt).message m))
  rw [upperHex_injective hempty] at hlen
  simp at hlen

theorem Signer.sign_outbound (s : Signer) (p : Payload) :
    s.sign (s.outbound p) = s.sign p.fields :=
  s.sign_congr (signedView_outbound s p)

/-- A signed payload carries its own signature. -/
theorem Signer.get?_outbound (s : Signer) (p : Payload) :
    (s.outbound p).get? hashField = some (s.sign (s.outbound p)) := by
  rw [s.sign_outbound]
  exact p.get?_withHash_hashField _

/-! ### Checking -/

namespace Signer

theorem compare_eq_ok {expected received : String} :
    compare expected received = .ok () ↔ received = expected := by
  unfold compare
  split
  · next hsame =>
    have heq : utf8 expected = utf8 received := sameBytes_eq_true.mp hsame
    simp [utf8_injective heq]
  · next hother =>
    have hne : received ≠ expected := fun heq => hother (sameBytes_eq_true.mpr (by rw [heq]))
    simp [hne]

theorem unverified_of_compare {expected received : String} {f : Failure}
    (h : compare expected received = .error f) : ∃ text, f = .unverified text := by
  unfold compare at h
  split at h
  · exact absurd h (by simp)
  · exact ⟨_, (Except.error.inj h).symm⟩

theorem verify_eq_ok : s.verify members = .ok () ↔
    ∃ received, Fields.get? hashField members = some (.string received) ∧ received ≠ "" ∧
      received = s.sign (fieldTexts members) := by
  unfold verify
  split
  · next received hget =>
    by_cases hempty : received = ""
    · simp [hget, hempty]
    · simp only [hget, String.isEmpty_iff, hempty, if_false, compare_eq_ok]
      constructor
      · intro hsame
        exact ⟨received, rfl, hempty, hsame⟩
      · rintro ⟨_, heq, -, hsame⟩
        obtain rfl := Json.string.inj (Option.some.inj heq)
        exact hsame
  · next hother =>
    simp only [reduceCtorEq, false_iff, not_exists, not_and]
    intro received hget
    exact absurd hget (hother received)

theorem verifyFields_eq_ok : s.verifyFields m = .ok () ↔
    ∃ received, m.get? hashField = some received ∧ received ≠ "" ∧ received = s.sign m := by
  unfold verifyFields
  split
  · next received hget =>
    by_cases hempty : received = ""
    · simp [hget, hempty]
    · simp only [hget, String.isEmpty_iff, hempty, if_false, compare_eq_ok]
      constructor
      · intro hsame
        exact ⟨received, rfl, hempty, hsame⟩
      · rintro ⟨_, heq, -, hsame⟩
        obtain rfl := Option.some.inj heq
        exact hsame
  · next hget => simp [hget]

/-- A signed payload passes the check of its own signer. -/
theorem verifyFields_outbound (p : Payload) (hfilled : s.sign p.fields ≠ "") :
    s.verifyFields (s.outbound p) = .ok () :=
  verifyFields_eq_ok.mpr ⟨_, s.get?_outbound p, s.sign_outbound p ▸ hfilled, rfl⟩

/-- An answer that fails its check is not trusted. -/
theorem unverified_of_verify {f : Failure} (h : s.verify members = .error f) :
    ∃ text, f = .unverified text := by
  unfold verify at h
  split at h
  · split at h
    · exact ⟨_, (Except.error.inj h).symm⟩
    · exact unverified_of_compare h
  · exact ⟨_, (Except.error.inj h).symm⟩

/-- Posted fields that fail their check are not trusted. -/
theorem unverified_of_verifyFields {f : Failure} (h : s.verifyFields m = .error f) :
    ∃ text, f = .unverified text := by
  unfold verifyFields at h
  split at h
  · split at h
    · exact ⟨_, (Except.error.inj h).symm⟩
    · exact unverified_of_compare h
  · exact ⟨_, (Except.error.inj h).symm⟩

/-- The signature of an answer's members is checked against the one that a payload of the
    same members would get. -/
theorem sign_fieldTexts (s : Signer) (hobject : Fields.Ascending members) :
    s.sign (fieldTexts members) =
      s.sign (Payload.ofList (members.map fun e => (e.1, fieldText e.2))).fields :=
  s.sign_congr (signedView_ofList (hobject.map fieldText)).symm

/-- The two checks agree on members whose signature is a text or null, or missing. -/
theorem verify_eq_ok_iff_verifyFields (hobject : Fields.Ascending members)
    (hhash : ∀ v, Fields.get? hashField members = some v → v = .null ∨ ∃ text, v = .string text) :
    s.verify members = .ok () ↔ s.verifyFields (fieldTexts members) = .ok () := by
  rw [verify_eq_ok, verifyFields_eq_ok, get?_fieldTexts hobject]
  cases hget : Fields.get? hashField members with
  | none => simp
  | some v =>
    rcases hhash v hget with rfl | ⟨text, rfl⟩
    · simp [fieldText]
    · simp [fieldText]

/-- An answer passes its check exactly if the signature it carries is that of a payload of its
    members, and exactly if the same fields pass when they are posted; whatever fails a check
    fails it as not trusted. -/
theorem verification_is_one_law (s : Signer) (hobject : Fields.Ascending members)
    (hhash : ∀ v, Fields.get? hashField members = some v → v = .null ∨ ∃ text, v = .string text) :
    (s.verify members = .ok () ↔
      ∃ received, Fields.get? hashField members = some (.string received) ∧ received ≠ "" ∧
        utf8 received =
          utf8 (s.sign (Payload.ofList (members.map fun e => (e.1, fieldText e.2))).fields)) ∧
    (s.verify members = .ok () ↔ s.verifyFields (fieldTexts members) = .ok ()) ∧
    (∀ f, s.verify members = .error f → ∃ text, f = .unverified text) ∧
    (∀ posted f, s.verifyFields posted = .error f → ∃ text, f = .unverified text) := by
  refine ⟨?_, verify_eq_ok_iff_verifyFields hobject hhash, fun _ => unverified_of_verify,
    fun _ _ => unverified_of_verifyFields⟩
  rw [verify_eq_ok, ← s.sign_fieldTexts hobject]
  simp only [utf8_injective.eq_iff]

/-- The members of an answer with a number, a null, a truth value and a name that is not
    recognised, signed with the salt `salt`. -/
def mixedMembers : List (String × Json) :=
  [("note", .string "not signed"), ("pp_Amount", .ofNat 50000), ("pp_BillReference", .null),
   ("pp_ResponseCode", .string "000"),
   ("pp_SecureHash", .string "0C72D40AD282089170091C410D29DCD28F1C4E65474EDAF826F7FFB6BF4F360B"),
   ("ppmpf_1", .bool true)]

/-- The mixed members pass the check of an answer, so they pass the check of a posted form. -/
theorem mixed_members_verified :
    (standard "salt").verify mixedMembers = .ok () ∧
      (standard "salt").verifyFields (fieldTexts mixedMembers) = .ok () := by
  have hobject : Fields.Ascending mixedMembers := by
    simp only [Fields.Ascending]
    decide
  have hhash : ∀ v, Fields.get? hashField mixedMembers = some v →
      v = .null ∨ ∃ text, v = .string text := by
    intro v hv
    exact Or.inr ⟨_, (Option.some.inj hv).symm⟩
  have hlaw := verification_is_one_law (standard "salt") hobject hhash
  have hverify : (standard "salt").verify mixedMembers = .ok () := by decide +kernel
  exact ⟨hverify, hlaw.2.1.mp hverify⟩

end Signer

end TopUp.Gateway
