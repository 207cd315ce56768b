import Mathlib.Data.List.Infix
import TopUp.Payment.Identity
import TopUp.Proofs.Text.Digits

/-! # Customer identifiers in their normal form

    A mobile number is dialled in one of four ways, all of which lead to ten digits of a
    subscriber (`Dials`); its normal form is a zero and those ten digits
    (`mobileNumber_eq_ok`). The normal form of a national identity number are its last six
    digits (`nationalId_eq_ok`). Nothing but the digits that were typed counts, and what is
    in normal form is left as it is (`normal_forms_projected`).

    The digits of the subscriber may be any, so a normal form need not be that of a mobile
    number, `03XXXXXXXXX` (`normal_form_mobile_iff`).
-/

namespace TopUp.Identity

open TopUp.Gateway TopUp.Text

variable {s t p n : String} {ds sub : List Char}

/-! ### Digits -/

theorem isDigit_of_mem_digits : ∀ c ∈ digits s, c.isDigit = true :=
  fun _ hc => (List.mem_filter.mp hc).2

theorem digits_of_isDigits {count : Nat} (h : IsDigits count s) : digits s = s.toList :=
  List.filter_eq_self.mpr h.2

/-! ### Mobile numbers -/

/-- What was dialled, and the ten digits of the subscriber that it leads to. -/
inductive Dials : List Char → List Char → Prop where
  | subscriber {sub : List Char} (h : sub.length = 10) : Dials sub sub
  | national {sub : List Char} (h : sub.length = 10) : Dials ('0' :: sub) sub
  | international {sub : List Char} (h : sub.length = 10) : Dials ('9' :: '2' :: sub) sub
  /-- A digit too many is dropped. -/
  | overlong {sub : List Char} (last : Char) (h : sub.length = 10) :
      Dials ('9' :: '2' :: (sub ++ [last])) sub

/-- Ten digits, eleven that start with a zero, or twelve or thirteen that start with the
    country code. -/
def Dialable (ds : List Char) : Prop :=
  ds.length = 10 ∨ ds.length = 11 ∧ ['0'] <+: ds ∨
    (ds.length = 12 ∨ ds.length = 13) ∧ ['9', '2'] <+: ds

theorem Dials.length (h : Dials ds sub) : sub.length = 10 := by
  cases h <;> assumption

theorem Dials.mem (h : Dials ds sub) : ∀ c ∈ sub, c ∈ ds := by
  intro c hc
  cases h with
  | subscriber => exact hc
  | national => exact List.mem_cons_of_mem _ hc
  | international => exact List.mem_cons_of_mem _ (List.mem_cons_of_mem _ hc)
  | overlong last =>
    exact List.mem_cons_of_mem _ (List.mem_cons_of_mem _ (List.mem_append_left _ hc))

theorem Dials.dialable (h : Dials ds sub) : Dialable ds := by
  cases h with
  | subscriber h => exact .inl h
  | national h => exact .inr (.inl ⟨by simp [h], by simp⟩)
  | international h => exact .inr (.inr ⟨.inl (by simp [h]), by simp⟩)
  | overlong last h => exact .inr (.inr ⟨.inr (by simp [h]), by simp⟩)

theorem Dialable.dials (h : Dialable ds) : ∃ sub, Dials ds sub := by
  rcases h with hten | ⟨height, sub, rfl⟩ | ⟨hlength, rest, rfl⟩
  · exact ⟨ds, .subscriber hten⟩
  · exact ⟨sub, .national (by simpa using height)⟩
  · rcases hlength with hlength | hlength
    · exact ⟨rest, .international (by simpa using hlength)⟩
    · rcases List.eq_nil_or_concat' rest with rfl | ⟨sub, last, rfl⟩
      · simp at hlength
      · exact ⟨sub, .overlong last (by simpa using hlength)⟩

theorem Dials.localForm? (h : Dials ds sub) : localForm? ds = some ('0' :: sub) := by
  cases h with
  | subscriber h => simp [Identity.localForm?, h]
  | national h => simp [Identity.localForm?, h]
  | international h =>
    have htake : sub.take 10 = sub := List.take_of_length_le h.le
    simp [Identity.localForm?, h, htake]
  | overlong last h =>
    simp [Identity.localForm?, h]

theorem localForm?_of_not_dialable (h : ¬ Dialable ds) : localForm? ds = none := by
  simp only [Dialable, List.prefix_iff_eq_take, not_or] at h
  obtain ⟨hten, hnational, hinternational⟩ := h
  unfold localForm?
  rw [if_neg, if_neg, if_neg hten]
  · exact fun hcode => hinternational ⟨hcode.1, hcode.2.symm⟩
  · exact fun hzero => hnational ⟨hzero.1, hzero.2.symm⟩

/-- A number is accepted if it was dialled in one of the four ways, and then its normal form
    is a zero and the subscriber's digits. -/
theorem mobileNumber_eq_ok :
    mobileNumber s = .ok p ↔ ∃ sub, Dials (digits s) sub ∧ p = String.ofList ('0' :: sub) := by
  constructor
  · intro h
    by_cases hdialable : Dialable (digits s)
    · obtain ⟨sub, hsub⟩ := hdialable.dials
      refine ⟨sub, hsub, ?_⟩
      simp only [mobileNumber, hsub.localForm?] at h
      split at h
      · exact absurd h (by simp)
      · exact (Except.ok.inj h).symm
    · simp only [mobileNumber, localForm?_of_not_dialable hdialable] at h
      split at h
      · exact absurd h (by simp)
      · exact absurd h (by simp)
  · rintro ⟨sub, hsub, rfl⟩
    have hne : (digits s).isEmpty = false := by
      rw [List.isEmpty_eq_false_iff]
      intro hempty
      rw [hempty] at hsub
      cases hsub with
      | subscriber h => simp at h
    simp only [mobileNumber, hsub.localForm?, hne, Bool.false_eq_true, if_false]

/-- The subscriber's digits do not depend on how they are told from the rest. -/
theorem Dials.unique {sub' : List Char} (h : Dials ds sub) (h' : Dials ds sub') : sub = sub' := by
  have heq := h.localForm?.symm.trans h'.localForm?
  simpa using heq

/-- A normal form is eleven digits. -/
theorem Dials.isDigits (h : Dials (digits s) sub) : IsDigits 11 (String.ofList ('0' :: sub)) := by
  constructor
  · rw [String.length_ofList, List.length_cons, h.length]
  · rw [String.toList_ofList, List.forall_mem_cons]
    exact ⟨rfl, fun c hc => isDigit_of_mem_digits c (h.mem c hc)⟩

/-- Eleven digits that start with a zero are in normal form. -/
theorem mobileNumber_of_isDigits (hp : IsDigits 11 p) (hzero : ['0'] <+: p.toList) :
    mobileNumber p = .ok p := by
  obtain ⟨sub, hsub⟩ := hzero
  have hlength : sub.length = 10 := by
    have hlist := congrArg List.length hsub
    rw [String.length_toList, hp.1] at hlist
    simpa using hlist
  refine mobileNumber_eq_ok.mpr ⟨sub, ?_, ?_⟩
  · rw [digits_of_isDigits hp, ← hsub]
    exact .national hlength
  · rw [← String.toList_inj, String.toList_ofList, ← hsub]
    rfl

/-! ### National identity numbers -/

theorem nationalId_eq_ok :
    nationalId s = .ok n ↔ 6 ≤ (digits s).length ∧
      n = String.ofList ((digits s).drop ((digits s).length - 6)) := by
  unfold nationalId
  dsimp only
  split_ifs with hempty hshort
  · simp [List.isEmpty_iff.mp hempty]
  · simp [Nat.not_le.mpr hshort]
  · simp [Nat.not_lt.mp hshort, eq_comm]

theorem nationalId_of_isDigits (hn : IsDigits 6 n) : nationalId n = .ok n := by
  have hlength : n.toList.length = 6 := by rw [String.length_toList, hn.1]
  rw [nationalId_eq_ok, digits_of_isDigits hn, hlength]
  simp

/-! ### Normal forms -/

/-- The normal form of what was typed is a matter of its digits alone; it exists just if
    their number and their beginning allow it; and it is its own normal form. -/
theorem normal_forms_projected (s : String) :
    (∀ t, digits t = digits s → mobileNumber t = mobileNumber s ∧ nationalId t = nationalId s) ∧
      ((∃ p, mobileNumber s = .ok p) ↔ Dialable (digits s)) ∧
      ((∃ n, nationalId s = .ok n) ↔ 6 ≤ (digits s).length) ∧
      (∀ p, mobileNumber s = .ok p → IsDigits 11 p ∧ ['0'] <+: p.toList ∧
        (∃ sub, Dials (digits s) sub ∧ p.toList = '0' :: sub) ∧ mobileNumber p = .ok p) ∧
      ∀ n, nationalId s = .ok n → IsDigits 6 n ∧ n.toList <:+ digits s ∧ nationalId n = .ok n := by
  refine ⟨?_, ?_, ?_, ?_, ?_⟩
  · intro t ht
    unfold mobileNumber nationalId
    rw [ht]
    exact ⟨rfl, rfl⟩
  · constructor
    · rintro ⟨p, hp⟩
      obtain ⟨sub, hsub, -⟩ := mobileNumber_eq_ok.mp hp
      exact hsub.dialable
    · intro h
      obtain ⟨sub, hsub⟩ := h.dials
      exact ⟨_, mobileNumber_eq_ok.mpr ⟨sub, hsub, rfl⟩⟩
  · constructor
    · rintro ⟨n, hn⟩
      exact (nationalId_eq_ok.mp hn).1
    · intro h
      exact ⟨_, nationalId_eq_ok.mpr ⟨h, rfl⟩⟩
  · intro p hp
    obtain ⟨sub, hsub, rfl⟩ := mobileNumber_eq_ok.mp hp
    have hzero : ['0'] <+: (String.ofList ('0' :: sub)).toList := by simp
    exact ⟨hsub.isDigits, hzero, ⟨sub, hsub, String.toList_ofList⟩,
      mobileNumber_of_isDigits hsub.isDigits hzero⟩
  · intro n hn
    obtain ⟨hlong, rfl⟩ := nationalId_eq_ok.mp hn
    have hdigits : IsDigits 6 (String.ofList ((digits s).drop ((digits s).length - 6))) := by
      constructor
      · rw [String.length_ofList, List.length_drop]
        omega
      · intro c hc
        rw [String.toList_ofList] at hc
        exact isDigit_of_mem_digits c (List.mem_of_mem_drop hc)
    refine ⟨hdigits, ?_, nationalId_of_isDigits hdigits⟩
    rw [String.toList_ofList]
    exact List.drop_suffix _ _

/-- Thirteen digits among other characters, of which a digit of another script is one. -/
theorem overlong_number_projected :
    mobileNumber "+92 (300) ٣ 123-45678" = mobileNumber "9230012345678" ∧
      mobileNumber "+92 (300) ٣ 123-45678" = .ok "03001234567" ∧
      (∃ sub, Dials (digits "+92 (300) ٣ 123-45678") sub ∧ "03001234567".toList = '0' :: sub) ∧
      mobileNumber "03001234567" = .ok "03001234567" ∧
      "345678".toList <:+ digits "+92 (300) ٣ 123-45678" ∧ nationalId "345678" = .ok "345678" := by
  obtain ⟨hdigits, -, -, hmobile, hnational⟩ := normal_forms_projected "+92 (300) ٣ 123-45678"
  have hnumber : mobileNumber "+92 (300) ٣ 123-45678" = .ok "03001234567" := by decide
  have hidentity : nationalId "+92 (300) ٣ 123-45678" = .ok "345678" := by decide
  obtain ⟨-, -, hdialled, hagain⟩ := hmobile _ hnumber
  obtain ⟨-, hlast, hagain'⟩ := hnational _ hidentity
  have hsame : digits "9230012345678" = digits "+92 (300) ٣ 123-45678" := by decide
  exact ⟨(hdigits _ hsame).1.symm, hnumber, hdialled, hagain, hlast, hagain'⟩

/-! ### Mobile numbers among the normal forms -/

/-- The form of a mobile number, `03XXXXXXXXX`. -/
def IsMobile (p : String) : Prop := IsDigits 11 p ∧ ['0', '3'] <+: p.toList

instance (p : String) : Decidable (IsMobile p) := inferInstanceAs (Decidable (_ ∧ _))

/-- The normal forms are the texts of eleven digits that start with a zero, and such a form
    is that of a mobile number just if the subscriber's digits start with a three. -/
theorem normal_form_mobile_iff (p : String) :
    ((∃ s, mobileNumber s = .ok p) ↔ IsDigits 11 p ∧ ['0'] <+: p.toList) ∧
      ∀ s, mobileNumber s = .ok p → (IsMobile p ↔ ∃ sub, Dials (digits s) ('3' :: sub)) := by
  constructor
  · constructor
    · rintro ⟨s, hs⟩
      obtain ⟨sub, hsub, rfl⟩ := mobileNumber_eq_ok.mp hs
      exact ⟨hsub.isDigits, by simp⟩
    · rintro ⟨hp, hzero⟩
      exact ⟨p, mobileNumber_of_isDigits hp hzero⟩
  · intro s hs
    obtain ⟨sub, hsub, rfl⟩ := mobileNumber_eq_ok.mp hs
    constructor
    · rintro ⟨-, hthree⟩
      rw [String.toList_ofList, List.cons_prefix_cons] at hthree
      obtain ⟨-, rest, rfl⟩ := hthree
      exact ⟨rest, hsub⟩
    · rintro ⟨rest, hrest⟩
      obtain rfl := hsub.unique hrest
      exact ⟨hsub.isDigits, by simp⟩

theorem international_number_mobile :
    mobileNumber "+92 300 1234567" = .ok "03001234567" ∧ IsMobile "03001234567" := by
  have hnumber : mobileNumber "+92 300 1234567" = .ok "03001234567" := by decide
  have hdialled : Dials (digits "+92 300 1234567") "3001234567".toList := .international (by decide)
  exact ⟨hnumber, ((normal_form_mobile_iff _).2 _ hnumber).mpr ⟨_, hdialled⟩⟩

/-- A number in local form that lacks its last digit gets a second zero in front. -/
theorem short_number_accepted :
    ∃ s p, mobileNumber s = .ok p ∧ ¬ IsMobile p :=
  ⟨"0300-123456", "00300123456", by decide, by decide⟩

end TopUp.Identity
