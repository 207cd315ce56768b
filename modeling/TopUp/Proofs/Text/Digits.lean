import Mathlib.Data.Char
import Mathlib.Data.List.Induction
import Mathlib.Data.List.Lex
import Mathlib.Data.Nat.Digits.Defs
import Mathlib.Tactic.Ring
import TopUp.Text.Decimal

/-! # Runs of digits

    Of two runs of digits of the same length, the one that comes first as a text is the
    smaller number (`lt_iff_ofDigitChars_lt`), so no two of them are one number. A number
    filled up with zeros to a width that holds it has that width and is still that number.
-/

namespace TopUp.Text

variable {c : Char} {ds ds' : List Char} {width n : Nat}

/-! ### Single digits -/

theorem bounds_of_isDigit (h : c.isDigit = true) : 48 ≤ c.toNat ∧ c.toNat ≤ 57 := by
  simpa [Char.isDigit, UInt32.le_iff_toNat_le] using h

theorem lt_ten_of_isDigit (h : c.isDigit = true) : c.toNat - '0'.toNat < 10 := by
  have hbounds := bounds_of_isDigit h
  simp
  omega

theorem digitChar_of_isDigit (h : c.isDigit = true) : (c.toNat - '0'.toNat).digitChar = c := by
  have hdigits : ∀ n < 58, 48 ≤ n → (n - 48).digitChar = Char.ofNat n := by decide
  have hbounds := bounds_of_isDigit h
  have hchar := hdigits c.toNat (by omega) hbounds.1
  rwa [Char.ofNat_toNat] at hchar

theorem isDigit_of_mem_replicate {k : Nat} : ∀ c ∈ List.replicate k '0', c.isDigit = true := by
  intro c hc
  rw [List.eq_of_mem_replicate hc]
  rfl

/-- The text consists of that many ASCII digits. -/
def IsDigits (count : Nat) (s : String) : Prop :=
  s.length = count ∧ ∀ c ∈ s.toList, c.isDigit = true

instance (count : Nat) (s : String) : Decidable (IsDigits count s) :=
  decidable_of_iff (s.length = count ∧ s.toList.all Char.isDigit = true)
    (by rw [IsDigits, List.all_eq_true])

/-! ### The number of a run -/

theorem ofDigitChars_concat (ds : List Char) (c : Char) :
    Nat.ofDigitChars 10 (ds ++ [c]) 0 = 10 * Nat.ofDigitChars 10 ds 0 + (c.toNat - '0'.toNat) := by
  rw [Nat.ofDigitChars_append, Nat.ofDigitChars_cons, Nat.ofDigitChars_nil]

theorem ofDigitChars_first (c : Char) (ds : List Char) :
    Nat.ofDigitChars 10 (c :: ds) 0 =
      10 ^ ds.length * (c.toNat - '0'.toNat) + Nat.ofDigitChars 10 ds 0 := by
  rw [Nat.ofDigitChars_cons, Nat.ofDigitChars_eq_ofDigitChars_zero]
  simp

theorem ofDigitChars_lt (h : ∀ c ∈ ds, c.isDigit = true) :
    Nat.ofDigitChars 10 ds 0 < 10 ^ ds.length := by
  induction ds using List.reverseRecOn with
  | nil => simp
  | append_singleton ds c ih =>
    have hinit := ih fun d hd => h d (List.mem_append_left _ hd)
    have hlast := lt_ten_of_isDigit (h c (by simp))
    rw [ofDigitChars_concat, List.length_append, List.length_singleton, pow_succ]
    omega

theorem ofDigitChars_lt_of_lt (h : ∀ c ∈ ds, c.isDigit = true) (h' : ∀ c ∈ ds', c.isDigit = true)
    (hlength : ds.length = ds'.length) (hlt : ds < ds') :
    Nat.ofDigitChars 10 ds 0 < Nat.ofDigitChars 10 ds' 0 := by
  induction hlt with
  | nil => simp at hlength
  | @cons c ds ds' _ ih =>
    rw [List.length_cons, List.length_cons, Nat.add_right_cancel_iff] at hlength
    have hrest := ih (List.forall_mem_cons.mp h).2 (List.forall_mem_cons.mp h').2 hlength
    rw [ofDigitChars_first, ofDigitChars_first, hlength]
    omega
  | @rel c ds d ds' hcd =>
    rw [List.length_cons, List.length_cons, Nat.add_right_cancel_iff] at hlength
    obtain ⟨hc, hds⟩ := List.forall_mem_cons.mp h
    have hrest := ofDigitChars_lt hds
    -- one more in the first place is more than all that can follow it
    have hfirst : c.toNat - '0'.toNat + 1 ≤ d.toNat - '0'.toNat := by
      have hbounds := bounds_of_isDigit hc
      have hless : c.toNat < d.toNat := hcd
      simp
      omega
    rw [ofDigitChars_first, ofDigitChars_first, ← hlength]
    calc 10 ^ ds.length * (c.toNat - '0'.toNat) + Nat.ofDigitChars 10 ds 0
        < 10 ^ ds.length * (c.toNat - '0'.toNat) + 10 ^ ds.length := by omega
      _ = 10 ^ ds.length * (c.toNat - '0'.toNat + 1) := by ring
      _ ≤ 10 ^ ds.length * (d.toNat - '0'.toNat) := Nat.mul_le_mul_left _ hfirst
      _ ≤ _ := Nat.le_add_right _ _

/-- Runs of the same length are in the order of their numbers. -/
theorem lt_iff_ofDigitChars_lt (h : ∀ c ∈ ds, c.isDigit = true) (h' : ∀ c ∈ ds', c.isDigit = true)
    (hlength : ds.length = ds'.length) :
    ds < ds' ↔ Nat.ofDigitChars 10 ds 0 < Nat.ofDigitChars 10 ds' 0 := by
  refine ⟨ofDigitChars_lt_of_lt h h' hlength, fun hlt => ?_⟩
  rcases lt_trichotomy ds ds' with hless | rfl | hmore
  · exact hless
  · exact absurd hlt (lt_irrefl _)
  · exact absurd hlt (ofDigitChars_lt_of_lt h' h hlength.symm hmore).asymm

/-- Digits of one number and length are the same. -/
theorem eq_of_ofDigitChars (h : ∀ c ∈ ds, c.isDigit = true) (h' : ∀ c ∈ ds', c.isDigit = true)
    (hlength : ds.length = ds'.length)
    (hvalue : Nat.ofDigitChars 10 ds 0 = Nat.ofDigitChars 10 ds' 0) : ds = ds' := by
  rcases lt_trichotomy ds ds' with hless | heq | hmore
  · exact absurd hvalue (ofDigitChars_lt_of_lt h h' hlength hless).ne
  · exact heq
  · exact absurd hvalue (ofDigitChars_lt_of_lt h' h hlength.symm hmore).ne'

/-- A number ends in zero if its last digit does. -/
theorem mod_ten_eq_zero_iff (h : ∀ c ∈ ds, c.isDigit = true) (hne : ds ≠ []) :
    Nat.ofDigitChars 10 ds 0 % 10 = 0 ↔ ds.getLast? = some '0' := by
  rcases List.eq_nil_or_concat' ds with rfl | ⟨ds, c, rfl⟩
  · exact absurd rfl hne
  · have hc := h c (by simp)
    have hlt := lt_ten_of_isDigit hc
    rw [ofDigitChars_concat, List.getLast?_append, List.getLast?_singleton, Option.some_or,
      Option.some.injEq]
    constructor
    · intro hzero
      rw [← digitChar_of_isDigit hc, show c.toNat - '0'.toNat = 0 by omega]
      rfl
    · rintro rfl
      omega

/-! ### Numbers filled up with zeros -/

theorem length_paddedDigits (hwidth : 0 < width) (h : n < 10 ^ width) :
    (paddedDigits width n).length = width := by
  have hle := Nat.toDigits_length 10 n width hwidth h
  simp only [paddedDigits, List.length_append, List.length_replicate]
  omega

theorem isDigit_of_mem_paddedDigits : ∀ c ∈ paddedDigits width n, c.isDigit = true := by
  intro c hc
  rcases List.mem_append.mp hc with hzero | hdigit
  · exact isDigit_of_mem_replicate c hzero
  · exact Nat.isDigit_of_mem_toDigits (by decide) (by decide) hdigit

theorem ofDigitChars_paddedDigits (width n : Nat) :
    Nat.ofDigitChars 10 (paddedDigits width n) 0 = n := by
  simp only [paddedDigits]
  rw [Nat.ofDigitChars_append, Nat.ofDigitChars_replicate_zero, Nat.mul_zero,
    Nat.ofDigitChars_ten_toDigits]

end TopUp.Text
