import Mathlib.Data.List.Induction
import Mathlib.Data.List.TakeWhile
import TopUp.Json.Reader
import TopUp.Proofs.Text.Digits

/-! # Number literals

    A literal is its sign, its digits, a fraction and an exponent, one after the other
    (`Literal.scan_eq_some`), and each part takes all the characters that it can. So a
    literal ends where a character follows that does not go on with a number
    (`Literal.scan_append`).

    A whole number is written with the fewest digits, and that is the only way to write it
    without fraction and exponent (`Literal.Tight.toDigits_ofDigitChars`).
-/

namespace TopUp.Json

open TopUp.Text

/-- The character may stand in a number behind a digit. -/
def continuesNumber (c : Char) : Bool := c.isDigit || c = '.' || c = 'e' || c = 'E'

/-- A number that is followed by the text ends in front of it. -/
def Delimited (rest : List Char) : Prop := ∀ c ∈ rest.head?, continuesNumber c = false

theorem delimited_nil : Delimited [] := by simp [Delimited]

theorem delimited_cons {c : Char} {rest : List Char} (h : continuesNumber c = false) :
    Delimited (c :: rest) := by
  simpa [Delimited] using h

namespace Reader

theorem ne_of_startsNumber {c d : Char} (hc : startsNumber c = true) (hd : startsNumber d = false) :
    c ≠ d := by
  rintro rfl
  rw [hc] at hd
  exact absurd hd (by decide)

theorem isSpace_of_startsNumber {c : Char} (hc : startsNumber c = true) : isSpace c = false := by
  have hne : c ≠ ' ' ∧ c ≠ '\n' ∧ c ≠ '\t' ∧ c ≠ '\r' :=
    ⟨ne_of_startsNumber hc (by decide), ne_of_startsNumber hc (by decide),
      ne_of_startsNumber hc (by decide), ne_of_startsNumber hc (by decide)⟩
  simp [isSpace, hne]

end Reader

namespace Literal

variable {cs cs' rest t : List Char} {c : Char} {l : Literal} {whole : List Char}
  {fraction : Option (List Char)} {exponent : Option (Bool × List Char)}

/-- Whether a minus sign stands in front, and what follows it. -/
def sign (cs : List Char) : Bool × List Char :=
  match cs with
  | '-' :: rest => (true, rest)
  | _ => (false, cs)

theorem sign_of_ne (h : c ≠ '-') : sign (c :: cs) = (false, c :: cs) := by
  unfold sign
  split
  · next heq => exact absurd (List.cons.inj heq).1 h
  · rfl

/-- The parts of a literal follow one another. -/
theorem scan_eq_some : scan cs = some (l, rest) ↔ ∃ cs₂ cs₃, (sign cs).1 = l.negative ∧
    scanWhole (sign cs).2 = some (l.whole, cs₂) ∧ scanFraction cs₂ = some (l.fraction, cs₃) ∧
    scanExponent cs₃ = some (l.exponent, rest) := by
  have hscan : scan cs = (scanWhole (sign cs).2).bind fun w => (scanFraction w.2).bind fun f =>
      (scanExponent f.2).bind fun e => some (⟨(sign cs).1, w.1, f.1, e.1⟩, e.2) := rfl
  rw [hscan]
  simp only [Option.bind_eq_some_iff, Option.some.injEq, Prod.mk.injEq]
  constructor
  · rintro ⟨⟨w, cs₂⟩, hw, ⟨f, cs₃⟩, hf, ⟨e, cs₄⟩, he, rfl, rfl⟩
    exact ⟨cs₂, cs₃, rfl, hw, hf, he⟩
  · rintro ⟨cs₂, cs₃, hs, hw, hf, he⟩
    exact ⟨_, hw, _, hf, _, he, by rw [hs], rfl⟩

/-- A literal begins with a minus sign or a digit. -/
theorem startsNumber_of_scan (h : scan cs = some (l, rest)) :
    ∃ c cs', cs = c :: cs' ∧ Reader.startsNumber c = true := by
  obtain ⟨cs₂, cs₃, -, hw, -⟩ := scan_eq_some.mp h
  cases cs with
  | nil => simp [sign, scanWhole] at hw
  | cons c cs =>
    refine ⟨c, cs, rfl, ?_⟩
    by_contra hstart
    obtain ⟨hminus, hdigit⟩ : c ≠ '-' ∧ c.isDigit = false := by
      simpa [Reader.startsNumber] using hstart
    have hzero : c ≠ '0' := by
      rintro rfl
      exact absurd hdigit (by decide)
    rw [sign_of_ne hminus] at hw
    simp [scanWhole, hzero, hdigit] at hw

/-! ### Where literals end -/

theorem isDigit_of_delimited (h : Delimited rest) : ∀ c ∈ rest.head?, c.isDigit = false := by
  intro c hc
  have hnot := h c hc
  simp only [continuesNumber, Bool.or_eq_false_iff] at hnot
  exact hnot.1.1.1

/-- The digits in front of a delimiter are those in front of it. -/
theorem takeWhile_append (h : Delimited rest) (cs : List Char) :
    (cs ++ rest).takeWhile Char.isDigit = cs.takeWhile Char.isDigit ∧
      (cs ++ rest).dropWhile Char.isDigit = cs.dropWhile Char.isDigit ++ rest := by
  induction cs with
  | nil =>
    cases rest with
    | nil => simp
    | cons c rest => simp [isDigit_of_delimited h c (by simp)]
  | cons c cs ih =>
    cases hc : c.isDigit with
    | true => simp [hc, ih]
    | false => simp [hc]

theorem scanDigits_append (hrest : Delimited rest) (h : scanDigits cs = some (t, cs')) :
    scanDigits (cs ++ rest) = some (t, cs' ++ rest) := by
  obtain ⟨htake, hdrop⟩ := takeWhile_append hrest cs
  simp only [scanDigits, htake, hdrop] at h ⊢
  split at h
  · exact absurd h (by simp)
  · next hne =>
    obtain ⟨rfl, rfl⟩ := by simpa using h
    simp [hne]

theorem scanWhole_append (hrest : Delimited rest) (h : scanWhole cs = some (t, cs')) :
    scanWhole (cs ++ rest) = some (t, cs' ++ rest) := by
  cases cs with
  | nil => simp [scanWhole] at h
  | cons c cs =>
    obtain ⟨htake, hdrop⟩ := takeWhile_append hrest cs
    rw [List.cons_append]
    unfold scanWhole at h ⊢
    by_cases hzero : c = '0'
    · -- no digit may follow a zero
      have hhead : ((cs ++ rest).head?.map Char.isDigit).getD false =
          (cs.head?.map Char.isDigit).getD false := by
        cases cs with
        | cons => rfl
        | nil =>
          cases rest with
          | nil => rfl
          | cons d rest => simp [isDigit_of_delimited hrest d (by simp)]
      simp only [hzero, if_true] at h ⊢
      rw [hhead]
      split at h
      · exact absurd h (by simp)
      · next hnot =>
        obtain ⟨rfl, rfl⟩ := by simpa using h
        simp [hnot]
    · simp only [hzero, if_false] at h ⊢
      rw [htake, hdrop]
      split at h
      · next hdigit =>
        obtain ⟨rfl, rfl⟩ := by simpa using h
        simp [hdigit]
      · exact absurd h (by simp)

theorem scanFraction_append (hrest : Delimited rest) (h : scanFraction cs = some (fraction, cs')) :
    scanFraction (cs ++ rest) = some (fraction, cs' ++ rest) := by
  unfold scanFraction at h
  split at h
  · next cs =>
    obtain ⟨⟨ds, left⟩, hds, heq⟩ := Option.map_eq_some_iff.mp h
    obtain ⟨rfl, rfl⟩ := by simpa using heq
    simp [scanFraction, scanDigits_append hrest hds]
  · next hdot =>
    obtain ⟨rfl, rfl⟩ := by simpa using h
    unfold scanFraction
    split
    · next cs' heq =>
      -- the point can stand neither in the text nor behind it
      cases cs with
      | nil =>
        have hpoint := hrest '.' (by simp at heq; simp [heq])
        exact absurd hpoint (by decide)
      | cons c cs =>
        rw [(List.cons.inj heq).1] at hdot
        exact absurd rfl (hdot cs)
    · rfl

theorem scanExponent_append (hrest : Delimited rest)
    (h : scanExponent cs = some (exponent, cs')) :
    scanExponent (cs ++ rest) = some (exponent, cs' ++ rest) := by
  cases cs with
  | nil =>
    obtain ⟨rfl, rfl⟩ := by simpa [scanExponent] using h
    cases rest with
    | nil => rfl
    | cons c rest =>
      have hmark := hrest c (by simp)
      simp only [continuesNumber, Bool.or_eq_false_iff, decide_eq_false_iff_not] at hmark
      simp [scanExponent, hmark.1.2, hmark.2]
  | cons c cs =>
    rw [List.cons_append]
    by_cases hmark : c = 'e' ∨ c = 'E'
    · simp only [scanExponent, hmark, if_true] at h ⊢
      split at h
      · next cs =>
        obtain ⟨⟨ds, left⟩, hds, heq⟩ := Option.map_eq_some_iff.mp h
        obtain ⟨rfl, rfl⟩ := by simpa using heq
        simp [scanDigits_append hrest hds]
      · next cs =>
        obtain ⟨⟨ds, left⟩, hds, heq⟩ := Option.map_eq_some_iff.mp h
        obtain ⟨rfl, rfl⟩ := by simpa using heq
        simp [scanDigits_append hrest hds]
      · next hplus hminus =>
        obtain ⟨⟨ds, left⟩, hds, heq⟩ := Option.map_eq_some_iff.mp h
        obtain ⟨rfl, rfl⟩ := by simpa using heq
        have happend := scanDigits_append hrest hds
        cases cs with
        | nil => simp [scanDigits] at hds
        | cons d cs =>
          rw [List.cons_append] at happend ⊢
          split
          · next heq =>
            rw [(List.cons.inj heq).1] at hplus
            exact absurd rfl (hplus cs)
          · next heq =>
            rw [(List.cons.inj heq).1] at hminus
            exact absurd rfl (hminus cs)
          · simp [happend]
    · simp only [scanExponent, hmark, if_false] at h ⊢
      obtain ⟨rfl, rfl⟩ := by simpa using h
      rfl

theorem sign_append (hne : cs ≠ []) (rest : List Char) :
    sign (cs ++ rest) = ((sign cs).1, (sign cs).2 ++ rest) := by
  cases cs with
  | nil => exact absurd rfl hne
  | cons c cs =>
    by_cases hc : c = '-'
    · subst hc
      rfl
    · rw [sign_of_ne hc, List.cons_append, sign_of_ne hc]

/-- A literal ends where a delimiter follows. -/
theorem scan_append (hrest : Delimited rest) (h : scan t = some (l, [])) :
    scan (t ++ rest) = some (l, rest) := by
  obtain ⟨c, t', rfl, -⟩ := startsNumber_of_scan h
  obtain ⟨cs₂, cs₃, hs, hw, hf, he⟩ := scan_eq_some.mp h
  rw [scan_eq_some, sign_append (by simp)]
  exact ⟨_, _, hs, scanWhole_append hrest hw, scanFraction_append hrest hf,
    scanExponent_append hrest he⟩

/-! ### Whole numbers -/

/-- Digits without needless zeros in front. -/
structure Tight (ds : List Char) : Prop where
  nonempty : ds ≠ []
  digits : ∀ c ∈ ds, c.isDigit = true
  zero : ds.head? = some '0' → ds = ['0']

theorem tight_toDigits (n : Nat) : Tight (Nat.toDigits 10 n) := by
  have hdigits : ∀ c ∈ Nat.toDigits 10 n, c.isDigit = true := fun c hc =>
    Nat.isDigit_of_mem_toDigits (by decide) (by decide) hc
  refine ⟨Nat.toDigits_ne_nil, hdigits, ?_⟩
  clear hdigits
  induction n using Nat.base_induction 10 (by decide) with
  | single m hm =>
    rw [Nat.toDigits_of_lt_base hm]
    simp
  | digit m k hk hm ih =>
    rw [← Nat.toDigits_append_toDigits (by decide) hm hk, List.head?_append,
      Option.or_of_isSome (by simp [Nat.toDigits_ne_nil])]
    intro hzero
    -- a number that begins with zero is zero
    have hvalue : Nat.ofDigitChars 10 (Nat.toDigits 10 m) 0 = m :=
      Nat.ofDigitChars_toDigits (by decide) (by decide)
    rw [ih hzero] at hvalue
    exact absurd hvalue (by simp [Nat.ofDigitChars]; omega)

/-- There is one way to write a number without needless zeros. -/
theorem Tight.toDigits_ofDigitChars {ds : List Char} (h : Tight ds) :
    Nat.toDigits 10 (Nat.ofDigitChars 10 ds 0) = ds := by
  induction ds using List.reverseRecOn with
  | nil => exact absurd rfl h.nonempty
  | append_singleton ds c ih =>
    have hc : c.isDigit = true := h.digits c (by simp)
    have hlt := lt_ten_of_isDigit hc
    have hlast : Nat.toDigits 10 (c.toNat - '0'.toNat) = [c] := by
      rw [Nat.toDigits_of_lt_base hlt, digitChar_of_isDigit hc]
    rw [Nat.ofDigitChars_append]
    cases ds with
    | nil => simpa [Nat.ofDigitChars] using hlast
    | cons d ds =>
      have hd : d ≠ '0' := by
        rintro rfl
        exact absurd (h.zero rfl) (by simp)
      have hinit : Tight (d :: ds) := by
        refine ⟨by simp, fun x hx => h.digits x (List.mem_append_left _ hx), ?_⟩
        intro hzero
        exact absurd (by simpa using hzero) hd
      have hpos : 0 < Nat.ofDigitChars 10 (d :: ds) 0 := by
        rw [Nat.pos_iff_ne_zero]
        intro hzero
        have hwritten := ih hinit
        rw [hzero, Nat.toDigits_zero] at hwritten
        exact hd (List.cons.inj hwritten).1.symm
      have hten : 1 < 10 := by decide
      have happend := Nat.toDigits_append_toDigits hten hpos hlt
      rw [ih hinit, hlast] at happend
      rw [happend]
      simp [Nat.ofDigitChars]

theorem scanWhole_of_tight {ds : List Char} (h : Tight ds) : scanWhole ds = some (ds, []) := by
  cases ds with
  | nil => exact absurd rfl h.nonempty
  | cons c ds =>
    unfold scanWhole
    by_cases hzero : c = '0'
    · subst hzero
      obtain rfl : ds = [] := by simpa using h.zero rfl
      simp
    · have hdigits : ∀ c ∈ ds, c.isDigit = true := fun x hx => h.digits x (by simp [hx])
      have htake : ds.takeWhile Char.isDigit = ds := List.takeWhile_eq_self_iff.mpr hdigits
      have hdrop : ds.dropWhile Char.isDigit = [] := List.dropWhile_eq_nil_iff.mpr hdigits
      simp [hzero, h.digits c (by simp), htake, hdrop]

/-- The digits before the point are without needless zeros. -/
theorem tight_of_scanWhole (h : scanWhole cs = some (t, rest)) : Tight t ∧ cs = t ++ rest := by
  cases cs with
  | nil => simp [scanWhole] at h
  | cons c cs =>
    by_cases hzero : c = '0'
    · simp only [scanWhole, hzero, if_true] at h
      split at h
      · exact absurd h (by simp)
      · obtain ⟨rfl, rfl⟩ := by simpa using h
        exact ⟨⟨by simp, by simp, fun _ => rfl⟩, by rw [hzero]; rfl⟩
    · simp only [scanWhole, hzero, if_false] at h
      split at h
      · next hdigit =>
        simp only [Option.some.injEq, Prod.mk.injEq] at h
        obtain ⟨rfl, rfl⟩ := h
        refine ⟨⟨by simp, ?_, ?_⟩, by simp [List.takeWhile_append_dropWhile]⟩
        · intro x hx
          rcases List.mem_cons.mp hx with rfl | hx
          · exact hdigit
          · exact List.mem_takeWhile_imp hx
        · intro hhead
          exact absurd (by simpa using hhead) hzero
      · exact absurd h (by simp)

/-! ### Integers -/

theorem toList_decimalInt (i : Int) :
    (decimalInt i).toList = (if i < 0 then ['-'] else []) ++ Nat.toDigits 10 i.natAbs := by
  cases i with
  | ofNat n => simp [decimalInt, decimal]
  | negSucc n =>
    have hlt : Int.negSucc n < 0 := by omega
    simp [decimalInt, decimal, hlt]

/-- A printed integer is a literal. -/
theorem scan_decimalInt (i : Int) :
    scan (decimalInt i).toList =
      some (⟨decide (i < 0), Nat.toDigits 10 i.natAbs, none, none⟩, []) := by
  have hwhole := scanWhole_of_tight (tight_toDigits i.natAbs)
  rw [toList_decimalInt, scan_eq_some]
  by_cases hneg : i < 0
  · refine ⟨[], [], ?_⟩
    simp [hneg, sign, hwhole, scanFraction, scanExponent]
  · -- a digit is no minus sign
    have hsign : sign (Nat.toDigits 10 i.natAbs) = (false, Nat.toDigits 10 i.natAbs) := by
      have hdigits := (tight_toDigits i.natAbs).digits
      cases hds : Nat.toDigits 10 i.natAbs with
      | nil => exact absurd hds Nat.toDigits_ne_nil
      | cons c ds =>
        refine sign_of_ne ?_
        rintro rfl
        exact absurd (hdigits '-' (by simp [hds])) (by decide)
    refine ⟨[], [], ?_⟩
    simp [hneg, hsign, hwhole, scanFraction, scanExponent]

/-- A printed integer reads back, if it has 64 bits. -/
theorem value_decimalInt (i : Int) (hlow : -(UInt64.size / 2 : Nat) ≤ i) (hhigh : i ≤ capacity) :
    value? ⟨decide (i < 0), Nat.toDigits 10 i.natAbs, none, none⟩ = some (.integer i) := by
  have hn : Nat.ofDigitChars 10 (Nat.toDigits 10 i.natAbs) 0 = i.natAbs :=
    Nat.ofDigitChars_ten_toDigits
  by_cases hneg : i < 0
  · have hsize : 0 < i.natAbs ∧ i.natAbs ≤ UInt64.size / 2 := by omega
    have hback : -(i.natAbs : Int) = i := by omega
    simp only [value?, hn, hneg, hsize, hback, Option.isNone_none, Bool.and_self, decide_true,
      Bool.not_true, Bool.false_and, Bool.false_eq_true, if_true, if_false]
  · have hsize : i.natAbs ≤ capacity := by omega
    have hback : (i.natAbs : Int) = i := by omega
    simp only [value?, hn, hneg, hsize, hback, Option.isNone_none, Bool.and_self, decide_true,
      decide_false, Bool.not_false, if_true]

end Literal

end TopUp.Json
