import Mathlib.Data.Nat.Factorization.Basic
import TopUp.Proofs.Json.Decimals
import TopUp.Proofs.Text.Pieces

/-! # Literals that are written anew

    What becomes of a literal that is read and written anew can be told by its parts
    (`foretold`). Whole numbers of 64 bits are kept. A literal with a point is not kept if its
    fraction ends in a needless zero (`terse_of_kept`). If it does not, and the literal has
    fifteen digits, it is the shortest decimal of the fraction that is read, and so it is kept
    (`kept_of_terse`). A literal with a small exponent is not kept (`exponent_of_kept`): the
    number is written without one.
-/

namespace TopUp.Json.Literal

open TopUp.Number TopUp.Text

variable {ds t : List Char} {l : Literal} {n : Nat} {lead : Int} {x : Binary64} {number : Number}

/-! ### Reading decimals -/

/-- Digits that fit are gathered as the number that they stand for. -/
theorem gather_eq {sum : Nat} (h : Nat.ofDigitChars 10 ds sum ≤ capacity) :
    gather sum ds = (Nat.ofDigitChars 10 ds sum, 0) := by
  induction ds generalizing sum with
  | nil => rfl
  | cons c ds ih =>
    have hnext : sum * 10 + digit c = 10 * sum + (c.toNat - '0'.toNat) := by
      simp only [digit]
      rw [Nat.mul_comm]
      rfl
    rw [Nat.ofDigitChars_cons] at h ⊢
    have hle : 10 * sum + (c.toNat - '0'.toNat) ≤ capacity := by
      refine le_trans ?_ h
      rw [Nat.ofDigitChars_eq_ofDigitChars_zero]
      exact (Nat.le_mul_of_pos_left _ (by positivity)).trans (Nat.le_add_right _ _)
    simp only [gather]
    rw [hnext, if_neg (not_lt.mpr hle), ih h]

/-- A short decimal is divided once, and the sides of the division are exact. -/
theorem scale_spec {k : Nat} (hn : 0 < n) (hshort : n < 10 ^ 15) (hk : 0 < k) (hk' : k ≤ 22) :
    ∃ x, scale n (-(k : Int)) = some x ∧ x.negative = false ∧
      Binary64.Rounds (n * 10 ^ (-(k : Int))) x := by
  have hpow : Nat.pow 10 k = 10 ^ k := rfl
  have hone : (1 : ℚ) ≤ n := by exact_mod_cast hn
  have hshort' : (n : ℚ) ≤ 10 ^ 15 := by exact_mod_cast hshort.le
  -- the digits and the power of ten
  obtain ⟨a, ha, hasign, hasize⟩ := Binary64.size_ofNat? hn
    (show n = n * 2 ^ 0 by rw [pow_zero, Nat.mul_one]) (hshort.trans (by norm_num))
    (hshort.le.trans (by norm_num))
  obtain ⟨b, hb, hbsign, hbsize⟩ := Binary64.size_ofNat? (show 0 < 10 ^ k by positivity)
    (show 10 ^ k = 5 ^ k * 2 ^ k by rw [← Nat.mul_pow])
    (lt_of_le_of_lt (Nat.pow_le_pow_right (by decide) hk') (by norm_num))
    (Nat.pow_le_pow_right (by decide) (by omega))
  push_cast at hbsize
  -- their quotient
  have hquotient : a.size / b.size = n * 10 ^ (-(k : Int)) := by
    rw [hasize, hbsize, zpow_neg, zpow_natCast, div_eq_mul_inv]
  have hlow : (10 : ℚ) ^ (-22 : Int) ≤ 10 ^ (-(k : Int)) :=
    zpow_le_zpow_right₀ (by norm_num) (by omega)
  have hhigh : (10 : ℚ) ^ (-(k : Int)) ≤ 1 := zpow_le_one_of_nonpos₀ (by norm_num) (by omega)
  have hge : (1 : ℚ) * 10 ^ (-22 : Int) ≤ n * 10 ^ (-(k : Int)) :=
    mul_le_mul hone hlow (by positivity) (by positivity)
  have hle : (n : ℚ) * 10 ^ (-(k : Int)) ≤ 10 ^ 15 * 1 :=
    mul_le_mul hshort' hhigh (by positivity) (by positivity)
  obtain ⟨x, hx, hxsign, hrounds⟩ := Binary64.rounds_div? (by rw [hasize]; linarith)
    (by rw [hbsize]; positivity) hquotient
    (Binary64.moderate_of (le_trans (by norm_num) hge) (hle.trans (by norm_num)))
  have hzero : a.isZero = false := by
    rw [Binary64.isZero, decide_eq_false_iff_not]
    intro hzero
    rw [Binary64.size, hzero, Nat.cast_zero, zero_mul] at hasize
    linarith
  refine ⟨x, ?_, by rw [hxsign, hasign, hbsign]; rfl, hrounds⟩
  have hstep : stepDown 4 a (-(k : Int)) = some (a, -(k : Int)) := by
    rw [stepDown, if_pos (by simp only [largestStep]; omega)]
  simp only [scale, ha, hzero, hstep, Option.bind_eq_bind, Option.bind_some, Bool.false_eq_true,
    if_false, Int.natAbs_neg, Int.natAbs_natCast, hpow, hb]
  rw [if_neg (by simp only [largestStep]; omega), if_neg (by omega)]
  exact hx

/-- The digits of a short literal are gathered, and the point is counted. -/
theorem real?_eq (hfraction : l.fraction = some ds) (hexponent : l.exponent = none)
    (hvalue : Nat.ofDigitChars 10 (l.whole ++ ds) 0 = n) (hshort : n < 10 ^ 15) :
    l.real? = (scale n (-(ds.length : Int))).map fun x => if l.negative then x.neg else x := by
  have hcapacity : n ≤ capacity := hshort.le.trans (by decide)
  rw [Nat.ofDigitChars_append] at hvalue
  have hwhole : Nat.ofDigitChars 10 l.whole 0 ≤ capacity := by
    refine le_trans ?_ hcapacity
    rw [← hvalue, Nat.ofDigitChars_eq_ofDigitChars_zero (l := ds)]
    exact (Nat.le_mul_of_pos_left _ (by positivity)).trans (Nat.le_add_right _ _)
  have hall : gather (Nat.ofDigitChars 10 l.whole 0) ds = (n, 0) := by
    rw [gather_eq (hvalue.trans_le hcapacity), hvalue]
  simp only [real?, gather_eq hwhole, hfraction, hexponent, hall, Nat.cast_zero]
  rw [show (0 : Int) - (ds.length - 0) = -(ds.length : Int) by ring]
  cases scale n (-(ds.length : Int)) <;> rfl

/-- A short decimal that is not zero is read as a fraction that it rounds to. -/
theorem real?_spec (hfraction : l.fraction = some ds) (hexponent : l.exponent = none)
    (hvalue : Nat.ofDigitChars 10 (l.whole ++ ds) 0 = n) (hn : 0 < n) (hshort : n < 10 ^ 15)
    (hds : ds ≠ []) (hk : ds.length ≤ 22) :
    ∃ x, l.real? = some x ∧ x.negative = l.negative ∧
      Binary64.Rounds (n * 10 ^ (-(ds.length : Int))) x := by
  obtain ⟨x, hx, hsign, hrounds⟩ := scale_spec hn hshort (List.length_pos_iff.mpr hds) hk
  rw [real?_eq hfraction hexponent hvalue hshort, hx, Option.map_some]
  refine ⟨_, rfl, ?_⟩
  cases l.negative
  · exact ⟨hsign, hrounds⟩
  · exact ⟨by simp [Binary64.neg, hsign], hrounds.full, hrounds.small, hrounds.has⟩

theorem real?_zero (hfraction : l.fraction = some ds) (hexponent : l.exponent = none)
    (hvalue : Nat.ofDigitChars 10 (l.whole ++ ds) 0 = 0) :
    l.real? = some { Binary64.zero with negative := l.negative } := by
  have hscale : scale 0 (-(ds.length : Int)) = some Binary64.zero := rfl
  rw [real?_eq hfraction hexponent hvalue (by decide), hscale]
  cases l.negative <;> rfl

/-! ### Literals with a point -/

/-- A literal with a point and without exponent is its sign, and digits on either side. -/
theorem eq_of_fraction (h : scan t = some (l, [])) (hfraction : l.fraction = some ds)
    (hexponent : l.exponent = none) :
    t = (if l.negative then ['-'] else []) ++ (l.whole ++ '.' :: ds) ∧ Tight l.whole ∧
      ds ≠ [] ∧ ∀ c ∈ ds, c.isDigit = true := by
  obtain ⟨e, ht, htight, hdigits, hraises⟩ := parts_of_scan h
  rw [hexponent] at hraises
  cases hraises
  rw [hfraction, List.append_nil] at ht
  exact ⟨ht, htight, hdigits ds hfraction⟩

/-- A literal that is no whole number is read as a fraction. -/
theorem kept_real_iff (h : scan t = some (l, [])) (hvalue : l.value? = some number)
    (hreal : l.fraction ≠ none ∨ l.exponent ≠ none) :
    ∃ x, l.real? = some x ∧
      (Kept t ↔ (if x.negative then ['-'] else []) ++ sizeChars x = t) := by
  obtain ⟨x, hx, rfl⟩ : ∃ x, l.real? = some x ∧ Number.real x = number := by
    have hnone : (l.fraction.isNone && l.exponent.isNone) = false := by
      simp only [Bool.and_eq_false_iff, Option.isNone_eq_false_iff, Option.isSome_iff_ne_none]
      exact hreal
    simpa [value?, hnone] using hvalue
  have hchars : (Number.real x).toChars = realChars x := rfl
  exact ⟨x, hx, by rw [kept_iff h hvalue, hchars, realChars_eq]⟩

/-- A literal with a point whose fraction ends in a needless zero is not kept. -/
theorem terse_of_kept (h : scan t = some (l, [])) (hvalue : l.value? = some number)
    (hfraction : l.fraction = some ds) (hexponent : l.exponent = none) (hkept : Kept t) :
    Terse ds := by
  obtain ⟨ht, htight, -, hds⟩ := eq_of_fraction h hfraction hexponent
  obtain ⟨x, -, hiff⟩ := kept_real_iff h hvalue (Or.inl (by simp [hfraction]))
  have hchars := hiff.mp hkept
  rw [ht] at hchars
  have hsigned : ∀ {v : List Char} (p : Prop) [Decidable p], (∀ c ∈ v, c.isDigit = true) →
      Over ['-'] ((if p then ['-'] else []) ++ v) := fun p _ hv =>
    over_append.mpr ⟨over_sign (by simp) _, over_of_digits hv⟩
  have hpoint : ∀ {cs}, Over ['-'] cs → ∀ c ∈ cs, ¬ c = '.' := by
    rintro cs hover c hc rfl
    exact absurd (hover _ hc) (by decide)
  rcases sizeChars_concise x with ⟨w, ds', hsize, hconcise⟩ | hmark
  · rw [hsize, ← List.append_assoc, ← List.append_assoc] at hchars
    obtain ⟨-, -, rfl⟩ := cut_unique (p := (· = '.'))
      (hpoint (hsigned _ hconcise.tight.digits)) (hpoint (hsigned _ htight.digits)) rfl rfl hchars
    exact hconcise.terse
  · -- there is no exponent in the literal
    have hover : Over ['-', '.'] ((if l.negative then ['-'] else []) ++ (l.whole ++ '.' :: ds)) :=
      over_append.mpr ⟨over_sign (by simp) _, over_append.mpr ⟨over_of_digits htight.digits,
        over_cons.mpr ⟨by decide, over_of_digits hds⟩⟩⟩
    rw [← hchars] at hover
    exact absurd (hover _ (List.mem_append_right _ hmark)) (by decide)

/-- Where the leading digit of a short decimal is that is not too small. -/
theorem lead_bounds {m k z : Nat} (hpos : 0 < m) (hshort : 10 ^ z * m < 10 ^ 15)
    (hlarge : 10 ^ k ≤ 10 ^ z * m * 10 ^ 5) :
    z + (Nat.toDigits 10 m).length < 16 ∧ k < z + (Nat.toDigits 10 m).length + 5 := by
  obtain ⟨hlow, hhigh⟩ := length_toDigits_spec hpos
  have hbelow : z + ((Nat.toDigits 10 m).length - 1) < 15 := by
    rw [← Nat.pow_lt_pow_iff_right (show 1 < 10 by decide), pow_add]
    exact lt_of_le_of_lt (Nat.mul_le_mul_left _ hlow) hshort
  refine ⟨by omega, ?_⟩
  rw [← Nat.pow_lt_pow_iff_right (show 1 < 10 by decide), pow_add, pow_add]
  refine lt_of_le_of_lt hlarge (Nat.mul_lt_mul_of_pos_right ?_ (by positivity))
  exact Nat.mul_lt_mul_of_pos_left hhigh (by positivity)

/-- A short decimal that is not too small is written in full. -/
theorem sizeChars_of_rounds {k : Nat} (hn : 0 < n) (hshort : n < 10 ^ 15) (hk : 0 < k)
    (hlarge : 10 ^ k ≤ n * 10 ^ 5) (h : Binary64.Rounds (n * 10 ^ (-(k : Int))) x) :
    ∃ w ds, sizeChars x = w ++ '.' :: ds ∧ Concise w ds ∧
      Nat.ofDigitChars 10 (w ++ ds) 0 * 10 ^ k = n * 10 ^ ds.length := by
  obtain ⟨z, m, hm, rfl⟩ := Nat.exists_eq_pow_mul_and_not_dvd hn.ne' 10 (by decide)
  have hm' : m % 10 ≠ 0 := fun hzero => hm (Nat.dvd_of_mod_eq_zero hzero)
  have hpos : 0 < m := Nat.pos_of_ne_zero fun hzero => hm' (by simp [hzero])
  have hten : (10 : ℚ) ≠ 0 := by norm_num
  have hdecimal : ((10 ^ z * m : Nat) : ℚ) * 10 ^ (-(k : Int)) = m * 10 ^ ((z : Int) - k) := by
    rw [sub_eq_add_neg, zpow_add₀ hten, zpow_natCast]
    push_cast
    ring
  rw [hdecimal] at h
  have hmshort : m < 10 ^ 15 := lt_of_le_of_lt (Nat.le_mul_of_pos_left _ (by positivity)) hshort
  have hshortest := shortest_eq hm' hmshort h
  obtain ⟨hbelow, habove⟩ := lead_bounds hpos hshort hlarge
  have hzero : x.isZero = false := by
    have hfull := h.full
    rw [Binary64.isZero, decide_eq_false_iff_not]
    omega
  obtain ⟨w, ds, hplain, hconcise, hvalue⟩ := concise_plain hm'
    ((z : Int) - k + (Nat.toDigits 10 m).length - 1)
  refine ⟨w, ds, ?_, hconcise, ?_⟩
  · rw [← hplain]
    simp only [sizeChars, hzero, hshortest, Bool.false_eq_true, if_false]
    rw [if_pos]
    simp only [plainExponents]
    omega
  · have hexp : ((z : Int) - k + (Nat.toDigits 10 m).length - 1) + 1 - (Nat.toDigits 10 m).length +
        ds.length = (z : Int) + ds.length + -(k : Int) := by ring
    rw [hexp, zpow_add₀ hten, zpow_add₀ hten, zpow_natCast, zpow_natCast, zpow_neg,
      zpow_natCast] at hvalue
    have hk' : (10 : ℚ) ^ k ≠ 0 := by positivity
    have hcast : ((Nat.ofDigitChars 10 (w ++ ds) 0 * 10 ^ k : Nat) : ℚ) =
        ((10 ^ z * m * 10 ^ ds.length : Nat) : ℚ) := by
      push_cast
      rw [hvalue]
      field_simp
    exact_mod_cast hcast

/-- A literal with a point that has fifteen digits and is not too small is kept if its
    fraction does not end in a needless zero. -/
theorem kept_of_terse (h : scan t = some (l, [])) (hvalue : l.value? = some number)
    (hfraction : l.fraction = some ds) (hexponent : l.exponent = none)
    (hn : Nat.ofDigitChars 10 (l.whole ++ ds) 0 = n) (hshort : n < 10 ^ 15)
    (hlarge : n = 0 ∨ 10 ^ ds.length ≤ n * 10 ^ 5) (hterse : Terse ds) : Kept t := by
  obtain ⟨ht, htight, hne, hds⟩ := eq_of_fraction h hfraction hexponent
  obtain ⟨x, hx, hiff⟩ := kept_real_iff h hvalue (Or.inl (by simp [hfraction]))
  have hliteral : Concise l.whole ds := ⟨htight, hds, hne, hterse⟩
  rw [hiff, ht]
  rcases Nat.eq_zero_or_pos n with rfl | hpos
  · -- zero is written with one digit on either side
    obtain rfl := Option.some.inj ((real?_zero hfraction hexponent hn).symm.trans hx)
    have hzero : Concise ['0'] ['0'] := ⟨tight_toDigits 0, by simp, by simp, Or.inl rfl⟩
    obtain ⟨hw, hd⟩ := hzero.unique hliteral (by rw [hn]; simp [Nat.ofDigitChars])
    rw [← hw, ← hd]
    rfl
  · have hlarge' := hlarge.resolve_left hpos.ne'
    have hlength : ds.length ≤ 22 := by
      have hlt : 10 ^ ds.length < 10 ^ 20 := lt_of_le_of_lt hlarge' (by omega)
      have := (Nat.pow_lt_pow_iff_right (show 1 < 10 by decide)).mp hlt
      omega
    obtain ⟨x', hx', hsign, hrounds⟩ := real?_spec hfraction hexponent hn hpos hshort hne hlength
    obtain rfl := Option.some.inj (hx'.symm.trans hx)
    obtain ⟨w, ds', hsize, hconcise, hsame⟩ :=
      sizeChars_of_rounds hpos hshort (List.length_pos_iff.mpr hne) hlarge' hrounds
    obtain ⟨rfl, rfl⟩ := hconcise.unique hliteral (by rw [hsame, hn])
    rw [hsign, hsize]

/-! ### Literals with an exponent -/

/-- Behind the mark of a printed exponent stand its sign and its digits. -/
theorem exponent_unique {mark : List Char} (hmark : mark ∈ [[], ['+'], ['-']])
    (hds : ∀ d ∈ ds, d.isDigit = true)
    (h : (if lead < 0 then '-' else '+') :: Nat.toDigits 10 lead.natAbs = mark ++ ds) :
    (mark = ['-'] ↔ lead < 0) ∧ Nat.ofDigitChars 10 ds 0 = lead.natAbs := by
  simp only [List.mem_cons, List.not_mem_nil, or_false] at hmark
  rcases hmark with rfl | rfl | rfl
  · -- a sign is no digit
    have hmem : (if lead < 0 then '-' else '+') ∈ ds := by
      rw [List.nil_append] at h
      rw [← h]
      exact List.mem_cons_self
    have hdigit := hds _ hmem
    split at hdigit <;> exact absurd hdigit (by decide)
  · obtain ⟨hsign, rfl⟩ := List.cons.inj h
    split at hsign
    · exact absurd hsign (by decide)
    · next hlead => exact ⟨by simp [hlead], Nat.ofDigitChars_ten_toDigits⟩
  · obtain ⟨hsign, rfl⟩ := List.cons.inj h
    split at hsign
    · next hlead => exact ⟨by simp [hlead], Nat.ofDigitChars_ten_toDigits⟩
    · exact absurd hsign (by decide)

/-- A literal with an exponent is kept only if it is less than `-5` or more than `15`. -/
theorem exponent_of_kept {below : Bool} (h : scan t = some (l, []))
    (hvalue : l.value? = some number) (hexponent : l.exponent = some (below, ds))
    (hkept : Kept t) : (if below then 5 else 15) < Nat.ofDigitChars 10 ds 0 := by
  obtain ⟨e, ht, htight, hdigits, hraises⟩ := parts_of_scan h
  rw [hexponent] at hraises
  obtain ⟨x, -, hiff⟩ := kept_real_iff h hvalue (Or.inr (by simp [hexponent]))
  replace hkept := hiff.mp hkept
  rw [ht] at hkept
  -- the mark of the exponent is in no other part of either text
  have hfront : Over ['-', '.'] ((if l.negative then ['-'] else []) ++
      (l.whole ++ pointed l.fraction)) :=
    over_append.mpr ⟨over_sign (by simp) _, over_append.mpr ⟨over_of_digits htight.digits,
      over_pointed (by simp) fun ds hds => (hdigits ds hds).2⟩⟩
  have hunmarked : ∀ {cs}, Over ['-', '.'] cs → ∀ c ∈ cs, ¬ (c = 'e' ∨ c = 'E') := by
    intro cs hover c hc hmark
    rcases hmark with rfl | rfl <;> exact absurd (hover _ hc) (by decide)
  cases hraises with
  | @some mark c ds hc hmark hds =>
    rcases sizeChars_cases x with ⟨hover, -⟩ | ⟨d, lead, hsize, hover, hrange⟩
    · have hall : Over ['-', '.'] ((if x.negative then ['-'] else []) ++ sizeChars x) :=
        over_append.mpr ⟨over_sign (by simp) _, hover.mono (by simp)⟩
      rw [hkept] at hall
      exact absurd hc (hunmarked hall c (by simp))
    · have hback : Over ['-', '.'] ((if x.negative then ['-'] else []) ++ mantissa d) :=
        over_append.mpr ⟨over_sign (by simp) _, over_mantissa (by simp) (hover.mono (by simp))⟩
      rw [hsize, scientific_eq] at hkept
      obtain ⟨-, -, hrest⟩ := cut_unique (p := fun c => c = 'e' ∨ c = 'E') (hunmarked hback)
        (hunmarked hfront) (Or.inl rfl) hc (by simpa using hkept)
      obtain ⟨hsign, hvalue⟩ := exponent_unique hmark hds hrest
      rw [hvalue]
      by_cases hneg : lead < 0
      · rw [if_pos (by simpa using hsign.mpr hneg)]
        omega
      · rw [if_neg (by simpa using fun heq => hneg (hsign.mp heq))]
        omega

/-! ### All literals -/

/-- Whether a literal is kept, as far as its parts tell. -/
structure Foretold (t : List Char) (l : Literal) : Prop where
  /-- Whole numbers are kept if they have 64 bits, and minus zero is not. -/
  whole : l.fraction = none → l.exponent = none → (Kept t ↔ if l.negative then
      0 < Nat.ofDigitChars 10 l.whole 0 ∧ Nat.ofDigitChars 10 l.whole 0 ≤ UInt64.size / 2
    else Nat.ofDigitChars 10 l.whole 0 ≤ capacity)
  /-- No fraction is kept with a needless zero at its end. -/
  terse : ∀ ds, l.fraction = some ds → l.exponent = none → Kept t → Terse ds
  /-- Decimals of fifteen digits are kept without one, if they are not below a
      hundred-thousandth. -/
  short : ∀ ds n, l.fraction = some ds → l.exponent = none →
    Nat.ofDigitChars 10 (l.whole ++ ds) 0 = n → n < 10 ^ 15 →
    (n = 0 ∨ 10 ^ ds.length ≤ n * 10 ^ 5) → Terse ds → Kept t
  /-- No exponent is kept from `-5` up to `15`. -/
  exponent : ∀ below ds, l.exponent = some (below, ds) → Kept t →
    (if below then 5 else 15) < Nat.ofDigitChars 10 ds 0

theorem foretold (h : scan t = some (l, [])) (hvalue : l.value? = some number) :
    Foretold t l where
  whole := kept_whole_iff h hvalue
  terse _ hfraction hexponent := terse_of_kept h hvalue hfraction hexponent
  short _ _ hfraction hexponent := kept_of_terse h hvalue hfraction hexponent
  exponent _ _ hexponent := exponent_of_kept h hvalue hexponent

end TopUp.Json.Literal
