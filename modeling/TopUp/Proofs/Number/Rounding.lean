import Mathlib.Algebra.Order.Field.Power
import Mathlib.Data.Rat.Cast.Order
import Mathlib.Tactic.FieldSimp
import Mathlib.Tactic.Linarith
import Mathlib.Tactic.NormNum
import Mathlib.Tactic.Positivity
import Mathlib.Tactic.Ring
import TopUp.Number.Shortest

/-! # Rounding to binary fractions

    A quotient is scaled to one of 53 bits and rounded to a whole number
    (`fittingExponent_spec`, `roundHalfEven_spec`). So the quotient lies between the bounds of
    the fraction that it is rounded to (`rounds_ofRatio`), and a quotient that has 53 bits
    itself is not changed (`size_ofRatio`).
-/

namespace TopUp.Number

variable {num den m : Nat} {e : Int} {negative : Bool} {x y : Binary64} {q : ℚ}

theorem cast_shiftLeft (n k : Nat) : ((n <<< k : Nat) : ℚ) = n * 2 ^ k := by
  rw [Nat.shiftLeft_eq]
  push_cast
  rfl

/-- Of an exponent and its opposite one is a natural number, and the other counts as zero. -/
theorem pow_toNat_neg {b : ℚ} (hb : b ≠ 0) (e : Int) :
    b ^ (-e).toNat * b ^ e = b ^ e.toNat := by
  rcases le_total 0 e with h | h
  · rw [Int.toNat_eq_zero.mpr (by omega : -e ≤ 0), pow_zero, one_mul, ← zpow_natCast,
      Int.toNat_of_nonneg h]
  · rw [Int.toNat_eq_zero.mpr h, pow_zero, ← zpow_natCast, Int.toNat_of_nonneg (by omega),
      ← zpow_add₀ hb, neg_add_cancel, zpow_zero]

namespace Binary64

/-- The absolute value. -/
def size (x : Binary64) : ℚ := x.significand * 2 ^ x.exponent

theorem ratio_size (x : Binary64) : (x.ratio.1 : ℚ) / x.ratio.2 = x.size ∧ 0 < x.ratio.2 := by
  have hpos : (0 : ℚ) < 2 ^ (-x.exponent).toNat := by positivity
  refine ⟨?_, by simp [ratio, Nat.shiftLeft_eq]⟩
  simp only [ratio, size]
  rw [cast_shiftLeft, cast_shiftLeft, Nat.cast_one, one_mul, div_eq_iff hpos.ne',
    ← pow_toNat_neg two_ne_zero x.exponent]
  ring

/-- The two scaled sides are positive, and their quotient is the scaled quotient. -/
theorem scaled_spec (num : Nat) (hden : 0 < den) (e : Int) :
    0 < (scaled num den e).2 ∧
      ((scaled num den e).1 : ℚ) = num / den / 2 ^ e * (scaled num den e).2 := by
  have hpos : (0 : ℚ) < den := by exact_mod_cast hden
  have htwo : (0 : ℚ) < 2 ^ e := by positivity
  refine ⟨by simp [scaled, Nat.shiftLeft_eq, hden], ?_⟩
  simp only [scaled]
  rw [cast_shiftLeft, cast_shiftLeft, ← pow_toNat_neg two_ne_zero e]
  field_simp

/-! ### Whole numbers -/

/-- A quotient lies within a half of the whole number that it is rounded to, and closer if
    that is odd. -/
theorem roundHalfEven_spec (hden : 0 < den) (h : roundHalfEven num den = m) :
    2 * num ≤ (2 * m + 1) * den ∧ 2 * m * den ≤ 2 * num + den ∧
      (m % 2 = 1 → 2 * num < (2 * m + 1) * den ∧ 2 * m * den < 2 * num + den) := by
  have hsplit : den * (num / den) + num % den = num := Nat.div_add_mod num den
  have hrest : num % den < den := Nat.mod_lt num hden
  have hnext : (2 * (num / den) + 1) * den = 2 * (den * (num / den)) + den := by ring
  have hover : (2 * (num / den + 1) + 1) * den = 2 * (den * (num / den)) + 3 * den := by ring
  have hthis : 2 * (num / den) * den = 2 * (den * (num / den)) := by ring
  have hafter : 2 * (num / den + 1) * den = 2 * (den * (num / den)) + 2 * den := by ring
  simp only [roundHalfEven] at h
  split at h
  · subst h
    omega
  · split at h
    · subst h
      omega
    · split at h <;> subst h <;> omega

theorem roundHalfEven_mul (hden : 0 < den) : roundHalfEven (m * den) den = m := by
  simp [roundHalfEven, Nat.mul_div_cancel _ hden, hden]

/-- The same in terms of the quotient. -/
theorem roundHalfEven_near (hden : 0 < den) (hq : (num : ℚ) = q * den)
    (h : roundHalfEven num den = m) :
    (m : ℚ) - 1 / 2 ≤ q ∧ q ≤ m + 1 / 2 ∧ (m % 2 = 1 → (m : ℚ) - 1 / 2 < q ∧ q < m + 1 / 2) := by
  have hpos : (0 : ℚ) < den := by exact_mod_cast hden
  obtain ⟨habove, hbelow, hodd⟩ := roundHalfEven_spec hden h
  have hscale : ∀ {a b : ℚ}, a * den ≤ b * den → a ≤ b := fun h => le_of_mul_le_mul_right h hpos
  have hscale' : ∀ {a b : ℚ}, a * den < b * den → a < b :=
    fun h => lt_of_mul_lt_mul_right h hpos.le
  have habove' : (2 * num : ℚ) ≤ (2 * m + 1) * den := by exact_mod_cast habove
  have hbelow' : (2 * m * den : ℚ) ≤ 2 * num + den := by exact_mod_cast hbelow
  refine ⟨hscale (by linarith), hscale (by linarith), fun hm => ?_⟩
  obtain ⟨habove, hbelow⟩ := hodd hm
  have habove' : (2 * num : ℚ) < (2 * m + 1) * den := by exact_mod_cast habove
  have hbelow' : (2 * m * den : ℚ) < 2 * num + den := by exact_mod_cast hbelow
  exact ⟨hscale' (by linarith), hscale' (by linarith)⟩

/-! ### The exponent -/

/-- The number of bits bounds the quotient by powers of two. -/
theorem log2_spec (hnum : 0 < num) (hden : 0 < den) :
    (2 : ℚ) ^ ((num.log2 : Int) - den.log2 - 1) ≤ num / den ∧
      (num : ℚ) / den < 2 ^ ((num.log2 : Int) - den.log2 + 1) := by
  have hpos : (0 : ℚ) < den := by exact_mod_cast hden
  have hnum₁ : (2 : ℚ) ^ (num.log2 : Int) ≤ num := by
    exact_mod_cast Nat.log2_self_le hnum.ne'
  have hnum₂ : (num : ℚ) < 2 ^ ((num.log2 : Int) + 1) := by
    exact_mod_cast (Nat.lt_log2_self : num < 2 ^ (num.log2 + 1))
  have hden₁ : (2 : ℚ) ^ (den.log2 : Int) ≤ den := by
    exact_mod_cast Nat.log2_self_le hden.ne'
  have hden₂ : (den : ℚ) ≤ 2 ^ ((den.log2 : Int) + 1) := by
    exact_mod_cast (Nat.lt_log2_self : den < 2 ^ (den.log2 + 1)).le
  constructor
  · rw [le_div_iff₀ hpos]
    calc (2 : ℚ) ^ ((num.log2 : Int) - den.log2 - 1) * den
        ≤ 2 ^ ((num.log2 : Int) - den.log2 - 1) * 2 ^ ((den.log2 : Int) + 1) := by gcongr
      _ = 2 ^ (num.log2 : Int) := by
          rw [← zpow_add₀ two_ne_zero]
          congr 1
          ring
      _ ≤ num := hnum₁
  · rw [div_lt_iff₀ hpos]
    calc (num : ℚ) < 2 ^ ((num.log2 : Int) + 1) := hnum₂
      _ = 2 ^ ((num.log2 : Int) - den.log2 + 1) * 2 ^ (den.log2 : Int) := by
          rw [← zpow_add₀ two_ne_zero]
          congr 1
          ring
      _ ≤ 2 ^ ((num.log2 : Int) - den.log2 + 1) * den := by gcongr

/-- At its exponent a quotient has 53 bits, or fewer ones if the exponent is the least one. -/
theorem fittingExponent_spec (hnum : 0 < num) (hden : 0 < den) (hq : (num : ℚ) / den = q) :
    q < 2 ^ 53 * 2 ^ fittingExponent num den ∧
      (2 ^ 52 * 2 ^ fittingExponent num den ≤ q ∨ fittingExponent num den = minExponent) := by
  obtain ⟨hlow, hhigh⟩ := log2_spec hnum hden
  rw [hq] at hlow hhigh
  have hstep : ∀ (n : Nat) (e : Int), (2 : ℚ) ^ n * 2 ^ e = 2 ^ (n + e) := fun n e => by
    rw [zpow_add₀ two_ne_zero, zpow_natCast]
  have hmono : ∀ {a b : Int}, a ≤ b → (2 : ℚ) ^ a ≤ 2 ^ b := fun h =>
    zpow_le_zpow_right₀ (by norm_num) h
  simp only [fittingExponent]
  set bound : Int := (num.log2 : Int) - den.log2 - bits with hbound
  set guess := max bound minExponent with hguess
  have hguess' : bound ≤ guess := le_max_left _ _
  obtain ⟨hpos, hscaled⟩ := scaled_spec num hden guess
  have hpos' : (0 : ℚ) < (scaled num den guess).2 := by exact_mod_cast hpos
  have htwo : (0 : ℚ) < 2 ^ guess := by positivity
  have htest : 1 <<< bits ≤ (scaled num den guess).1 / (scaled num den guess).2 ↔
      2 ^ 53 * 2 ^ guess ≤ q := by
    rw [Nat.le_div_iff_mul_le hpos, ← Nat.cast_le (α := ℚ), hscaled, hq]
    push_cast [cast_shiftLeft]
    rw [mul_le_mul_iff_of_pos_right hpos', le_div_iff₀ htwo]
    simp [bits]
  have hbits : ((bits : Nat) : Int) = 53 := rfl
  split
  · next hfull =>
    rw [htest] at hfull
    rw [hstep] at hfull ⊢
    rw [hstep]
    refine ⟨lt_of_lt_of_le hhigh (hmono ?_), Or.inl (le_trans (hmono ?_) hfull)⟩
    · push_cast
      omega
    · push_cast
      omega
  · next hfits =>
    rw [htest, not_le] at hfits
    refine ⟨hfits, ?_⟩
    rcases max_choice bound minExponent with heq | heq
    · left
      rw [hstep]
      refine le_trans (hmono ?_) hlow
      push_cast
      omega
    · exact Or.inr heq

end Binary64

/-! ### Intervals -/

namespace Shortest.Interval

/-- The lower bound. -/
def lower (i : Interval) : ℚ := i.low / i.den

/-- The value. -/
def middle (i : Interval) : ℚ := i.mid / i.den

/-- The upper bound. -/
def upper (i : Interval) : ℚ := i.high / i.den

/-- The number lies between the bounds, or is one of them if they belong. -/
def Has (i : Interval) (q : ℚ) : Prop :=
  if i.closed then i.lower ≤ q ∧ q ≤ i.upper else i.lower < q ∧ q < i.upper

theorem Has.bounds {i : Interval} (h : i.Has q) : i.lower ≤ q ∧ q ≤ i.upper := by
  unfold Has at h
  split at h
  · exact h
  · exact ⟨h.1.le, h.2.le⟩

theorem den_pos (x : Binary64) : 0 < (Interval.of x).den := by
  simp [Interval.of, Nat.shiftLeft_eq]

/-- A whole multiple of a quarter of the last place. -/
theorem quarters (n : Nat) (e : Int) :
    ((n * (1 <<< e.toNat) : Nat) : ℚ) / (4 <<< (-e).toNat : Nat) = n / 4 * 2 ^ e := by
  have hpos : (0 : ℚ) < 2 ^ (-e).toNat := by positivity
  push_cast [cast_shiftLeft]
  rw [← pow_toNat_neg two_ne_zero e]
  field_simp

theorem middle_of (x : Binary64) : (Interval.of x).middle = x.size := by
  simp only [middle, Interval.of, quarters, Binary64.size]
  push_cast
  ring

theorem upper_of (x : Binary64) :
    (Interval.of x).upper = (x.significand + 1 / 2) * 2 ^ x.exponent := by
  simp only [upper, Interval.of, quarters]
  push_cast
  ring

/-- The part of the last place below a fraction that rounds up to it: a quarter at a power
    of two. -/
def gap (x : Binary64) : ℚ :=
  if x.significand = 2 ^ 52 ∧ Binary64.minExponent < x.exponent then 1 / 4 else 1 / 2

theorem gap_spec (x : Binary64) : 0 ≤ gap x ∧ gap x ≤ 1 / 2 := by
  unfold gap
  split <;> norm_num

theorem lower_of (hpos : 0 < x.significand) :
    (Interval.of x).lower = (x.significand - gap x) * 2 ^ x.exponent := by
  have hpower : 1 <<< (Binary64.bits - 1) = 2 ^ 52 := by decide
  simp only [lower, Interval.of, quarters, hpower, gap]
  split
  · rw [Nat.cast_sub (by omega)]
    push_cast
    ring
  · rw [Nat.cast_sub (by omega)]
    push_cast
    ring

theorem closed_of (x : Binary64) : (Interval.of x).closed = decide (x.significand % 2 = 0) := rfl

theorem has_of_even (hpos : 0 < x.significand) (heven : x.significand % 2 = 0) :
    (Interval.of x).Has q ↔ (x.significand - gap x) * 2 ^ x.exponent ≤ q ∧
      q ≤ (x.significand + 1 / 2) * 2 ^ x.exponent := by
  rw [Has, if_pos (by rw [closed_of, heven]; rfl), lower_of hpos, upper_of]

theorem has_of_odd (hodd : x.significand % 2 = 1) :
    (Interval.of x).Has q ↔ (x.significand - 1 / 2) * 2 ^ x.exponent < q ∧
      q < (x.significand + 1 / 2) * 2 ^ x.exponent := by
  have hgap : gap x = 1 / 2 := if_neg fun h => by rw [h.1] at hodd; exact absurd hodd (by decide)
  rw [Has, if_neg (by rw [closed_of, hodd]; decide), lower_of (by omega), upper_of, hgap]

end Shortest.Interval

namespace Binary64

open Shortest

/-- The fraction is one of 53 bits, and the number lies in its interval. -/
structure Rounds (q : ℚ) (x : Binary64) : Prop where
  /-- All bits are in use. -/
  full : 2 ^ 52 ≤ x.significand
  /-- There are 53 of them. -/
  small : x.significand < 2 ^ 53
  /-- The number rounds to the fraction. -/
  has : (Interval.of x).Has q

/-- The number is neither so small that bits are missing nor too large. -/
def Moderate (q : ℚ) : Prop := 2 ^ 53 * 2 ^ minExponent ≤ q ∧ q < 2 ^ 52 * 2 ^ maxExponent

theorem moderate_of (hlow : (10 : ℚ) ^ (-30 : Int) ≤ q) (hhigh : q ≤ 10 ^ (30 : Int)) :
    Moderate q := by
  constructor
  · have hmin : (2 : ℚ) ^ minExponent ≤ 2 ^ (-153 : Int) :=
      zpow_le_zpow_right₀ (by norm_num) (by decide)
    norm_num at hmin hlow ⊢
    linarith
  · have hmax : (2 : ℚ) ^ (48 : Int) ≤ 2 ^ maxExponent :=
      zpow_le_zpow_right₀ (by norm_num) (by decide)
    norm_num at hmax hhigh ⊢
    linarith

theorem fittingExponent_of_moderate (hnum : 0 < num) (hden : 0 < den)
    (hq : (num : ℚ) / den = q) (hmoderate : Moderate q) :
    minExponent < fittingExponent num den ∧ fittingExponent num den < maxExponent ∧
      2 ^ 52 * 2 ^ fittingExponent num den ≤ q ∧ q < 2 ^ 53 * 2 ^ fittingExponent num den := by
  obtain ⟨hbelow, hfull⟩ := fittingExponent_spec hnum hden hq
  have hmin : minExponent < fittingExponent num den := by
    have hlt := lt_of_mul_lt_mul_left (lt_of_le_of_lt hmoderate.1 hbelow) (by norm_num)
    exact (zpow_lt_zpow_iff_right₀ (by norm_num)).mp hlt
  replace hfull := hfull.resolve_right hmin.ne'
  have hmax : fittingExponent num den < maxExponent := by
    have hlt := lt_of_mul_lt_mul_left (lt_of_le_of_lt hfull hmoderate.2) (by norm_num)
    exact (zpow_lt_zpow_iff_right₀ (by norm_num)).mp hlt
  exact ⟨hmin, hmax, hfull, hbelow⟩

/-- A quotient of moderate size is rounded to a fraction whose interval it is in. -/
theorem rounds_ofRatio (hnum : 0 < num) (hden : 0 < den) (hq : (num : ℚ) / den = q)
    (hmoderate : Moderate q) :
    ∃ x, ofRatio negative num den = some x ∧ x.negative = negative ∧ Rounds q x := by
  obtain ⟨hmin, hmax, hfull, hbelow⟩ := fittingExponent_of_moderate hnum hden hq hmoderate
  obtain ⟨hpos, hscaled⟩ := scaled_spec num hden (fittingExponent num den)
  rw [hq] at hscaled
  simp only [ofRatio, if_neg hnum.ne']
  set e := fittingExponent num den
  have htwo : (0 : ℚ) < 2 ^ e := by positivity
  -- the scaled quotient and the whole number next to it
  obtain ⟨r, rfl⟩ : ∃ r, q = r * 2 ^ e := ⟨q / 2 ^ e, by field_simp⟩
  rw [mul_div_cancel_right₀ _ htwo.ne'] at hscaled
  have hr₁ : 2 ^ 52 ≤ r := le_of_mul_le_mul_right hfull htwo
  have hr₂ : r < 2 ^ 53 := lt_of_mul_lt_mul_right hbelow htwo.le
  obtain ⟨m, hm⟩ : ∃ m, roundHalfEven (scaled num den e).1 (scaled num den e).2 = m := ⟨_, rfl⟩
  obtain ⟨hnear₁, hnear₂, hodd⟩ := roundHalfEven_near hpos hscaled hm
  have hm₁ : 2 ^ 52 ≤ m := by
    have hlt : (2 ^ 52 : ℚ) < (m + 1 : Nat) := by
      push_cast
      linarith
    have hlt' : 2 ^ 52 < m + 1 := by exact_mod_cast hlt
    omega
  have hm₂ : m ≤ 2 ^ 53 := by
    have hlt : (m : ℚ) < (2 ^ 53 + 1 : Nat) := by
      push_cast
      linarith
    have hlt' : m < 2 ^ 53 + 1 := by exact_mod_cast hlt
    omega
  have hcarry : 1 <<< bits = 2 ^ 53 ∧ 1 <<< (bits - 1) = 2 ^ 52 := by decide
  rw [hm, hcarry.1, hcarry.2]
  have htight : ∀ {a b : ℚ}, a ≤ b → a * 2 ^ e ≤ b * 2 ^ e := fun h =>
    mul_le_mul_of_nonneg_right h htwo.le
  by_cases hcase : m = 2 ^ 53
  · -- the next power of two
    rw [hcase] at hnear₁
    push_cast at hnear₁
    simp only [hcase, if_true, if_neg (not_lt.mpr (Int.add_one_le_of_lt hmax))]
    refine ⟨_, rfl, rfl, le_refl _, by norm_num, ?_⟩
    rw [Interval.has_of_even (by norm_num) (by norm_num),
      Interval.gap, if_pos ⟨rfl, Int.lt_add_one_of_le hmin.le⟩, zpow_add_one₀ two_ne_zero]
    push_cast
    constructor
    · linarith [htight (show (2 ^ 53 : ℚ) - 1 / 2 ≤ r by linarith)]
    · linarith [htight (show r ≤ (2 ^ 53 : ℚ) + 1 by linarith)]
  · simp only [if_neg hcase, if_neg (not_lt.mpr hmax.le)]
    refine ⟨_, rfl, rfl, hm₁, lt_of_le_of_ne hm₂ hcase, ?_⟩
    rcases Nat.mod_two_eq_zero_or_one m with heven | hodd'
    · rw [Interval.has_of_even (lt_of_lt_of_le (by norm_num) hm₁) heven]
      refine ⟨htight ?_, htight hnear₂⟩
      unfold Interval.gap
      split
      · next hpower =>
        -- nothing below a power of two comes to it without a carry
        have hm : (m : ℚ) = 2 ^ 52 := by exact_mod_cast (hpower.1 : m = 2 ^ 52)
        linarith
      · exact hnear₁
    · obtain ⟨habove, hbelow⟩ := hodd hodd'
      rw [Interval.has_of_odd hodd']
      exact ⟨mul_lt_mul_of_pos_right habove htwo, mul_lt_mul_of_pos_right hbelow htwo⟩

/-- A quotient that is a whole number below `2 ^ 53` times a power of two is not changed. -/
theorem size_ofRatio (negative : Bool) (hnum : 0 < num) (hden : 0 < den) {j : Int}
    (hq : (num : ℚ) / den = m * 2 ^ j) (hm : m < 2 ^ 53) (hmoderate : Moderate (m * 2 ^ j)) :
    ∃ x, ofRatio negative num den = some x ∧ x.negative = negative ∧ x.size = m * 2 ^ j := by
  obtain ⟨-, hmax, hfull, hbelow⟩ := fittingExponent_of_moderate hnum hden hq hmoderate
  obtain ⟨hpos, hscaled⟩ := scaled_spec num hden (fittingExponent num den)
  simp only [ofRatio, if_neg hnum.ne']
  set e := fittingExponent num den
  have htwo : (0 : ℚ) < 2 ^ e := by positivity
  have he : e ≤ j := by
    have hlt : (2 : ℚ) ^ 52 * 2 ^ e < 2 ^ 52 * 2 ^ (j + 1) := by
      refine lt_of_le_of_lt hfull ?_
      rw [zpow_add_one₀ two_ne_zero]
      have hm' : (m : ℚ) < 2 ^ 53 := by exact_mod_cast hm
      have hj : (0 : ℚ) < 2 ^ j := by positivity
      linarith [mul_lt_mul_of_pos_right hm' hj]
    have hlt' := (zpow_lt_zpow_iff_right₀ (by norm_num)).mp
      (lt_of_mul_lt_mul_left hlt (by norm_num))
    omega
  -- the scaled quotient is whole
  set c := m * 2 ^ (j - e).toNat with hc
  have hwhole : (c : ℚ) * 2 ^ e = m * 2 ^ j := by
    rw [hc]
    push_cast
    rw [← zpow_natCast, Int.toNat_of_nonneg (by omega), mul_assoc, ← zpow_add₀ two_ne_zero,
      sub_add_cancel]
  have hsides : (scaled num den e).1 = c * (scaled num den e).2 := by
    rw [hq, ← hwhole, mul_div_cancel_right₀ _ htwo.ne'] at hscaled
    exact_mod_cast hscaled
  have hsmall : c ≠ 1 <<< bits := by
    intro heq
    have hpower : c = 2 ^ 53 := heq.trans (by decide)
    rw [← hwhole, hpower] at hbelow
    push_cast at hbelow
    exact lt_irrefl _ hbelow
  rw [hsides, roundHalfEven_mul hpos]
  simp only [if_neg hsmall, if_neg (not_lt.mpr hmax.le)]
  exact ⟨_, rfl, rfl, hwhole⟩

/-- A natural number of 53 bits and zeros behind them is read as it is. -/
theorem size_ofNat? {n j : Nat} (hpos : 0 < n) (hn : n = m * 2 ^ j) (hm : m < 2 ^ 53)
    (hle : n ≤ 10 ^ 30) : ∃ x, ofNat? n = some x ∧ x.negative = false ∧ x.size = n := by
  have hvalue : (m * 2 ^ (j : Int) : ℚ) = n := by
    rw [hn, zpow_natCast]
    push_cast
    rfl
  have hone : (1 : ℚ) ≤ n := by exact_mod_cast hpos
  have hle' : (n : ℚ) ≤ 10 ^ 30 := by exact_mod_cast hle
  obtain ⟨x, hx, hsign, hsize⟩ := size_ofRatio false hpos one_pos (j := j)
    (by rw [hvalue, Nat.cast_one, div_one]) hm
    (by rw [hvalue]; exact moderate_of (by norm_num; linarith) (by norm_num; linarith))
  exact ⟨x, hx, hsign, hsize.trans hvalue⟩

theorem ratio_pos (h : 0 < x.size) : 0 < x.ratio.1 := by
  rw [← (ratio_size x).1] at h
  refine Nat.pos_of_ne_zero fun hzero => ?_
  rw [hzero, Nat.cast_zero, zero_div] at h
  exact lt_irrefl _ h

/-- A quotient of fractions is rounded once. -/
theorem rounds_div? (hx : 0 < x.size) (hy : 0 < y.size) (hq : x.size / y.size = q)
    (hmoderate : Moderate q) :
    ∃ z, x.div? y = some z ∧ z.negative = (x.negative != y.negative) ∧ Rounds q z := by
  obtain ⟨hxsize, hxden⟩ := ratio_size x
  obtain ⟨hysize, hyden⟩ := ratio_size y
  have hratio : ((x.ratio.1 * y.ratio.2 : Nat) : ℚ) / (x.ratio.2 * y.ratio.1 : Nat) = q := by
    rw [← hq, ← hxsize, ← hysize]
    push_cast
    rw [div_div_div_eq]
  exact rounds_ofRatio (Nat.mul_pos (ratio_pos hx) hyden) (Nat.mul_pos hxden (ratio_pos hy)) hratio
    hmoderate

end Binary64

end TopUp.Number
