import TopUp.Proofs.Number.Rounding

/-! # Short decimals are shortest

    Between the bounds of a binary fraction there is at most one decimal of fifteen digits:
    on its grid the points are further apart than the bounds. So the search for the shortest
    decimal of a fraction that a short decimal was rounded to finds this decimal on the first
    grid that it is on, and nothing on the grids before (`shortest_eq`).
-/

namespace TopUp.Number

open Shortest

variable {num den c n : Nat} {e f lead : Int} {x : Binary64} {i : Interval} {q : ℚ}

/-! ### Leading digits -/

theorem length_toDigits_spec (hn : 0 < n) :
    10 ^ ((Nat.toDigits 10 n).length - 1) ≤ n ∧ n < 10 ^ (Nat.toDigits 10 n).length := by
  have hpos : 0 < (Nat.toDigits 10 n).length := Nat.length_toDigits_pos
  refine ⟨?_, (Nat.length_toDigits_le_iff (by decide) hpos).mp le_rfl⟩
  rcases Nat.eq_zero_or_pos ((Nat.toDigits 10 n).length - 1) with hone | hmore
  · rw [hone]
    exact hn
  · by_contra hlt
    have hle := (Nat.length_toDigits_le_iff (b := 10) (by decide) hmore).mpr (not_le.mp hlt)
    omega

/-- The leading digit of a quotient is the one of its exponent. -/
theorem leadingExponent_spec (hnum : 0 < num) (hden : 0 < den) (hq : (num : ℚ) / den = q) :
    10 ^ leadingExponent num den ≤ q ∧ q < 10 ^ (leadingExponent num den + 1) := by
  have hden' : (0 : ℚ) < den := by exact_mod_cast hden
  have hnum' : (0 : ℚ) < num := by exact_mod_cast hnum
  subst hq
  unfold leadingExponent
  split
  · next hle =>
    obtain ⟨hlow, hhigh⟩ := length_toDigits_spec (Nat.div_pos hle hden)
    have hpos : 0 < (Nat.toDigits 10 (num / den)).length := Nat.length_toDigits_pos
    generalize (Nat.toDigits 10 (num / den)).length = k at *
    have hk : ((k : Int) - 1) = ((k - 1 : Nat) : Int) := by omega
    rw [sub_add_cancel, hk, zpow_natCast, zpow_natCast, le_div_iff₀ hden', div_lt_iff₀ hden']
    constructor
    · exact_mod_cast (Nat.le_div_iff_mul_le hden).mp hlow
    · exact_mod_cast (Nat.div_lt_iff_lt_mul hden).mp hhigh
  · next hlt =>
    -- the quotient lies between the inverses of two whole numbers next to each other
    have hceil : den + num - 1 = (den + num - 1) / num * num + (den + num - 1) % num :=
      (Nat.div_add_mod' _ _).symm
    have hrest : (den + num - 1) % num < num := Nat.mod_lt _ hnum
    obtain ⟨u, hu⟩ : ∃ u, (den + num - 1) / num = u + 1 := ⟨(den + num - 1) / num - 1, by
      have : 0 < (den + num - 1) / num := Nat.div_pos (by omega) hnum
      omega⟩
    rw [hu, Nat.add_mul, one_mul] at hceil
    have hpos : 0 < u := by
      by_contra hzero
      obtain rfl : u = 0 := by omega
      omega
    obtain ⟨hlow, hhigh⟩ := length_toDigits_spec hpos
    have hlen : 0 < (Nat.toDigits 10 u).length := Nat.length_toDigits_pos
    rw [hu, Nat.add_sub_cancel]
    generalize (Nat.toDigits 10 u).length = k at *
    have hk : (-(k : Int) + 1) = -((k - 1 : Nat) : Int) := by omega
    rw [hk, zpow_neg, zpow_neg, zpow_natCast, zpow_natCast, inv_eq_one_div, inv_eq_one_div,
      div_le_div_iff₀ (by positivity) hden', div_lt_div_iff₀ hden' (by positivity)]
    constructor
    · have hle : den ≤ num * 10 ^ k := by
        calc den ≤ (u + 1) * num := by rw [Nat.add_mul, one_mul]; omega
          _ ≤ 10 ^ k * num := Nat.mul_le_mul_right _ hhigh
          _ = num * 10 ^ k := Nat.mul_comm _ _
      rw [one_mul]
      exact_mod_cast hle
    · have hlt : num * 10 ^ (k - 1) < den := by
        calc num * 10 ^ (k - 1) ≤ num * u := Nat.mul_le_mul_left _ hlow
          _ = u * num := Nat.mul_comm _ _
          _ < den := by omega
      rw [one_mul]
      exact_mod_cast hlt

/-! ### Decimals -/

/-- A point of a coarse grid is one of the fine grid. -/
theorem mul_pow_zpow {a b : Int} (k : Nat) (h : a ≤ b) :
    ((k * 10 ^ (b - a).toNat : Nat) : ℚ) * 10 ^ a = k * 10 ^ b := by
  push_cast
  rw [← zpow_natCast, Int.toNat_of_nonneg (by omega), mul_assoc, ← zpow_add₀ (by norm_num),
    sub_add_cancel]

/-- A decimal has the digits of the equal one that does not end in zero, and zeros. -/
theorem eq_mul_pow_of_value {d : Nat} (hn : n % 10 ≠ 0)
    (h : (d * 10 ^ e : ℚ) = n * 10 ^ f) : e ≤ f ∧ d = n * 10 ^ (f - e).toNat := by
  have hten : ∀ a : Int, (10 : ℚ) ^ a ≠ 0 := fun a => by positivity
  have hle : e ≤ f := by
    by_contra hlt
    rw [← mul_pow_zpow d (show f ≤ e by omega)] at h
    have heq : d * 10 ^ (e - f).toNat = n := by exact_mod_cast mul_right_cancel₀ (hten f) h
    obtain ⟨k, hk⟩ : ∃ k, (e - f).toNat = k + 1 := ⟨(e - f).toNat - 1, by omega⟩
    rw [hk, pow_succ, ← Nat.mul_assoc] at heq
    exact hn (by rw [← heq, Nat.mul_mod_left])
  rw [← mul_pow_zpow n hle] at h
  exact ⟨hle, by exact_mod_cast mul_right_cancel₀ (hten e) h⟩

/-! ### Grids -/

namespace Shortest

/-- The scaled sides of a bound and of a grid point are these with one factor. -/
theorem sides (hden : 0 < i.den) (e : Int) :
    ∃ s : ℚ, 0 < s ∧ (∀ a : Nat, ((a * Nat.pow 10 (-e).toNat : Nat) : ℚ) = a / i.den * s) ∧
      ((i.den * Nat.pow 10 e.toNat : Nat) : ℚ) = 10 ^ e * s := by
  have hden' : (0 : ℚ) < i.den := by exact_mod_cast hden
  have hpow : ∀ k, Nat.pow 10 k = 10 ^ k := fun _ => rfl
  refine ⟨i.den * 10 ^ (-e).toNat, by positivity, fun a => ?_, ?_⟩
  · rw [hpow]
    push_cast
    field_simp
  · rw [hpow]
    push_cast
    rw [← pow_toNat_neg (by norm_num : (10 : ℚ) ≠ 0) e]
    ring

/-- The test of a grid point. -/
theorem holds_iff (hden : 0 < i.den) (c : Nat) (e : Int) :
    i.holds c (Nat.pow 10 e.toNat) (Nat.pow 10 (-e).toNat) = true ↔ i.Has (c * 10 ^ e) := by
  obtain ⟨s, hs, hbound, hgrid⟩ := sides hden e
  have hpoint : ((c * Nat.pow 10 e.toNat * i.den : Nat) : ℚ) = c * 10 ^ e * s := by
    rw [Nat.mul_assoc, Nat.mul_comm _ i.den, Nat.cast_mul, hgrid, mul_assoc]
  unfold Interval.holds Interval.Has Interval.lower Interval.upper
  cases i.closed
  · simp only [Bool.and_eq_true, decide_eq_true_eq, Bool.false_eq_true, if_false,
      ← Nat.cast_lt (α := ℚ), hbound, hpoint]
    rw [mul_lt_mul_iff_of_pos_right hs, mul_lt_mul_iff_of_pos_right hs]
  · simp only [Bool.and_eq_true, decide_eq_true_eq, if_true, ← Nat.cast_le (α := ℚ), hbound,
      hpoint]
    rw [mul_le_mul_iff_of_pos_right hs, mul_le_mul_iff_of_pos_right hs]

/-- The grid point below the value. -/
theorem below_spec (hden : 0 < i.den) (e : Int) (c : Nat)
    (hc : i.mid * Nat.pow 10 (-e).toNat / (i.den * Nat.pow 10 e.toNat) = c) :
    c * 10 ^ e ≤ i.middle ∧ i.middle < (c + 1) * 10 ^ e := by
  obtain ⟨s, hs, hbound, hgrid⟩ := sides hden e
  have hpos : 0 < i.den * Nat.pow 10 e.toNat := Nat.mul_pos hden (Nat.pow_pos (by decide))
  constructor
  · have hle := (Nat.le_div_iff_mul_le hpos).mp hc.ge
    rw [← Nat.cast_le (α := ℚ), hbound, Nat.cast_mul, hgrid, ← mul_assoc] at hle
    exact le_of_mul_le_mul_right hle hs
  · have hlt := (Nat.div_lt_iff_lt_mul hpos).mp (Nat.lt_succ_of_le hc.le)
    rw [← Nat.cast_lt (α := ℚ), hbound, Nat.cast_mul, hgrid, ← mul_assoc, Nat.cast_succ] at hlt
    exact lt_of_mul_lt_mul_right hlt hs.le

/-- What is found on a grid is a point of the interval. -/
theorem has_of_onGrid (hden : 0 < i.den) (h : onGrid i e = some c) : i.Has (c * 10 ^ e) := by
  rw [← holds_iff hden]
  simp only [onGrid] at h
  split at h
  · next hbelow habove =>
    split at h
    · exact Option.some.inj h ▸ hbelow
    · exact Option.some.inj h ▸ habove
  · next hbelow _ => exact Option.some.inj h ▸ hbelow
  · next _ habove => exact Option.some.inj h ▸ habove
  · exact absurd h (by simp)

/-- The value and no more than one point of each grid that is wide enough lie between the
    bounds. -/
structure Sparse (i : Interval) (f : Int) : Prop where
  /-- The denominator. -/
  pos : 0 < i.den
  /-- The value is not below the lower bound. -/
  low : i.lower ≤ i.middle
  /-- The value is not above the upper bound. -/
  high : i.middle ≤ i.upper
  /-- The bounds are closer than grid points. -/
  narrow : i.upper - i.lower < 10 ^ f

/-- Two grid points of the interval are one. -/
theorem Sparse.unique (h : Sparse i f) {c d : Nat} (hc : i.Has (c * 10 ^ f))
    (hd : i.Has (d * 10 ^ f)) : c = d := by
  have hpos : (0 : ℚ) < 10 ^ f := by positivity
  have hstep : ∀ {a b : Nat}, i.Has (a * 10 ^ f) → i.Has (b * 10 ^ f) → a ≤ b := by
    intro a b ha hb
    have hlt : (a : ℚ) * 10 ^ f < (b + 1) * 10 ^ f := by
      have := h.narrow
      linarith [ha.bounds.2, hb.bounds.1]
    have hlt' : a < b + 1 := by exact_mod_cast lt_of_mul_lt_mul_right hlt hpos.le
    omega
  exact le_antisymm (hstep hc hd) (hstep hd hc)

/-- A grid point of the interval is found. -/
theorem Sparse.onGrid_eq (h : Sparse i e) (hc : i.Has (c * 10 ^ e)) : onGrid i e = some c := by
  have hpos : (0 : ℚ) < 10 ^ e := by positivity
  obtain ⟨hlow, hhigh⟩ := below_spec h.pos e _ rfl
  set below := i.mid * Nat.pow 10 (-e).toNat / (i.den * Nat.pow 10 e.toNat) with hbelow
  obtain ⟨hc₁, hc₂⟩ := hc.bounds
  -- it is next to the value
  have hnext : c = below ∨ c = below + 1 := by
    have hnarrow := h.narrow
    have hlt : (c : ℚ) * 10 ^ e < (below + 1 + 1 : Nat) * 10 ^ e := by
      push_cast
      linarith [h.low]
    have hgt : (below : ℚ) * 10 ^ e < (c + 1 : Nat) * 10 ^ e := by
      push_cast
      linarith [h.high]
    have hlt' : c < below + 1 + 1 := by exact_mod_cast lt_of_mul_lt_mul_right hlt hpos.le
    have hgt' : below < c + 1 := by exact_mod_cast lt_of_mul_lt_mul_right hgt hpos.le
    omega
  have hsome : ∃ d, onGrid i e = some d := by
    have hholds := (holds_iff h.pos c e).mpr hc
    simp only [onGrid, ← hbelow]
    split
    · split
      · exact ⟨_, rfl⟩
      · exact ⟨_, rfl⟩
    · exact ⟨_, rfl⟩
    · exact ⟨_, rfl⟩
    · next hno hno' =>
      rcases hnext with rfl | rfl
      · exact absurd (hholds.symm.trans hno) (by decide)
      · exact absurd (hholds.symm.trans hno') (by decide)
  obtain ⟨d, hd⟩ := hsome
  rw [hd, h.unique (has_of_onGrid h.pos hd) hc]

/-! ### The search -/

/-- A point of the interval that is on a fine grid is what the search finds, on whichever
    grid it comes to first. -/
theorem Sparse.search_eq (h : Sparse i f) (lead : Int) (hc : i.Has (c * 10 ^ f)) (hpos : 0 < c)
    (fuel count : Nat) (hcount : f ≤ lead - count + 1) (hfuel : lead - f + 1 < count + fuel) :
    ∃ d e, search i lead fuel count = some ⟨d, e⟩ ∧ f ≤ e ∧ (d * 10 ^ e : ℚ) = c * 10 ^ f := by
  induction fuel generalizing count with
  | zero =>
    push_cast at hfuel
    omega
  | succ fuel ih =>
    simp only [search]
    set e := lead - count + 1 with he
    cases hgrid : onGrid i e with
    | some d =>
      have hd := has_of_onGrid h.pos hgrid
      rw [← mul_pow_zpow d hcount] at hd
      have heq : d * 10 ^ (e - f).toNat = c := h.unique hd hc
      have hne : d ≠ 0 := by
        rintro rfl
        omega
      simp only [if_neg hne]
      exact ⟨d, e, rfl, hcount, by rw [← mul_pow_zpow d hcount, heq]⟩
    | none =>
      have hcoarse : e ≠ f := by
        intro heq
        rw [heq, h.onGrid_eq hc] at hgrid
        exact absurd hgrid (by simp)
      refine ih (count + 1) ?_ ?_
      · push_cast
        omega
      · push_cast at hfuel ⊢
        omega

/-- What is found on a grid is next to the value. -/
theorem le_of_onGrid (hden : 0 < i.den) (h : onGrid i e = some c) :
    ∃ below : Nat, c ≤ below + 1 ∧ below * 10 ^ e ≤ i.middle := by
  refine ⟨_, ?_, (below_spec hden e _ rfl).1⟩
  simp only [onGrid] at h
  split at h
  · split at h
    · exact Option.some.inj h ▸ Nat.le_succ _
    · exact (Option.some.inj h).ge
  · exact Option.some.inj h ▸ Nat.le_succ _
  · exact (Option.some.inj h).ge
  · exact absurd h (by simp)

/-- A decimal that is found has no more digits than its grid. -/
theorem lt_of_search (hden : 0 < i.den) (hlead : i.middle < 10 ^ (lead + 1)) (fuel count : Nat)
    {d : Decimal} (h : search i lead fuel count = some d) :
    0 < d.digits ∧ d.digits < 10 ^ (count + fuel) := by
  induction fuel generalizing count with
  | zero => exact absurd h (by simp [search])
  | succ fuel ih =>
    have hnext := ih (count + 1)
    rw [Nat.add_right_comm] at hnext
    simp only [search] at h
    split at h
    · next c hgrid =>
      split at h
      · exact hnext h
      · next hne =>
        obtain rfl := Option.some.inj h
        obtain ⟨below, hc, hbelow⟩ := le_of_onGrid hden hgrid
        refine ⟨Nat.pos_of_ne_zero hne, ?_⟩
        have hten : (0 : ℚ) < 10 ^ (lead - count + 1) := by positivity
        have hlt : (below : ℚ) * 10 ^ (lead - count + 1) <
            10 ^ count * 10 ^ (lead - count + 1) := by
          refine lt_of_le_of_lt hbelow (hlead.trans_le ?_)
          rw [← zpow_natCast, ← zpow_add₀ (by norm_num)]
          exact zpow_le_zpow_right₀ (by norm_num) (by omega)
        have hlt' : below < 10 ^ count := by
          exact_mod_cast lt_of_mul_lt_mul_right hlt hten.le
        calc c ≤ below + 1 := hc
          _ ≤ 10 ^ count := hlt'
          _ < 10 ^ (count + (fuel + 1)) := Nat.pow_lt_pow_right (by decide) (by omega)
    · exact hnext h

/-- No zero is left at the end. -/
theorem dropZeros_mod {fuel : Nat} {d : Decimal} (hpos : 0 < d.digits)
    (hlt : d.digits < 10 ^ fuel) : (dropZeros fuel d).digits % 10 ≠ 0 := by
  induction fuel generalizing d with
  | zero => simp at hlt; omega
  | succ fuel ih =>
    rw [dropZeros]
    split
    · refine ih (d := ⟨d.digits / 10, d.exponent + 1⟩) ?_ ?_
      · show 0 < d.digits / 10
        omega
      · show d.digits / 10 < 10 ^ fuel
        rw [pow_succ] at hlt
        omega
    · omega

/-- Zeros at the end are dropped. -/
theorem dropZeros_eq (hn : n % 10 ≠ 0) (k : Nat) {fuel : Nat} (hk : k ≤ fuel) (e : Int) :
    dropZeros fuel ⟨n * 10 ^ k, e⟩ = ⟨n, e + k⟩ := by
  induction k generalizing fuel e with
  | zero =>
    cases fuel with
    | zero => simp [dropZeros]
    | succ fuel => simp [dropZeros, hn]
  | succ k ih =>
    obtain ⟨fuel, rfl⟩ : ∃ m, fuel = m + 1 := ⟨fuel - 1, by omega⟩
    have hnext : n * 10 ^ (k + 1) = n * 10 ^ k * 10 := by ring
    have hne : n * 10 ^ k * 10 ≠ 0 := by
      have : 0 < n := Nat.pos_of_ne_zero fun h => hn (by simp [h])
      positivity
    rw [dropZeros, if_pos ⟨by rw [hnext, Nat.mul_mod_left], by rw [hnext]; exact hne⟩]
    rw [show n * 10 ^ (k + 1) / 10 = n * 10 ^ k by rw [hnext, Nat.mul_div_cancel _ (by decide)],
      ih (by omega)]
    congr 1
    push_cast
    ring

end Shortest

/-! ### Short decimals -/

open Binary64

/-- The bounds of a fraction of 53 bits are at its last place. -/
theorem bounds_of (hfull : 2 ^ 52 ≤ x.significand) :
    0 < (2 : ℚ) ^ x.exponent ∧ 2 ^ 52 * 2 ^ x.exponent ≤ x.size ∧
      x.size - (Interval.of x).lower ≤ 1 / 2 * 2 ^ x.exponent ∧
      (Interval.of x).lower ≤ x.size ∧
      (Interval.of x).upper = x.size + 1 / 2 * 2 ^ x.exponent := by
  have htwo : (0 : ℚ) < 2 ^ x.exponent := by positivity
  have hfull' : (2 ^ 52 : ℚ) ≤ x.significand := by exact_mod_cast hfull
  obtain ⟨hgap₁, hgap₂⟩ := Interval.gap_spec x
  have hlow := mul_nonneg hgap₁ htwo.le
  have hhigh := mul_le_mul_of_nonneg_right hgap₂ htwo.le
  rw [Interval.lower_of (by omega), Interval.upper_of, size]
  refine ⟨htwo, mul_le_mul_of_nonneg_right hfull' htwo.le, ?_, ?_, ?_⟩
  · linarith
  · linarith
  · ring

theorem sparse_of (hfull : 2 ^ 52 ≤ x.significand) (hsize : x.size < 2 ^ 52 * 10 ^ f) :
    Sparse (Interval.of x) f := by
  obtain ⟨htwo, hplace, hlow, hlow', hhigh⟩ := bounds_of hfull
  refine ⟨Interval.den_pos x, ?_, ?_, ?_⟩
  · rw [Interval.middle_of]
    exact hlow'
  · rw [Interval.middle_of, hhigh]
    linarith
  · have hlast : (2 : ℚ) ^ x.exponent < 10 ^ f :=
      lt_of_mul_lt_mul_left (lt_of_le_of_lt hplace hsize) (by norm_num)
    linarith

/-- A fraction and what was rounded to it are about the same. -/
theorem near_of_rounds (h : Rounds q x) : x.size ≤ 2 * q ∧ q ≤ 2 * x.size := by
  obtain ⟨htwo, hplace, hlow, -, hhigh⟩ := bounds_of h.full
  obtain ⟨hover, hunder⟩ := h.has.bounds
  constructor <;> linarith

/-- The search passes no more than seventeen grids, and on all of them the points are further
    apart than the bounds. -/
theorem lead_spec (hpos : 0 < n) (hshort : n < 10 ^ 15) (h : Rounds (n * 10 ^ f) x)
    (hlow : 10 ^ lead ≤ x.size) (hhigh : x.size < 10 ^ (lead + 1)) :
    lead < f + 16 ∧ f < lead + 2 ∧ Sparse (Interval.of x) (min f lead) := by
  have hten : ∀ a : Int, (0 : ℚ) < 10 ^ a := fun a => by positivity
  have hmono : ∀ {a b : Int}, (10 : ℚ) ^ a < 10 ^ b → a < b :=
    (zpow_lt_zpow_iff_right₀ (by norm_num)).mp
  obtain ⟨hdouble, hhalf⟩ := near_of_rounds h
  have hlarge : x.size < 2 * 10 ^ 15 * 10 ^ f := by
    have hshort' : (n : ℚ) < 10 ^ 15 := by exact_mod_cast hshort
    linarith [mul_lt_mul_of_pos_right hshort' (hten f)]
  refine ⟨?_, ?_, ?_⟩
  · refine hmono (lt_of_le_of_lt hlow (hlarge.trans ?_))
    rw [zpow_add₀ (by norm_num)]
    norm_num
    linarith [hten f]
  · have hone : (1 : ℚ) ≤ n := by exact_mod_cast hpos
    refine hmono (lt_of_le_of_lt ((le_mul_of_one_le_left (hten f).le hone).trans hhalf) ?_)
    rw [show lead + 2 = lead + 1 + 1 by ring, zpow_add_one₀ (by norm_num)]
    linarith [hten (lead + 1)]
  · rcases min_choice f lead with heq | heq
    · rw [heq]
      refine sparse_of h.full (hlarge.trans_le ?_)
      norm_num
      linarith [hten f]
    · -- the fraction may be below a power of ten that it was rounded from
      rw [heq]
      refine sparse_of h.full (hhigh.trans ?_)
      rw [zpow_add_one₀ (by norm_num)]
      norm_num
      linarith [hten lead]

/-- A shortest decimal does not end in zero, unless it is zero. -/
theorem shortest_mod (x : Binary64) : x.shortest = ⟨0, 0⟩ ∨ x.shortest.digits % 10 ≠ 0 := by
  unfold Binary64.shortest
  split
  · exact Or.inl rfl
  · next hzero =>
    obtain ⟨hsize, hden⟩ := ratio_size x
    have hpos : 0 < x.size := by
      have hne : (0 : ℚ) < x.significand := by exact_mod_cast Nat.pos_of_ne_zero hzero
      unfold size
      positivity
    have hlead := (leadingExponent_spec (ratio_pos hpos) hden hsize).2
    simp only
    cases hfound : search (Interval.of x) (leadingExponent x.ratio.1 x.ratio.2) 17 1 with
    | none => exact Or.inl rfl
    | some d =>
      obtain ⟨hdigits, hlt⟩ := lt_of_search (Interval.den_pos x)
        ((Interval.middle_of x).trans_lt hlead) _ _ hfound
      exact Or.inr (dropZeros_mod hdigits hlt)

/-- A decimal of fifteen digits that was rounded to a fraction is its shortest one. -/
theorem shortest_eq (hn : n % 10 ≠ 0) (hshort : n < 10 ^ 15) (h : Rounds (n * 10 ^ f) x) :
    x.shortest = ⟨n, f⟩ := by
  have hpos : 0 < n := Nat.pos_of_ne_zero fun hzero => hn (by simp [hzero])
  have hfull := h.full
  have hnum : 0 < x.ratio.1 := by
    simp only [ratio, Nat.shiftLeft_eq]
    positivity
  obtain ⟨hsize, hden⟩ := ratio_size x
  obtain ⟨hlow, hhigh⟩ := leadingExponent_spec hnum hden hsize
  obtain ⟨hlead₁, hlead₂, hsparse⟩ := lead_spec hpos hshort h hlow hhigh
  set lead := leadingExponent x.ratio.1 x.ratio.2 with hlead
  have hpoint : (Interval.of x).Has
      ((n * 10 ^ (f - min f lead).toNat : Nat) * 10 ^ min f lead) := by
    rw [mul_pow_zpow n (min_le_left _ _)]
    exact h.has
  obtain ⟨d, e, hsearch, he, hvalue⟩ := hsparse.search_eq lead hpoint (by positivity) 17 1
    (by push_cast; omega) (by push_cast; omega)
  rw [mul_pow_zpow n (min_le_left _ _)] at hvalue
  obtain ⟨hle, rfl⟩ := eq_mul_pow_of_value hn hvalue
  have hzero : x.significand ≠ 0 := by omega
  simp only [Binary64.shortest, if_neg hzero, ← hlead, hsearch, Option.getD_some]
  rw [dropZeros_eq hn _ (by omega)]
  congr 1
  omega

end TopUp.Number
