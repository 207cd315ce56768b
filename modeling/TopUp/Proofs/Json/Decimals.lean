import TopUp.Proofs.Json.Kept
import TopUp.Proofs.Number.Shortest

/-! # Decimals with a point

    A decimal has one text with a point and without needless zeros (`Concise.unique`), and
    binary fractions that are written without an exponent are written so
    (`sizeChars_concise`).
-/

namespace TopUp.Json.Literal

open TopUp.Number TopUp.Text

variable {w w' ds ds' t : List Char} {c : Char} {l : Literal} {n m : Nat} {f lead : Int}
  {x : Binary64} {number : Number}

/-! ### Needless zeros -/

/-- The fraction ends in no zero that could be left out. -/
def Terse (ds : List Char) : Prop := ds = ['0'] ∨ ds.getLast? ≠ some '0'

/-- The digits before and behind a point, without needless zeros. -/
structure Concise (w ds : List Char) : Prop where
  tight : Tight w
  digits : ∀ c ∈ ds, c.isDigit = true
  nonempty : ds ≠ []
  terse : Terse ds

theorem Concise.digits_append (h : Concise w ds) : ∀ c ∈ w ++ ds, c.isDigit = true := by
  intro c hc
  rcases List.mem_append.mp hc with hc | hc
  · exact h.tight.digits c hc
  · exact h.digits c hc

/-- More than one digit of a fraction are there because the last one is. -/
theorem Concise.length_le (h' : Concise w' ds') (hne : ds ≠ [])
    (hvalue : Nat.ofDigitChars 10 (w ++ ds) 0 * 10 ^ ds'.length =
      Nat.ofDigitChars 10 (w' ++ ds') 0 * 10 ^ ds.length) : ds'.length ≤ ds.length := by
  by_contra hlt
  have hpos : 0 < ds.length := List.length_pos_iff.mpr hne
  obtain ⟨k, hk⟩ : ∃ k, ds'.length = ds.length + (k + 1) := ⟨ds'.length - ds.length - 1, by omega⟩
  have hterse : ds'.getLast? ≠ some '0' := by
    rcases h'.terse with heq | hlast
    · rw [heq] at hk
      simp at hk
      omega
    · exact hlast
  have hvalue' : Nat.ofDigitChars 10 (w' ++ ds') 0 =
      Nat.ofDigitChars 10 (w ++ ds) 0 * 10 ^ k * 10 := by
    have hten : 0 < 10 ^ ds.length := by positivity
    refine Nat.eq_of_mul_eq_mul_right hten ?_
    rw [← hvalue, hk, pow_add, pow_succ]
    ring
  have hzero := (mod_ten_eq_zero_iff h'.digits_append (by simp [h'.nonempty])).mp
    (by rw [hvalue', Nat.mul_mod_left])
  rw [List.getLast?_append_of_ne_nil _ h'.nonempty] at hzero
  exact hterse hzero

/-- A decimal has one text with a point and without needless zeros. -/
theorem Concise.unique (h : Concise w ds) (h' : Concise w' ds')
    (hvalue : Nat.ofDigitChars 10 (w ++ ds) 0 * 10 ^ ds'.length =
      Nat.ofDigitChars 10 (w' ++ ds') 0 * 10 ^ ds.length) : w = w' ∧ ds = ds' := by
  have hlength : ds.length = ds'.length :=
    le_antisymm (h.length_le h'.nonempty hvalue.symm) (h'.length_le h.nonempty hvalue)
  have hten : 0 < 10 ^ ds'.length := by positivity
  rw [hlength] at hvalue
  replace hvalue := Nat.eq_of_mul_eq_mul_right hten hvalue
  rw [Nat.ofDigitChars_append, Nat.ofDigitChars_append,
    Nat.ofDigitChars_eq_ofDigitChars_zero (l := ds),
    Nat.ofDigitChars_eq_ofDigitChars_zero (l := ds'), hlength] at hvalue
  have hlt := ofDigitChars_lt h.digits
  have hlt' := ofDigitChars_lt h'.digits
  rw [hlength] at hlt
  -- the digits before the point are the quotient, and those behind it the remainder
  have hwhole : Nat.ofDigitChars 10 w 0 = Nat.ofDigitChars 10 w' 0 := by
    have hdiv := congrArg (· / 10 ^ ds'.length) hvalue
    simpa [Nat.mul_add_div hten, Nat.div_eq_of_lt hlt, Nat.div_eq_of_lt hlt'] using hdiv
  have hfraction : Nat.ofDigitChars 10 ds 0 = Nat.ofDigitChars 10 ds' 0 := by
    rw [hwhole] at hvalue
    omega
  refine ⟨?_, eq_of_ofDigitChars h.digits h'.digits hlength hfraction⟩
  rw [← h.tight.toDigits_ofDigitChars, hwhole, h'.tight.toDigits_ofDigitChars]

/-! ### Printed decimals -/

theorem getLast?_toDigits (hn : n % 10 ≠ 0) : (Nat.toDigits 10 n).getLast? ≠ some '0' := by
  intro hlast
  have hzero := (mod_ten_eq_zero_iff (tight_toDigits n).digits Nat.toDigits_ne_nil).mpr hlast
  rw [Nat.ofDigitChars_ten_toDigits] at hzero
  exact hn hzero

/-- Digits that begin like those of a positive number have no needless zeros in front. -/
theorem tight_of_head? (hpos : 0 < n) (hne : w ≠ []) (hw : ∀ c ∈ w, c.isDigit = true)
    (hhead : w.head? = (Nat.toDigits 10 n).head?) : Tight w := by
  refine ⟨hne, hw, fun hzero => ?_⟩
  rw [hhead] at hzero
  have hvalue : Nat.ofDigitChars 10 (Nat.toDigits 10 n) 0 = n := Nat.ofDigitChars_ten_toDigits
  rw [(tight_toDigits n).zero hzero] at hvalue
  exact absurd hvalue (by simp [Nat.ofDigitChars]; omega)

/-- Zeros between the point and the digits. -/
theorem concise_behind (hn : n % 10 ≠ 0) (k : Nat) :
    Concise ['0'] (List.replicate k '0' ++ Nat.toDigits 10 n) ∧
      Nat.ofDigitChars 10 (['0'] ++ (List.replicate k '0' ++ Nat.toDigits 10 n)) 0 = n := by
  have hne : Nat.toDigits 10 n ≠ [] := Nat.toDigits_ne_nil
  refine ⟨⟨tight_toDigits 0, ?_, by simp [hne], Or.inr ?_⟩, ?_⟩
  · exact List.forall_mem_append.mpr ⟨isDigit_of_mem_replicate, (tight_toDigits n).digits⟩
  · rw [List.getLast?_append_of_ne_nil _ hne]
    exact getLast?_toDigits hn
  · rw [Nat.ofDigitChars_append, Nat.ofDigitChars_append]
    simp [Nat.ofDigitChars_cons]

/-- Zeros between the digits and the point. -/
theorem concise_before (hpos : 0 < n) (k : Nat) :
    Concise (Nat.toDigits 10 n ++ List.replicate k '0') ['0'] ∧
      Nat.ofDigitChars 10 (Nat.toDigits 10 n ++ List.replicate k '0' ++ ['0']) 0 =
        n * 10 ^ (k + 1) := by
  have hne : Nat.toDigits 10 n ≠ [] := Nat.toDigits_ne_nil
  refine ⟨⟨tight_of_head? hpos (by simp [hne]) ?_ (List.head?_append_of_ne_nil _ hne), by simp,
    by simp, Or.inl rfl⟩, ?_⟩
  · exact List.forall_mem_append.mpr ⟨(tight_toDigits n).digits, isDigit_of_mem_replicate⟩
  · rw [ofDigitChars_concat, Nat.ofDigitChars_append, Nat.ofDigitChars_ten_toDigits,
      Nat.ofDigitChars_replicate_zero, pow_succ]
    simp
    ring

/-- The point among the digits. -/
theorem concise_among (hn : n % 10 ≠ 0) {k : Nat} (hk : 0 < k)
    (hlt : k < (Nat.toDigits 10 n).length) :
    Concise ((Nat.toDigits 10 n).take k) ((Nat.toDigits 10 n).drop k) := by
  have hpos : 0 < n := Nat.pos_of_ne_zero fun hzero => hn (by simp [hzero])
  have hdigits := (tight_toDigits n).digits
  have hdrop : (Nat.toDigits 10 n).drop k ≠ [] := by
    rw [ne_eq, List.drop_eq_nil_iff]
    omega
  refine ⟨tight_of_head? hpos ?_ (fun c hc => hdigits c (List.mem_of_mem_take hc)) ?_,
    fun c hc => hdigits c (List.mem_of_mem_drop hc), hdrop, Or.inr ?_⟩
  · have hne : Nat.toDigits 10 n ≠ [] := Nat.toDigits_ne_nil
    simp [hne]
    omega
  · rw [List.head?_take, if_neg (by omega)]
  · have hlast := getLast?_toDigits hn
    rwa [← List.take_append_drop k (Nat.toDigits 10 n),
      List.getLast?_append_of_ne_nil _ hdrop] at hlast

/-- A decimal is written without needless zeros. -/
theorem concise_plain (hn : n % 10 ≠ 0) (lead : Int) :
    ∃ w ds, plain (Nat.toDigits 10 n) lead = w ++ '.' :: ds ∧ Concise w ds ∧
      (Nat.ofDigitChars 10 (w ++ ds) 0 : ℚ) =
        n * 10 ^ (lead + 1 - (Nat.toDigits 10 n).length + ds.length) := by
  have hpos : 0 < n := Nat.pos_of_ne_zero fun hzero => hn (by simp [hzero])
  have hlen : 0 < (Nat.toDigits 10 n).length := Nat.length_toDigits_pos
  simp only [plain]
  split
  · obtain ⟨hconcise, hvalue⟩ := concise_behind hn (lead.natAbs - 1)
    refine ⟨_, _, rfl, hconcise, ?_⟩
    have hexp : lead + 1 - (Nat.toDigits 10 n).length +
        (List.replicate (lead.natAbs - 1) '0' ++ Nat.toDigits 10 n).length = 0 := by
      simp only [List.length_append, List.length_replicate]
      push_cast
      omega
    rw [hvalue, hexp, zpow_zero, mul_one]
  · split
    · obtain ⟨hconcise, hvalue⟩ :=
        concise_before hpos (lead.toNat + 1 - (Nat.toDigits 10 n).length)
      refine ⟨_, ['0'], by simp, hconcise, ?_⟩
      have hexp : lead + 1 - (Nat.toDigits 10 n).length + (['0'] : List Char).length =
          ((lead.toNat + 1 - (Nat.toDigits 10 n).length + 1 : Nat) : Int) := by
        simp only [List.length_singleton]
        omega
      rw [hvalue, hexp, zpow_natCast]
      push_cast
      rfl
    · have hconcise := concise_among hn (k := lead.toNat + 1) (by omega) (by omega)
      refine ⟨_, _, rfl, hconcise, ?_⟩
      have hexp : lead + 1 - (Nat.toDigits 10 n).length +
          ((Nat.toDigits 10 n).drop (lead.toNat + 1)).length = 0 := by
        rw [List.length_drop]
        omega
      rw [List.take_append_drop, Nat.ofDigitChars_ten_toDigits, hexp, zpow_zero, mul_one]

/-- A fraction without exponent is written without needless zeros. -/
theorem sizeChars_concise (x : Binary64) :
    (∃ w ds, sizeChars x = w ++ '.' :: ds ∧ Concise w ds) ∨ 'e' ∈ sizeChars x := by
  have hzero : Concise ['0'] ['0'] := ⟨tight_toDigits 0, by simp, by simp, Or.inl rfl⟩
  unfold sizeChars
  split
  · exact Or.inl ⟨_, _, rfl, hzero⟩
  · simp only
    split
    · left
      rcases shortest_mod x with hx | hx
      · rw [hx]
        exact ⟨_, _, rfl, hzero⟩
      · obtain ⟨w, ds, hplain, hconcise, -⟩ := concise_plain hx _
        exact ⟨w, ds, hplain, hconcise⟩
    · exact Or.inr (by simp [scientific_eq])

end TopUp.Json.Literal
