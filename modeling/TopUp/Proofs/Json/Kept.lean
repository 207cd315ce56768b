import TopUp.Proofs.Json.Literals

/-! # Literals that are kept

    A literal is kept if the number that it stands for is written with the same characters.
    Of the literals without fraction and exponent those of 64 bits are kept, apart from
    minus zero, and no others (`Literal.kept_whole_iff`): they become binary fractions, and
    those are written with a point or an exponent. However a number is written, it is with
    the characters of numbers alone (`Literal.numeric_toChars`).
-/

namespace TopUp.Json

open TopUp.Text

namespace Literal

variable {cs cs' rest t : List Char} {c : Char} {l : Literal} {n : Number}
  {fraction : Option (List Char)} {exponent : Option (Bool × List Char)}

/-- The literal is the text of the number that it stands for. -/
def Kept (t : List Char) : Prop := rewritten (String.ofList t) = some (String.ofList t)

instance (t : List Char) : Decidable (Kept t) :=
  inferInstanceAs (Decidable (rewritten (String.ofList t) = some (String.ofList t)))

theorem kept_iff (h : scan t = some (l, [])) (hvalue : l.value? = some n) :
    Kept t ↔ n.toChars = t := by
  have hrewritten : rewritten (String.ofList t) = some (String.ofList n.toChars) := by
    simp [rewritten, h, hvalue]
  rw [Kept, hrewritten, Option.some.injEq, String.ofList_inj]

/-! ### Parts of a literal -/

/-- The text of a fraction. -/
def pointed : Option (List Char) → List Char
  | none => []
  | some ds => '.' :: ds

/-- The texts of an exponent. -/
inductive Raises : List Char → Option (Bool × List Char) → Prop where
  | none : Raises [] none
  | some (mark : List Char) {c : Char} {ds : List Char} (hc : c = 'e' ∨ c = 'E')
      (hmark : mark ∈ [[], ['+'], ['-']]) (hds : ∀ d ∈ ds, d.isDigit = true) :
      Raises (c :: (mark ++ ds)) (some (decide (mark = ['-']), ds))

theorem scanDigits_spec (h : scanDigits cs = some (t, rest)) :
    cs = t ++ rest ∧ t ≠ [] ∧ ∀ c ∈ t, c.isDigit = true := by
  simp only [scanDigits] at h
  split at h
  · exact absurd h (by simp)
  · next hne =>
    simp only [Option.some.injEq, Prod.mk.injEq] at h
    obtain ⟨rfl, rfl⟩ := h
    exact ⟨(List.takeWhile_append_dropWhile).symm, by simpa using hne,
      fun c hc => List.mem_takeWhile_imp hc⟩

theorem scanFraction_spec (h : scanFraction cs = some (fraction, rest)) :
    cs = pointed fraction ++ rest ∧ ∀ ds ∈ fraction, ds ≠ [] ∧ ∀ c ∈ ds, c.isDigit = true := by
  unfold scanFraction at h
  split at h
  · obtain ⟨⟨ds, left⟩, hds, heq⟩ := Option.map_eq_some_iff.mp h
    obtain ⟨rfl, rfl⟩ := by simpa using heq
    obtain ⟨rfl, hne, hdigits⟩ := scanDigits_spec hds
    exact ⟨rfl, by simpa using ⟨hne, hdigits⟩⟩
  · obtain ⟨rfl, rfl⟩ := by simpa using h
    exact ⟨rfl, by simp⟩

theorem raises_of_scanExponent (h : scanExponent cs = some (exponent, [])) :
    Raises cs exponent := by
  unfold scanExponent at h
  split at h
  · split at h
    · next hmark =>
      split at h
      all_goals
        obtain ⟨⟨ds, left⟩, hds, heq⟩ := Option.map_eq_some_iff.mp h
        obtain ⟨rfl, rfl⟩ := by simpa using heq
        obtain ⟨rfl, -, hdigits⟩ := scanDigits_spec hds
        rw [List.append_nil]
      · exact .some ['+'] hmark (by simp) hdigits
      · exact .some ['-'] hmark (by simp) hdigits
      · exact .some [] hmark (by simp) hdigits
    · exact absurd h (by simp)
  · obtain rfl := by simpa using h
    exact .none

/-- A literal is its parts one after the other. -/
theorem parts_of_scan (h : scan t = some (l, [])) :
    ∃ e, t = (if l.negative then ['-'] else []) ++ (l.whole ++ (pointed l.fraction ++ e)) ∧
      Tight l.whole ∧ (∀ ds ∈ l.fraction, ds ≠ [] ∧ ∀ c ∈ ds, c.isDigit = true) ∧
      Raises e l.exponent := by
  obtain ⟨cs₂, cs₃, hs, hw, hf, he⟩ := scan_eq_some.mp h
  obtain ⟨htight, hwhole⟩ := tight_of_scanWhole hw
  obtain ⟨hfraction, hdigits⟩ := scanFraction_spec hf
  refine ⟨cs₃, ?_, htight, hdigits, raises_of_scanExponent he⟩
  rw [← hs, ← hfraction, ← hwhole]
  unfold sign
  split <;> rfl

/-- A literal without fraction and exponent is its sign and its digits. -/
theorem eq_of_whole (h : scan t = some (l, [])) (hfraction : l.fraction = none)
    (hexponent : l.exponent = none) :
    t = (if l.negative then ['-'] else []) ++ l.whole ∧ Tight l.whole := by
  obtain ⟨e, ht, htight, -, hraises⟩ := parts_of_scan h
  rw [hexponent] at hraises
  cases hraises
  rw [hfraction] at ht
  exact ⟨by simpa [pointed] using ht, htight⟩

/-! ### Characters -/

/-- Digits, and marks among those given. -/
def Over (marks cs : List Char) : Prop := ∀ c ∈ cs, c.isDigit = true ∨ c ∈ marks

/-- The characters of a number. -/
def Numeric (cs : List Char) : Prop := Over ['-', '+', '.', 'e', 'E'] cs

section Over

variable {marks marks' : List Char}

theorem over_append : Over marks (cs ++ cs') ↔ Over marks cs ∧ Over marks cs' :=
  List.forall_mem_append

theorem over_cons : Over marks (c :: cs) ↔ (c.isDigit = true ∨ c ∈ marks) ∧ Over marks cs :=
  List.forall_mem_cons

theorem over_nil : Over marks [] := fun _ h => absurd h List.not_mem_nil

theorem over_of_digits (h : ∀ c ∈ cs, c.isDigit = true) : Over marks cs := fun c hc =>
  Or.inl (h c hc)

theorem Over.mono (h : Over marks cs) (hmarks : ∀ c ∈ marks, c ∈ marks') : Over marks' cs :=
  fun c hc => (h c hc).imp_right (hmarks c)

theorem over_sign (hminus : '-' ∈ marks) (p : Prop) [Decidable p] :
    Over marks (if p then ['-'] else []) := by
  split
  · exact over_cons.mpr ⟨Or.inr hminus, over_nil⟩
  · exact over_nil

theorem over_pointed (hpoint : '.' ∈ marks)
    (h : ∀ ds ∈ fraction, ∀ c ∈ ds, c.isDigit = true) : Over marks (pointed fraction) := by
  cases fraction with
  | none => exact over_nil
  | some ds => exact over_cons.mpr ⟨Or.inr hpoint, over_of_digits (h ds rfl)⟩

theorem over_plain (hpoint : '.' ∈ marks) {ds : List Char} (h : Over marks ds) (lead : Int) :
    Over marks (plain ds lead) := by
  have hzeros : ∀ n, Over marks (List.replicate n '0') := fun _ =>
    over_of_digits isDigit_of_mem_replicate
  simp only [plain]
  split
  · simp [over_cons, over_append, hzeros, h, hpoint]
  · split
    · simp [over_cons, over_append, over_nil, hzeros, h, hpoint]
    · have htake : ∀ n, Over marks (ds.take n) := fun n c hc => h c (List.mem_of_mem_take hc)
      have hdrop : ∀ n, Over marks (ds.drop n) := fun n c hc => h c (List.mem_of_mem_drop hc)
      simp [over_cons, over_append, htake, hdrop, hpoint]

/-- The digits of a decimal in front of its exponent. -/
def mantissa (ds : List Char) : List Char :=
  match ds with
  | [d] => [d]
  | d :: rest => d :: '.' :: rest
  | [] => []

theorem scientific_eq (ds : List Char) (lead : Int) : scientific ds lead = mantissa ds ++
    'e' :: (if lead < 0 then '-' else '+') :: Nat.toDigits 10 lead.natAbs := rfl

theorem over_mantissa (hpoint : '.' ∈ marks) {ds : List Char} (h : Over marks ds) :
    Over marks (mantissa ds) := by
  unfold mantissa
  split
  · exact h
  · obtain ⟨hd, hrest⟩ := over_cons.mp h
    exact over_cons.mpr ⟨hd, over_cons.mpr ⟨Or.inr hpoint, hrest⟩⟩
  · exact h

theorem over_toDigits (n : Nat) : Over marks (Nat.toDigits 10 n) :=
  over_of_digits (tight_toDigits n).digits

end Over

/-- A binary fraction without its sign. -/
def sizeChars (x : Number.Binary64) : List Char :=
  if x.isZero then ['0', '.', '0']
  else
    let d := x.shortest
    let ds := Nat.toDigits 10 d.digits
    let lead := d.exponent + ds.length - 1
    if plainExponents.1 ≤ lead ∧ lead ≤ plainExponents.2 then plain ds lead
    else scientific ds lead

theorem realChars_eq (x : Number.Binary64) :
    realChars x = (if x.negative then ['-'] else []) ++ sizeChars x := by
  show (if x.negative then '-' :: sizeChars x else sizeChars x) = _
  split <;> rfl

theorem mem_plain (ds : List Char) (lead : Int) : '.' ∈ plain ds lead := by
  simp only [plain]
  split
  · simp
  · split <;> simp

/-- A binary fraction is written with a point and no exponent, or with an exponent that is
    less than `-5` or more than `15`. -/
theorem sizeChars_cases (x : Number.Binary64) :
    (Over ['.'] (sizeChars x) ∧ '.' ∈ sizeChars x) ∨
      ∃ ds lead, sizeChars x = scientific ds lead ∧ Over [] ds ∧ (lead < -5 ∨ 15 < lead) := by
  unfold sizeChars
  split
  · exact Or.inl ⟨by simp [Over], by simp⟩
  · simp only
    split
    · exact Or.inl ⟨over_plain (by simp) (over_toDigits _) _, mem_plain _ _⟩
    · next hrange =>
      refine Or.inr ⟨_, _, rfl, over_toDigits _, ?_⟩
      simp only [plainExponents] at hrange
      omega

theorem exists_mark_sizeChars (x : Number.Binary64) : '.' ∈ sizeChars x ∨ 'e' ∈ sizeChars x := by
  rcases sizeChars_cases x with ⟨-, hpoint⟩ | ⟨ds, lead, heq, -⟩
  · exact Or.inl hpoint
  · rw [heq, scientific_eq]
    exact Or.inr (by simp)

/-- A number is written with the characters of numbers. -/
theorem numeric_toChars (n : Number) : Numeric n.toChars := by
  cases n with
  | real x =>
    show Numeric (realChars x)
    rw [realChars_eq]
    refine over_append.mpr ⟨over_sign (by simp) _, ?_⟩
    rcases sizeChars_cases x with ⟨hover, -⟩ | ⟨ds, lead, heq, hover, -⟩
    · exact hover.mono (by simp)
    · rw [heq, scientific_eq]
      refine over_append.mpr ⟨over_mantissa (by simp) (hover.mono (by simp)), ?_⟩
      refine over_cons.mpr ⟨by decide, over_cons.mpr ⟨?_, over_toDigits _⟩⟩
      split <;> decide
  | integer i =>
    show Numeric (decimalInt i).toList
    rw [toList_decimalInt]
    exact over_append.mpr ⟨over_sign (by simp) _, over_toDigits _⟩

theorem toChars_ne_nil (n : Number) : n.toChars ≠ [] := by
  cases n with
  | real x =>
    show realChars x ≠ []
    rw [realChars_eq]
    rcases exists_mark_sizeChars x with hmark | hmark <;>
      exact List.ne_nil_of_mem (List.mem_append_right _ hmark)
  | integer i =>
    show (decimalInt i).toList ≠ []
    rw [toList_decimalInt]
    simp [Nat.toDigits_ne_nil]

theorem over_raises {marks e : List Char} (hmarks : ∀ c ∈ ['-', '+', 'e', 'E'], c ∈ marks)
    (h : Raises e exponent) : Over marks e := by
  cases h with
  | none => exact over_nil
  | some mark hc hmark hds =>
    refine over_cons.mpr ⟨Or.inr (hmarks _ ?_), over_append.mpr ⟨?_, over_of_digits hds⟩⟩
    · rcases hc with rfl | rfl <;> simp
    · intro d hd
      refine Or.inr (hmarks d ?_)
      simp only [List.mem_cons, List.not_mem_nil, or_false] at hmark
      rcases hmark with rfl | rfl | rfl <;> simp_all

/-- A literal is written with the characters of numbers. -/
theorem numeric_of_scan (h : scan t = some (l, [])) : Numeric t := by
  obtain ⟨e, rfl, htight, hdigits, hraises⟩ := parts_of_scan h
  exact over_append.mpr ⟨over_sign (by simp) _, over_append.mpr ⟨over_of_digits htight.digits,
    over_append.mpr ⟨over_pointed (by simp) fun ds hds => (hdigits ds hds).2,
      over_raises (by simp) hraises⟩⟩⟩

/-! ### Whole numbers -/

/-- A whole literal is kept if it has 64 bits and is not minus zero, and not otherwise. -/
theorem kept_whole_iff (h : scan t = some (l, [])) (hvalue : l.value? = some n)
    (hfraction : l.fraction = none) (hexponent : l.exponent = none) :
    Kept t ↔ if l.negative then
        0 < Nat.ofDigitChars 10 l.whole 0 ∧ Nat.ofDigitChars 10 l.whole 0 ≤ UInt64.size / 2
      else Nat.ofDigitChars 10 l.whole 0 ≤ capacity := by
  obtain ⟨ht, htight⟩ := eq_of_whole h hfraction hexponent
  have hdigits := htight.toDigits_ofDigitChars
  have hreal : ∀ x, realChars x ≠ t := by
    rintro x rfl
    -- neither a point nor an exponent is a digit or a sign
    have hover : Over ['-'] (realChars x) := by
      rw [ht]
      exact over_append.mpr ⟨over_sign (by simp) _, over_of_digits htight.digits⟩
    rw [realChars_eq] at hover
    have hsize := (over_append.mp hover).2
    rcases exists_mark_sizeChars x with hmark | hmark <;>
      exact absurd (hsize _ hmark) (by decide)
  rw [kept_iff h hvalue]
  simp only [value?, hfraction, hexponent, Option.isNone_none, Bool.and_self, if_true] at hvalue
  split at hvalue
  · next hfits =>
    -- the digits without a sign
    obtain ⟨hsign, hle⟩ : l.negative = false ∧ Nat.ofDigitChars 10 l.whole 0 ≤ capacity := by
      simpa using hfits
    obtain rfl := Option.some.inj hvalue
    have htext : (Number.integer (Nat.ofDigitChars 10 l.whole 0 : Nat)).toChars = t := by
      show (decimalInt (Nat.ofDigitChars 10 l.whole 0 : Nat)).toList = t
      rw [toList_decimalInt, if_neg (by omega), Int.natAbs_natCast, hdigits, ht]
      simp [hsign]
    simp [htext, hsign, hle]
  · next hlarge =>
    split at hvalue
    · next hfits =>
      -- the digits with a minus sign
      obtain ⟨⟨hsign, hpos⟩, hle⟩ : (l.negative = true ∧ 0 < Nat.ofDigitChars 10 l.whole 0) ∧
          Nat.ofDigitChars 10 l.whole 0 ≤ UInt64.size / 2 := by
        simpa using hfits
      obtain rfl := Option.some.inj hvalue
      have htext : (Number.integer (-(Nat.ofDigitChars 10 l.whole 0 : Nat))).toChars = t := by
        show (decimalInt (-(Nat.ofDigitChars 10 l.whole 0 : Nat))).toList = t
        rw [toList_decimalInt, if_pos (by omega), Int.natAbs_neg, Int.natAbs_natCast, hdigits, ht]
        simp [hsign]
      simp [htext, hsign, hpos, hle]
    · next hsmall =>
      -- a binary fraction
      obtain ⟨x, -, rfl⟩ := Option.map_eq_some_iff.mp hvalue
      refine iff_of_false (hreal x) ?_
      cases hsign : l.negative <;> simp_all

end Literal

end TopUp.Json
