import TopUp.Uuid

/-! # Identifiers read back

    The written form of an identifier is neither the form of bare digits, which is shorter,
    nor one of those with a lead or in braces, for it begins with a digit. Its groups are
    found where the hyphens stand, and they are all of its digits (`Uuid.parse?_toText`).
-/

namespace TopUp.Uuid

open TopUp.Text

/-- Lower-case digits read back. -/
theorem ofDigits?_hexLower (u : Uuid) : ofDigits? (u.digits.toList.map hexLower) = some u := by
  have hmap : ∀ ds : List (Fin 16), (ds.map hexLower).mapM hexValue? = some ds := by
    intro ds
    induction ds with
    | nil => rfl
    | cons d ds ih => simp [ih]
  have hlen : u.digits.toList.length = 32 := by simp
  rw [ofDigits?, hmap, Option.bind_eq_bind, Option.bind_some, dif_pos hlen]
  rfl

/-- The groups of the hyphenated form are found. -/
theorem unhyphenate?_groups {a b c d e : List Char} (ha : a.length = 8) (hb : b.length = 4)
    (hc : c.length = 4) (hd : d.length = 4) (he : e.length = 12) :
    unhyphenate? (a ++ '-' :: b ++ '-' :: c ++ '-' :: d ++ '-' :: e) =
      some (a ++ b ++ c ++ d ++ e) := by
  simp [unhyphenate?, ha, hb, hc, hd, he, List.drop_append, List.drop_of_length_le]

/-- The groups of the written form are all of the digits. -/
theorem groups_eq (ds : List Char) :
    ds.take 8 ++ (ds.drop 8).take 4 ++ (ds.drop 12).take 4 ++ (ds.drop 16).take 4 ++
      ds.drop 20 = ds := by
  have hgroup : ∀ n, (ds.drop n).take 4 ++ ds.drop (n + 4) = ds.drop n := by
    intro n
    rw [← List.drop_drop, List.take_append_drop]
  simp only [List.append_assoc]
  rw [hgroup 16, hgroup 12, hgroup 8, List.take_append_drop]

/-- An identifier reads back from its written form. -/
theorem parse?_toText (u : Uuid) : parse? u.toText = some u := by
  have hlen : (u.digits.toList.map hexLower).length = 32 := by simp
  have hgroups : unhyphenate? u.toChars = some (u.digits.toList.map hexLower) := by
    unfold toChars
    rw [unhyphenate?_groups (by simp) (by simp) (by simp) (by simp) (by simp), groups_eq]
  -- the first character is a digit, so neither lead nor brace is there
  obtain ⟨d, rest, hrest⟩ : ∃ d rest, u.toChars = hexLower d :: rest := by
    cases hds : u.digits.toList with
    | nil => simp [hds] at hlen
    | cons d ds => exact ⟨d, _, by rw [toChars, hds]; rfl⟩
  have hurn : dropUrn? u.toChars = none := by
    have hlead : ∀ d : Fin 16, (hexLower d).toLower ≠ 'u' := by decide
    simp [dropUrn?, hrest, hlead d]
  have hbrace : dropBraces? u.toChars = none := by
    have hopen : ∀ d : Fin 16, hexLower d ≠ '\x7b' := by decide
    rw [hrest]
    unfold dropBraces?
    split
    · next heq => exact absurd (List.cons.inj heq).1 (hopen d)
    · rfl
  have hlong : u.toChars.length ≠ 32 := by simp [toChars]
  simp [parse?, toText, hlong, hurn, hbrace, hgroups, ofDigits?_hexLower]
end TopUp.Uuid
