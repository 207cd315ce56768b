import Mathlib.Data.List.DropRight
import TopUp.Text.Blank

/-! # Trimming

    A text that was trimmed has no blanks left at its ends, so trimming it once more
    changes nothing. What is not blank is left in its place.
-/

namespace TopUp.Text

theorem trimChars_eq_rdropWhile (cs : List Char) :
    trimChars cs = (cs.dropWhile isBlank).rdropWhile isBlank := rfl

theorem trimChars_trimChars (cs : List Char) : trimChars (trimChars cs) = trimChars cs := by
  simp only [trimChars_eq_rdropWhile]
  -- blanks taken off the right leave the first character as it is, and that is not blank
  have hleft : (((cs.dropWhile isBlank).rdropWhile isBlank).dropWhile isBlank) =
      (cs.dropWhile isBlank).rdropWhile isBlank := by
    rw [List.dropWhile_eq_self_iff]
    intro hlen
    have hpre : (cs.dropWhile isBlank).rdropWhile isBlank <+: cs.dropWhile isBlank :=
      List.rdropWhile_prefix _ _
    have hlen' : 0 < (cs.dropWhile isBlank).length := Nat.lt_of_lt_of_le hlen hpre.length_le
    rw [hpre.getElem hlen]
    exact List.dropWhile_eq_self_iff.mp (List.dropWhile_idempotent _ _) hlen'
  rw [hleft, List.rdropWhile_idempotent]

theorem trim_trim (s : String) : trim (trim s) = trim s := by
  simp [trim, trimChars_trimChars]

/-! ### What is not blank -/

theorem mem_dropWhile_isBlank {c : Char} {cs : List Char} (hmem : c ∈ cs)
    (hc : isBlank c = false) : c ∈ cs.dropWhile isBlank := by
  rw [← List.takeWhile_append_dropWhile (p := isBlank) (l := cs)] at hmem
  rcases List.mem_append.mp hmem with hblank | hkept
  · have hblank : isBlank c = true := List.mem_takeWhile_imp hblank
    simp [hc] at hblank
  · exact hkept

/-- Trimming takes nothing but blanks. -/
theorem mem_trim {c : Char} {text : String} (hmem : c ∈ text.toList) (hc : isBlank c = false) :
    c ∈ (trim text).toList := by
  simp only [trim, String.toList_ofList, trimChars, List.mem_reverse]
  apply mem_dropWhile_isBlank ?_ hc
  exact List.mem_reverse.mpr (mem_dropWhile_isBlank hmem hc)

end TopUp.Text
