import Mathlib.Data.String.Basic
import Mathlib.Tactic.SplitIfs

/-! # The order of texts is the order of their bytes

    Texts are ordered by their characters and can as well be ordered by their UTF-8 bytes:
    of two characters the greater one has the greater bytes, whatever stands behind them
    (`utf8EncodeChar_lt`), so the first character in which two texts differ decides either
    way (`lt_iff_utf8Bytes_lt`).
-/

namespace TopUp.Text

/-- The UTF-8 bytes of characters. -/
def utf8Bytes (cs : List Char) : List UInt8 := cs.flatMap String.utf8EncodeChar

theorem utf8Bytes_toList (s : String) : utf8Bytes s.toList = s.toUTF8.data.toList := by
  show _ = s.toByteArray.data.toList
  rw [← String.utf8Encode_toList, List.utf8Encode, List.toList_data_toByteArray]
  rfl

/-! ### Single characters -/

theorem toNat_val_lt (c : Char) : c.val.toNat < 0x110000 := by
  rcases c.valid with h | h <;> omega

/-- Bytes are compared by the first one that differs. -/
theorem cons_ofNat_lt_cons {m n : Nat} (hm : m < 256) (hn : n < 256) {x y : List UInt8} :
    UInt8.ofNat m :: x < UInt8.ofNat n :: y ↔ m < n ∨ m = n ∧ x < y := by
  have hlt : UInt8.ofNat m < UInt8.ofNat n ↔ m < n := by
    rw [UInt8.lt_iff_toNat_lt, UInt8.toNat_ofNat_of_lt' hm, UInt8.toNat_ofNat_of_lt' hn]
  have heq : UInt8.ofNat m = UInt8.ofNat n ↔ m = n := by
    rw [← UInt8.toNat_inj, UInt8.toNat_ofNat_of_lt' hm, UInt8.toNat_ofNat_of_lt' hn]
  rw [List.cons_lt_cons_iff, hlt, heq]

/-- Code points are compared by the first group of six bits that differs. -/
theorem groups_lt {a b : Nat} (h : a < b) (hb : b < 0x110000) :
    a / 262144 % 8 < b / 262144 % 8 ∨ a / 262144 % 8 = b / 262144 % 8 ∧
      (a / 4096 % 64 < b / 4096 % 64 ∨ a / 4096 % 64 = b / 4096 % 64 ∧
        (a / 64 % 64 < b / 64 % 64 ∨ a / 64 % 64 = b / 64 % 64 ∧ a % 64 < b % 64)) := by
  have h4096 : ∀ n : Nat, n / 4096 = n / 64 / 64 := fun n => by omega
  have h262144 : ∀ n : Nat, n / 262144 = n / 64 / 64 / 64 := fun n => by omega
  have ha8 : a / 64 / 64 / 64 % 8 = a / 64 / 64 / 64 := Nat.mod_eq_of_lt (by omega)
  have hb8 : b / 64 / 64 / 64 % 8 = b / 64 / 64 / 64 := Nat.mod_eq_of_lt (by omega)
  rw [h4096, h4096, h262144, h262144, ha8, hb8]
  omega

/-- The bytes of a greater character are greater, whatever follows. -/
theorem utf8EncodeChar_lt {c d : Char} (h : c < d) (x y : List UInt8) :
    String.utf8EncodeChar c ++ x < String.utf8EncodeChar d ++ y := by
  have hcd : c.val.toNat < d.val.toNat := h
  have hgroups := groups_lt hcd (toNat_val_lt d)
  have hd : d.val.toNat < 0x110000 := toNat_val_lt d
  simp only [String.utf8EncodeChar]
  generalize c.val.toNat = a at *
  generalize d.val.toNat = b at *
  -- by the number of bytes of each: a character of more bytes has a greater first byte, and
  -- with the same number of bytes the groups of bits decide
  split_ifs
  all_goals
    first
    | omega
    | simp (disch := omega) only [List.cons_append, List.nil_append, cons_ofNat_lt_cons]
      omega

/-! ### Texts -/

theorem utf8Bytes_lt_of_lt {cs ds : List Char} (h : cs < ds) : utf8Bytes cs < utf8Bytes ds := by
  induction h with
  | @nil d ds =>
    obtain ⟨b, rest, hd⟩ := List.exists_cons_of_ne_nil (String.utf8EncodeChar_ne_nil (c := d))
    simp [utf8Bytes, hd]
  | @cons c cs ds _ ih =>
    exact List.append_left_lt ih
  | rel hcd => exact utf8EncodeChar_lt hcd _ _

/-- Texts are in the order of their bytes. -/
theorem lt_iff_utf8Bytes_lt {a b : String} : a < b ↔ utf8Bytes a.toList < utf8Bytes b.toList := by
  constructor
  · exact utf8Bytes_lt_of_lt
  · intro h
    rcases lt_trichotomy a b with hlt | rfl | hgt
    · exact hlt
    · exact absurd h (List.lt_irrefl _)
    · exact absurd h (List.lt_asymm (utf8Bytes_lt_of_lt hgt))

end TopUp.Text
