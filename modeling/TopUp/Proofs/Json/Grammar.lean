import TopUp.Json.Printer
import TopUp.Proofs.Json.Literals

/-! # The grammar of JSON text

    A value as it is written (`Raw`) keeps what reading forgets: the digits of a number
    literal, the order of members, and members of one name. The same value has many texts,
    for blanks may stand between its parts and characters of strings may be escaped in
    several ways; `Writes` tells which texts those are. What follows a text must not go on
    with its number (`Delimited`), and inside of a text nothing does.
-/

namespace TopUp.Json

open TopUp.Text

/-- A value as it is written. -/
inductive Raw where
  | null
  | bool (value : Bool)
  /-- A number, as its literal. -/
  | number (literal : List Char)
  | string (value : String)
  | array (elements : List Raw)
  | object (members : List (String × Raw))

/-! ### Texts -/

/-- Nothing but blanks. -/
def Blank (ws : List Char) : Prop := ∀ c ∈ ws, Reader.isSpace c = true

/-- The text of a string after its opening quote. -/
inductive Spells : List Char → List Char → Prop where
  /-- The closing quote. -/
  | close : Spells [] ['"']
  /-- A character that stands for itself. -/
  | plain {c : Char} {cs t : List Char} (hcontrol : 0x20 ≤ c.toNat) (hquote : c ≠ '"')
      (hbackslash : c ≠ '\\') (h : Spells cs t) : Spells (c :: cs) (c :: t)
  /-- A letter that stands for a character. -/
  | letter {l c : Char} {cs t : List Char} (hl : Reader.unescape? l = some c)
      (h : Spells cs t) : Spells (c :: cs) ('\\' :: l :: t)
  /-- The number of a character. -/
  | unit {d₁ d₂ d₃ d₄ : Char} {n : Nat} {cs t : List Char}
      (hn : Reader.unit? d₁ d₂ d₃ d₄ = some n) (hlead : Reader.isLead n = false)
      (htrail : Reader.isTrail n = false) (h : Spells cs t) :
      Spells (Char.ofNat n :: cs) ('\\' :: 'u' :: d₁ :: d₂ :: d₃ :: d₄ :: t)
  /-- The two numbers of a character. -/
  | pair {d₁ d₂ d₃ d₄ e₁ e₂ e₃ e₄ : Char} {n m : Nat} {cs t : List Char}
      (hn : Reader.unit? d₁ d₂ d₃ d₄ = some n) (hlead : Reader.isLead n = true)
      (hm : Reader.unit? e₁ e₂ e₃ e₄ = some m) (htrail : Reader.isTrail m = true)
      (h : Spells cs t) :
      Spells (Reader.pairChar n m :: cs)
        ('\\' :: 'u' :: d₁ :: d₂ :: d₃ :: d₄ :: '\\' :: 'u' :: e₁ :: e₂ :: e₃ :: e₄ :: t)

/-- What stands in front of an element or a member: blanks, and a comma unless it is the
    first one. -/
inductive Lead : Bool → List Char → Prop where
  | first {ws : List Char} (hws : Blank ws) : Lead true ws
  | comma {ws ws' : List Char} (hws : Blank ws) (hws' : Blank ws') :
      Lead false (ws ++ ',' :: ws')

mutual

/-- The texts of a value. -/
inductive Writes : Raw → List Char → Prop where
  | null : Writes .null ['n', 'u', 'l', 'l']
  | yes : Writes (.bool true) ['t', 'r', 'u', 'e']
  | no : Writes (.bool false) ['f', 'a', 'l', 's', 'e']
  | number {t : List Char} {l : Literal} (h : Literal.scan t = some (l, [])) :
      Writes (.number t) t
  | string {s : String} {t : List Char} (h : Spells s.toList t) : Writes (.string s) ('"' :: t)
  | array {vs : List Raw} {t : List Char} (h : WritesElements true vs t) :
      Writes (.array vs) ('[' :: t)
  | object {ms : List (String × Raw)} {t : List Char} (h : WritesMembers true ms t) :
      Writes (.object ms) ('\x7b' :: t)

/-- The texts of the elements of an array, with its end. -/
inductive WritesElements : Bool → List Raw → List Char → Prop where
  | close {first : Bool} {ws : List Char} (hws : Blank ws) :
      WritesElements first [] (ws ++ [']'])
  | cons {first : Bool} {v : Raw} {vs : List Raw} {lead t u : List Char}
      (hlead : Lead first lead) (hv : Writes v t) (hvs : WritesElements false vs u) :
      WritesElements first (v :: vs) (lead ++ (t ++ u))

/-- The texts of the members of an object, with its end. -/
inductive WritesMembers : Bool → List (String × Raw) → List Char → Prop where
  | close {first : Bool} {ws : List Char} (hws : Blank ws) :
      WritesMembers first [] (ws ++ ['\x7d'])
  | cons {first : Bool} {name : String} {v : Raw} {ms : List (String × Raw)}
      {lead n ws ws' t u : List Char} (hlead : Lead first lead) (hname : Spells name.toList n)
      (hws : Blank ws) (hws' : Blank ws') (hv : Writes v t) (hms : WritesMembers false ms u) :
      WritesMembers first ((name, v) :: ms)
        (lead ++ '"' :: (n ++ (ws ++ ':' :: (ws' ++ (t ++ u)))))

end

/-- The whole text is one of the value, with blanks around it. -/
def Raw.HasText (v : Raw) (text : String) : Prop :=
  ∃ ws t ws', Blank ws ∧ Writes v t ∧ Blank ws' ∧ text.toList = ws ++ (t ++ ws')

/-! ### What follows a text -/

variable {first : Bool} {v : Raw} {vs : List Raw} {ms : List (String × Raw)}
  {ws lead t u rest cs : List Char} {c : Char}

theorem blank_nil : Blank [] := fun _ h => absurd h List.not_mem_nil

theorem continuesNumber_of_isSpace (h : Reader.isSpace c = true) : continuesNumber c = false := by
  simp only [Reader.isSpace, Bool.or_eq_true, decide_eq_true_eq] at h
  rcases h with ((rfl | rfl) | rfl) | rfl <;> decide

/-- Blanks end a number. -/
theorem Blank.delimited (h : Blank ws) (hrest : Delimited rest) : Delimited (ws ++ rest) := by
  cases ws with
  | nil => exact hrest
  | cons c ws => exact delimited_cons (continuesNumber_of_isSpace (h c (by simp)))

theorem Lead.delimited (h : Lead false lead) : Delimited (lead ++ rest) := by
  cases h with
  | comma hws =>
    rw [List.append_assoc]
    exact hws.delimited (delimited_cons (by decide))

theorem WritesElements.delimited (h : WritesElements false vs u) : Delimited (u ++ rest) := by
  cases h with
  | close hws =>
    rw [List.append_assoc]
    exact hws.delimited (delimited_cons (by decide))
  | cons hlead =>
    rw [List.append_assoc]
    exact hlead.delimited

theorem WritesMembers.delimited (h : WritesMembers false ms u) : Delimited (u ++ rest) := by
  cases h with
  | close hws =>
    rw [List.append_assoc]
    exact hws.delimited (delimited_cons (by decide))
  | cons hlead =>
    rw [List.append_assoc]
    exact hlead.delimited

/-! ### How texts begin -/

/-- The first character of a value is neither a blank nor the end of an array. -/
theorem Writes.head (h : Writes v t) :
    ∃ c t', t = c :: t' ∧ Reader.isSpace c = false ∧ c ≠ ']' := by
  cases h with
  | number h =>
    obtain ⟨c, t', rfl, hc⟩ := Literal.startsNumber_of_scan h
    exact ⟨c, t', rfl, Reader.isSpace_of_startsNumber hc,
      Reader.ne_of_startsNumber hc (by decide)⟩
  | _ => exact ⟨_, _, rfl, by decide, by decide⟩

theorem Writes.length_pos (h : Writes v t) : 0 < t.length := by
  obtain ⟨c, t', rfl, -⟩ := h.head
  simp

theorem WritesElements.length_pos (h : WritesElements first vs t) : 0 < t.length := by
  cases h with
  | close => simp
  | cons _ hv =>
    have hpos := hv.length_pos
    simp only [List.length_append]
    omega

theorem WritesMembers.length_pos (h : WritesMembers first ms t) : 0 < t.length := by
  cases h with
  | close => simp
  | cons =>
    simp only [List.length_append, List.length_cons]
    omega

/-! ### Printed strings -/

namespace Reader

/-- The letter of an escaped character stands for that character, and is not the one that
    announces digits. -/
theorem unescape?_of_escapeLetter? {c letter : Char} (h : escapeLetter? c = some letter) :
    unescape? letter = some c ∧ letter ≠ 'u' := by
  rw [← Char.ofNat_toNat c]
  unfold escapeLetter? at h
  split at h
  case h_8 => exact absurd h (by simp)
  all_goals
    next hc =>
      obtain rfl := Option.some.inj h
      rw [hc]
      decide

/-- The digits of an escaped control character give its number. -/
theorem unit?_control {n : Nat} (h : n < 32) :
    unit? '0' '0' (hexLower (lowDigit (n / 16))) (hexLower (lowDigit n)) = some n := by
  have hzero : hexValue? '0' = some 0 := by decide
  have hdigits : n / 16 % 16 * 16 + n % 16 = n := by omega
  simp [unit?, hzero, lowDigit, hdigits]

end Reader

/-- An escaped character spells the character. -/
theorem Spells.escapeChar (c : Char) (h : Spells cs t) : Spells (c :: cs) (escapeChar c ++ t) := by
  unfold TopUp.Json.escapeChar
  split
  · next letter hletter =>
    exact .letter (Reader.unescape?_of_escapeLetter? hletter).1 h
  · next hnone =>
    split
    · next hcontrol =>
      have hunit := Reader.unit?_control hcontrol
      have hlead : Reader.isLead c.toNat = false := by
        simp only [Reader.isLead, Bool.and_eq_false_iff, decide_eq_false_iff_not]
        omega
      have htrail : Reader.isTrail c.toNat = false := by
        simp only [Reader.isTrail, Bool.and_eq_false_iff, decide_eq_false_iff_not]
        omega
      simpa [Char.ofNat_toNat] using Spells.unit hunit hlead htrail h
    · next hplain =>
      have hquote : c ≠ '"' := by
        rintro rfl
        exact absurd hnone (by decide)
      have hbackslash : c ≠ '\\' := by
        rintro rfl
        exact absurd hnone (by decide)
      exact .plain (by omega) hquote hbackslash h

/-- The text of a printed string. -/
theorem spells_printed (cs : List Char) :
    Spells cs (cs.flatMap TopUp.Json.escapeChar ++ ['"']) := by
  induction cs with
  | nil => exact .close
  | cons c cs ih =>
    rw [List.flatMap_cons, List.append_assoc]
    exact ih.escapeChar c

theorem writes_quoted (s : String) : Writes (.string s) (quoted s) :=
  .string (spells_printed s.toList)

/-! ### Printed objects -/

variable {members : List (String × Json)}

/-- What stands behind a member: another one, or the end of the object. -/
def memberTail (members : List (String × Json)) : List Char :=
  if members.isEmpty then ['\x7d'] else ',' :: (memberChars members ++ ['\x7d'])

/-- The members of an object begin with the first one. -/
theorem memberChars_cons (name : String) (j : Json) (members : List (String × Json)) :
    memberChars ((name, j) :: members) ++ ['\x7d'] =
      quoted name ++ ':' :: (j.toChars ++ memberTail members) := by
  cases members with
  | nil => simp [memberChars, memberTail]
  | cons e members =>
    obtain ⟨k, w⟩ := e
    simp [memberChars, memberTail]

theorem memberTail_cons (name : String) (j : Json) (members : List (String × Json)) :
    memberTail ((name, j) :: members) =
      ',' :: (quoted name ++ ':' :: (j.toChars ++ memberTail members)) := by
  rw [memberTail, if_neg (by simp), memberChars_cons]

/-- The member is written like the printed one. -/
def Prints (e : String × Raw) (f : String × Json) : Prop := e.1 = f.1 ∧ Writes e.2 f.2.toChars

/-- Members with printed values are printed one after the other. -/
theorem writesMembers_printed (h : List.Forall₂ Prints ms members) :
    WritesMembers false ms (memberTail members) ∧
      WritesMembers true ms (memberChars members ++ ['\x7d']) := by
  induction h with
  | nil => exact ⟨.close blank_nil, .close blank_nil⟩
  | @cons e f ms members hef _ ih =>
    obtain ⟨name, v⟩ := e
    obtain ⟨name', j⟩ := f
    obtain ⟨rfl, hv⟩ : name = name' ∧ Writes v j.toChars := hef
    have hname := spells_printed name.toList
    rw [memberTail_cons, memberChars_cons]
    exact ⟨.cons (.comma blank_nil blank_nil) hname blank_nil blank_nil hv ih.1,
      .cons (.first blank_nil) hname blank_nil blank_nil hv ih.1⟩

/-- An object with printed members is printed. -/
theorem writes_object (h : List.Forall₂ Prints ms members) :
    Writes (.object ms) (Json.object members).toChars :=
  .object (writesMembers_printed h).2

end TopUp.Json
