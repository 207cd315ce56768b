import TopUp.Proofs.Gateway.Tampering
import TopUp.Proofs.Json.Reading
import TopUp.Proofs.Json.Rewriting

/-! # Numbers in signed answers

    A gateway signs the texts of the members of its answer as it writes them, and a number
    as its literal (`shownText`). The check of an answer writes the number that was read
    anew. So a genuine answer passes if all numbers under recognised names are kept, and as
    far as the digest tells messages apart only then: numbers have no `&` in their texts, so
    two signed texts that differ in numbers alone are different (`joined_aligned`).
-/

namespace TopUp.Gateway

open TopUp.Data TopUp.Json TopUp.Text

variable {name : String} {v : Raw} {j : Json} {levels : Nat} {members : List (String × Raw)}
  {js : List (String × Json)} {m n : FieldMap}

/-! ### Texts that are signed -/

/-- The value is no array and no object. -/
def IsScalar : Raw → Prop
  | .array _ | .object _ => False
  | _ => True

/-- The text of a scalar as it is written; null has none. -/
def shownText : Raw → String
  | .string s => s
  | .number t => String.ofList t
  | .bool true => "true"
  | .bool false => "false"
  | .null | .array _ | .object _ => ""

/-- The texts of the members of an answer as they are written. -/
def shownTexts (members : List (String × Raw)) : FieldMap :=
  .ofList (members.map fun e => (e.1, shownText e.2))

/-- All numbers under recognised names are written as they will be written anew. -/
def NumbersKept (members : List (String × Raw)) : Prop :=
  ∀ name t, isSigned name = true → Fields.last? name members = some (.number t) → Literal.Kept t

theorem get?_shownTexts (members : List (String × Raw)) (name : String) :
    (shownTexts members).get? name = (Fields.last? name members).map shownText := by
  rw [shownTexts, FieldMap.get?_ofList_eq_last?, Fields.last?_map]

theorem fieldText_number (n : Number) : fieldText (.number n) = String.ofList n.toChars := by
  simp [fieldText, render, toChars]

/-- Only a number that is not kept is written anew with another text. -/
theorem fieldText_eq_iff (hv : IsScalar v) (hj : v.json? levels = some j) :
    fieldText j = shownText v ↔ ∀ t, v = .number t → Literal.Kept t := by
  cases v with
  | number t =>
    obtain ⟨l, n, hscan, hvalue, rfl⟩ := json?_number hj
    have hkept := Literal.kept_iff hscan hvalue
    rw [fieldText_number, shownText, String.ofList_inj, ← hkept]
    simp
  | bool b =>
    obtain rfl : .bool b = j := by simpa [Raw.json?] using hj
    cases b <;> simp [fieldText, shownText, render, toChars]
  | null =>
    obtain rfl : .null = j := by simpa [Raw.json?] using hj
    simp [fieldText, shownText]
  | string s =>
    obtain rfl : .string s = j := by simpa [Raw.json?] using hj
    simp [fieldText, shownText]
  | array | object => exact absurd hv (by simp [IsScalar])

/-- Characters of numbers, at least one of them, make up a text without `&`. -/
theorem plain_of_numeric {cs : List Char} (hne : cs ≠ []) (h : Literal.Numeric cs) :
    String.ofList cs ≠ "" ∧ '&' ∉ (String.ofList cs).toList := by
  constructor
  · intro hempty
    exact hne (by simpa using congrArg String.toList hempty)
  · rw [String.toList_ofList]
    intro hmem
    exact absurd (h _ hmem) (by decide)

/-- The text of a number is not empty and has no `&` in it, written anew or not. -/
theorem number_plain {t : List Char} (hj : (Raw.number t).json? levels = some j) :
    (fieldText j ≠ "" ∧ '&' ∉ (fieldText j).toList) ∧
      (shownText (.number t) ≠ "" ∧ '&' ∉ (shownText (.number t)).toList) := by
  obtain ⟨l, n, hscan, hvalue, rfl⟩ := json?_number hj
  obtain ⟨c, t', rfl, -⟩ := Literal.startsNumber_of_scan hscan
  rw [fieldText_number]
  exact ⟨plain_of_numeric (Literal.toChars_ne_nil n) (Literal.numeric_toChars n),
    plain_of_numeric (by simp) (Literal.numeric_of_scan hscan)⟩

/-! ### Texts that differ in plain pieces -/

/-- Texts are the same, or neither has an `&` in it. -/
def Alike (a b : String) : Prop := a = b ∨ '&' ∉ a.toList ∧ '&' ∉ b.toList

/-- Texts that are alike one by one are known by the text that they are joined to. -/
theorem joined_aligned {texts texts' : List String} (h : List.Forall₂ Alike texts texts')
    (hjoined : joined texts = joined texts') : texts = texts' := by
  induction h with
  | nil => rfl
  | @cons a b as bs hab hrest ih =>
    have hhead : ∀ {x y : List Char}, a.toList ++ '&' :: x = b.toList ++ '&' :: y →
        a = b ∧ x = y := by
      intro x y heq
      rcases hab with rfl | ⟨ha, hb⟩
      · exact ⟨rfl, by simpa using heq⟩
      · obtain ⟨hchars, -, hxy⟩ := cut_unique (p := (· = '&')) (fun c hc heq => ha (heq ▸ hc))
          (fun c hc heq => hb (heq ▸ hc)) rfl rfl heq
        exact ⟨String.toList_inj.mp hchars, hxy⟩
    cases hrest with
    | nil =>
      rw [joined_singleton, joined_singleton] at hjoined
      rw [hjoined]
    | cons hnext hrest =>
      have heq := congrArg String.toList hjoined
      rw [joined_cons_cons, joined_cons_cons] at heq
      obtain ⟨rfl, hrest⟩ := hhead heq
      rw [ih (String.toList_inj.mp hrest)]

/-- Maps with values under the same names have the same names. -/
theorem fieldNames_eq (h : ∀ name, (m.get? name).isSome = (n.get? name).isSome) :
    fieldNames m = fieldNames n := by
  have hunit : m.toList.map (fun e => (e.1, ())) = n.toList.map fun e => (e.1, ()) := by
    refine Fields.ext_get? (m.ascending.map fun _ => ()) (n.ascending.map fun _ => ())
      fun name => ?_
    rw [Fields.get?_map (fun _ => ()), Fields.get?_map (fun _ => ())]
    have hname : (Fields.get? name m.toList).isSome = (Fields.get? name n.toList).isSome := h name
    cases hm : Fields.get? name m.toList <;> cases hn : Fields.get? name n.toList <;>
      simp_all
  have hnames := congrArg (List.map Prod.fst) hunit
  rwa [List.map_map, List.map_map] at hnames

/-- Values under the same names are compared one by one. -/
theorem forall₂_values {r : String → String → Prop} {l l' : List (String × String)}
    (hnames : l.map Prod.fst = l'.map Prod.fst)
    (h : ∀ e ∈ l, ∀ e' ∈ l', e.1 = e'.1 → r e.2 e'.2) :
    List.Forall₂ r (l.map Prod.snd) (l'.map Prod.snd) := by
  induction l generalizing l' with
  | nil =>
    cases l' with
    | nil => exact .nil
    | cons => exact absurd hnames (by simp)
  | cons e l ih =>
    cases l' with
    | nil => exact absurd hnames (by simp)
    | cons e' l' =>
      obtain ⟨hname, hrest⟩ := List.cons.inj hnames
      exact .cons (h e List.mem_cons_self e' List.mem_cons_self hname)
        (ih hrest fun x hx x' hx' =>
          h x (List.mem_cons_of_mem _ hx) x' (List.mem_cons_of_mem _ hx'))

/-- Maps whose signed values are alike have the same signed part if they have the same
    signed text. -/
theorem signedView_eq_of_signedText
    (hnames : ∀ name, ((signedView m).get? name).isSome = ((signedView n).get? name).isSome)
    (halike : ∀ name a b, (signedView m).get? name = some a → (signedView n).get? name = some b →
      Alike a b) (htext : signedText m = signedText n) : signedView m = signedView n := by
  have hfields := fieldNames_eq hnames
  refine eq_of_fieldNames_of_values hfields (joined_aligned (forall₂_values hfields ?_) htext)
  rintro ⟨name, a⟩ ha ⟨name', b⟩ hb rfl
  exact halike name a b (FieldMap.get?_eq_some.mpr ha) (FieldMap.get?_eq_some.mpr hb)

/-! ### Members as they were read -/

section Read

variable (hread : membersJson? levels members = some js)

theorem ascending_insertAll {seen : List (String × Json)} (h : Fields.Ascending seen) :
    Fields.Ascending (insertAll seen js) := by
  induction js generalizing seen with
  | nil => exact h
  | cons e js ih => exact ih (Fields.ascending_insert e.1 e.2 h)

include hread

theorem get?_read (name : String) :
    Fields.get? name (insertAll [] js) = (Fields.last? name members).bind (Raw.json? levels) := by
  rw [insertAll, Fields.get?_foldl_insert, last?_membersJson? hread]
  simp [Fields.get?]

theorem exists_json?_of_last? (h : Fields.last? name members = some v) :
    ∃ j, v.json? levels = some j ∧
      (fieldTexts (insertAll [] js)).get? name = some (fieldText j) := by
  obtain ⟨j, hj⟩ := exists_json?_of_mem hread (Fields.mem_of_last? h)
  refine ⟨j, hj, ?_⟩
  rw [get?_fieldTexts (ascending_insertAll Fields.ascending_nil), get?_read hread, h,
    Option.bind_some, hj, Option.map_some]

theorem get?_fieldTexts_of_none (h : Fields.last? name members = none) :
    (fieldTexts (insertAll [] js)).get? name = none := by
  rw [get?_fieldTexts (ascending_insertAll Fields.ascending_nil), get?_read hread, h]
  rfl

/-- A number under a recognised name has the text that was written just if it is kept. -/
theorem get?_fieldTexts_iff_kept {t : List Char}
    (h : Fields.last? name members = some (.number t)) :
    (fieldTexts (insertAll [] js)).get? name = some (String.ofList t) ↔ Literal.Kept t := by
  obtain ⟨j, hj, hget⟩ := exists_json?_of_last? hread h
  have hkept : fieldText j = shownText (.number t) ↔ ∀ t', Raw.number t = .number t' →
      Literal.Kept t' := fieldText_eq_iff (by simp [IsScalar]) hj
  rw [hget, Option.some.injEq]
  simpa [shownText] using hkept

variable (hscalar : ∀ name v, isSigned name = true → Fields.last? name members = some v →
  IsScalar v)

include hscalar

/-- If all numbers are kept, what was written is signed like what was read. -/
theorem signedView_eq_of_kept (hkept : NumbersKept members) :
    signedView (fieldTexts (insertAll [] js)) = signedView (shownTexts members) := by
  rw [signedView_eq_iff]
  intro name hsigned
  rw [get?_shownTexts]
  cases hlast : Fields.last? name members with
  | none => rw [get?_fieldTexts_of_none hread hlast, Option.map_none]
  | some v =>
    obtain ⟨j, hj, hget⟩ := exists_json?_of_last? hread hlast
    have htext : fieldText j = shownText v :=
      (fieldText_eq_iff (hscalar name v hsigned hlast) hj).mpr fun t ht =>
        hkept name t hsigned (ht ▸ hlast)
    rw [hget, htext, Option.map_some]

omit hread hscalar in
theorem filter_filled {value : String} (h : value ≠ "") :
    (some value).filter (fun value => !value.isEmpty) = some value := by
  simp [h]

/-- What was written and what was read have values under the same signed names, and these
    are the same unless they are numbers. -/
theorem alike_of_read (name : String) :
    ((signedView (fieldTexts (insertAll [] js))).get? name).isSome =
        ((signedView (shownTexts members)).get? name).isSome ∧
      ∀ a b, (signedView (fieldTexts (insertAll [] js))).get? name = some a →
        (signedView (shownTexts members)).get? name = some b → Alike a b := by
  rw [get?_signedView, get?_signedView, get?_shownTexts]
  by_cases hsigned : isSigned name = true
  · rw [if_pos hsigned, if_pos hsigned]
    cases hlast : Fields.last? name members with
    | none => simp [get?_fieldTexts_of_none hread hlast]
    | some v =>
      obtain ⟨j, hj, hget⟩ := exists_json?_of_last? hread hlast
      rw [hget]
      by_cases htext : fieldText j = shownText v
      · rw [htext, Option.map_some]
        exact ⟨rfl, fun a b ha hb => Or.inl (Option.some.inj (ha.symm.trans hb))⟩
      · -- only the text of a number can differ
        have hother : ∃ t, v = .number t := by
          by_contra hnone
          exact htext ((fieldText_eq_iff (hscalar name v hsigned hlast) hj).mpr fun t ht =>
            absurd ⟨t, ht⟩ hnone)
        obtain ⟨t, rfl⟩ := hother
        obtain ⟨⟨hfilled, hplain⟩, hfilled', hplain'⟩ := number_plain hj
        rw [Option.map_some, filter_filled hfilled, filter_filled hfilled']
        refine ⟨rfl, fun a b ha hb => ?_⟩
        obtain rfl := Option.some.inj ha
        obtain rfl := Option.some.inj hb
        exact Or.inr ⟨hplain, hplain'⟩
  · rw [if_neg hsigned, if_neg hsigned]
    exact ⟨rfl, fun a b ha => absurd ha (by simp)⟩

/-- The signed texts are the same just if all numbers are kept. -/
theorem signedText_eq_iff_kept :
    signedText (fieldTexts (insertAll [] js)) = signedText (shownTexts members) ↔
      NumbersKept members := by
  constructor
  · intro htext name t hsigned hlast
    have hview := signedView_eq_of_signedText
      (fun name => (alike_of_read hread hscalar name).1)
      (fun name => (alike_of_read hread hscalar name).2) htext
    obtain ⟨j, hj, hget⟩ := exists_json?_of_last? hread hlast
    obtain ⟨⟨hfilled, -⟩, hfilled', -⟩ := number_plain hj
    have hsame := signedView_eq_iff.mp hview name hsigned
    rw [hget, get?_shownTexts, hlast, Option.map_some, filter_filled hfilled,
      filter_filled hfilled'] at hsame
    exact (fieldText_eq_iff (by simp [IsScalar]) hj).mp (Option.some.inj hsame) t rfl
  · intro hkept
    unfold signedText
    rw [signedView_eq_of_kept hread hscalar hkept]

end Read

/-! ### Genuine answers -/

/-- The answer carries the signature over the texts of its members as they are written, and
    its recognised members are scalars. -/
structure Genuine (s : Signer) (members : List (String × Raw)) : Prop where
  /-- Recognised members are scalars. -/
  scalar : ∀ name v, isSigned name = true → Fields.last? name members = some v → IsScalar v
  /-- The signature. -/
  hash : Fields.last? hashField members = some (.string (s.sign (shownTexts members)))

theorem scalar_of_forall_mem (h : ∀ e ∈ members, IsScalar e.2) (name : String) (v : Raw)
    (_ : isSigned name = true) (hlast : Fields.last? name members = some v) : IsScalar v :=
  h _ (Fields.mem_of_last? hlast)

namespace Signer

variable {s : Signer}

/-- A genuine answer passes just if what was read is signed like what was written. -/
theorem verify_iff_of_genuine (hgenuine : Genuine s members)
    (hfilled : s.sign (shownTexts members) ≠ "")
    (hread : membersJson? levels members = some js) :
    s.verify (insertAll [] js) = .ok () ↔
      s.sign (fieldTexts (insertAll [] js)) = s.sign (shownTexts members) := by
  have hhash : Fields.get? hashField (insertAll [] js) =
      some (.string (s.sign (shownTexts members))) := by
    rw [get?_read hread, hgenuine.hash]
    rfl
  rw [verify_eq_ok, hhash]
  constructor
  · rintro ⟨received, heq, -, hsame⟩
    rw [← hsame]
    exact (Json.string.inj (Option.some.inj heq)).symm
  · intro hsame
    exact ⟨_, rfl, hfilled, hsame.symm⟩

/-- For every literal that stands for a number, the text that is signed is the literal just
    if it is kept, and whether it is can be told by its parts. A genuine answer of which every
    text is read passes the check if all numbers under recognised names are kept, and as far
    as the digest tells the two messages apart only then. -/
theorem numbers_verified_iff_kept (salt : String) :
    (∀ t l n, Literal.scan t = some (l, []) → l.value? = some n →
      (fieldText (.number n) = String.ofList t ↔ Literal.Kept t) ∧ Literal.Foretold t l) ∧
    (∀ members text, Genuine (standard salt) members → (Raw.object members).HasText text →
      ((Raw.object members).json? nesting).isSome →
      ∃ read, parse text = .ok (.object read) ∧
        (∀ name t, Fields.last? name members = some (.number t) →
          ((fieldTexts read).get? name = some (String.ofList t) ↔ Literal.Kept t)) ∧
        (NumbersKept members → (standard salt).verify read = .ok ()) ∧
        ((standard salt).Distinguishes (fieldTexts read) (shownTexts members) →
          ((standard salt).verify read = .ok () ↔ NumbersKept members))) := by
  refine ⟨?_, ?_⟩
  · intro t l n hscan hvalue
    refine ⟨?_, Literal.foretold hscan hvalue⟩
    rw [Literal.kept_iff hscan hvalue, fieldText_number, String.ofList_inj]
  · intro members text hgenuine htext hsome
    obtain ⟨j, hj⟩ := Option.isSome_iff_exists.mp hsome
    obtain ⟨js, hread, rfl⟩ := Option.map_eq_some_iff.mp hj
    have hverify := verify_iff_of_genuine hgenuine (sign_standard_ne_empty salt _) hread
    refine ⟨_, parse_of_hasText hj htext, fun name t => get?_fieldTexts_iff_kept hread, ?_, ?_⟩
    · intro hkept
      exact hverify.mpr (sign_congr _ (signedView_eq_of_kept hread hgenuine.scalar hkept))
    · intro hdistinguishes
      rw [hverify, sign_eq_sign_iff hdistinguishes, signedText_eq_iff_kept hread hgenuine.scalar]

/-- The members of a genuine answer with numbers that are kept. -/
def keptAnswer : List (String × Raw) :=
  [("pp_Amount", .number "50000".toList), ("pp_Fee", .number "1.25".toList),
    ("pp_SecureHash", .string "A15FED83807EF6E8DA8865ED99F48792B579E6BBE0BC93B23DBD5F76830641BA")]

/-- Their text. -/
def keptText : String :=
  "\x7b\"pp_Amount\":50000,\"pp_Fee\":1.25,\"pp_SecureHash\":\"A15FED83807EF6E8DA8865ED99F48792B579E6BBE0BC93B23DBD5F76830641BA\"\x7d"

theorem genuine_keptAnswer : Genuine (standard "salt") keptAnswer where
  scalar := scalar_of_forall_mem (by simp [keptAnswer, IsScalar])
  hash := by
    have hsign : (standard "salt").sign (shownTexts keptAnswer) =
        "A15FED83807EF6E8DA8865ED99F48792B579E6BBE0BC93B23DBD5F76830641BA" := by decide +kernel
    rw [hsign]
    rfl

theorem numbersKept_keptAnswer : NumbersKept keptAnswer := by
  intro name t _ hlast
  have hmem := Fields.mem_of_last? hlast
  simp only [keptAnswer, List.mem_cons, List.not_mem_nil, or_false, Prod.mk.injEq,
    Raw.number.injEq, reduceCtorEq, and_false] at hmem
  rcases hmem with ⟨-, rfl⟩ | ⟨-, rfl⟩ <;> decide +kernel

theorem keptAnswer_text : (Raw.object keptAnswer).HasText keptText :=
  ⟨[], _, [], blank_nil,
    .object (.cons (.first blank_nil) (spells_printed _) blank_nil blank_nil (.number rfl)
      (.cons (.comma blank_nil blank_nil) (spells_printed _) blank_nil blank_nil (.number rfl)
        (.cons (.comma blank_nil blank_nil) (spells_printed _) blank_nil blank_nil
          (writes_quoted _) (.close blank_nil)))), blank_nil, by decide +kernel⟩

/-- It passes the check. -/
theorem keptAnswer_verified : ∃ read, parse keptText = .ok (.object read) ∧
    (standard "salt").verify read = .ok () := by
  obtain ⟨read, hread, -, hverify, -⟩ := (numbers_verified_iff_kept "salt").2 keptAnswer _
    genuine_keptAnswer keptAnswer_text (by decide +kernel)
  exact ⟨read, hread, hverify numbersKept_keptAnswer⟩

/-- The members of a genuine answer with a number that is not kept. -/
def shortenedAnswer : List (String × Raw) :=
  [("pp_Amount", .number "1.10".toList),
    ("pp_SecureHash", .string "87CB33C4ABE24ED8E758827553514B93E88247B76CC676AD94953101FD3CC180")]

/-- Their text. -/
def shortenedText : String :=
  "\x7b\"pp_Amount\":1.10,\"pp_SecureHash\":\"87CB33C4ABE24ED8E758827553514B93E88247B76CC676AD94953101FD3CC180\"\x7d"

/-- The gateway signed `1.10`, and the check signs `1.1`. -/
theorem shortenedAnswer_refused :
    Genuine (standard "salt") shortenedAnswer ∧
    (Raw.object shortenedAnswer).HasText shortenedText ∧
    ∃ read, parse shortenedText = .ok (.object read) ∧
      (fieldTexts read).get? "pp_Amount" = some "1.1" ∧
      (standard "salt").verify read = .error (.unverified "secure hash mismatch") := by
  have hsign : (standard "salt").sign (shownTexts shortenedAnswer) =
      "87CB33C4ABE24ED8E758827553514B93E88247B76CC676AD94953101FD3CC180" := by decide +kernel
  have htext : (Raw.object shortenedAnswer).HasText shortenedText :=
    ⟨[], _, [], blank_nil, .object (.cons (.first blank_nil) (spells_printed _) blank_nil blank_nil
      (.number rfl) (.cons (.comma blank_nil blank_nil) (spells_printed _) blank_nil blank_nil
        (writes_quoted _) (.close blank_nil))), blank_nil, by decide +kernel⟩
  have hcheck : (membersJson? (nesting - 1) shortenedAnswer).map (fun js =>
      ((fieldTexts (insertAll [] js)).get? "pp_Amount",
        (standard "salt").verify (insertAll [] js))) =
      some (some "1.1", .error (.unverified "secure hash mismatch")) := by
    decide +kernel
  obtain ⟨js, hread, hresult⟩ := Option.map_eq_some_iff.mp hcheck
  obtain ⟨hshown, hrefused⟩ := Prod.mk.inj hresult
  have hobject : (Raw.object shortenedAnswer).json? nesting = some (.object (insertAll [] js)) := by
    show (membersJson? (nesting - 1) shortenedAnswer).map
      (fun js => Json.object (insertAll [] js)) = _
    rw [hread]
    rfl
  exact ⟨⟨scalar_of_forall_mem (by simp [shortenedAnswer, IsScalar]), by rw [hsign]; rfl⟩,
    htext, insertAll [] js, parse_of_hasText hobject htext, hshown, hrefused⟩

end Signer

end TopUp.Gateway
