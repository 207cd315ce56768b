import Mathlib.Data.List.Basic

/-! # Texts joined by a separator

    Texts that are joined by `&` can be told apart again only if `&` is in none of them.
    In any case the pieces between one `&` and the next are the pieces of the texts, one
    text after the other (`pieces_joined`); a text without `&` is a piece.
-/

namespace TopUp.Text

/-- The texts behind each other, with `&` between them. -/
def joined (texts : List String) : String := "&".intercalate texts

/-- The pieces of a text between one `&` and the next. -/
def pieces (text : String) : List String := (text.toList.splitOn '&').map String.ofList

variable {texts texts' : List String}

/-- A list is cut in one way where a separator stands first. -/
theorem cut_unique {α : Type} {p : α → Prop} {a b x y : List α} {c d : α} (ha : ∀ e ∈ a, ¬ p e)
    (hb : ∀ e ∈ b, ¬ p e) (hc : p c) (hd : p d) (h : a ++ c :: x = b ++ d :: y) :
    a = b ∧ c = d ∧ x = y := by
  induction a generalizing b with
  | nil =>
    cases b with
    | nil => exact ⟨rfl, List.cons.inj h⟩
    | cons e b => exact absurd hc ((List.cons.inj h).1 ▸ hb e List.mem_cons_self)
  | cons e a ih =>
    cases b with
    | nil => exact absurd hd ((List.cons.inj h).1 ▸ ha e List.mem_cons_self)
    | cons f b =>
      obtain ⟨rfl, hrest⟩ := List.cons.inj h
      obtain ⟨rfl, hcut⟩ := ih (fun g hg => ha g (List.mem_cons_of_mem _ hg))
        (fun g hg => hb g (List.mem_cons_of_mem _ hg)) hrest
      exact ⟨rfl, hcut⟩

theorem toList_joined (texts : List String) :
    (joined texts).toList = ['&'].intercalate (texts.map String.toList) := by
  simp [joined, String.toList_intercalate]

theorem joined_cons_cons (text next : String) (rest : List String) :
    (joined (text :: next :: rest)).toList =
      text.toList ++ '&' :: (joined (next :: rest)).toList := by
  simp [toList_joined, List.intercalate_cons_cons]

theorem joined_singleton (text : String) : joined [text] = text := by
  apply String.toList_inj.mp
  simp [toList_joined]

theorem joined_append (h : texts ≠ []) (h' : texts' ≠ []) :
    joined (texts ++ texts') = joined texts ++ "&" ++ joined texts' :=
  String.intercalate_append_of_ne_nil h h'

/-- A text without `&` is its only piece. -/
theorem pieces_of_notMem {text : String} (h : '&' ∉ text.toList) : pieces text = [text] := by
  simp [pieces, List.splitOn_eq_singleton h]

theorem joined_pieces (text : String) : joined (pieces text) = text := by
  apply String.toList_inj.mp
  simp [toList_joined, pieces, Function.comp_def]

/-- Joining keeps the pieces of each text. -/
theorem pieces_joined (h : texts ≠ []) : pieces (joined texts) = texts.flatMap pieces := by
  induction texts with
  | nil => exact absurd rfl h
  | cons text rest ih =>
    cases rest with
    | nil => simp [joined_singleton]
    | cons next rest =>
      have hrest : pieces (joined (next :: rest)) = (next :: rest).flatMap pieces := ih (by simp)
      calc pieces (joined (text :: next :: rest))
        _ = pieces text ++ pieces (joined (next :: rest)) := by
          simp only [pieces, joined_cons_cons, List.splitOn_append_cons_self, List.map_append]
        _ = (text :: next :: rest).flatMap pieces := by rw [hrest, ← List.flatMap_cons]

/-- Texts without `&` are told apart again. -/
theorem pieces_joined_of_notMem (h : texts ≠ []) (hplain : ∀ text ∈ texts, '&' ∉ text.toList) :
    pieces (joined texts) = texts := by
  rw [pieces_joined h]
  induction texts with
  | nil => rfl
  | cons text rest ih =>
    have htext : pieces text = [text] := pieces_of_notMem (hplain text List.mem_cons_self)
    cases rest with
    | nil => simp [htext]
    | cons next rest =>
      have hrest := ih (by simp) fun t ht => hplain t (List.mem_cons_of_mem _ ht)
      rw [List.flatMap_cons, htext, hrest]
      rfl

theorem mem_joined {c : Char} {text : String} (hmem : text ∈ texts) (hc : c ∈ text.toList) :
    c ∈ (joined texts).toList := by
  induction texts with
  | nil => simp at hmem
  | cons first rest ih =>
    cases rest with
    | nil =>
      obtain rfl : text = first := by simpa using hmem
      simpa [joined_singleton] using hc
    | cons next rest =>
      rw [joined_cons_cons, List.mem_append, List.mem_cons]
      rcases List.mem_cons.mp hmem with rfl | hmem
      · exact Or.inl hc
      · exact Or.inr (Or.inr (ih hmem))

theorem joined_ne_empty {text : String} (hmem : text ∈ texts) (hfilled : text ≠ "") :
    joined texts ≠ "" := by
  intro hempty
  cases hchars : text.toList with
  | nil => exact hfilled (String.toList_inj.mp hchars)
  | cons c _ =>
    have hc : c ∈ (joined texts).toList := mem_joined hmem (by simp [hchars])
    simp [hempty] at hc

/-- Nothing but no text is joined to the empty text, as long as no text is empty. -/
theorem joined_eq_empty (hfilled : ∀ text ∈ texts, text ≠ "") : joined texts = "" ↔ texts = [] := by
  constructor
  · intro h
    by_contra hne
    obtain ⟨text, hmem⟩ := List.exists_mem_of_ne_nil texts hne
    exact joined_ne_empty hmem (hfilled text hmem) h
  · rintro rfl
    rfl

/-- Filled texts without `&` are known by the text that they are joined to. -/
theorem joined_inj (hfilled : ∀ text ∈ texts, text ≠ "") (hfilled' : ∀ text ∈ texts', text ≠ "")
    (hplain : ∀ text ∈ texts, '&' ∉ text.toList) (hplain' : ∀ text ∈ texts', '&' ∉ text.toList) :
    joined texts = joined texts' ↔ texts = texts' := by
  constructor
  · intro h
    by_cases hnil : texts = []
    · have hnil' : joined texts' = "" := by rw [← h]; exact (joined_eq_empty hfilled).mpr hnil
      rw [hnil, (joined_eq_empty hfilled').mp hnil']
    · have hnil' : texts' ≠ [] := by
        intro hnil'
        have hempty : joined texts = "" := by rw [h]; exact (joined_eq_empty hfilled').mpr hnil'
        exact hnil ((joined_eq_empty hfilled).mp hempty)
      rw [← pieces_joined_of_notMem hnil hplain, h, pieces_joined_of_notMem hnil' hplain']
  · rintro rfl
    rfl

/-- A text without `&` among those joined is a piece. -/
theorem mem_pieces_joined {text : String} (hmem : text ∈ texts) (hplain : '&' ∉ text.toList) :
    text ∈ pieces (joined texts) := by
  rw [pieces_joined (List.ne_nil_of_mem hmem)]
  apply List.mem_flatMap.mpr
  exact ⟨text, hmem, by simp [pieces_of_notMem hplain]⟩

end TopUp.Text
