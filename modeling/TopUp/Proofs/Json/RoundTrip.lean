import Mathlib.Data.List.Forall2
import TopUp.Proofs.Json.Reading

/-! # Field maps survive their text

    The text of a field map reads back as the object that was printed
    (`parse_render_ofFields`): it is a text of that object, its names ascend, and the reader
    puts every member behind those that came before.
-/

namespace TopUp.Json

open TopUp.Data

/-- Members whose names ascend are inserted one behind the other. -/
theorem insertAll_of_ascending {seen js : List (String × Json)}
    (h : Fields.Ascending (seen ++ js)) : insertAll seen js = seen ++ js := by
  induction js generalizing seen with
  | nil => rw [List.append_nil]; rfl
  | cons e js ih =>
    have hless : ∀ e' ∈ seen, e'.1 < e.1 := fun e' he' =>
      (List.pairwise_append.mp h).2.2 e' he' e List.mem_cons_self
    have hgrown : seen ++ e :: js = Fields.insert e.1 e.2 seen ++ js := by
      rw [Fields.insert_of_forall_lt hless]
      simp
    rw [hgrown] at h ⊢
    exact ih h

/-- Texts are read as texts. -/
theorem membersJson?_texts (levels : Nat) (texts : List (String × String)) :
    membersJson? levels (texts.map fun e => (e.1, .string e.2)) =
      some (texts.map fun e => (e.1, .string e.2)) := by
  induction texts with
  | nil => rfl
  | cons e texts ih => simp [membersJson?, ih, Raw.json?]

/-- The text of a field map reads back as the object of its fields. -/
theorem parse_render_ofFields (m : FieldMap) : parse (render (ofFields m)) = .ok (ofFields m) := by
  have hprinted : List.Forall₂ Prints (m.toList.map fun e => (e.1, .string e.2))
      (m.toList.map fun e => (e.1, .string e.2)) :=
    List.forall₂_map_left_iff.mpr (List.forall₂_map_right_iff.mpr
      (List.forall₂_same.mpr fun e _ => ⟨rfl, writes_quoted e.2⟩))
  have htext : (Raw.object (m.toList.map fun e => (e.1, .string e.2))).HasText
      (render (ofFields m)) :=
    ⟨[], _, [], blank_nil, writes_object hprinted, blank_nil, by simp [render, ofFields]⟩
  refine parse_of_hasText ?_ htext
  show (membersJson? _ _).map _ = _
  rw [membersJson?_texts, Option.map_some, insertAll_of_ascending]
  · rfl
  · exact m.ascending.map Json.string

end TopUp.Json
