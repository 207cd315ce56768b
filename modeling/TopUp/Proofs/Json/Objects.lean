import TopUp.Json.Reader
import TopUp.Proofs.Checks
import TopUp.Proofs.Data.FieldMap

/-! # Objects read from text

    The reader puts the members of an object into their place one after the other, so
    whatever the text, the names of the object that it stands for are distinct and
    ascend.
-/

namespace TopUp.Json

open TopUp.Data

variable {α β : Type} {cs rest : List Char} {read members : List (String × Json)}

namespace Reader

/-- One reader after another succeeds if the second one does on what the first one leaves. -/
theorem bind_run_eq_ok {x : Reader α} {f : α → Reader β} {r : β × List Char} :
    (x >>= f) cs = .ok r ↔ ∃ a left, x cs = .ok (a, left) ∧ f a left = .ok r := by
  have hbind : (x >>= f) cs = x cs >>= fun p => f p.1 p.2 := rfl
  rw [hbind, bind_eq_ok]
  constructor
  · rintro ⟨⟨a, left⟩, hx, hf⟩
    exact ⟨a, left, hx, hf⟩
  · rintro ⟨a, left, hx, hf⟩
    exact ⟨(a, left), hx, hf⟩

@[simp] theorem malformed_run_ne_ok {r : α × List Char} : (malformed : Reader α) cs ≠ .ok r := by
  show (Except.error Fault.malformed : Except Fault (α × List Char)) ≠ .ok r
  simp

theorem pure_run_eq_ok {a b : α} {left : List Char} :
    (pure a : Reader α) cs = .ok (b, left) ↔ a = b ∧ cs = left := by
  show Except.ok (a, cs) = Except.ok (b, left) ↔ _
  simp

/-- Each member goes to its place among those read before. -/
theorem ascending_of_members (fuel levels : Nat) (first : Bool) (hread : Fields.Ascending read)
    (h : Reader.members fuel levels first read cs = .ok (members, rest)) :
    Fields.Ascending members := by
  induction fuel generalizing first read cs with
  | zero => exact absurd h malformed_run_ne_ok
  | succ fuel ih =>
    rw [Reader.members, bind_run_eq_ok] at h
    obtain ⟨more, left, -, h⟩ := h
    split at h
    · -- another member, then the others
      obtain ⟨name, _, -, h⟩ := bind_run_eq_ok.mp h
      obtain ⟨⟨⟩, _, -, h⟩ := bind_run_eq_ok.mp h
      obtain ⟨v, _, -, h⟩ := bind_run_eq_ok.mp h
      exact ih false (Fields.ascending_insert name v hread) h
    · obtain ⟨⟨⟩, _, -, h⟩ := bind_run_eq_ok.mp h
      obtain ⟨rfl, -⟩ := pure_run_eq_ok.mp h
      exact hread

/-- What is read and then wrapped as another kind of value is no object. -/
theorem wrap_ne_object {x : Reader α} {wrap : α → Json}
    (hwrap : ∀ a members, wrap a ≠ .object members) :
    (x >>= fun a => pure (wrap a)) cs ≠ .ok (.object members, rest) := by
  intro h
  obtain ⟨a, left, -, h⟩ := bind_run_eq_ok.mp h
  exact hwrap a members (pure_run_eq_ok.mp h).1

theorem ascending_of_value {fuel levels : Nat}
    (h : Reader.value fuel levels cs = .ok (.object members, rest)) :
    Fields.Ascending members := by
  unfold Reader.value at h
  split at h
  · exact absurd h malformed_run_ne_ok
  obtain ⟨c?, left, -, h⟩ := bind_run_eq_ok.mp h
  -- the first character says which kind of value follows; all but `{` are of another kind
  split at h
  · exact absurd h malformed_run_ne_ok
  split at h
  · obtain ⟨⟨⟩, _, -, h⟩ := bind_run_eq_ok.mp h
    exact absurd h (wrap_ne_object fun _ _ => by simp)
  split at h
  · exact absurd h (wrap_ne_object fun _ _ => by simp)
  split at h
  · exact absurd h (wrap_ne_object fun _ _ => by simp)
  split at h
  · exact absurd h (wrap_ne_object fun _ _ => by simp)
  split at h
  · exact absurd h (wrap_ne_object fun _ _ => by simp)
  split at h
  · split at h
    · exact absurd h malformed_run_ne_ok
    obtain ⟨⟨⟩, _, -, h⟩ := bind_run_eq_ok.mp h
    exact absurd h (wrap_ne_object fun _ _ => by simp)
  split at h
  · split at h
    · exact absurd h malformed_run_ne_ok
    obtain ⟨⟨⟩, _, -, h⟩ := bind_run_eq_ok.mp h
    obtain ⟨read, _, hmembers, h⟩ := bind_run_eq_ok.mp h
    obtain ⟨heq, -⟩ := pure_run_eq_ok.mp h
    obtain rfl := Json.object.inj heq
    exact ascending_of_members _ _ true Fields.ascending_nil hmembers
  · exact absurd h malformed_run_ne_ok

end Reader

/-- The names of an object read from a text ascend. -/
theorem ascending_of_parse {text : String} (h : parse text = .ok (.object members)) :
    Fields.Ascending members := by
  unfold parse Reader.run at h
  split at h
  · exact absurd h (by simp)
  · next v rest hread =>
    split at h
    · obtain rfl := Except.ok.inj h
      exact Reader.ascending_of_value hread
    · exact absurd h (by simp)

end TopUp.Json
