/-! # Runs of a machine

    A machine is a state and a function that carries out one action, if the action is
    possible. A run is recorded as a trace: each action together with the state that
    it found. A trace can be cut at any of its steps (`Run.split`).
-/

namespace TopUp

variable {σ α : Type} {tr : List (σ × α)}

/-- The machine gets from `start` to a state by the actions of a trace. -/
inductive Run (act : α → σ → Option σ) (start : σ) : List (σ × α) → σ → Prop where
  /-- Nothing has happened. -/
  | nil : Run act start [] start
  /-- One more action was carried out. -/
  | snoc {tr : List (σ × α)} {s s' : σ} {a : α} :
      Run act start tr s → act a s = some s' → Run act start (tr ++ [(s, a)]) s'

namespace Run

variable {act : α → σ → Option σ} {start s s' : σ} {a : α}

/-- A run may begin with one action more. -/
theorem cons (ha : act a start = some s) (h : Run act s tr s') :
    Run act start ((start, a) :: tr) s' := by
  induction h with
  | nil => exact snoc nil ha
  | snoc _ hb ih => exact snoc ih hb

/-- A run can be cut before and after any of its actions. -/
theorem split (h : Run act start tr s) {tr₁ tr₂ : List (σ × α)} {e : σ × α}
    (htr : tr = tr₁ ++ e :: tr₂) :
    Run act start tr₁ e.1 ∧ ∃ s₁, act e.2 e.1 = some s₁ ∧ Run act s₁ tr₂ s := by
  induction h generalizing tr₂ with
  | nil => simp at htr
  | @snoc tr s s' a hrun ha ih =>
    rcases List.eq_nil_or_concat tr₂ with rfl | ⟨tr₃, e', rfl⟩
    · -- the cut is at the last action
      obtain ⟨rfl, he⟩ := List.append_inj' htr rfl
      obtain rfl : (s, a) = e := by simpa using he
      exact ⟨hrun, s', ha, nil⟩
    · rw [List.concat_eq_append, ← List.cons_append, ← List.append_assoc] at htr
      obtain ⟨hinit, hlast⟩ := List.append_inj' htr rfl
      obtain rfl : (s, a) = e' := by simpa using hlast
      obtain ⟨hpre, s₁, hact, hpost⟩ := ih hinit
      rw [List.concat_eq_append]
      exact ⟨hpre, s₁, hact, snoc hpost ha⟩

/-- The step of a run at which an entry of its trace was made. -/
theorem of_mem (h : Run act start tr s) {e : σ × α} (he : e ∈ tr) :
    ∃ tr₁ tr₂ s₁, tr = tr₁ ++ e :: tr₂ ∧ Run act start tr₁ e.1 ∧ act e.2 e.1 = some s₁ ∧
      Run act s₁ tr₂ s := by
  obtain ⟨tr₁, tr₂, rfl⟩ := List.append_of_mem he
  obtain ⟨hpre, s₁, hact, hpost⟩ := h.split rfl
  exact ⟨tr₁, tr₂, s₁, rfl, hpre, hact, hpost⟩

/-- What does not hold at first and holds in the end came to hold by some action. -/
theorem exists_change (h : Run act start tr s) {q : σ → Prop} (hstart : ¬ q start) (hs : q s) :
    ∃ e ∈ tr, ¬ q e.1 ∧ ∃ s₁, act e.2 e.1 = some s₁ ∧ q s₁ := by
  induction h with
  | nil => exact absurd hs hstart
  | @snoc tr s s' a _ ha ih =>
    by_cases hold : q s
    · obtain ⟨e, he, hchange⟩ := ih hold
      exact ⟨e, List.mem_append_left _ he, hchange⟩
    · exact ⟨(s, a), List.mem_concat_self, hold, s', ha, hs⟩

/-- Carries out the actions that are possible, one after the other. -/
def play (act : α → σ → Option σ) : List α → σ → List (σ × α) × σ
  | [], s => ([], s)
  | a :: rest, s =>
    match act a s with
    | some s' => ((s, a) :: (play act rest s').1, (play act rest s').2)
    | none => play act rest s

theorem of_play (as : List α) (s : σ) : Run act s (play act as s).1 (play act as s).2 := by
  induction as generalizing s with
  | nil => exact nil
  | cons a rest ih =>
    rw [play]
    split
    · next s' ha => exact cons ha (ih s')
    · exact ih s

end Run

/-! ### One entry more -/

theorem countP_snoc (q : σ × α → Bool) (tr : List (σ × α)) (e : σ × α) :
    (tr ++ [e]).countP q = tr.countP q + (q e).toNat := by
  rw [List.countP_append, List.countP_singleton]
  cases q e <;> rfl

/-- Something is noted after an action if it was noted before, or the action is it. -/
theorem exists_mem_snoc {q : σ × α → Prop} {e : σ × α} :
    (∃ e' ∈ tr ++ [e], q e') ↔ (∃ e' ∈ tr, q e') ∨ q e := by
  simp [or_and_right, exists_or]

theorem forall_mem_snoc {q : σ × α → Prop} {e : σ × α} :
    (∀ e' ∈ tr ++ [e], q e') ↔ (∀ e' ∈ tr, q e') ∧ q e := by
  simp [or_imp, forall_and]

end TopUp
