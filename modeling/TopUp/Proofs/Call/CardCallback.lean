import TopUp.Call.CardCallback
import TopUp.Proofs.Store.Faultless
import TopUp.Proofs.Store.Traffic

/-! # What a report of the card page can do

    A report of the card page only reads and writes a status; it has no unit of work.
    The status that it writes is the one that was posted, on the transaction that is
    stored under the posted reference.
-/

namespace TopUp.CardCallback

open TopUp.Gateway TopUp.Store

variable {s s' : Store} {p p' : Phase} {u : Nat → Option UnitOfWork}

/-- What the next step of a report does on the store. -/
def Phase.storeAction : Phase → Traffic.Action
  | .writing t status _ => .update t.reference status
  | _ => .read

theorem Phase.storeAction_cases (p : Phase) :
    p.storeAction = .read ∨ ∃ r s, p.storeAction = .update r s := by
  cases p with
  | writing t status message => exact Or.inr ⟨_, _, rfl⟩
  | _ => exact Or.inl rfl

/-- How a report goes on: it is read at most once, and what it is about to write was read
    from it. -/
structure Proceeds (s : Store) (p p' : Phase) : Prop where
  /-- No report is read again. -/
  reading : ∀ r, p' ≠ .reading r
  /-- The status that is written is the posted one. -/
  writing : ∀ t status message, p' = .writing t status message →
    ∃ r, p = .reading r ∧ s.memory.ledger.find? r.reference = some t ∧ r.status = status

theorem proceeds_done (result : Except Call.Failure Receipt) : Proceeds s p (.done result) :=
  ⟨by simp, by simp⟩

/-- What one step of a report does. -/
theorem step_spec (hf : s.faults = []) (h : step s p = some (s', p')) :
    s'.faults = [] ∧ Proceeds s p p' ∧
      Traffic.act p.storeAction ⟨s.memory, u⟩ = some ⟨s'.memory, u⟩ := by
  cases p with
  | reading r =>
    -- only an open transaction and a posted status other than pending lead to a write
    simp only [step, get_of_faults hf] at h
    cases hfind : s.memory.ledger.find? r.reference with
    | none =>
      obtain ⟨rfl, rfl⟩ := by simpa [hfind] using h
      exact ⟨hf, proceeds_done _, rfl⟩
    | some t =>
      simp only [hfind] at h
      split at h
      · obtain ⟨rfl, rfl⟩ := by simpa using h
        exact ⟨hf, proceeds_done _, rfl⟩
      · split at h
        · obtain ⟨rfl, rfl⟩ := by simpa using h
          exact ⟨hf, proceeds_done _, rfl⟩
        · obtain ⟨rfl, rfl⟩ := by simpa using h
          refine ⟨hf, ⟨by simp, ?_⟩, rfl⟩
          intro t' status message heq
          obtain ⟨rfl, rfl, -⟩ := Phase.writing.inj heq
          exact ⟨r, rfl, hfind, rfl⟩
  | writing t status message =>
    simp only [step, update_of_faults hf] at h
    cases hu : s.memory.update t.reference status with
    | ok x =>
      obtain ⟨b, memory⟩ := x
      have hact : Traffic.act (.update t.reference status) ⟨s.memory, u⟩ = some ⟨memory, u⟩ := by
        simp [Traffic.act, hu]
      cases b with
      | true =>
        obtain ⟨rfl, rfl⟩ := by simpa [hu, Except.map] using h
        exact ⟨hf, proceeds_done _, hact⟩
      | false =>
        obtain ⟨rfl, rfl⟩ := by simpa [hu, Except.map] using h
        exact ⟨hf, ⟨by simp, by simp⟩, hact⟩
    | error cause =>
      obtain ⟨rfl, rfl⟩ := by simpa [hu, Except.map] using h
      exact ⟨hf, proceeds_done _, by simp [Phase.storeAction, Traffic.act, hu]⟩
  | rereading reference message =>
    simp only [step, get_of_faults hf] at h
    cases hfind : s.memory.ledger.find? reference with
    | none =>
      obtain ⟨rfl, rfl⟩ := by simpa [hfind] using h
      exact ⟨hf, proceeds_done _, rfl⟩
    | some t =>
      obtain ⟨rfl, rfl⟩ := by simpa [hfind] using h
      exact ⟨hf, proceeds_done _, rfl⟩
  | done result => exact absurd h (by simp [step])

end TopUp.CardCallback
