import TopUp.Call.Initiation
import TopUp.Proofs.Gateway.Outcome

/-! # What a call reports of its debit

    A call that fails before its debit is submitted has harmed nobody. One that fails
    afterwards reports a failure after which it may be repeated exactly if the answer to
    the debit was lost: whatever the store does, a debit that was answered is reported
    as taken or as unrecorded.

    `Phase.Reports` says this of a phase, given whether the debit was submitted and
    whether its answer was lost. It is kept by every step over any store, one with
    faults included (`Phase.Reports.step`, `Phase.reports_of_answer`).
-/

namespace TopUp

open TopUp.Gateway TopUp.Store

/-- The report of a gateway failure says the same about another attempt. -/
theorem Gateway.Failure.retryable_problem (f : Gateway.Failure) :
    f.problem.retryable = f.retryable := by
  unfold Failure.problem
  split <;> rfl

namespace Initiation

variable {c : CallSettings} {page : CardPage} {client : Client} {m : Moment} {me : Nat}
  {s s' : Scene} {i : Initiation} {e : Event} {p : Phase} {d : Delivery} {sent lost : Prop}

theorem result?_eq_some {result : Except Call.Failure Receipt} :
    i.result? = some result ↔ i.phase = .done result := by
  unfold result?
  split
  · next hp => simp [hp]
  · next hp => simpa using fun h => hp result h

/-- Whether a call waits for the answer to its debit. -/
def debits (i : Initiation) : Bool :=
  match i.phase with
  | .submitting _ _ _ => true
  | _ => false

/-- What a phase tells of a debit: nothing was lost as long as no failure is reported, and a
    failure allows another attempt exactly if the debit, if there was one, was lost. -/
def Phase.Reports (sent lost : Prop) : Phase → Prop
  | .done (.error f) => sent ∧ f.problem.retryable = true ↔ lost
  | .submitting _ _ _ | .recording _ _ _ _ | .committing _ _ _ (some _) | .attending _ _ _
  | .done (.ok _) => ¬ lost
  | _ => ¬ sent ∧ ¬ lost

/-- Only an answer takes a call on that waits for one. -/
theorem event_of_debits (hi : i.debits = true) (hstep : i.step c page m me e s = some (s', p)) :
    ∃ result, e = .answer result := by
  unfold debits at hi
  split at hi
  · next w t r hp =>
    cases e with
    | answer result => exact ⟨result, rfl⟩
    | _ => exact absurd hstep (by simp [step, hp])
  · exact absurd hi (by simp)

/-- While the answer to a debit is waited for, it is not lost. -/
theorem Phase.reports_of_debits (hi : i.debits = true) : i.phase.Reports sent lost ↔ ¬ lost := by
  unfold debits at hi
  split at hi
  · next hp => rw [hp, Reports]
  · exact absurd hi (by simp)

/-- A lost answer is reported by a failure that allows another attempt. -/
theorem Phase.Reports.of_lost (h : p.Reports sent lost) (hlost : lost) :
    ∃ f, p = .done (.error f) ∧ sent ∧ f.problem.retryable = true := by
  unfold Reports at h
  split at h
  · exact ⟨_, rfl, h.mpr hlost⟩
  all_goals first | exact absurd hlost h | exact absurd hlost h.2

/-- Whatever is reported is right if there was no debit. -/
theorem Phase.reports_of_unsent (hsent : ¬ sent) (hlost : ¬ lost) (p : Phase) :
    p.Reports sent lost := by
  unfold Reports
  split <;> simp [hsent, hlost]

/-- After the answer to a debit. -/
theorem Phase.reports_of_answer (hi : i.debits = true)
    (hstep : i.step c page m me (.answer (client.submitWallet d)) s = some (s', p)) :
    p.Reports True d.Lost := by
  unfold debits at hi
  split at hi
  · next w t r hp =>
    cases hread : client.submitWallet d with
    | ok o =>
      have hkept := Client.not_lost_of_submitWallet hread
      simp only [step, hp, hread] at hstep
      split at hstep
      · obtain ⟨-, rfl⟩ := Prod.mk.inj (Option.some.inj hstep)
        exact hkept
      · obtain ⟨-, rfl⟩ := Prod.mk.inj (Option.some.inj hstep)
        exact hkept
    | error f =>
      simp only [step, hp, hread] at hstep
      obtain ⟨-, rfl⟩ := Prod.mk.inj (Option.some.inj hstep)
      show True ∧ f.problem.retryable = true ↔ d.Lost
      rw [true_and, Failure.retryable_problem, Client.retryable_of_submitWallet hread]
  · exact absurd hi (by simp)

/-- A debit that is not recorded is reported as such, whatever became of the store. -/
theorem Phase.reports_of_unrecorded (hlost : ¬ lost) (reference : String)
    (cause : Store.Failure) :
    Phase.Reports sent lost (.done (.error (.unrecorded reference cause))) :=
  ⟨fun h => absurd h.2 (by simp [Call.Failure.problem, Problem.Kind.retryable]),
    fun h => absurd h hlost⟩

/-- Every other step of a call. -/
theorem Phase.Reports.step (h : i.phase.Reports sent lost) (hi : i.debits = false)
    (hstep : i.step c page m me e s = some (s', p)) : p.Reports sent lost := by
  cases hp : i.phase with
  | submitting w t r => exact absurd hi (by simp [debits, hp])
  | recording w t status message =>
    have hlost : ¬ lost := by simpa [hp, Reports] using h
    cases e with
    | turn =>
      simp only [Initiation.step, hp] at hstep
      split at hstep
      · obtain ⟨-, rfl⟩ := Prod.mk.inj (Option.some.inj hstep)
        exact hlost
      · obtain ⟨-, rfl⟩ := Prod.mk.inj (Option.some.inj hstep)
        exact reports_of_unrecorded hlost _ _
    | _ => exact absurd hstep (by simp [Initiation.step, hp])
  | committing w receipt attend paid =>
    cases paid with
    | none =>
      rw [hp] at h
      exact reports_of_unsent h.1 h.2 p
    | some reference =>
      have hlost : ¬ lost := by simpa [hp, Reports] using h
      cases e with
      | turn =>
        simp only [Initiation.step, hp] at hstep
        split at hstep
        · obtain ⟨-, rfl⟩ := Prod.mk.inj (Option.some.inj hstep)
          split <;> exact hlost
        · obtain ⟨-, rfl⟩ := Prod.mk.inj (Option.some.inj hstep)
          exact reports_of_unrecorded hlost _ _
      | _ => exact absurd hstep (by simp [Initiation.step, hp])
  | attending receipt reference start =>
    have hlost : ¬ lost := by simpa [hp, Reports] using h
    cases e with
    | turn =>
      simp only [Initiation.step, hp] at hstep
      split at hstep
      · obtain ⟨-, rfl⟩ := Prod.mk.inj (Option.some.inj hstep)
        exact hlost
      · obtain ⟨_, -, heq⟩ := Option.map_eq_some_iff.mp hstep
        obtain ⟨-, rfl⟩ := Prod.mk.inj heq
        exact hlost
    | _ => exact absurd hstep (by simp [Initiation.step, hp])
  | done result => exact absurd hstep (by simp [Initiation.step, hp])
  | _ =>
    -- no debit has been submitted, so the next phase need not be looked at
    rw [hp] at h
    exact reports_of_unsent h.1 h.2 p

end Initiation

end TopUp
