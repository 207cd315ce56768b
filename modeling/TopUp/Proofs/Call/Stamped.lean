import TopUp.Proofs.Call.AnyStore
import TopUp.Proofs.Payment.Reference

/-! # The times that a call sends

    A call makes a transaction, its references and the stamps of the request to the gateway
    in one step, of one look at the clock. So whatever the store does, a wallet debit is
    stamped with the moment of that step, it expires a day later, and its reference has the
    date of its issue (`debit_stamped`); the redirect of a card payment is no different
    (`redirect_stamped`).
-/

namespace TopUp.Initiation

open TopUp.Calendar TopUp.Gateway TopUp.Store

variable {c : CallSettings} {page : CardPage} {m : Moment} {me : Nat} {e : Event} {s s' : Scene}
  {i : Initiation} {w w' : Work} {t : Transaction} {next : Phase}

/-- The times of a request to the gateway are those of the moment `wall`, which is given in
    microseconds. -/
structure Stamped (c : CallSettings) (wall : Int) (reference issuedAt expiresAt : String) : Prop
    where
  issued : Denotes issuedAt (localSecond 1000000 wall c.utcOffsetMinutes)
  expires : Denotes expiresAt (localSecond 1000000 wall c.utcOffsetMinutes + 86400)
  dated : ∃ ending, reference = "GIKITU" ++ String.ofList (issuedAt.toList.take 8) ++ ending

/-- The moment and the same time a day later lie in years of four digits. -/
def Expressible (c : CallSettings) (wall : Int) : Prop :=
  FourDigitYear (localSecond 1000000 wall c.utcOffsetMinutes) ∧
    FourDigitYear (localSecond 1000000 wall c.utcOffsetMinutes + 86400)

theorem stamped_of_moment (i : Initiation) (h : Expressible c m.wall) :
    Stamped c m.wall (newTransaction c m i).reference
      (requestStamps (m.wall / 1000000) c.utcOffsetMinutes).1
      (requestStamps (m.wall / 1000000) c.utcOffsetMinutes).2 := by
  have hticks : (0 : Int) < 1000000 := by decide
  rw [requestStamps_eq hticks]
  exact ⟨stamp_denotes h.1, stamp_denotes h.2, _, transaction_dated hticks h.1 m.referenceEnding⟩

/-- With a transaction made, its reference is the one of that moment. -/
theorem made_of_step (hp : i.phase = .creating w)
    (hstep : i.step c page m me e s = some (s', next)) :
    (∃ cause, next = .done (.error cause)) ∨
      ∃ t w', next = afterCreation c page m.wall i.wallet w' t ∧
        t.reference = (newTransaction c m i).reference := by
  cases e with
  | turn =>
    simp only [step, hp] at hstep
    split at hstep
    · next t d hcreate =>
      obtain ⟨-, rfl⟩ := Prod.mk.inj (Option.some.inj hstep)
      obtain ⟨rfl, -⟩ := create_of_createDraft hcreate
      exact .inr ⟨_, _, rfl, rfl⟩
    · obtain ⟨-, rfl⟩ := Prod.mk.inj (Option.some.inj hstep)
      exact .inl ⟨_, rfl⟩
  | _ => exact absurd hstep (by simp [step, hp])

/-- A wallet debit is stamped with the moment in which its transaction was made. -/
theorem debit_stamped {request : WalletRequest} (h : Expressible c m.wall)
    (hp : i.phase = .creating w)
    (hstep : i.step c page m me e s = some (s', .submitting w' t request)) :
    request.reference = t.reference ∧
      Stamped c m.wall request.reference request.issuedAt request.expiresAt := by
  rcases made_of_step hp hstep with ⟨cause, hdone⟩ | ⟨t', w'', hnext, hreference⟩
  · exact absurd hdone (by simp)
  · unfold afterCreation at hnext
    dsimp only at hnext
    split at hnext
    · obtain ⟨-, rfl, rfl⟩ := Phase.submitting.inj hnext
      refine ⟨rfl, ?_⟩
      rw [hreference]
      exact stamped_of_moment i h
    · split at hnext <;> exact absurd hnext (by simp)

/-- So is the payment that the card page has prepared. -/
theorem redirect_stamped {receipt : Receipt} {attend paid : Option String}
    (h : Expressible c m.wall) (hp : i.phase = .creating w)
    (hstep : i.step c page m me e s = some (s', .committing w' receipt attend paid)) :
    ∃ request redirect, page request = .ok redirect ∧ receipt.redirect = some redirect ∧
      receipt.reference = request.reference ∧
      Stamped c m.wall request.reference request.issuedAt request.expiresAt := by
  rcases made_of_step hp hstep with ⟨cause, hdone⟩ | ⟨t', w'', hnext, hreference⟩
  · exact absurd hdone (by simp)
  · unfold afterCreation at hnext
    dsimp only at hnext
    split at hnext
    · exact absurd hnext (by simp)
    · split at hnext
      · next redirect hpage =>
        obtain ⟨-, rfl, -, -⟩ := Phase.committing.inj hnext
        refine ⟨_, redirect, hpage, rfl, rfl, ?_⟩
        dsimp only
        rw [hreference]
        exact stamped_of_moment i h
      · exact absurd hnext (by simp)

end TopUp.Initiation
