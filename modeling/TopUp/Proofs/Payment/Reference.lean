import TopUp.Payment.Reference
import TopUp.Proofs.Calendar.Stamp

/-! # The times of a request

    A request to the gateway is stamped with the moment of its issue and with the same time
    a day later, both by the gateway's clock (`request_stamps_tell_instants`). A moment is
    given in ticks, of which a second has any number; the stamps tell the second in which it
    lies. The transaction reference that is made at the same moment has the date of issue.
-/

namespace TopUp.Calendar

open TopUp.Text

variable {r now later : Int} {minutes : Int32}

/-- How many seconds the gateway's clock is ahead of UTC. An offset of 24 hours or more in
    either direction counts as none. -/
def clockOffset (minutes : Int32) : Int :=
  if -(24 * 60) < minutes.toInt ∧ minutes.toInt < 24 * 60 then minutes.toInt * 60 else 0

/-- The second by the gateway's clock, counted from the beginning of 1970, in which a moment
    lies. A second has `r` ticks. -/
def localSecond (r now : Int) (minutes : Int32) : Int := (now + clockOffset minutes * r) / r

theorem offsetSeconds_eq (minutes : Int32) : offsetSeconds minutes = clockOffset minutes := by
  unfold offsetSeconds clockOffset
  dsimp only
  split_ifs <;> omega

theorem localSecond_eq (hr : 0 < r) :
    localSecond r now minutes = now / r + offsetSeconds minutes := by
  rw [localSecond, offsetSeconds_eq, Int.add_mul_ediv_right _ _ hr.ne']

theorem localSecond_mono (hr : 0 < r) (h : now ≤ later) :
    localSecond r now minutes ≤ localSecond r later minutes :=
  Int.ediv_le_ediv hr (by omega)

theorem localSecond_nextDay (hr : 0 < r) :
    localSecond r (now + 86400 * r) minutes = localSecond r now minutes + 86400 := by
  rw [localSecond_eq hr, localSecond_eq hr, Int.add_mul_ediv_right _ _ hr.ne']
  omega

theorem requestStamps_eq (hr : 0 < r) (now : Int) (minutes : Int32) :
    requestStamps (now / r) minutes =
      (stamp (localSecond r now minutes), stamp (localSecond r now minutes + 86400)) := by
  rw [localSecond_eq hr]
  rfl

/-- The reference made at a moment has the date of the moment's stamp. -/
theorem transaction_dated (hr : 0 < r) (hissued : FourDigitYear (localSecond r now minutes))
    (ending : String) :
    Reference.transaction (now / r) minutes ending =
      "GIKITU" ++ String.ofList ((stamp (localSecond r now minutes)).toList.take 8) ++ ending := by
  rw [take_stamp hissued, localSecond_eq hr]
  rfl

/-- The stamps of a request issued at `now` are fourteen digits that denote, by the gateway's
    clock, the second of its issue and the second a day later. The first one comes before the
    second one as a text, and not behind that of any later request. The reference made at that
    moment has the date of its issue. -/
theorem request_stamps_tell_instants (hr : 0 < r)
    (hissued : FourDigitYear (localSecond r now minutes))
    (hexpires : FourDigitYear (localSecond r (now + 86400 * r) minutes)) :
    Denotes (requestStamps (now / r) minutes).1 (localSecond r now minutes) ∧
      Denotes (requestStamps (now / r) minutes).2 (localSecond r now minutes + 86400) ∧
      (requestStamps (now / r) minutes).1 < (requestStamps (now / r) minutes).2 ∧
      (∀ later, now ≤ later → FourDigitYear (localSecond r later minutes) →
        (requestStamps (now / r) minutes).1 ≤ (requestStamps (later / r) minutes).1) ∧
      ∀ ending, Reference.transaction (now / r) minutes ending =
        "GIKITU" ++ String.ofList ((requestStamps (now / r) minutes).1.toList.take 8) ++ ending := by
  rw [localSecond_nextDay hr] at hexpires
  rw [requestStamps_eq hr]
  have hnow := stamp_denotes hissued
  have hdayLater := stamp_denotes hexpires
  refine ⟨hnow, hdayLater, ?_, ?_, transaction_dated hr hissued⟩
  · rw [hnow.lt_iff hdayLater]
    omega
  · intro later hlater hyear
    rw [requestStamps_eq hr, ← not_lt, (stamp_denotes hyear).lt_iff hnow, not_lt]
    exact localSecond_mono hr hlater

/-- At half past one on the leap day of the year 2000 it is still the day before by UTC; a
    day later it is March. The second call comes half a second later. -/
theorem leap_day_stamped :
    Denotes "20000229013000" 951787800 ∧ Denotes "20000301013000" (951787800 + 86400) ∧
      "20000229013000" < "20000301013000" ∧
      "20000229013000" ≤ (requestStamps (951769801000000 / 1000000) 300).1 ∧
      Reference.transaction (951769800500000 / 1000000) 300 "ABC" = "GIKITU20000229ABC" := by
  have hstamps : requestStamps (951769800500000 / 1000000) 300 =
      ("20000229013000", "20000301013000") := by decide
  have hsecond : localSecond 1000000 951769800500000 300 = 951787800 := by decide
  have hticks : (0 : Int) < 1000000 := by decide
  have hissued : FourDigitYear (localSecond 1000000 951769800500000 300) := by decide
  have hexpires : FourDigitYear (localSecond 1000000 (951769800500000 + 86400 * 1000000) 300) := by
    decide
  obtain ⟨hnow, hdayLater, hless, hmono, hreference⟩ :=
    request_stamps_tell_instants hticks hissued hexpires
  have hlater := hmono 951769801000000 (by decide) (by decide)
  rw [hstamps, hsecond] at hnow hdayLater
  rw [hstamps] at hless hlater
  refine ⟨hnow, hdayLater, hless, hlater, ?_⟩
  rw [hreference, hstamps]
  decide

end TopUp.Calendar
