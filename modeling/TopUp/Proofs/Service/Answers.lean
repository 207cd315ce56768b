import TopUp.Proofs.Service.Sound

/-! # Terminal answers

    A call that inquires about an open transaction writes a terminal status in its unit
    of work and then commits. The write is checked against the ledger when it is asked
    for and once more by the commit, which drops it without a word if the transaction
    has settled in between. So the receipt of the call and the row can differ: just when
    a poll loop or a report of the card page settled the row otherwise between the two
    checks (`terminal_answer_stored_iff`). In every other case, whatever the
    interleaving, a terminal status that a call reports is the stored one.
-/

namespace TopUp

open TopUp.Data TopUp.Store

namespace Initiation

/-- A call gives a receipt out when it commits, or when the poll loop of its transaction
    was seen to. -/
theorem Move.done_ok {c : CallSettings} {page : Gateway.CardPage} {m : Moment} {me : Nat}
    {s s' : Scene} {i : Initiation} {e : Event} {a : Traffic.Action} {p : Phase} {r : Receipt}
    (h : Move c page m me s i e a s' p) (hp : p = .done (.ok r)) :
    (∃ w paid, i.phase = .committing w r none paid ∧
      s'.store.memory.ledger = w.draft.commit s.store.memory.ledger) ∨
    ∃ reference started, i.phase = .attending r reference (.done started) := by
  -- a phase with an open unit of work is not the last one
  have hopen : ∀ {w : Work}, p.work? = some w → False := by
    intro w hw
    rw [hp] at hw
    exact absurd hw (by simp [Phase.work?])
  cases h with
  | @commit w r' attend paid hphase =>
    cases attend with
    | none =>
      obtain rfl : r' = r := by simpa [afterCommit] using hp
      exact Or.inl ⟨w, paid, hphase, rfl⟩
    | some reference => exact absurd hp (by simp [afterCommit])
  | @attended r' reference started hphase =>
    obtain rfl : r' = r := by simpa using hp
    exact Or.inr ⟨reference, started, hphase⟩
  | inquired => exact (hopen (work?_afterInquiry _ _)).elim
  | create => exact (hopen (work?_afterCreation _ _)).elim
  | vanished | uncreated | declined | unanswered | unwritten => exact absurd hp (by simp [abandon])
  | _ => exact absurd hp (by simp [afterDebit])

/-- A call is not over when it comes in, or it is over without a receipt. -/
theorem result?_ofRequest (user : Uuid) (request : Request) (r : Receipt) :
    (ofRequest user request).result? ≠ some (.ok r) := by
  unfold ofRequest
  split <;> simp [result?]

end Initiation

namespace Service

variable {ρ : Type} {u : Setup} {g : Reader ρ} {s s' : Service} {a : Action ρ} {l : Ledger}
  {tr : List (Service × Action ρ)} {n : Nat} {r : Receipt}

/-- The receipt that a call was given. -/
def receipt? (s : Service) (n : Nat) : Option Receipt :=
  match s.calls.find? n with
  | some (.initiate i) => i.result?.bind Except.toOption
  | _ => none

/-- The status write of a call that is about to commit comes too late: the row has settled
    otherwise since the write was asked for. -/
def Overtaken (s : Service) (n : Nat) : Prop :=
  ∃ i w r attend paid t, s.calls.find? n = some (.initiate i) ∧
    i.phase = .committing w r attend paid ∧ (r.reference, r.status) ∈ w.draft.updates ∧
    s.ledger.find? r.reference = some t ∧ t.status.isTerminal = true ∧ t.status ≠ r.status

theorem receipt?_eq_some (h : s.receipt? n = some r) :
    ∃ i, s.calls.find? n = some (.initiate i) ∧ i.phase = .done (.ok r) := by
  unfold receipt? at h
  split at h
  · next i hcall =>
    refine ⟨i, hcall, ?_⟩
    cases hp : i.phase with
    | done result =>
      cases result with
      | ok r' =>
        obtain rfl : r' = r := by simpa [Initiation.result?, hp, Except.toOption] using h
        rfl
      | error cause => exact absurd h (by simp [Initiation.result?, hp, Except.toOption])
    | _ => exact absurd h (by simp [Initiation.result?, hp])
  · exact absurd h (by simp)

/-- The step in which a call gets a receipt. -/
theorem Step.receipt? (h : Step u g s a s') (hbefore : s.receipt? n = none)
    (hafter : s'.receipt? n = some r) :
    ∃ i, s.calls.find? n = some (.initiate i) ∧
      ((∃ w paid, i.phase = .committing w r none paid ∧ s'.ledger = w.draft.commit s.ledger) ∨
        ∃ reference started, i.phase = .attending r reference (.done started)) := by
  obtain ⟨i', hcall', hp'⟩ := receipt?_eq_some hafter
  rcases h.initiations hcall' with hold | ⟨user, request, -, rfl⟩ |
    ⟨m, e, i, ta, scene, -, hcall, hmove, -, hstore⟩
  · have hsame : s.receipt? n = some r := by
      simp [Service.receipt?, hold, Initiation.result?, hp', Except.toOption]
    rw [hbefore] at hsame
    exact absurd hsame (by simp)
  · have hresult := Initiation.result?_ofRequest user request r
    rw [Initiation.result?, hp'] at hresult
    exact absurd rfl hresult
  · refine ⟨i, hcall, ?_⟩
    rw [ledger, hstore]
    exact hmove.done_ok hp'

/-- What becomes of the row of a receipt when its unit of work is committed. -/
theorem find?_commit_of_backs {l : Ledger} {d : Draft} {key : Uuid} (hl : l.Coherent)
    (hback : d.Backs l key r) (hterm : r.status.isTerminal = true) :
    ∃ t, (d.commit l).find? r.reference = some t ∧
      (t.status = r.status ↔ ¬ ((r.reference, r.status) ∈ d.updates ∧
        ∃ t, l.find? r.reference = some t ∧ t.status.isTerminal = true ∧ t.status ≠ r.status)) := by
  cases hback with
  | @made t hd hof htells =>
    refine ⟨t, ?_, iff_of_true (htells hterm) (by simp [hd])⟩
    rw [hd, hof.reference]
    exact Ledger.find?_put_self l t
  | @stored t hd hkey hof htells =>
    refine ⟨t, ?_, iff_of_true (htells hterm) (by simp [hd])⟩
    rw [hd, hof.reference]
    exact (hl.of_byKey? hkey).2
  | @staged t hd hkey hof _ =>
    have hrow : l.find? r.reference = some t := by
      rw [hof.reference]
      exact (hl.of_byKey? hkey).2
    have hcommit : d.commit l = (l.writeStatus r.reference r.status).2 := by rw [hd]; rfl
    rw [hcommit, Ledger.find?_writeStatus]
    cases ht : t.status.isTerminal with
    | false =>
      -- the row is still open, so the commit writes
      have hmay : l.mayTake r.reference r.status = true := Ledger.mayTake_eq_true.mpr
        ⟨t, hrow, Status.canBecome_of_open ht (Status.ne_pending_of_isTerminal hterm)⟩
      refine ⟨{ t with status := r.status }, by simp [hmay, hrow], iff_of_true rfl ?_⟩
      rintro ⟨-, t', hrow', ht', -⟩
      obtain rfl : t = t' := by simpa [hrow] using hrow'
      rw [ht] at ht'
      exact absurd ht' (by decide)
    | true =>
      -- the row has settled, so the commit drops the write
      have hmay : l.mayTake r.reference r.status = false := by
        simp [Ledger.mayTake, hrow, Status.canBecome_eq_false_of_isTerminal ht]
      refine ⟨t, by simp [hmay, hrow], ?_, ?_⟩
      · rintro hstatus ⟨-, t', hrow', -, hne⟩
        obtain rfl : t = t' := by simpa [hrow] using hrow'
        exact hne hstatus
      · intro hnot
        by_cases hstatus : t.status = r.status
        · exact hstatus
        · exact absurd ⟨by simp [hd], t, hrow, ht, hstatus⟩ hnot

/-- In the step in which a call gives out a receipt with a terminal status, the row of the
    receipt has exactly that status, unless the row has settled otherwise between the
    check of the status write and the commit of the call. -/
theorem terminal_answer_stored_iff (hl : l.Coherent) (h : Run (act u g) (ofLedger u l) tr s)
    (hrefs : ((made u tr).map Transaction.reference).Nodup) (hact : act u g a s = some s')
    (hbefore : s.receipt? n = none) (hafter : s'.receipt? n = some r)
    (hterm : r.status.isTerminal = true) :
    ∃ t, s'.ledger.find? r.reference = some t ∧ (t.status = r.status ↔ ¬ s.Overtaken n) := by
  have hsound := sound_of_run hl h hrefs
  have hstep : Step u g s a s' := step_of_act hsound.regular.faults hact
  obtain ⟨i, hcall, ⟨w, paid, hp, hledger⟩ | ⟨reference, started, hp⟩⟩ :=
    hstep.receipt? hbefore hafter
  · have hknows := hsound.knowing n i hcall
    rw [hp] at hknows
    obtain ⟨t, hfind, hiff⟩ := find?_commit_of_backs hsound.coherent hknows.1 hterm
    refine ⟨t, by rw [hledger, hfind], hiff.trans (not_congr ⟨?_, ?_⟩)⟩
    · rintro ⟨hupdate, t, hrow, ht, hne⟩
      exact ⟨i, w, r, none, paid, t, hcall, hp, hupdate, hrow, ht, hne⟩
    · rintro ⟨i', w', r', attend', paid', t, hcall', hp', hupdate, hrow, ht, hne⟩
      rw [hcall] at hcall'
      obtain rfl : i = i' := by simpa using hcall'
      rw [hp] at hp'
      simp only [Initiation.Phase.committing.injEq] at hp'
      obtain ⟨rfl, rfl, -, -⟩ := hp'
      exact ⟨hupdate, t, hrow, ht, hne⟩
  · -- a call that waits for a poll loop to start reports an open transaction
    have hknows := hsound.knowing n i hcall
    rw [hp] at hknows
    rw [hknows.1] at hterm
    exact absurd hterm (by decide)

/-- A payment is left open, a second call of the key inquires and is told that it was paid,
    and its status write has been accepted: only the commit is missing. -/
def answering : List (Action (Except Gateway.Failure Gateway.Outcome)) :=
  .arrive (walletDemand 1) :: List.replicate 5 (.turn (moment 7) (.call 0)) ++
    .reply (moment 7) (.call 0) (.ok (outcome .pending)) ::
      List.replicate 5 (.turn (moment 7) (.call 0)) ++
    .arrive (walletDemand 1) :: List.replicate 4 (.turn (moment 7) (.call 1)) ++
    [.reply (moment 7) (.call 1) (.ok (outcome .success)), .turn (moment 7) (.call 1)]

/-- The poll loop of the open payment reaches its deadline and fails it. -/
def expiring : List (Action (Except Gateway.Failure Gateway.Outcome)) :=
  List.replicate 2 (.turn (moment 7) (.loop 0)) ++
    List.replicate 2 (.turn (moment 200000) (.loop 0))

/-- If nothing happens before the commit, the row has the status of the answer. -/
theorem answer_stored_if_undisturbed :
    let run := Run.play (act plain literally) answering (ofLedger plain {})
    ∃ s' r t, act plain literally (.turn (moment 7) (.call 1)) run.2 = some s' ∧
      s'.receipt? 1 = some r ∧ r.status = .success ∧ s'.ledger.find? r.reference = some t ∧
      (t.status = r.status ↔ ¬ run.2.Overtaken 1) := by
  intro run
  have hrun : Run (act plain literally) _ run.1 run.2 := Run.of_play answering (ofLedger plain {})
  have hanswer : ((act plain literally (.turn (moment 7) (.call 1)) run.2).bind
      fun s' => s'.receipt? 1).map Receipt.status = some .success := by decide +kernel
  obtain ⟨r, hbind, hstatus⟩ := Option.map_eq_some_iff.mp hanswer
  obtain ⟨s', hact, hreceipt⟩ := Option.bind_eq_some_iff.mp hbind
  obtain ⟨t, hfind, hiff⟩ := terminal_answer_stored_iff Ledger.coherent_empty hrun
    (by decide +kernel) hact (by decide +kernel) hreceipt (by rw [hstatus]; rfl)
  exact ⟨s', r, t, hact, hreceipt, hstatus, hfind, hiff⟩

/-- If the poll loop fails the payment before the commit, the answer is that it was paid and
    the row that it has failed. -/
theorem answer_differs_if_overtaken :
    let run := Run.play (act plain literally)
      (answering ++ expiring ++ [.turn (moment 200000) (.call 1)]) (ofLedger plain {})
    Run (act plain literally) (ofLedger plain {}) run.1 run.2 ∧
      ((made plain run.1).map Transaction.reference).Nodup ∧
      (run.2.receipt? 1).map Receipt.status = some .success ∧
      ((run.2.receipt? 1).bind fun r => run.2.ledger.find? r.reference).map Transaction.status =
        some .failed :=
  ⟨Run.of_play _ _, by decide +kernel, by decide +kernel, by decide +kernel⟩

end Service

end TopUp
