import TopUp.Proofs.Service.Sound

/-! # What a service learns

    There are four ways in which a service learns that a transaction has a status
    (`Service.Learns`): the gateway answers an exchange about it, the card page reports
    on it, its inquiry is answered and it is still open and too old, its poll loop
    reaches the deadline. Whatever calls and loops are about to write was learned, and
    a store makes no status up, so every status that is stored, unless it is pending,
    was learned in the course of the run (`Service.learned_of_run`).
-/

namespace TopUp

open TopUp.Data TopUp.Store

/-- A report is about to write nothing that has no warrant. -/
def CardCallback.Phase.Warranted (P : String → Status → Prop) : CardCallback.Phase → Prop
  | .reading r => P r.reference r.status
  | .writing t status _ => P t.reference status
  | .rereading _ _ | .done _ => True

/-- A loop is about to write nothing that has no warrant. -/
structure Poll.Loop.Warranted (P : String → Status → Prop) (x : Poll.Loop) : Prop where
  /-- Not what it was told. -/
  told : ∀ status, x.told? = some status → P x.reference status
  /-- Not a failure at its deadline. -/
  expiring : x.phase = .expiring → P x.reference .failed

namespace Poll.Loop

variable {P : String → Status → Prop} {x : Loop}

theorem warranted_of_fresh (h : x.phase = .fresh) : x.Warranted P :=
  ⟨fun _ htold => absurd htold (by simp [told?, h]), fun hexp => absurd hexp (by simp [h])⟩

theorem Warranted.written (h : x.Warranted P) {w : String × Status}
    (hw : x.storeAction.written? = some w) : P w.1 w.2 := by
  unfold storeAction at hw
  split at hw
  · next status hphase =>
    obtain rfl := Option.some.inj hw
    exact h.told status (by simp [told?, hphase])
  · next hphase =>
    obtain rfl := Option.some.inj hw
    exact h.expiring hphase
  · exact absurd hw (by simp [Traffic.Action.written?])
  · exact absurd hw (by simp [Traffic.Action.written?])

end Poll.Loop

/-- The reference that an exchange is about. -/
def Exchange.reference : Exchange → String
  | .wallet request => request.reference
  | .inquiry reference => reference

theorem Initiation.isTooOld_becomes {t t' : Transaction} (h : t.Becomes t') (c : CallSettings)
    (wall : Int) : isTooOld c wall t' = isTooOld c wall t := by
  rw [isTooOld, isTooOld, h.createdAt]

namespace Service

variable {ρ : Type} {u : Setup} {g : Reader ρ} {s s' : Service} {a : Action ρ} {l : Ledger}
  {tr : List (Service × Action ρ)} {ts : List Transaction} {used : List String} {n : Nat}
  {P : String → Status → Prop} {r : String} {status : Status} {t : Transaction}

/-- An action lets a service learn that the transaction of a reference has a status. -/
inductive Learns (u : Setup) (g : Reader ρ) (s : Service) : Action ρ → String → Status → Prop where
  /-- The gateway answers an exchange about it. -/
  | answer {m : Moment} {t : Task} {d : ρ} {x : Exchange} {o : Gateway.Outcome}
      (hx : s.exchange? t = some x) (ho : g x d = .ok o) :
      Learns u g s (.reply m t d) x.reference o.status
  /-- The card page reports on it. -/
  | report {posted : FieldMap} {c : Gateway.CardReturn} (hc : u.client.cardReturn posted = .ok c) :
      Learns u g s (.arrive (.cardReport posted)) c.reference c.status
  /-- Its inquiry is answered, and it is still open and too old. -/
  | tooOld {m : Moment} {n : Nat} {d : ρ} {r : String} {o : Gateway.Outcome} {row : Transaction}
      (hx : s.exchange? (.call n) = some (.inquiry r)) (ho : g (.inquiry r) d = .ok o)
      (hopen : o.status.isTerminal = false) (hrow : s.ledger.find? r = some row)
      (hold : Initiation.isTooOld u.calls m.wall row = true) :
      Learns u g s (.reply m (.call n) d) r .failed
  /-- Its poll loop reaches the deadline. -/
  | deadline {m : Moment} {n : Nat} {x : Poll.Loop} (hloop : s.supervisor.loops.find? n = some x)
      (hwaiting : x.phase = .waiting) (hdue : x.deadline ≤ m.now) :
      Learns u g s (.turn m (.loop n)) x.reference .failed

/-- A status that a transaction may have after a trace: it starts as pending, and every
    other status was learned. -/
def Learned (u : Setup) (g : Reader ρ) (tr : List (Service × Action ρ)) (r : String)
    (status : Status) : Prop :=
  status = .pending ∨ ∃ e ∈ tr, Learns u g e.1 e.2 r status

theorem Learned.snoc (h : Learned u g tr r status) (s : Service) (a : Action ρ) :
    Learned u g (tr ++ [(s, a)]) r status := by
  rcases h with hpending | ⟨e, he, hlearns⟩
  · exact Or.inl hpending
  · exact Or.inr ⟨e, by simp [he], hlearns⟩

/-! ### What is about to be written -/

/-- Everything that a service has stored, and everything that its calls and loops are about
    to write, has a warrant. -/
structure Warranted (P : String → Status → Prop) (s : Service) : Prop where
  /-- What is stored. -/
  traffic : s.traffic.Warranted P
  /-- What initiations are about to write. -/
  initiations : ∀ n i w, s.calls.find? n = some (.initiate i) → i.written? = some w → P w.1 w.2
  /-- What reports are about to write. -/
  reports : ∀ n p, s.calls.find? n = some (.cardReport p) → p.Warranted P
  /-- What loops are about to write. -/
  loops : ∀ n x, s.supervisor.loops.find? n = some x → x.Warranted P

theorem Warranted.mono {Q : String → Status → Prop} (h : s.Warranted P)
    (hPQ : ∀ r status, P r status → Q r status) : s.Warranted Q := by
  refine ⟨h.traffic.mono hPQ, fun n i w hn hw => hPQ _ _ (h.initiations n i w hn hw), ?_, ?_⟩
  · intro n p hn
    have hp := h.reports n p hn
    cases p with
    | reading | writing => exact hPQ _ _ hp
    | rereading | done => trivial
  · intro n x hn
    have hx := h.loops n x hn
    exact ⟨fun status htold => hPQ _ _ (hx.told status htold),
      fun hexp => hPQ _ _ (hx.expiring hexp)⟩

theorem warranted_atRest (u : Setup) (P : String → Status → Prop) : (atRest u).Warranted P :=
  ⟨Traffic.warranted_ofLedger P, fun _ _ _ h => absurd h (by simp [atRest]),
    fun _ _ h => absurd h (by simp [atRest]), fun _ _ h => absurd h (by simp [atRest])⟩

/-- A status write that an action asks for has a warrant. -/
theorem Warranted.written (h : s.Warranted P) {w : String × Status} (hw : s.written? a = some w) :
    P w.1 w.2 := by
  cases a with
  | turn m t =>
    cases t with
    | call n =>
      simp only [Service.written?] at hw
      cases hcall : s.calls.find? n with
      | none => exact absurd hw (by simp [hcall])
      | some c =>
        rw [hcall] at hw
        cases c with
        | initiate i => exact h.initiations n i w hcall hw
        | cardReport p =>
          have hp : p.Warranted P := h.reports n p hcall
          cases p with
          | writing t status message =>
            obtain rfl := Option.some.inj hw
            exact hp
          | _ => exact absurd hw (by simp [CardCallback.Phase.storeAction, Traffic.Action.written?])
        | _ => exact absurd hw (by simp)
    | loop n =>
      obtain ⟨x, hx, hw⟩ := Option.bind_eq_some_iff.mp hw
      exact (h.loops n x hx).written hw
  | _ => exact absurd hw (by simp [Service.written?])

theorem exchange?_of_inquiring {i : Initiation} {w : Initiation.Work}
    (hcall : s.calls.find? n = some (.initiate i)) (hp : i.phase = .inquiring w t) :
    s.exchange? (.call n) = some (.inquiry t.reference) := by
  simp [exchange?, hcall, hp]

theorem exchange?_of_submitting {i : Initiation} {w : Initiation.Work}
    {request : Gateway.WalletRequest} (hcall : s.calls.find? n = some (.initiate i))
    (hp : i.phase = .submitting w t request) :
    s.exchange? (.call n) = some (.wallet request) := by
  simp [exchange?, hcall, hp]

/-- What an initiation heard from the gateway, the service learns. -/
theorem Sound.learns_of_heard (h : Sound l used ts s) {m : Moment} {e : Event} {i : Initiation}
    (hgives : a.Gives g s m (.call n) e) (hcall : s.calls.find? n = some (.initiate i))
    (hheard : Initiation.Heard u.calls m.wall i e r status) : Learns u g s a r status := by
  have hknows := h.knowing n i hcall
  cases hheard with
  | @inquiry w t o hp =>
    obtain ⟨d, x, rfl, hx, ho⟩ := hgives.of_answer
    obtain rfl : Exchange.inquiry t.reference = x :=
      Option.some.inj ((exchange?_of_inquiring hcall hp).symm.trans hx)
    exact .answer hx ho
  | @debit w t request o hp =>
    obtain ⟨d, x, rfl, hx, ho⟩ := hgives.of_answer
    obtain rfl : Exchange.wallet request = x :=
      Option.some.inj ((exchange?_of_submitting hcall hp).symm.trans hx)
    -- the debit that was sent names the transaction that was made
    rw [hp] at hknows
    have href : (Exchange.wallet request).reference = t.reference := hknows.2.2
    rw [← href]
    exact .answer hx ho
  | @tooOld w t o hp hopen hold =>
    obtain ⟨d, x, rfl, hx, ho⟩ := hgives.of_answer
    obtain rfl : Exchange.inquiry t.reference = x :=
      Option.some.inj ((exchange?_of_inquiring hcall hp).symm.trans hx)
    -- the row was made when the transaction that the call has read was
    rw [hp] at hknows
    obtain ⟨row, -, hbecomes, hrow⟩ := Initiation.Shows.row hknows.2 h.coherent
    have hage : Initiation.isTooOld u.calls m.wall row = true := by
      rw [Initiation.isTooOld_becomes hbecomes, hold]
    exact .tooOld hx ho hopen hrow hage

/-! ### One step -/

theorem Warranted.reports_step (h : s.Warranted P) (hsound : Sound l used ts s)
    (hs : Step u g s a s') (hlearns : ∀ r status, Learns u g s a r status → P r status)
    {p : CardCallback.Phase} (hn : s'.calls.find? n = some (.cardReport p)) : p.Warranted P := by
  rcases hs.calls hn with hold | ⟨d, rfl, -, hc⟩ | hstep
  · exact h.reports n p hold
  · -- a report that comes in is read from the posted fields, or fails at once
    cases d with
    | cardReport posted =>
      obtain rfl := Call.cardReport.inj hc
      unfold CardCallback.ofPosted
      split
      · next c hreturn => exact hlearns _ _ (.report hreturn)
      · trivial
    | _ => exact absurd hc (by simp [Demand.call])
  · cases hstep with
    | @report p₀ _ store hcall hstep =>
      obtain ⟨-, hproceeds, -⟩ :=
        CardCallback.step_spec (u := fun _ => none) hsound.regular.faults hstep
      cases p with
      | reading c => exact absurd rfl (hproceeds.reading c)
      | writing t status message =>
        obtain ⟨c, rfl, hfind, rfl⟩ := hproceeds.writing t status message rfl
        -- a row is stored under its own reference
        have href : t.reference = c.reference := hsound.coherent.wellKeyed _ _ hfind
        have hread : P c.reference c.status := h.reports n _ hcall
        show P t.reference c.status
        rw [href]
        exact hread
      | rereading | done => trivial

theorem Warranted.loops_step (h : s.Warranted P) (hs : Step u g s a s')
    (hlearns : ∀ r status, Learns u g s a r status → P r status)
    {x : Poll.Loop} (hn : s'.supervisor.loops.find? n = some x) : x.Warranted P := by
  rcases hs.loops hn with hold | hfresh | ⟨m, e, x₀, hgives, hloop, hmove⟩
  · exact h.loops n x hold
  · exact Poll.Loop.warranted_of_fresh hfresh
  · have hx₀ := h.loops n x₀ hloop
    refine ⟨fun status htold => ?_, fun hexp => ?_⟩
    · -- a status that it is told is the answer to its own inquiry
      rw [hmove.reference_eq]
      rcases hmove.told htold with hold | ⟨-, hphase, o, rfl, rfl⟩
      · exact hx₀.told status hold
      · obtain ⟨d, y, rfl, hy, ho⟩ := hgives.of_answer
        obtain rfl : Exchange.inquiry x₀.reference = y := by
          simpa [exchange?, hloop, hphase] using hy
        exact hlearns _ _ (.answer hy ho)
    · obtain ⟨rfl, hwaiting, hdue⟩ := hmove.expiring hexp
      obtain rfl := hgives.of_turn
      rw [hmove.reference_eq]
      exact hlearns _ _ (.deadline hloop hwaiting hdue)

/-- A service keeps its warrants, if what it learns has one. -/
theorem Warranted.step (h : s.Warranted P) (hsound : Sound l used ts s) (hs : Step u g s a s')
    (hpending : ∀ r, P r .pending)
    (hlearns : ∀ r status, Learns u g s a r status → P r status) : s'.Warranted P := by
  -- the store: what an action writes there was about to be written before
  obtain ⟨ta, hp⟩ := hs.traffic hsound.regular
  refine ⟨?_, ?_, ?_, ?_⟩
  · exact h.traffic.step hpending (fun r status hw => h.written (hp.written _ hw)) hp.step
  · intro n i w hn hw
    rcases hs.initiations hn with hold | ⟨user, request, -, rfl⟩ |
      ⟨m, e, i₀, ta, scene, hgives, hcall, hmove, hi, -⟩
    · exact h.initiations n i w hold hw
    · unfold Initiation.ofRequest at hw
      split at hw
      · exact absurd hw (by simp [Initiation.written?])
      · exact absurd hw (by simp [Initiation.written?])
    · rw [hi] at hw
      exact hlearns _ _ (hsound.learns_of_heard hgives hcall (hmove.heard hw))
  · intro n p hn
    exact h.reports_step hsound hs hlearns hn
  · intro n x hn
    exact h.loops_step hs hlearns hn

/-! ### A whole run -/

/-- In a run from an empty store in which no two transactions are made with the same
    reference, everything that is stored or about to be written was learned. -/
theorem warranted_of_run (h : Run (act u g) (atRest u) tr s)
    (hrefs : ((made u tr).map Transaction.reference).Nodup) : s.Warranted (Learned u g tr) := by
  induction h with
  | nil => exact warranted_atRest u _
  | @snoc tr s s' a hrun hact ih =>
    rw [made_snoc, List.map_append] at hrefs
    have hpre := (List.nodup_append.mp hrefs).1
    have hsound := sound_of_run Ledger.coherent_empty hrun hpre
    have hstep : Step u g s a s' := step_of_act hsound.regular.faults hact
    -- what was learned before stays learned, and the step adds what it learns itself
    have hbefore : s.Warranted (Learned u g (tr ++ [(s, a)])) :=
      (ih hpre).mono fun r status hlearned => hlearned.snoc s a
    apply hbefore.step hsound hstep
    · exact fun r => Or.inl rfl
    · exact fun r status hlearns => Or.inr ⟨(s, a), by simp, hlearns⟩

/-- The status of a stored transaction is pending, or was learned in the course of the run. -/
theorem learned_of_run (h : Run (act u g) (atRest u) tr s)
    (hrefs : ((made u tr).map Transaction.reference).Nodup) (hrow : s.ledger.find? r = some t) :
    Learned u g tr r t.status :=
  (warranted_of_run h hrefs).traffic.ledger r t hrow

end Service

end TopUp
