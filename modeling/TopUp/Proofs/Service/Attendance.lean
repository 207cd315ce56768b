import Mathlib.Logic.ExistsUnique
import TopUp.Proofs.Service.Marks
import TopUp.Proofs.Service.Sound
import TopUp.Proofs.Store.Rows

/-! # Open transactions are attended to

    A wallet transaction that is committed open gets a poll loop: the call that has
    committed it goes on to start one. The start may be refused, but only because
    another loop attends to the transaction already; and a loop does not end before the
    transaction has settled. So while nobody switches status writes off, shuts the
    supervisor down, kills a loop or leaves a call, every open wallet transaction has its
    loop, unless a call is just about to start it (`Attentive.attended`,
    `open_wallets_attended`).
-/

namespace TopUp

open TopUp.Data TopUp.Gateway TopUp.Store

/-! ### Calls -/

namespace Initiation

variable {c : CallSettings} {page : CardPage} {m : Moment} {me : Nat} {s s' : Scene}
  {i : Initiation} {e : Event} {a : Traffic.Action} {p : Phase} {t : Transaction}

/-- A call that pays without a wallet pays by card. -/
def Fitting (i : Initiation) : Prop :=
  (∃ result, i.phase = .done result) ∨ (i.wallet = none → i.request.method = .card)

theorem fitting_ofRequest (user : Uuid) (request : Request) : (ofRequest user request).Fitting := by
  unfold ofRequest
  split
  · next wallet hvalid =>
    right
    rintro rfl
    exact (Request.validate_eq_ok hvalid).mp rfl
  · exact Or.inl ⟨_, rfl⟩

/-- A call that takes a step is not over. -/
theorem Fitting.of_move (h : i.Fitting) (hmove : Move c page m me s i e a s' p) :
    i.wallet = none → i.request.method = .card := by
  rcases h with ⟨result, hdone⟩ | h
  · cases hmove with
    | unanswered hp => rcases hp with ⟨_, hp⟩ | ⟨_, _, hp⟩ <;> simp [hdone] at hp
    | unwritten hp => rcases hp with hp | hp <;> simp [hdone] at hp
    | lookup hp | ask hp | enter hp | settled hp | inquire hp | fresh hp | inquired hp | amended hp
    | refused hp | reread hp | vanished hp | create hp | uncreated hp | declined hp | debited hp
    | record hp | recorded hp | commit hp | attend hp | attended hp => simp [hdone] at hp
  · exact h

/-- A call that is about to commit an open wallet transaction will start its poll loop. -/
def Caring (p : Phase) : Prop :=
  ∀ w receipt attend paid, p = .committing w receipt attend paid → ∀ t ∈ w.draft.created,
    t.method = .wallet → t.status.isTerminal = false → attend = some t.reference

theorem caring_of_created {w : Work} {receipt : Receipt} {attend paid : Option String}
    (hd : w.draft.created = []) : Caring (.committing w receipt attend paid) := by
  intro w' _ _ _ heq t ht
  obtain ⟨rfl, -⟩ := Phase.committing.inj heq
  rw [hd] at ht
  exact absurd ht List.not_mem_nil

theorem caring_afterDebit {w : Work} {status : Status} {message : String}
    (hd : w.draft.created = [{ t with status }]) : Caring (afterDebit w t status message) := by
  intro w' _ attend _ heq t' ht' _ hopen
  obtain ⟨rfl, -, rfl, -⟩ := Phase.committing.inj heq
  rw [hd, List.mem_singleton] at ht'
  subst ht'
  simp [show status.isTerminal = false from hopen]

/-- What a call knows makes it care. -/
theorem Move.caring (h : Move c page m me s i e a s' p)
    (hk : i.phase.Knows s.store.memory.ledger i.request.key) (hfit : i.Fitting) : Caring p := by
  have hmethod := hfit.of_move h
  cases h with
  | settled hp =>
    rw [hp] at hk
    exact caring_of_created (by rw [show _ = ({} : Draft) from hk])
  | @inquired w t o hp =>
    rw [hp] at hk
    unfold afterInquiry
    split
    · exact fun _ _ _ _ heq => absurd heq (by simp)
    · split
      · exact fun _ _ _ _ heq => absurd heq (by simp)
      · exact caring_of_created (by rw [hk.1])
  | amended hp hw =>
    rw [hp] at hk
    rw [hk.1] at hw
    exact caring_of_created (by rw [staged_of_updateDraft hw])
  | reread hp =>
    rw [hp] at hk
    exact caring_of_created (by rw [hk.1])
  | @create w t d hp hc =>
    -- without a wallet it is a card payment that was made
    rw [hp] at hk
    obtain ⟨ht, hd, -⟩ := Draft.create_eq_ok hc
    rcases afterCreation_cases c page m.wall i.wallet { w with draft := d } t with
      ⟨-, _, -, hnext⟩ | ⟨hwallet, ⟨_, hnext⟩ | ⟨_, _, -, -, hnext⟩⟩
    · exact fun _ _ _ _ heq => absurd (hnext.symm.trans heq) (by simp)
    · intro w' _ _ _ heq t' ht' hmethod'
      obtain ⟨rfl, -⟩ := Phase.committing.inj (hnext.symm.trans heq)
      rw [hd, show w.draft = {} from hk] at ht'
      obtain rfl : t' = t := by simpa using ht'
      rw [ht] at hmethod'
      exact absurd (hmethod'.symm.trans (hmethod hwallet)) (by simp)
    · exact fun _ _ _ _ heq => absurd (hnext.symm.trans heq) (by simp)
  | @debited w t r o hp ho =>
    rw [hp] at hk
    refine caring_afterDebit ?_
    rw [hk.1, ho, ← hk.2.1]
  | @recorded w t status message b d hp hw =>
    rw [hp] at hk
    rw [hk.1] at hw
    exact caring_afterDebit (by rw [made_of_updateDraft hw hk.2.1 hk.2.2])
  | @commit w receipt attend paid hp =>
    cases attend <;> exact fun _ _ _ _ heq => absurd heq (by simp [afterCommit])
  | _ => exact fun _ _ _ _ heq => absurd heq (by simp [abandon])

end Initiation

/-! ### Loops -/

/-- A pace that passes its check leaves time between two inquiries. -/
theorem Poll.Pace.interval_ne_zero {p : Poll.Pace} (h : p.validate = .ok ()) :
    p.interval ≠ 0 := by
  intro hzero
  simp [validate, hzero] at h

namespace Poll.Loop

variable {l l' : Ledger} {x x' : Loop} {p : Pace} {now id : Nat} {e : Event} {s s' : Store}
  {lim lim' : Limiter}

/-- A loop that is not done before its transaction has settled. -/
structure Diligent (l : Ledger) (x : Loop) : Prop where
  /-- What it has been told is terminal. -/
  told : ∀ status, x.told? = some status → status.isTerminal = true
  /-- It has not been killed. -/
  alive : x.phase ≠ .killed
  /-- If it is done, its transaction has settled. -/
  settled : ∀ o, x.phase = .clearing o ∨ x.phase = .ended o →
    ∃ t, l.find? x.reference = some t ∧ t.status.isTerminal = true

theorem diligent_of_fresh (h : x.phase = .fresh) : x.Diligent l :=
  ⟨fun _ htold => absurd htold (by simp [told?, h]), by simp [h], fun o ho => by simp [h] at ho⟩

/-- A loop whose inquiry is over goes on. -/
theorem diligent_afterInquiry (answer : Option Status)
    (htold : ∀ status, ({ x with phase := afterInquiry answer } : Loop).told? = some status →
      status.isTerminal = true) :
    ({ x with phase := afterInquiry answer } : Loop).Diligent l := by
  cases answer with
  | none => exact ⟨htold, by simp [afterInquiry], by simp [afterInquiry]⟩
  | some status => exact ⟨htold, by simp [afterInquiry], by simp [afterInquiry]⟩

/-- A row that has settled stays as it is. -/
theorem settled_of_retains {r : String} (hl : l.Retains l')
    (h : ∃ t, l.find? r = some t ∧ t.status.isTerminal = true) :
    ∃ t, l'.find? r = some t ∧ t.status.isTerminal = true := by
  obtain ⟨t, ht, hterm⟩ := h
  obtain ⟨t', ht', hb⟩ := hl r t ht
  exact ⟨t', ht', by rw [hb.status_eq_of_isTerminal hterm, hterm]⟩

theorem Diligent.retains (h : x.Diligent l) (hl : l.Retains l') : x.Diligent l' :=
  ⟨h.told, h.alive, fun o ho => settled_of_retains hl (h.settled o ho)⟩

/-- A row has settled after a terminal status was written to it, or refused. -/
theorem settled_of_update {m m' : Memory} {r : String} {status : Status} {written : Bool}
    (hwritable : m.readOnly = false) (h : m.update r status = .ok (written, m'))
    (hstatus : status.isTerminal = true) (hrow : m.ledger.find? r ≠ none) :
    ∃ t, m'.ledger.find? r = some t ∧ t.status.isTerminal = true := by
  obtain ⟨t, ht⟩ := Option.ne_none_iff_exists'.mp hrow
  obtain ⟨written', m'', heq, hiff, hyes, hno⟩ := Memory.update_eq_ok hwritable r status
  rw [h] at heq
  obtain ⟨rfl, rfl⟩ := by simpa using heq
  cases written with
  | true => exact ⟨{ t with status }, by rw [hyes rfl r, if_pos rfl, ht]; rfl, hstatus⟩
  | false =>
    refine ⟨t, by rw [hno rfl, ht], ?_⟩
    cases hterm : t.status.isTerminal with
    | true => rfl
    | false =>
      have hopen := hiff.mpr ⟨t, ht, hterm, Status.ne_pending_of_isTerminal hstatus⟩
      exact absurd hopen (by simp)

/-- Nothing but the end of its transaction ends a loop, if nobody stops it or kills it. -/
theorem Move.diligent (h : Move p false now id s lim x e s' lim' x')
    (hx : x.Diligent s.memory.ledger) (hpace : p.interval ≠ 0) (he : e ≠ .crash)
    (hwritable : s.memory.readOnly = false) (hrow : s.memory.ledger.find? x.reference ≠ none) :
    x'.Diligent s'.memory.ledger := by
  have htold : ∀ status, x'.told? = some status → status.isTerminal = true := by
    intro status ht
    rcases h.told ht with hold | ⟨hterm, -⟩
    · exact hx.told status hold
    · exact hterm
  cases h with
  | unpaced _ hzero => exact absurd hzero hpace
  | stop _ hstop => exact absurd hstop (by simp)
  | kill => exact absurd rfl he
  | answered | unanswered =>
    rcases endInquiry_loop lim x _ with heq | heq
    · rw [heq] at htold ⊢
      exact ⟨htold, by simp, by simp⟩
    · rw [heq] at htold ⊢
      exact diligent_afterInquiry _ htold
  | giveBack => exact diligent_afterInquiry _ htold
  | @settle status written memory hp hw =>
    have hterm := hx.told status (by rw [told?, hp])
    exact ⟨htold, by simp, fun o _ => settled_of_update hwritable hw hterm hrow⟩
  | fail hp hw => exact ⟨htold, by simp, fun o _ => settled_of_update hwritable hw rfl hrow⟩
  | unfailed hp hw =>
    -- only a store that is switched off refuses to write
    obtain ⟨written, m, heq, -⟩ := Memory.update_eq_ok hwritable x.reference .failed
    exact absurd (hw.symm.trans heq) (by simp)
  | @clear outcome hp =>
    refine ⟨htold, by simp, fun o _ => ?_⟩
    exact settled_of_retains (Ledger.clear_ages _ _).retains (hx.settled outcome (Or.inl hp))
  | begin | wait | expire | tick | inquire | slotless | unsettled =>
    exact ⟨htold, by simp, by simp⟩

end Poll.Loop

namespace Service

variable {ρ : Type} {u : Setup} {g : Reader ρ} {s s' : Service} {a : Action ρ} {l : Ledger}
  {tr : List (Service × Action ρ)} {ts : List Transaction} {used : List String} {n : Nat}
  {r : String} {t : Transaction}

/-! ### What a service that is left in peace keeps -/

/-- An action of a service that is neither disturbed nor shut down. -/
def Action.Ordinary : Action ρ → Prop
  | .arrive (.topUp _ _) | .arrive (.cardReport _) | .turn _ _ | .reply _ _ _ => True
  | .arrive (.attend _) | .arrive (.join _) | .arrive .shutdown | .crash _ _ | .leave _
  | .readOnly _ => False

instance : DecidablePred (Action.Ordinary (ρ := ρ)) := fun a => by
  unfold Action.Ordinary
  split <;> infer_instance

/-- A call is about to look for a loop of a reference, or to claim its mark. -/
def Expects (s : Service) (r : String) : Prop :=
  ∃ n i receipt p, s.calls.find? n = some (.initiate i) ∧
    i.phase = .attending receipt r p ∧ (p = .checking ∨ p = .claiming)

/-- A service that leaves no open wallet transaction alone. -/
structure Attentive (l : Ledger) (used : List String) (ts : List Transaction) (s : Service) : Prop
    extends Sound l used ts s where
  /-- Status writes are not switched off. -/
  writable : s.store.memory.readOnly = false
  /-- The supervisor is not shut down. -/
  running : s.supervisor.stopping = false
  /-- Loops have numbers that were given out. -/
  numbered : s.supervisor.Numbered
  /-- Marks are held, each by one task. -/
  held : Poll.Held s.ledger s.holds?
  /-- What is not committed is not marked. -/
  unmarked : s.traffic.Unmarked
  /-- All calls are about top-ups. -/
  calls : ∀ n c, s.calls.find? n = some c → (∃ i, c = .initiate i) ∨ ∃ p, c = .cardReport p
  /-- A registered loop is about the reference that it is registered for. -/
  registered : ∀ e ∈ s.supervisor.registry.entries,
    ∃ x, s.supervisor.loops.find? e.2 = some x ∧ x.reference = e.1
  /-- No loop is done before its transaction has settled. -/
  loops : ∀ n x, s.supervisor.loops.find? n = some x → x.Diligent s.ledger
  /-- Calls without a wallet pay by card. -/
  fitting : ∀ n i, s.calls.find? n = some (.initiate i) → i.Fitting
  /-- Calls start the loops of the open wallet transactions that they commit. -/
  caring : ∀ n i, s.calls.find? n = some (.initiate i) → Initiation.Caring i.phase
  /-- An open wallet transaction is marked, or about to be. -/
  attended : ∀ r t, s.ledger.find? r = some t → t.method = .wallet → t.status.isTerminal = false →
    s.ledger.marked r = true ∨ s.Expects r

theorem attentive_atRest (u : Setup) : Attentive {} [] [] (atRest u) := by
  have hcalls : ∀ n c, (atRest u).calls.find? n ≠ some c := fun n c h => by simp [atRest] at h
  have hloops : ∀ n x, (atRest u).supervisor.loops.find? n ≠ some x := fun n x h => by
    simp [atRest] at h
  refine ⟨sound_ofLedger u Ledger.coherent_empty, rfl, rfl, fun n x h => absurd h (hloops n x),
    Poll.held_of_unmarked (fun r => Ledger.marked_empty r) ?_, Traffic.unmarked_ofLedger _,
    fun n c h => absurd h (hcalls n c), fun e he => ?_, fun n x h => absurd h (hloops n x),
    fun n i h => absurd h (hcalls n _), fun n i h => absurd h (hcalls n _), fun r t h => ?_⟩
  · intro task
    cases task <;> simp [holds?, atRest]
  · exact absurd he List.not_mem_nil
  · exact absurd h (by simp [ledger, atRest, Ledger.find?])

/-! ### One step -/

/-- What is committed was made by an initiation. -/
theorem committing_of_committed (ht : t ∈ s.committed a) :
    ∃ m n i w receipt attend paid, a = .turn m (.call n) ∧
      s.calls.find? n = some (.initiate i) ∧ i.phase = .committing w receipt attend paid ∧
      t ∈ w.draft.created := by
  unfold Service.committed at ht
  split at ht
  · next m n =>
    split at ht
    · next i hcall =>
      unfold Initiation.committed at ht
      split at ht
      · next w receipt attend paid hp => exact ⟨m, n, i, w, receipt, attend, paid, rfl, hcall, hp, ht⟩
      · exact absurd ht List.not_mem_nil
    · exact absurd ht List.not_mem_nil
  · exact absurd ht List.not_mem_nil

/-- What is committed is neither marked nor takes the place of a row. -/
theorem Attentive.committed_unmarked (h : Attentive l used ts s) (hs : Step u g s a s') :
    ∀ t ∈ s.committed a, t.polling = false ∧ s.ledger.marked t.reference = false := by
  obtain ⟨ta, hp⟩ := hs.traffic h.regular
  intro t ht
  rw [← hp.committed] at ht
  have habsent : s.ledger.find? t.reference = none := h.apart.committed_absent hp.step ht
  obtain ⟨n, key, lock, d, hunit, hcreated⟩ := Traffic.opened_of_committed ht
  exact ⟨h.unmarked n key lock d hunit t (hcreated ▸ ht), by simp [Ledger.marked, habsent]⟩

theorem Attentive.passes (h : Attentive l used ts s) (hs : Step u g s a s') (ha : a.Ordinary) :
    Poll.Passes s.ledger s'.ledger s.holds? s'.holds? := by
  refine hs.passes h.regular h.numbered (h.committed_unmarked hs) ?_
  rintro n rfl
  exact absurd ha id

/-- A row whose mark is held by a task is there. -/
theorem Attentive.find?_of_holds (h : Attentive l used ts s) {task : Task}
    (ht : s.holds? task = some r) : s.ledger.find? r ≠ none := by
  obtain ⟨t, hfind, -⟩ := Ledger.marked_eq_true.mp ((h.held.marked r).mpr ⟨task, ht⟩)
  simp [hfind]

/-- A registered loop that is not over holds the mark of its reference. -/
theorem Attentive.marked_of_attends (h : Attentive l used ts s)
    (ht : s.supervisor.attends r = true) : s.ledger.marked r = true := by
  unfold Poll.Supervisor.attends at ht
  split at ht
  · next n hfind =>
    obtain ⟨x, hx, hr⟩ := h.registered _ (Dict.mem_of_find? hfind)
    have hlive : x.isFinished = false := by
      simpa [Poll.Supervisor.isFinished, show s.supervisor.loops.find? n = some x from hx] using ht
    refine (h.held.marked r).mpr ⟨.loop n, ?_⟩
    rw [holds?_of_loop hx, Poll.Loop.holds?_of_not_finished hlive]
    exact congrArg some hr
  · exact absurd ht (by simp)

/-- Marks stay, but for that of a loop that is done. -/
theorem Attentive.marked_step (h : Attentive l used ts s) (hs : Step u g s a s')
    (hm : s.ledger.marked r = true) : s'.ledger.marked r = true ∨
      ∃ n x o, s.supervisor.loops.find? n = some x ∧ x.phase = .clearing o ∧ x.reference = r := by
  have hstart : ∀ {p p' : Poll.Start} {reference : String} {v v' : Poll.Supervisor} {store : Store},
      Poll.Start.Move reference v s.store p v' store p' → store.memory.ledger.marked r = true := by
    intro p p' reference v v' store hmove
    cases hmove with
    | claim hclaim =>
      show (s.ledger.claim reference).2.marked r = true
      rw [(Ledger.marked_claim (l := s.ledger) hclaim).2, hm]
      simp
    | lose hclaim =>
      show (s.ledger.claim reference).2.marked r = true
      rw [(Ledger.claim_eq_false (l := s.ledger) hclaim).1, hm]
    | _ => exact hm
  cases hs with
  | @initiate _ m n e i ta scene p hgives hcall hmove =>
    left
    cases hmove.handles with
    | start _ _ hmove => exact hstart hmove
    | commit he hp _ _ hledger =>
      subst he
      obtain rfl := hgives.of_turn
      show scene.store.memory.ledger.marked r = true
      rw [hledger, Ledger.marked_commit fun t ht => ?_, hm]
      exact h.committed_unmarked (.initiate hgives hcall hmove) t
        (by simpa [Service.committed, hcall, Initiation.committed, hp] using ht)
    | other _ _ _ hledger =>
      show scene.store.memory.ledger.marked r = true
      rw [hledger, hm]
  | @report m n p p' store hcall hstep =>
    obtain ⟨-, -, hact⟩ := CardCallback.step_spec (u := s.traffic.units) h.regular.faults hstep
    exact Or.inl ((Traffic.marked_of_act hact p.storeAction_cases r).trans hm)
  | start _ hmove => exact Or.inl (hstart hmove)
  | @loop _ m n e x x' store limiter hgives hloop hmove =>
    rcases hmove.marks with ⟨o, hp, -, hledger⟩ | ⟨-, hl⟩
    · by_cases hr : x.reference = r
      · exact Or.inr ⟨n, x, o, hloop, hp, hr⟩
      · left
        show store.memory.ledger.marked r = true
        rw [hledger, Ledger.marked_clear, if_neg hr, hm]
    · exact Or.inl ((hl r).trans hm)
  | _ => exact Or.inl hm

/-- A call that is about to start a loop does so, or there is one already. -/
theorem Attentive.expects_step (h : Attentive l used ts s) (hs : Step u g s a s')
    (ha : a.Ordinary) (hrow : s.ledger.find? r ≠ none) (hexp : s.Expects r) :
    s'.ledger.marked r = true ∨ s'.Expects r := by
  obtain ⟨n, i, receipt, p, hn, hp, hcase⟩ := hexp
  rcases hs.initiation_next h.regular hn with rfl | hsame |
    ⟨m, e, ta, scene, p', hgives, hmove, hn', hstore, hsupervisor⟩
  · exact absurd ha id
  · exact Or.inr ⟨n, i, receipt, p, hsame, hp, hcase⟩
  · have hledger : s'.ledger = scene.store.memory.ledger := by rw [ledger, hstore]
    cases hmove.handles with
    | @start receipt' reference start start' hp₀ hp' hstart =>
      obtain ⟨rfl, rfl, rfl⟩ := Initiation.Phase.attending.inj (hp.symm.trans hp₀)
      rw [hledger]
      generalize scene.supervisor = v, scene.store = store at hstart
      cases hstart with
      | refuse hno =>
        -- since the supervisor is not shut down, it has a loop
        rw [h.running] at hno
        exact Or.inl (h.marked_of_attends (by simpa using hno))
      | pass =>
        exact Or.inr ⟨n, _, receipt, _, hn', hp', Or.inr rfl⟩
      | claim hclaim =>
        left
        show (s.ledger.claim r).2.marked r = true
        rw [(Ledger.marked_claim (l := s.ledger) hclaim).2, if_pos rfl]
      | lose hclaim =>
        -- the row is there, so it has been marked by somebody else
        left
        obtain ⟨hsame, hmarked⟩ := Ledger.claim_eq_false (l := s.ledger) hclaim
        show (s.ledger.claim r).2.marked r = true
        rw [hsame]
        exact hmarked hrow
      | spawn => exact absurd hcase (by simp)
    | commit _ hp₀ => exact absurd (hp.symm.trans hp₀) (by simp)
    | other hquiet =>
      rw [hp] at hquiet
      obtain ⟨started, rfl⟩ := hquiet
      exact absurd hcase (by simp)

/-- An open wallet transaction stays attended to, and a new one comes to be. -/
theorem Attentive.attended_step (h : Attentive l used ts s) (hs : Step u g s a s')
    (ha : a.Ordinary) (ht : s'.ledger.find? r = some t) (hwallet : t.method = .wallet)
    (hopen : t.status.isTerminal = false) : s'.ledger.marked r = true ∨ s'.Expects r := by
  have hyoung : ∀ {t₀ : Transaction}, t₀.Becomes t →
      t₀.method = .wallet ∧ t₀.status.isTerminal = false := by
    intro t₀ hb
    refine ⟨by rw [← hwallet, hb.same], ?_⟩
    cases hterm : t₀.status.isTerminal with
    | false => rfl
    | true =>
      rw [hb.status_eq_of_isTerminal hterm, hterm] at hopen
      exact absurd hopen (by simp)
  rcases h.find?_cases hs ht with ⟨t₀, ht₀, hb⟩ | ⟨t₀, ht₀, rfl, hb⟩
  · obtain ⟨hwallet₀, hopen₀⟩ := hyoung hb
    rcases h.attended r t₀ ht₀ hwallet₀ hopen₀ with hmarked | hexp
    · rcases h.marked_step hs hmarked with hmarked | ⟨n, x, o, hx, hp, rfl⟩
      · exact Or.inl hmarked
      · -- a loop that is done has a transaction that has settled
        obtain ⟨t₁, ht₁, hterm⟩ := (h.loops n x hx).settled o (Or.inl hp)
        obtain rfl : t₁ = t₀ := Option.some.inj (ht₁.symm.trans ht₀)
        rw [hopen₀] at hterm
        exact absurd hterm (by simp)
    · exact h.expects_step hs ha (by simp [ht₀]) hexp
  · -- the call that has committed it goes on to start its loop
    obtain ⟨hwallet₀, hopen₀⟩ := hyoung hb
    obtain ⟨m, n, i, w, receipt, attend, paid, rfl, hcall, hp, ht₀⟩ := committing_of_committed ht₀
    obtain rfl : attend = some t₀.reference :=
      h.caring n i hcall w receipt attend paid hp t₀ ht₀ hwallet₀ hopen₀
    obtain ⟨c, hn, hstep⟩ := hs.call_of_turn
    right
    cases hstep with
    | initiate hgives hcall' hmove =>
      obtain rfl := Call.initiate.inj (Option.some.inj (hcall.symm.trans hcall'))
      cases hmove.handles with
      | start hp₀ => exact absurd (hp.symm.trans hp₀) (by simp)
      | commit _ hp₀ hp' =>
        obtain ⟨-, rfl, rfl, -⟩ := Initiation.Phase.committing.inj (hp.symm.trans hp₀)
        exact ⟨n, _, receipt, .checking, hn, hp', Or.inl rfl⟩
      | other hquiet =>
        rw [hp] at hquiet
        exact absurd hquiet id
    | report hcall' => exact absurd (hcall.symm.trans hcall') (by simp)
    | start _ hcall' => exact absurd (hcall.symm.trans hcall') (by simp)
    | join _ hcall' => exact absurd (hcall.symm.trans hcall') (by simp)
    | shutdown _ hcall' => exact absurd (hcall.symm.trans hcall') (by simp)

/-- A loop has its row and does not end before that has settled. -/
theorem Attentive.loops_step (h : Attentive l used ts s) (hpace : u.pace.interval ≠ 0)
    (hs : Step u g s a s') (ha : a.Ordinary) {x : Poll.Loop}
    (hx : s'.supervisor.loops.find? n = some x) : x.Diligent s'.ledger := by
  have hretains : s.ledger.Retains s'.ledger := fun r t ht => (h.extends_step hs).some ht
  rcases hs.loops hx with hold | hfresh | ⟨m, e, x₀, hgives, hloop, hmove⟩
  · exact (h.loops n x hold).retains hretains
  · exact Poll.Loop.diligent_of_fresh hfresh
  · have hholds : s.holds? (.loop n) = some x₀.reference :=
      (holds?_of_loop hloop).trans hmove.holds?
    rw [h.running] at hmove
    refine hmove.diligent (h.loops n x₀ hloop) hpace ?_ h.writable (h.find?_of_holds hholds)
    rintro rfl
    cases hgives
    exact ha

/-- The supervisor keeps what it needs to find its loops. -/
theorem Attentive.supervisor_step (h : Attentive l used ts s) (hs : Step u g s a s') :
    s'.supervisor.stopping = false ∧ ∀ e ∈ s'.supervisor.registry.entries,
      ∃ x, s'.supervisor.loops.find? e.2 = some x ∧ x.reference = e.1 := by
  -- an entry that was there before still has its loop
  have hold : ∀ e ∈ s.supervisor.registry.entries,
      ∃ x, s'.supervisor.loops.find? e.2 = some x ∧ x.reference = e.1 := by
    intro e he
    obtain ⟨x, hx, hr⟩ := h.registered e he
    obtain ⟨x', hx', hr'⟩ := hs.loop_persists h.numbered hx
    exact ⟨x', hx', hr'.trans hr⟩
  have hcalls : ∀ {n : Nat} {c : Call}, s.calls.find? n = some c →
      (∀ i, c ≠ .initiate i) → (∀ p, c ≠ .cardReport p) → False := by
    intro n c hn hi hp
    rcases h.calls n c hn with ⟨i, rfl⟩ | ⟨p, rfl⟩
    · exact hi i rfl
    · exact hp p rfl
  cases hs with
  | @initiate _ m n e i ta scene p hgives hcall hmove =>
    cases hmove.handles with
    | start _ _ hstart =>
      obtain ⟨hstop, hregistry⟩ := hstart.registry
      refine ⟨hstop.trans h.running, fun e he => ?_⟩
      rcases hregistry e he with he | ⟨hx, hr⟩
      · exact hold e he
      · exact ⟨_, hx, hr.symm⟩
    | commit _ _ _ hsupervisor _ | other _ _ hsupervisor _ =>
      have hsame : scene.supervisor = s.supervisor := hsupervisor
      refine ⟨(congrArg Poll.Supervisor.stopping hsame).trans h.running, fun e he => ?_⟩
      have he : e ∈ scene.supervisor.registry.entries := he
      rw [hsame] at he
      exact hold e he
  | start hcall => exact (hcalls hcall (by simp) (by simp)).elim
  | join hcall => exact (hcalls hcall (by simp) (by simp)).elim
  | shutdown hcall => exact (hcalls hcall (by simp) (by simp)).elim
  | _ => exact ⟨h.running, hold⟩

theorem Attentive.step (h : Attentive l used ts s) (hpace : u.pace.interval ≠ 0)
    (hs : Step u g s a s') (ha : a.Ordinary)
    (hnew : ∀ t, s.made? u a = some t → t.reference ∉ used) :
    Attentive l (used ++ (s.made? u a).toList.map Transaction.reference) (ts ++ s.committed a)
      s' := by
  obtain ⟨ta, hp⟩ := hs.traffic h.regular
  obtain ⟨hrunning, hregistered⟩ := h.supervisor_step hs
  refine ⟨h.toSound.step hs hnew, ?_, hrunning, hs.numbered h.numbered, h.held.step (h.passes hs ha),
    h.unmarked.step hp.step, ?_, hregistered, fun n x hx => h.loops_step hpace hs ha hx, ?_, ?_,
    fun r t ht hwallet hopen => h.attended_step hs ha ht hwallet hopen⟩
  · rw [hs.readOnly_eq h.regular.faults (by rintro on rfl; exact ha), h.writable]
  · intro n c hn
    rcases hs.calls hn with hold | ⟨d, rfl, -, rfl⟩ | hstep
    · exact h.calls n c hold
    · cases d with
      | topUp user request => exact Or.inl ⟨_, rfl⟩
      | cardReport posted => exact Or.inr ⟨_, rfl⟩
      | _ => exact ha.elim
    · cases hstep with
      | initiate => exact Or.inl ⟨_, rfl⟩
      | report => exact Or.inr ⟨_, rfl⟩
      | start _ hcall => simpa using h.calls n _ hcall
      | join _ hcall => simpa using h.calls n _ hcall
      | shutdown _ hcall => simpa using h.calls n _ hcall
  · intro n i hn
    rcases hs.initiations hn with hold | ⟨user, request, -, rfl⟩ |
      ⟨m, e, i₀, ta, scene, -, hcall, hmove, hi, -⟩
    · exact h.fitting n i hold
    · exact Initiation.fitting_ofRequest user request
    · rw [hi]
      exact Or.inr ((h.fitting n i₀ hcall).of_move hmove)
  · intro n i hn
    rcases hs.initiations hn with hold | ⟨user, request, -, rfl⟩ |
      ⟨m, e, i₀, ta, scene, -, hcall, hmove, -, -⟩
    · exact h.caring n i hold
    · unfold Initiation.ofRequest
      split <;> exact fun _ _ _ _ heq => absurd heq (by simp)
    · exact hmove.caring (h.knowing n i₀ hcall) (h.fitting n i₀ hcall)

theorem attentive_of_run (hpace : u.pace.interval ≠ 0) (h : Run (act u g) (atRest u) tr s)
    (hordinary : ∀ e ∈ tr, e.2.Ordinary)
    (hrefs : ((made u tr).map Transaction.reference).Nodup) :
    Attentive {} ((made u tr).map Transaction.reference) (commits tr) s := by
  induction h with
  | nil => exact attentive_atRest u
  | @snoc tr s s' a _ hact ih =>
    rw [made_snoc, List.map_append, List.nodup_append] at hrefs
    obtain ⟨hpre, -, hdisjoint⟩ := hrefs
    have hs := ih (fun e he => hordinary e (List.mem_append_left _ he)) hpre
    rw [made_snoc, List.map_append, commits_snoc]
    apply hs.step hpace (step_of_act hs.regular.faults hact) (hordinary (s, a) (by simp))
    intro t ht hmem
    exact hdisjoint _ hmem t.reference (by simp [ht]) rfl

/-! ### Nothing is left alone -/

/-- While no call that initiates a top-up is in progress, a marked reference has a loop. -/
theorem Attentive.loop_of_marked (h : Attentive l used ts s)
    (hidle : ∀ n i, s.calls.find? n = some (.initiate i) → i.result?.isSome = true)
    (hm : s.ledger.marked r = true) :
    ∃ n x, s.supervisor.loops.find? n = some x ∧ x.reference = r ∧ x.isFinished = false := by
  obtain ⟨task, ht⟩ := (h.held.marked r).mp hm
  cases task with
  | call n =>
    obtain ⟨c, hn, hc⟩ := Option.bind_eq_some_iff.mp ht
    rcases h.calls n c hn with ⟨i, rfl⟩ | ⟨p, rfl⟩
    · -- a call that holds a mark is in progress
      have hover := hidle n i hn
      cases hp : i.phase with
      | done result => exact absurd hc (by simp [Call.holds?, hp, Initiation.Phase.holds?])
      | _ => exact absurd hover (by simp [Initiation.result?, hp])
    · exact absurd hc (by simp [Call.holds?])
  | loop n =>
    obtain ⟨x, hx, hholds⟩ := Option.bind_eq_some_iff.mp ht
    obtain ⟨hr, hended⟩ := Poll.Loop.holds?_eq_some hholds
    refine ⟨n, x, hx, hr, ?_⟩
    have halive := (h.loops n x hx).alive
    cases hp : x.phase with
    | ended o => exact absurd hp (hended o)
    | killed => exact absurd hp halive
    | _ => simp [Poll.Loop.isFinished, hp]

/-- In every run of calls that initiate top-ups, loops and reports of the card page, in
    which nothing is switched off, shut down, killed or left: whenever no call that
    initiates a top-up is in progress, every open wallet transaction is marked and has
    exactly one loop that is not over; and when a loop is over, its transaction has
    settled. A pace that passes its check has an interval; without one no loop lives. -/
theorem open_wallets_attended (hpace : u.pace.interval ≠ 0)
    (h : Run (act u g) (atRest u) tr s) (hordinary : ∀ e ∈ tr, e.2.Ordinary)
    (hrefs : ((made u tr).map Transaction.reference).Nodup) :
    ((∀ n i, s.calls.find? n = some (.initiate i) → i.result?.isSome = true) →
      ∀ r t, s.ledger.find? r = some t → t.method = .wallet →
        t.status = .pending ∨ t.status = .unknown →
        t.polling = true ∧ ∃! n, ∃ x, s.supervisor.loops.find? n = some x ∧ x.reference = r ∧
          x.isFinished = false) ∧
    ∀ n x, s.supervisor.loops.find? n = some x → x.isFinished = true →
      ∃ t, s.ledger.find? x.reference = some t ∧ t.status.isTerminal = true := by
  have hs := attentive_of_run hpace h hordinary hrefs
  constructor
  · intro hidle r t ht hwallet hstatus
    have hopen : t.status.isTerminal = false := by
      rcases hstatus with hp | hp <;> rw [hp] <;> rfl
    have hmarked : s.ledger.marked r = true := by
      rcases hs.attended r t ht hwallet hopen with hm | ⟨n, i, receipt, p, hn, hp, -⟩
      · exact hm
      · -- a call that is about to start a loop is in progress
        exact absurd (hidle n i hn) (by simp [Initiation.result?, hp])
    refine ⟨(Ledger.marked_of_find? ht).symm.trans hmarked, ?_⟩
    obtain ⟨n, x, hx, hr, hlive⟩ := hs.loop_of_marked hidle hmarked
    refine ⟨n, ⟨x, hx, hr, hlive⟩, ?_⟩
    rintro n' ⟨x', hx', hr', hlive'⟩
    have hholds : s.holds? (.loop n) = some r := by
      rw [holds?_of_loop hx, Poll.Loop.holds?_of_not_finished hlive, hr]
    have hholds' : s.holds? (.loop n') = some r := by
      rw [holds?_of_loop hx', Poll.Loop.holds?_of_not_finished hlive', hr']
    exact Task.loop.inj (hs.held.unique hholds' hholds)
  · intro n x hx hover
    have hdiligent := hs.loops n x hx
    cases hp : x.phase with
    | ended o => exact hdiligent.settled o (Or.inr hp)
    | killed => exact absurd hp hdiligent.alive
    | _ => exact absurd hover (by simp [Poll.Loop.isFinished, hp])

/-- Two customers pay by wallet and neither payment settles; the loop of the first one
    reaches its deadline. -/
def tending : List (Action (Except Gateway.Failure Gateway.Outcome)) :=
  let pay (n k : Nat) : List (Action (Except Gateway.Failure Gateway.Outcome)) :=
    .arrive (walletDemand k) :: List.replicate 5 (.turn (moment k) (.call n)) ++
      .reply (moment k) (.call n) (.ok (outcome .unknown)) ::
        List.replicate 6 (.turn (moment k) (.call n))
  pay 0 7 ++ pay 1 8 ++ List.replicate 2 (.turn (moment 9) (.loop 0)) ++
    List.replicate 3 (.turn (moment 200000) (.loop 0))

/-- The payment that is open has one loop, and the one whose loop is over has settled. -/
theorem tending_attended :
    let run := Run.play (act plain literally) tending (atRest plain)
    (∃ t, run.2.ledger.find? "GIKITU20250101JJJ" = some t ∧ t.status = .unknown ∧
      t.polling = true ∧ ∃! n, ∃ x, run.2.supervisor.loops.find? n = some x ∧
        x.reference = "GIKITU20250101JJJ" ∧ x.isFinished = false) ∧
    ∃ t, run.2.ledger.find? "GIKITU20250101HHH" = some t ∧ t.status.isTerminal = true := by
  intro run
  have hrun : Run (act plain literally) _ run.1 run.2 := Run.of_play tending _
  have hplay : (∀ e ∈ run.1, e.2.Ordinary) ∧ ((made plain run.1).map Transaction.reference).Nodup ∧
      (∀ e ∈ run.2.calls.entries, e.2.isOver = true) ∧
      (run.2.ledger.find? "GIKITU20250101JJJ").map (fun t => (t.method, t.status)) =
        some (.wallet, .unknown) ∧
      (run.2.supervisor.loops.find? 0).map (fun x => (x.reference, x.isFinished)) =
        some ("GIKITU20250101HHH", true) := by
    decide +kernel
  obtain ⟨hordinary, hrefs, hover, hopen, hloop⟩ := hplay
  obtain ⟨t, ht, hopen⟩ := Option.map_eq_some_iff.mp hopen
  obtain ⟨hwallet, hstatus⟩ := Prod.mk.inj hopen
  obtain ⟨x, hx, hended⟩ := Option.map_eq_some_iff.mp hloop
  obtain ⟨href, hfinished⟩ := Prod.mk.inj hended
  obtain ⟨hattended, hsettled⟩ := open_wallets_attended
    (Poll.Pace.interval_ne_zero (p := plain.pace) rfl) hrun hordinary hrefs
  obtain ⟨hpolling, hone⟩ := hattended (fun n i hn => hover _ (Dict.mem_of_find? hn)) _ t ht
    hwallet (Or.inr hstatus)
  refine ⟨⟨t, ht, hstatus, hpolling, hone⟩, ?_⟩
  rw [← href]
  exact hsettled 0 x hx hfinished

end Service

end TopUp
