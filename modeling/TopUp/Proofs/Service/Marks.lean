import TopUp.Proofs.Poll.Marks
import TopUp.Proofs.Service.Traffic

/-! # The marks of a service

    In a service marks are held by the calls that start loops, for one moment, and by
    the loops (`Service.holds?`). Every action of a service does with marks what it
    should (`Service.Step.passes`), as long as no caller goes away in that moment and
    what is committed is neither marked nor takes the place of a marked row.
-/

namespace TopUp

open TopUp.Data TopUp.Store

/-! ### Calls -/

/-- The mark that an initiation holds. -/
def Initiation.Phase.holds? : Initiation.Phase → Option String
  | .attending _ reference start => start.holds? reference
  | _ => none

/-- The mark that a call holds. -/
def Call.holds? : Call → Option String
  | .initiate i => i.phase.holds?
  | .start reference p => p.holds? reference
  | .cardReport _ | .join _ _ | .shutdown _ => none

namespace Initiation

theorem holds?_of_work {p : Phase} {w : Work} (h : p.work? = some w) : p.holds? = none := by
  cases p with
  | attending => exact absurd h (by simp [Phase.work?])
  | _ => rfl

/-- A phase in which neither a loop is being started nor a unit of work committed. -/
def Phase.Quiet : Phase → Prop
  | .committing _ _ _ _ => False
  | .attending _ _ start => ∃ started, start = .done started
  | _ => True

theorem holds?_of_quiet {p : Phase} (h : p.Quiet) : p.holds? = none := by
  cases p with
  | attending receipt reference start =>
    obtain ⟨started, rfl⟩ := h
    rfl
  | _ => rfl

theorem holds?_afterCommit (receipt : Receipt) (attend : Option String) :
    (afterCommit receipt attend).holds? = none := by
  cases attend <;> rfl

theorem holds?_ofRequest (user : Uuid) (request : Request) :
    (ofRequest user request).phase.holds? = none := by
  unfold ofRequest
  split <;> rfl

/-- What a step of an initiation does about marks: it goes on with the start of a loop, or
    commits, or does nothing. -/
inductive Handles (s : Scene) (i : Initiation) (e : Event) (s' : Scene) (p : Phase) : Prop where
  /-- It goes on with the start of a loop. -/
  | start {receipt : Receipt} {reference : String} {start start' : Poll.Start}
      (hp : i.phase = .attending receipt reference start)
      (hp' : p = .attending receipt reference start')
      (hmove : Poll.Start.Move reference s.supervisor s.store start s'.supervisor s'.store start')
  /-- It commits. -/
  | commit {w : Work} {receipt : Receipt} {attend paid : Option String} (he : e = .turn)
      (hp : i.phase = .committing w receipt attend paid) (hp' : p = afterCommit receipt attend)
      (hsupervisor : s'.supervisor = s.supervisor)
      (hledger : s'.store.memory.ledger = w.draft.commit s.store.memory.ledger)
  /-- It does nothing about marks. -/
  | other (hp : i.phase.Quiet) (hp' : p.holds? = none) (hsupervisor : s'.supervisor = s.supervisor)
      (hledger : s'.store.memory.ledger = s.store.memory.ledger)

theorem Move.handles {c : CallSettings} {page : Gateway.CardPage} {m : Moment} {me : Nat}
    {s s' : Scene} {i : Initiation} {e : Event} {a : Traffic.Action} {p : Phase}
    (h : Move c page m me s i e a s' p) : Handles s i e s' p := by
  cases h with
  | attend hp hs => exact .start hp rfl hs
  | commit hp => exact .commit rfl hp rfl rfl rfl
  | inquired hp =>
    exact .other (by rw [hp]; trivial) (holds?_of_work (work?_afterInquiry _ _)) rfl rfl
  | create hp =>
    exact .other (by rw [hp]; trivial) (holds?_of_work (work?_afterCreation _ _)) rfl rfl
  | unanswered hp =>
    rcases hp with ⟨_, hp⟩ | ⟨_, _, hp⟩
    · exact .other (by rw [hp]; trivial) rfl rfl rfl
    · exact .other (by rw [hp]; trivial) rfl rfl rfl
  | unwritten hp =>
    rcases hp with hp | hp
    · exact .other (by rw [hp]; trivial) rfl rfl rfl
    · exact .other (by rw [hp]; trivial) rfl rfl rfl
  | attended hp => exact .other (by rw [hp]; exact ⟨_, rfl⟩) rfl rfl rfl
  | lookup hp | ask hp | enter hp | settled hp | inquire hp | fresh hp | amended hp | refused hp
  | reread hp | vanished hp | uncreated hp | declined hp | debited hp | record hp | recorded hp =>
    exact .other (by rw [hp]; trivial) rfl rfl rfl

end Initiation

/-! ### Loops -/

/-- Loops have numbers that were given out. -/
def Poll.Supervisor.Numbered (v : Poll.Supervisor) : Prop :=
  ∀ n x, v.loops.find? n = some x → n < v.next

/-- The number of the next loop has not been given out. -/
theorem Poll.Supervisor.Numbered.find?_next {v : Poll.Supervisor} (hv : v.Numbered) :
    v.loops.find? v.next = none := by
  cases hfind : v.loops.find? v.next with
  | none => rfl
  | some x => exact absurd (hv _ x hfind) (Nat.lt_irrefl _)

theorem Poll.Start.Move.numbered {reference : String} {v v' : Poll.Supervisor} {s s' : Store}
    {p p' : Poll.Start} (h : Poll.Start.Move reference v s p v' s' p') (hv : v.Numbered) :
    v'.Numbered := by
  cases h with
  | spawn =>
    intro n x hx
    rw [Supervisor.spawn, Dict.find?_insert] at hx
    show n < v.next + 1
    by_cases hn : v.next = n
    · omega
    · rw [if_neg hn] at hx
      have hlt := hv n x hx
      omega
  | _ => exact hv

/-- A start registers no loop but the one that it starts. -/
theorem Poll.Start.Move.registry {reference : String} {v v' : Poll.Supervisor} {s s' : Store}
    {p p' : Poll.Start} (h : Poll.Start.Move reference v s p v' s' p') :
    v'.stopping = v.stopping ∧ ∀ e ∈ v'.registry.entries,
      e ∈ v.registry.entries ∨ (v'.loops.find? e.2 = some { reference } ∧ e.1 = reference) := by
  cases h with
  | spawn =>
    refine ⟨rfl, fun e he => ?_⟩
    rcases Dict.mem_insert he with rfl | he
    · exact Or.inr ⟨Dict.find?_insert_self _ _ _, rfl⟩
    · exact Or.inl ((List.mem_filter.mp he).1)
  | _ => exact ⟨rfl, fun e he => Or.inl he⟩

/-- A start leaves the loops that are there as they are. -/
theorem Poll.Start.Move.find?_loop {reference : String} {v v' : Poll.Supervisor} {s s' : Store}
    {p p' : Poll.Start} (h : Poll.Start.Move reference v s p v' s' p') (hv : v.Numbered) {n : Nat}
    {x : Poll.Loop} (hx : v.loops.find? n = some x) : v'.loops.find? n = some x := by
  cases h with
  | spawn =>
    have hlt := hv n x hx
    rw [Supervisor.spawn, Dict.find?_insert, if_neg (by omega), hx]
  | _ => exact hx

/-- A loop that takes a step keeps its number. -/
theorem Poll.Supervisor.Numbered.put {v : Poll.Supervisor} (hv : v.Numbered) {n : Nat}
    {x : Poll.Loop} (hx : v.loops.find? n = some x) (x' : Poll.Loop) : (v.put n x').Numbered := by
  intro m y hy
  rw [Supervisor.put, Dict.find?_insert] at hy
  by_cases hm : n = m
  · subst hm
    exact hv n x hx
  · rw [if_neg hm] at hy
    exact hv m y hy

namespace Service

variable {ρ : Type} {u : Setup} {g : Reader ρ} {s s' : Service} {a : Action ρ} {n m : Nat}
  {c c' : Call} {v : Poll.Supervisor} {store : Store}

/-- The mark that a task holds. -/
def holds? (s : Service) : Task → Option String
  | .call n => (s.calls.find? n).bind Call.holds?
  | .loop n => (s.supervisor.loops.find? n).bind Poll.Loop.holds?

theorem holds?_of_call (h : s.calls.find? n = some c) : s.holds? (.call n) = c.holds? := by
  simp [holds?, h]

theorem holds?_of_loop {x : Poll.Loop} (h : s.supervisor.loops.find? n = some x) :
    s.holds? (.loop n) = x.holds? := by
  simp [holds?, h]

theorem holds?_put_self (s : Service) (store : Store) (v : Poll.Supervisor) (n : Nat) (c : Call) :
    ({ s with store, supervisor := v }.put n c).holds? (.call n) = c.holds? := by
  simp [holds?, put]

theorem holds?_put_ne (s : Service) (store : Store) (v : Poll.Supervisor) (c : Call)
    (h : m ≠ n) :
    ({ s with store, supervisor := v }.put n c).holds? (.call m) = s.holds? (.call m) := by
  simp [holds?, put, Ne.symm h]

/-! ### One action -/

/-- A call that holds no mark before nor after its step, with the loops as they are. -/
theorem passes_of_call (hcall : s.calls.find? n = some c) (hc : c'.holds? = c.holds?)
    (hv : v.loops = s.supervisor.loops)
    (hl : ∀ r, store.memory.ledger.marked r = s.ledger.marked r) :
    Poll.Passes s.ledger store.memory.ledger s.holds?
      ({ s with store, supervisor := v }.put n c').holds? := by
  refine .keep hl fun t => ?_
  cases t with
  | call m =>
    by_cases hm : m = n
    · subst hm
      rw [holds?_put_self, hc, holds?_of_call hcall]
    · exact holds?_put_ne s store v c' hm
  | loop m =>
    show (v.loops.find? m).bind Poll.Loop.holds? = _
    rw [hv]
    rfl

/-- The start of a loop takes the mark and passes it on. -/
theorem passes_of_start {reference : String} {p p' : Poll.Start} (hv : s.supervisor.Numbered)
    (hcall : s.calls.find? n = some c) (hc : c.holds? = p.holds? reference)
    (hc' : c'.holds? = p'.holds? reference)
    (hmove : Poll.Start.Move reference s.supervisor s.store p v store p') :
    Poll.Passes s.ledger store.memory.ledger s.holds?
      ({ s with store, supervisor := v }.put n c').holds? := by
  cases hmove with
  | refuse | pass => exact passes_of_call hcall (hc'.trans hc.symm) rfl fun _ => rfl
  | lose hclaim =>
    have hledger := (Ledger.claim_eq_false (l := s.ledger) hclaim).1
    refine passes_of_call hcall (hc'.trans hc.symm) rfl fun r => ?_
    show (s.ledger.claim reference).2.marked r = _
    rw [hledger]
  | claim hclaim =>
    obtain ⟨hfree, hl⟩ := Ledger.marked_claim (l := s.ledger) hclaim
    refine .take (k := .call n) hfree hl ?_ ?_ fun t ht => ?_
    · rw [holds?_of_call hcall, hc]
      rfl
    · rw [holds?_put_self, hc']
      rfl
    · cases t with
      | call m => exact holds?_put_ne s _ _ c' fun heq => ht (heq ▸ rfl)
      | loop m => rfl
  | spawn =>
    -- the new loop has a number that nobody had
    have hnone : s.supervisor.loops.find? s.supervisor.next = none := hv.find?_next
    refine .pass (k := .call n) (j := .loop s.supervisor.next) (r := reference) (fun _ => rfl)
      (by simp) ?_ ?_ ?_ ?_ fun t ht ht' => ?_
    · rw [holds?_of_call hcall, hc]
      rfl
    · simp [holds?, hnone]
    · rw [holds?_put_self, hc']
      rfl
    · simp [holds?, put, Poll.Supervisor.spawn, Poll.Loop.holds?]
    · cases t with
      | call m => exact holds?_put_ne s _ _ c' fun heq => ht (heq ▸ rfl)
      | loop m =>
        have hm : s.supervisor.next ≠ m := fun heq => ht' (heq ▸ rfl)
        simp [holds?, put, Poll.Supervisor.spawn, hm]

/-- A caller that holds no mark goes away. -/
theorem passes_of_erase (hnone : s.holds? (.call n) = none) :
    Poll.Passes s.ledger s.ledger s.holds?
      ({ s with store, calls := s.calls.erase n } : Service).holds? := by
  refine .keep (fun _ => rfl) fun t => ?_
  cases t with
  | call m =>
    by_cases hm : n = m
    · subst hm
      rw [hnone]
      simp [holds?]
    · simp [holds?, hm]
  | loop m => rfl

/-- A call that comes in holds nothing. -/
theorem passes_of_arrive (client : Gateway.Client) (d : Demand) (hr : s.Regular) :
    Poll.Passes s.ledger s.ledger s.holds? (s.begin (d.call client)).2.holds? := by
  have hcall : (d.call client).holds? = none := by
    cases d with
    | topUp user request => exact Initiation.holds?_ofRequest user request
    | _ => rfl
  have hnone : s.calls.find? s.next = none := hr.find?_next
  refine .keep (fun _ => rfl) fun t => ?_
  cases t with
  | call m =>
    by_cases hm : s.next = m
    · subst hm
      simp [holds?, begin, hnone, hcall]
    · simp [holds?, begin, hm]
  | loop m => rfl

/-- A loop keeps its mark until it takes it away. -/
theorem passes_of_loop {p : Poll.Pace} {now : Nat} {e : Event} {x x' : Poll.Loop}
    {limiter : Poll.Limiter} (hloop : s.supervisor.loops.find? n = some x)
    (hmove : Poll.Loop.Move p s.supervisor.stopping now n s.store s.limiter x e store limiter x') :
    Poll.Passes s.ledger store.memory.ledger s.holds?
      ({ s with supervisor := s.supervisor.put n x', store, limiter } : Service).holds? := by
  have hself : ({ s with supervisor := s.supervisor.put n x', store, limiter } :
      Service).holds? (.loop n) = x'.holds? := by
    simp [holds?, Poll.Supervisor.put]
  have hother : ∀ t, t ≠ .loop n → ({ s with supervisor := s.supervisor.put n x', store, limiter } :
      Service).holds? t = s.holds? t := by
    intro t ht
    cases t with
    | call m => rfl
    | loop m =>
      have hm : n ≠ m := fun heq => ht (heq ▸ rfl)
      simp [holds?, Poll.Supervisor.put, hm]
  have hbefore : s.holds? (.loop n) = some x.reference := (holds?_of_loop hloop).trans hmove.holds?
  rcases hmove.marks with ⟨o, hp, rfl, hledger⟩ | ⟨hx', hl⟩
  · refine .give (k := .loop n) (r := x.reference) (fun r => ?_) hbefore (hself.trans rfl) hother
    rw [hledger, Ledger.marked_clear]
  · refine .keep hl fun t => ?_
    by_cases ht : t = .loop n
    · rw [ht, hself, hx', hbefore]
    · exact hother t ht

/-- Every action of a service takes, passes on and gives back marks as it should. -/
theorem Step.passes (h : Step u g s a s') (hr : s.Regular) (hv : s.supervisor.Numbered)
    (hcommit : ∀ t ∈ s.committed a, t.polling = false ∧ s.ledger.marked t.reference = false)
    (hleave : ∀ n, a = .leave n → s.holds? (.call n) = none) :
    Poll.Passes s.ledger s'.ledger s.holds? s'.holds? := by
  cases h with
  | arrive d => exact passes_of_arrive u.client d hr
  | @initiate _ m n e i ta scene p hgives hcall hmove =>
    cases hmove.handles with
    | start hp hp' hstart =>
      exact passes_of_start hv hcall (by rw [Call.holds?, hp]; rfl) (by rw [Call.holds?, hp']; rfl)
        hstart
    | commit he hp hp' hsupervisor hledger =>
      subst he
      obtain rfl := hgives.of_turn
      refine passes_of_call hcall ?_ (by rw [hsupervisor]) fun r => ?_
      · rw [Call.holds?, Call.holds?, hp, hp', Initiation.holds?_afterCommit]
        rfl
      · show scene.store.memory.ledger.marked r = _
        rw [hledger]
        apply Ledger.marked_commit
        intro t ht
        exact hcommit t (by simpa [Service.committed, hcall, Initiation.committed, hp] using ht)
    | other hp hp' hsupervisor hledger =>
      refine passes_of_call hcall ?_ (by rw [hsupervisor]) fun r => ?_
      · rw [Call.holds?, Call.holds?, Initiation.holds?_of_quiet hp, hp']
      · show scene.store.memory.ledger.marked r = _
        rw [hledger]
  | @report m n p p' store hcall hstep =>
    obtain ⟨-, -, hact⟩ := CardCallback.step_spec (u := s.traffic.units) hr.faults hstep
    exact passes_of_call hcall rfl rfl (Traffic.marked_of_act hact p.storeAction_cases)
  | start hcall hmove => exact passes_of_start hv hcall rfl rfl hmove
  | join hcall hstep =>
    exact passes_of_call hcall rfl (by rw [Poll.Join.step_supervisor hstep]) fun _ => rfl
  | shutdown hcall hstep =>
    exact passes_of_call hcall rfl (by rw [Poll.Shutdown.step_supervisor hstep]) fun _ => rfl
  | loop _ hloop hmove => exact passes_of_loop hloop hmove
  | drop => exact passes_of_erase (hleave _ rfl)
  | leave => exact passes_of_erase (hleave _ rfl)
  | readOnly on =>
    refine .keep (fun _ => rfl) fun t => ?_
    cases t <;> rfl

/-- Loops keep the numbers that were given out. -/
theorem Step.numbered (h : Step u g s a s') (hv : s.supervisor.Numbered) :
    s'.supervisor.Numbered := by
  cases h with
  | @initiate _ m n e i ta scene p hgives hcall hmove =>
    cases hmove.handles with
    | start _ _ hstart => exact hstart.numbered hv
    | commit _ _ _ hsupervisor _ => exact hsupervisor ▸ hv
    | other _ _ hsupervisor _ => exact hsupervisor ▸ hv
  | start _ hmove => exact hmove.numbered hv
  | join _ hstep =>
    show Poll.Supervisor.Numbered _
    rw [Poll.Join.step_supervisor hstep]
    exact hv
  | shutdown _ hstep =>
    show Poll.Supervisor.Numbered _
    rw [Poll.Shutdown.step_supervisor hstep]
    exact hv
  | loop _ hloop _ => exact hv.put hloop _
  | _ => exact hv

/-- A loop is there for good, and stays with its transaction. -/
theorem Step.loop_persists (h : Step u g s a s') (hv : s.supervisor.Numbered) {x : Poll.Loop}
    (hx : s.supervisor.loops.find? n = some x) :
    ∃ x', s'.supervisor.loops.find? n = some x' ∧ x'.reference = x.reference := by
  cases h with
  | @initiate _ _ _ _ _ _ scene _ _ _ hmove =>
    cases hmove.handles with
    | start _ _ hstart => exact ⟨x, hstart.find?_loop hv hx, rfl⟩
    | commit _ _ _ hsupervisor _ =>
      show ∃ x', scene.supervisor.loops.find? n = some x' ∧ _
      rw [hsupervisor]
      exact ⟨x, hx, rfl⟩
    | other _ _ hsupervisor _ =>
      show ∃ x', scene.supervisor.loops.find? n = some x' ∧ _
      rw [hsupervisor]
      exact ⟨x, hx, rfl⟩
  | start _ hmove => exact ⟨x, hmove.find?_loop hv hx, rfl⟩
  | @join _ _ _ _ _ supervisor _ hstep =>
    show ∃ x', supervisor.loops.find? n = some x' ∧ _
    rw [Poll.Join.step_supervisor hstep]
    exact ⟨x, hx, rfl⟩
  | @shutdown _ _ _ _ supervisor _ hstep =>
    show ∃ x', supervisor.loops.find? n = some x' ∧ _
    rw [Poll.Shutdown.step_supervisor hstep]
    exact ⟨x, hx, rfl⟩
  | @loop _ _ m _ y y' _ _ _ hloop hmove =>
    show ∃ x', (s.supervisor.loops.insert m y').find? n = some x' ∧ _
    rw [Dict.find?_insert]
    by_cases hm : m = n
    · subst hm
      obtain rfl := Option.some.inj (hx.symm.trans hloop)
      exact ⟨y', if_pos rfl, hmove.reference_eq⟩
    · exact ⟨x, by rw [if_neg hm, hx], rfl⟩
  | _ => exact ⟨x, hx, rfl⟩

end Service

end TopUp
