import TopUp.Proofs.Poll.Stopping
import TopUp.Proofs.Service.Marks
import TopUp.Proofs.Service.Sound

/-! # The tasks of a service in the course of a run

    In an action at most one task takes a step (`Action.task?`). What a task has done is read
    off the trace: the actions that were its own. A loop or a call stays as it is in all the
    others (`Step.loop_cases`, `Step.call_stays`), and nothing is its own before it is there
    (`knows_of_mem`).

    As a first use: a loop that was cancelled has in none of its steps changed a status
    (`keepsStatuses_of_untouching`).
-/

namespace TopUp

open TopUp.Data TopUp.Store

/-- A start gives out one number at most. -/
theorem Poll.Start.Move.next_le {reference : String} {v v' : Poll.Supervisor} {s s' : Store}
    {p p' : Poll.Start} (h : Poll.Start.Move reference v s p v' s' p') : v.next ≤ v'.next := by
  cases h with
  | spawn => exact Nat.le_succ v.next
  | _ => exact Nat.le_refl v.next

namespace Service

variable {ρ : Type} {u : Setup} {g : Reader ρ} {s s' : Service} {a : Action ρ} {l : Ledger}
  {tr : List (Service × Action ρ)} {n : Nat} {c : Call} {x : Poll.Loop}

/-! ### Whose step an action is -/

/-- The task that takes a step in an action. -/
def Action.task? : Action ρ → Option Task
  | .turn _ t | .reply _ t _ | .crash _ t => some t
  | .arrive _ | .leave _ | .readOnly _ => none

theorem Action.Gives.task? {m : Moment} {t : Task} {e : Event} (h : a.Gives g s m t e) :
    a.task? = some t := by
  cases h <;> rfl

/-- How a loop has come to be as it is after an action. -/
inductive LoopStep (u : Setup) (g : Reader ρ) (s : Service) (a : Action ρ) (n : Nat)
    (s' : Service) (x : Poll.Loop) : Prop where
  /-- It was so before. -/
  | same (hx : s.supervisor.loops.find? n = some x) (ha : a.task? ≠ some (.loop n))
  /-- It was started by a call that held its mark. -/
  | spawned {reference : String} {k : Nat} (hn : n = s.supervisor.next) (hx : x = { reference })
      (hk : s.holds? (.call k) = some reference) (ha : a.task? ≠ some (.loop n))
  /-- It took a step. -/
  | moved {m : Moment} {e : Event} {x₀ : Poll.Loop} (hgives : a.Gives g s m (.loop n) e)
      (hx : s.supervisor.loops.find? n = some x₀)
      (hmove : Poll.Loop.Move u.pace s.supervisor.stopping m.now n s.store s.limiter x₀ e s'.store
        s'.limiter x)

/-- The start of a loop leaves the others as they are. -/
theorem loopStep_of_start {reference : String} {k : Nat} {p p' : Poll.Start}
    {v : Poll.Supervisor} {store : Store} (hk : s.holds? (.call k) = p.holds? reference)
    (ha : a.task? ≠ some (.loop n))
    (hmove : Poll.Start.Move reference s.supervisor s.store p v store p')
    (hx : v.loops.find? n = some x) : LoopStep u g s a n s' x := by
  cases hmove with
  | spawn =>
    rw [Poll.Supervisor.spawn, Dict.find?_insert] at hx
    by_cases hn : s.supervisor.next = n
    · rw [if_pos hn] at hx
      exact .spawned hn.symm (Option.some.inj hx).symm hk ha
    · rw [if_neg hn] at hx
      exact .same hx ha
  | _ => exact .same hx ha

/-- Everything that can have happened to a loop is in the list. -/
theorem Step.loop_cases (h : Step u g s a s') (hx : s'.supervisor.loops.find? n = some x) :
    LoopStep u g s a n s' x := by
  cases h with
  | @initiate _ m k e i ta scene p hgives hcall hmove =>
    have ha : a.task? ≠ some (.loop n) := by simp [hgives.task?]
    have hx : scene.supervisor.loops.find? n = some x := hx
    cases hmove.handles with
    | start hp _ hstart =>
      refine loopStep_of_start (k := k) ?_ ha hstart hx
      rw [holds?_of_call hcall, Call.holds?, hp]
      rfl
    | commit _ _ _ hsupervisor _ =>
      rw [hsupervisor] at hx
      exact .same hx ha
    | other _ _ hsupervisor _ =>
      rw [hsupervisor] at hx
      exact .same hx ha
  | @start m k reference p p' store supervisor hcall hmove =>
    exact loopStep_of_start (k := k) (holds?_of_call hcall) (by simp [Action.task?]) hmove hx
  | @join _ _ _ _ _ supervisor _ hstep =>
    have hx : supervisor.loops.find? n = some x := hx
    rw [Poll.Join.step_supervisor hstep] at hx
    exact .same hx (by simp [Action.task?])
  | @shutdown _ _ _ _ supervisor _ hstep =>
    have hx : supervisor.loops.find? n = some x := hx
    rw [Poll.Shutdown.step_supervisor hstep] at hx
    exact .same hx (by simp [Action.task?])
  | @loop _ m k e x₀ x' store limiter hgives hloop hmove =>
    have hput : (s.supervisor.loops.insert k x').find? n = some x := hx
    rw [Dict.find?_insert] at hput
    by_cases hk : k = n
    · subst hk
      rw [if_pos rfl] at hput
      obtain rfl := Option.some.inj hput
      exact .moved hgives hloop hmove
    · rw [if_neg hk] at hput
      exact .same hput (by simp [hgives.task?, hk])
  | _ => exact .same hx (by simp [Action.task?])

/-- A loop whose step an action is makes one of its moves. -/
theorem Step.loop_moves (h : Step u g s a s') (ha : a.task? = some (.loop n)) :
    ∃ m e x x', a.Gives g s m (.loop n) e ∧ s.supervisor.loops.find? n = some x ∧
      Poll.Loop.Move u.pace s.supervisor.stopping m.now n s.store s.limiter x e s'.store s'.limiter
        x' := by
  cases h with
  | arrive | report | start | join | shutdown | drop | leave | readOnly =>
    exact absurd ha (by simp [Action.task?])
  | initiate hgives => exact absurd (hgives.task?.symm.trans ha) (by simp)
  | loop hgives hloop hmove =>
    obtain rfl := Task.loop.inj (Option.some.inj (hgives.task?.symm.trans ha))
    exact ⟨_, _, _, _, hgives, hloop, hmove⟩

/-! ### Calls -/

/-- A call that does not take a step stays as it is, unless its caller goes away. -/
theorem Step.call_stays (h : Step u g s a s') (hr : s.Regular) (hn : s.calls.find? n = some c)
    (hleave : a ≠ .leave n) (hother : a.task? ≠ some (.call n)) :
    s'.calls.find? n = some c := by
  have hput : ∀ {k : Nat} {c' : Call}, k ≠ n → (s.calls.insert k c').find? n = some c := by
    intro k c' hk
    rw [Dict.find?_insert_ne _ _ hk, hn]
  have herase : ∀ {k : Nat}, a = .leave k → (s.calls.erase k).find? n = some c := by
    intro k hk
    have hne : k ≠ n := by
      rintro rfl
      exact hleave hk
    rw [Dict.find?_erase_ne _ hne, hn]
  cases h with
  | arrive => exact hput (Nat.ne_of_gt (hr.numbers n c hn))
  | initiate hgives =>
    refine hput ?_
    rintro rfl
    exact hother hgives.task?
  | report | start | join | shutdown =>
    refine hput ?_
    rintro rfl
    exact hother rfl
  | drop => exact herase rfl
  | leave => exact herase rfl
  | loop | readOnly => exact hn

/-- A start that takes a step does what a start can do. -/
theorem Step.start_moves (h : Step u g s a s') {r : String} {p : Poll.Start}
    (hn : s.calls.find? n = some (.start r p)) (ha : a.task? = some (.call n)) :
    ∃ m p', a = .turn m (.call n) ∧
      Poll.Start.Move r s.supervisor s.store p s'.supervisor s'.store p' ∧
      s'.calls.find? n = some (.start r p') := by
  cases h with
  | arrive | drop | leave | readOnly => exact absurd ha (by simp [Action.task?])
  | loop hgives => exact absurd (hgives.task?.symm.trans ha) (by simp)
  | initiate hgives hcall =>
    obtain rfl : _ = n := by simpa using hgives.task?.symm.trans ha
    exact absurd (hcall.symm.trans hn) (by simp)
  | report hcall | join hcall | shutdown hcall =>
    obtain rfl : _ = n := by simpa [Action.task?] using ha
    exact absurd (hcall.symm.trans hn) (by simp)
  | start hcall hmove =>
    obtain rfl : _ = n := by simpa [Action.task?] using ha
    obtain ⟨rfl, rfl⟩ := Call.start.inj (Option.some.inj (hcall.symm.trans hn))
    exact ⟨_, _, rfl, hmove, Dict.find?_insert_self _ _ _⟩

/-- A report that takes a step does what a report can do. -/
theorem Step.report_moves (h : Step u g s a s') {p : CardCallback.Phase}
    (hn : s.calls.find? n = some (.cardReport p)) (ha : a.task? = some (.call n)) :
    ∃ p', CardCallback.step s.store p = some (s'.store, p') ∧
      s'.calls.find? n = some (.cardReport p') := by
  cases h with
  | arrive | drop | leave | readOnly => exact absurd ha (by simp [Action.task?])
  | loop hgives => exact absurd (hgives.task?.symm.trans ha) (by simp)
  | initiate hgives hcall =>
    obtain rfl : _ = n := by simpa using hgives.task?.symm.trans ha
    exact absurd (hcall.symm.trans hn) (by simp)
  | start hcall | join hcall | shutdown hcall =>
    obtain rfl : _ = n := by simpa [Action.task?] using ha
    exact absurd (hcall.symm.trans hn) (by simp)
  | report hcall hstep =>
    obtain rfl : _ = n := by simpa [Action.task?] using ha
    obtain rfl := Call.cardReport.inj (Option.some.inj (hcall.symm.trans hn))
    exact ⟨_, hstep, Dict.find?_insert_self _ _ _⟩

/-- A call whose caller went away is gone. -/
theorem Step.left (h : Step u g s (.leave n) s') : s'.calls.find? n = none := by
  cases h with
  | drop => exact Dict.find?_erase_self _ _
  | leave => exact Dict.find?_erase_self _ _
  | initiate hgives => exact absurd hgives.task? (by simp [Action.task?])
  | loop hgives => exact absurd hgives.task? (by simp [Action.task?])

/-- A shutdown that takes a step does what a shutdown can do. -/
theorem Step.shutdown_moves (h : Step u g s a s') {p : Poll.Shutdown}
    (hn : s.calls.find? n = some (.shutdown p)) (ha : a.task? = some (.call n)) :
    ∃ m p', a = .turn m (.call n) ∧ p.step s.supervisor = some (s'.supervisor, p') ∧
      s'.calls.find? n = some (.shutdown p') := by
  cases h with
  | arrive | drop | leave | readOnly => exact absurd ha (by simp [Action.task?])
  | loop hgives => exact absurd (hgives.task?.symm.trans ha) (by simp)
  | initiate hgives hcall =>
    obtain rfl : _ = n := by simpa using hgives.task?.symm.trans ha
    exact absurd (hcall.symm.trans hn) (by simp)
  | report hcall | join hcall | start hcall =>
    obtain rfl : _ = n := by simpa [Action.task?] using ha
    exact absurd (hcall.symm.trans hn) (by simp)
  | shutdown hcall hstep =>
    obtain rfl : _ = n := by simpa [Action.task?] using ha
    obtain rfl := Call.shutdown.inj (Option.some.inj (hcall.symm.trans hn))
    exact ⟨_, _, rfl, hstep, Dict.find?_insert_self _ _ _⟩

/-! ### What is there -/

/-- Loops are numbered in ascending order. -/
theorem Step.next_loop_le (h : Step u g s a s') : s.supervisor.next ≤ s'.supervisor.next := by
  cases h with
  | @initiate _ _ _ _ _ _ scene _ _ _ hmove =>
    show s.supervisor.next ≤ scene.supervisor.next
    cases hmove.handles with
    | start _ _ hstart => exact hstart.next_le
    | commit _ _ _ hsupervisor _ => exact Nat.le_of_eq (congrArg _ hsupervisor.symm)
    | other _ _ hsupervisor _ => exact Nat.le_of_eq (congrArg _ hsupervisor.symm)
  | start _ hmove => exact hmove.next_le
  | @join _ _ _ _ _ supervisor _ hstep =>
    have hnext := congrArg Poll.Supervisor.next (Poll.Join.step_supervisor hstep)
    exact Nat.le_of_eq hnext.symm
  | @shutdown _ _ _ _ supervisor _ hstep =>
    have hnext := congrArg Poll.Supervisor.next (Poll.Shutdown.step_supervisor hstep)
    exact Nat.le_of_eq hnext.symm
  | _ => exact Nat.le_refl s.supervisor.next

/-- A task has been there: its number was given out. -/
def Knows (s : Service) : Task → Prop
  | .call n => n < s.next
  | .loop n => n < s.supervisor.next

theorem Step.knows (h : Step u g s a s') {t : Task} (ht : s.Knows t) : s'.Knows t := by
  cases t with
  | call n => exact Nat.lt_of_lt_of_le ht h.next_le
  | loop n => exact Nat.lt_of_lt_of_le ht h.next_loop_le

/-- A task that takes a step is there. -/
theorem Step.knows_task (h : Step u g s a s') (hr : s.Regular) (hv : s.supervisor.Numbered)
    {t : Task} (ha : a.task? = some t) : s.Knows t := by
  cases h with
  | arrive | drop | leave | readOnly => exact absurd ha (by simp [Action.task?])
  | initiate hgives hcall =>
    obtain rfl := Option.some.inj (hgives.task?.symm.trans ha)
    exact hr.numbers _ _ hcall
  | loop hgives hloop =>
    obtain rfl := Option.some.inj (hgives.task?.symm.trans ha)
    exact hv _ _ hloop
  | report hcall | start hcall | join hcall | shutdown hcall =>
    obtain rfl := Option.some.inj ha
    exact hr.numbers _ _ hcall

/-! ### Runs -/

theorem regular_of_run (h : Run (act u g) (ofLedger u l) tr s) : s.Regular := by
  induction h with
  | nil => exact regular_ofLedger u l
  | snoc _ hact ih => exact ih.step (step_of_act ih.faults hact)

theorem numbered_of_run (h : Run (act u g) (ofLedger u l) tr s) : s.supervisor.Numbered := by
  induction h with
  | nil => exact fun n x hx => absurd hx (by simp [ofLedger, atRest])
  | snoc hrun hact ih => exact (step_of_act (regular_of_run hrun).faults hact).numbered ih

/-- Whatever took a step in the course of a run was there. -/
theorem knows_of_mem (h : Run (act u g) (ofLedger u l) tr s) {e : Service × Action ρ}
    (he : e ∈ tr) {t : Task} (ht : e.2.task? = some t) : s.Knows t := by
  induction h with
  | nil => exact absurd he List.not_mem_nil
  | @snoc tr s s' a hrun hact ih =>
    have hregular := regular_of_run hrun
    have hs := step_of_act hregular.faults hact
    rcases List.mem_append.mp he with he | he
    · exact hs.knows (ih he)
    · rw [List.mem_singleton.mp he] at ht
      exact hs.knows (hs.knows_task hregular (numbered_of_run hrun) ht)

/-- A loop that was there at any moment of a run is still there at its end. -/
theorem loop_of_mem (h : Run (act u g) (ofLedger u l) tr s) {e : Service × Action ρ}
    (he : e ∈ tr) (hx : e.1.supervisor.loops.find? n = some x) :
    ∃ y, s.supervisor.loops.find? n = some y ∧ y.reference = x.reference := by
  induction h with
  | nil => exact absurd he List.not_mem_nil
  | @snoc tr s s' a hrun hact ih =>
    have hs := step_of_act (regular_of_run hrun).faults hact
    have hnumbered := numbered_of_run hrun
    rcases List.mem_append.mp he with he | he
    · obtain ⟨y, hy, hreference⟩ := ih he
      obtain ⟨y', hy', hreference'⟩ := hs.loop_persists hnumbered hy
      exact ⟨y', hy', hreference'.trans hreference⟩
    · rw [List.mem_singleton.mp he] at hx
      exact hs.loop_persists hnumbered hx

/-- The steps that a task has taken in the course of a trace. -/
def steps (t : Task) (tr : List (Service × Action ρ)) : Nat :=
  tr.countP fun e => e.2.task? = some t

theorem steps_snoc_self {t : Task} (ha : a.task? = some t) :
    steps t (tr ++ [(s, a)]) = steps t tr + 1 := by
  simp [steps, List.countP_append, ha]

theorem steps_snoc_other {t : Task} (ha : a.task? ≠ some t) :
    steps t (tr ++ [(s, a)]) = steps t tr := by
  simp [steps, List.countP_append, ha]

/-- A task that is not there yet has taken no step. -/
theorem steps_eq_zero (h : Run (act u g) (ofLedger u l) tr s) {t : Task} (ht : ¬ s.Knows t) :
    steps t tr = 0 := by
  rw [steps, List.countP_eq_zero]
  intro e he hstep
  exact ht (knows_of_mem h he (by simpa using hstep))

/-! ### Statuses -/

/-- An action that changes no stored status. -/
def KeepsStatuses (u : Setup) (g : Reader ρ) (e : Service × Action ρ) : Prop :=
  ∀ s', act u g e.2 e.1 = some s' → ∀ r, s'.ledger.status? r = e.1.ledger.status? r

/-- As long as a loop is not at an end that follows a status write, none of its steps has changed
    a status. -/
theorem keepsStatuses_of_untouching (h : Run (act u g) (ofLedger u l) tr s)
    (hx : s.supervisor.loops.find? n = some x) (hx' : x.Untouching) :
    ∀ e ∈ tr, e.2.task? = some (.loop n) → KeepsStatuses u g e := by
  induction h generalizing x with
  | nil => exact fun e he => absurd he List.not_mem_nil
  | @snoc tr s s' a hrun hact ih =>
    have hregular := regular_of_run hrun
    have hs := step_of_act hregular.faults hact
    intro e he ht
    rcases List.mem_append.mp he with he | he
    · -- the step was taken before, when the loop had not written either
      cases hs.loop_cases hx with
      | same hold => exact ih hold hx' e he ht
      | spawned hn => exact absurd (knows_of_mem hrun he ht) (by simp [Knows, hn])
      | moved _ hold hmove => exact ih hold (hmove.untouching hx') e he ht
    · rw [List.mem_singleton.mp he] at ht ⊢
      intro s₁ hs₁
      obtain rfl := Option.some.inj (hact.symm.trans hs₁)
      cases hs.loop_cases hx with
      | same _ hother | spawned _ _ _ hother => exact absurd ht hother
      | moved _ _ hmove =>
        rcases hmove.status? with ⟨-, hwritten⟩ | hkeeps
        · exact absurd hx' hwritten
        · exact hkeeps

/-! ### A transaction to try -/

/-- A wallet payment that nobody attends to. -/
def unattended (reference : String) (key : Nat) : Transaction :=
  NewTransaction.opened
    { user := .nil, key := .ofNat key, billReference := reference, reference, method := .wallet,
      amount := 50000 } (.ofNat key) 0

end Service

end TopUp
