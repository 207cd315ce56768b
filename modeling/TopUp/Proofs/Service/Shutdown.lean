import TopUp.Proofs.Service.Closing

/-! # A shutdown stops all work

    A shutdown sets the sign to stop and takes over the registered loops, then waits until all
    of them are over. What follows is told by two invariants of a closing service, each about
    the moment in which the shutdown asks:

    * a loop that was there then is over or is waited for (`finished_or_awaited`), since it
      was registered unless it was over;
    * a loop that is started later stands where one does that finds the sign set before it
      runs (`late_of_asks`), so that it begins, sees the sign and takes its mark away.

    Hence no loop inquires or writes a status once the shutdown is over, and starts that come
    in later are refused (`shutdown_stops_all_work`).
-/

namespace TopUp

open TopUp.Data TopUp.Store

namespace Service

variable {ρ : Type} {u : Setup} {g : Reader ρ} {s s' : Service} {a : Action ρ} {l : Ledger}
  {tr : List (Service × Action ρ)} {e : Service × Action ρ} {n k : Nat} {r : String}
  {x : Poll.Loop}

/-! ### What is noted of a run -/

/-- The step in which a shutdown asks the loops to stop. -/
def Asks (k : Nat) (e : Service × Action ρ) : Prop :=
  (∃ m, e.2 = .turn m (.call k)) ∧ e.1.calls.find? k = some (.shutdown .asking)

/-- The step in which a loop takes the mark off its transaction. -/
def Clears (u : Setup) (g : Reader ρ) (n : Nat) (r : String) (e : Service × Action ρ) : Prop :=
  e.2.task? = some (.loop n) ∧ e.1.ledger.marked r = true ∧
    ∃ s', act u g e.2 e.1 = some s' ∧ s'.ledger.marked r = false

/-- An action that leaves the store as it is. -/
def KeepsStore (u : Setup) (g : Reader ρ) (e : Service × Action ρ) : Prop :=
  ∀ s', act u g e.2 e.1 = some s' → s'.store = e.1.store

theorem Asks.task? (h : Asks k e) : e.2.task? = some (.call k) := by
  obtain ⟨⟨m, ha⟩, -⟩ := h
  rw [ha]
  rfl

/-- The last step of a run of a closing service. -/
theorem closing_snoc (hrun : Run (act u g) (ofLedger u l) tr s) (hact : act u g a s = some s')
    (hclosing : ∀ e ∈ tr ++ [(s, a)], e.2.Closing e.1) :
    (∀ e ∈ tr, e.2.Closing e.1) ∧ Closing l s ∧ Step u g s a s' ∧ a.Closing s := by
  have hpre : ∀ e ∈ tr, e.2.Closing e.1 := fun e he => hclosing e (List.mem_append_left _ he)
  have hs := closing_of_run hrun hpre
  exact ⟨hpre, hs, step_of_act hs.regular.faults hact, hclosing (s, a) (by simp)⟩

/-- Loops are numbered in ascending order along a run. -/
theorem next_loop_le_of_mem (h : Run (act u g) (ofLedger u l) tr s) (he : e ∈ tr) :
    e.1.supervisor.next ≤ s.supervisor.next := by
  induction h with
  | nil => exact absurd he List.not_mem_nil
  | @snoc tr s s' a hrun hact ih =>
    have hle := (step_of_act (regular_of_run hrun).faults hact).next_loop_le
    rcases List.mem_append.mp he with he | he
    · exact Nat.le_trans (ih he) hle
    · rw [List.mem_singleton.mp he]
      exact hle

/-- The sign to stop stays set along a run. -/
theorem stopping_of_mem (h : Run (act u g) (ofLedger u l) tr s) (he : e ∈ tr)
    (hstop : e.1.supervisor.stopping = true) : s.supervisor.stopping = true := by
  induction h with
  | nil => exact absurd he List.not_mem_nil
  | @snoc tr s s' a hrun hact ih =>
    have hs := step_of_act (regular_of_run hrun).faults hact
    rcases List.mem_append.mp he with he | he
    · exact hs.stopping (ih he)
    · rw [List.mem_singleton.mp he] at hstop
      exact hs.stopping hstop

/-! ### The shutdown -/

/-- A shutdown that does not ask any more has asked. -/
theorem asks_of_asked (h : Run (act u g) (ofLedger u l) tr s)
    (hclosing : ∀ e ∈ tr, e.2.Closing e.1) {p : Poll.Shutdown}
    (hk : s.calls.find? k = some (.shutdown p)) (hp : p ≠ .asking) : ∃ e ∈ tr, Asks k e := by
  induction h generalizing p with
  | nil => exact absurd hk (by simp [ofLedger, atRest])
  | @snoc tr s s' a hrun hact ih =>
    obtain ⟨hpre, hc, hs, ha⟩ := closing_snoc hrun hact hclosing
    rcases hs.shutdown_back hk with ⟨q, hold⟩ | ⟨-, -, rfl⟩
    · by_cases hq : q = .asking
      · -- it has not asked before, so this step is where it does
        subst hq
        by_cases hturn : a.task? = some (.call k)
        · obtain ⟨m, p', rfl, -, -⟩ := hs.shutdown_moves hold hturn
          exact ⟨_, List.mem_append_right _ List.mem_cons_self, ⟨m, rfl⟩, hold⟩
        · have hstays := hs.call_stays hc.regular hold (ha.ne_leave k) hturn
          obtain rfl := Call.shutdown.inj (Option.some.inj (hstays.symm.trans hk))
          exact absurd rfl hp
      · obtain ⟨e, he, hasks⟩ := ih hpre hold hq
        exact ⟨e, List.mem_append_left _ he, hasks⟩
    · exact absurd rfl hp

/-- A shutdown that has asked waits, or is over. -/
theorem asked_of_asks (h : Run (act u g) (ofLedger u l) tr s)
    (hclosing : ∀ e ∈ tr, e.2.Closing e.1) (he : e ∈ tr) (hasks : Asks k e) :
    ∃ p, s.calls.find? k = some (.shutdown p) ∧ p ≠ .asking := by
  induction h with
  | nil => exact absurd he List.not_mem_nil
  | @snoc tr s s' a hrun hact ih =>
    obtain ⟨hpre, hc, hs, ha⟩ := closing_snoc hrun hact hclosing
    rcases List.mem_append.mp he with he | he
    · obtain ⟨p, hk, hp⟩ := ih hpre he
      exact hs.asked hc.regular (ha.ne_leave k) hk hp
    · rw [List.mem_singleton.mp he] at hasks
      obtain ⟨m, p, -, hstep, hk⟩ := hs.shutdown_moves hasks.2 hasks.task?
      rcases Poll.Shutdown.step_cases hstep with ⟨-, -, rfl⟩ | ⟨_, hp, -⟩
      · exact ⟨_, hk, by simp⟩
      · exact absurd hp (by simp)

/-- Until a shutdown asks, the sign to stop is not set. -/
theorem Closing.not_stopping_of_asking (h : Closing l s)
    (hk : s.calls.find? k = some (.shutdown .asking)) : s.supervisor.stopping = false := by
  cases hstop : s.supervisor.stopping with
  | false => rfl
  | true =>
    obtain ⟨j, p, hj, hp⟩ := h.stopping.mp hstop
    obtain rfl := h.single j k _ _ hj hk
    exact absurd (Call.shutdown.inj (Option.some.inj (hj.symm.trans hk))) hp

/-- A loop that was there when the shutdown asked is over, or is waited for. -/
theorem finished_or_awaited (h : Run (act u g) (ofLedger u l) tr s)
    (hclosing : ∀ e ∈ tr, e.2.Closing e.1) (he : e ∈ tr) (hasks : Asks k e)
    (hn : n < e.1.supervisor.next) (hx : s.supervisor.loops.find? n = some x) :
    x.isFinished = true ∨
      ∃ loops, s.calls.find? k = some (.shutdown (.awaiting loops)) ∧ n ∈ loops := by
  induction h generalizing x with
  | nil => exact absurd he List.not_mem_nil
  | @snoc tr s s' a hrun hact ih =>
    obtain ⟨hpre, hc, hs, ha⟩ := closing_snoc hrun hact hclosing
    have hregular := hc.regular
    rcases List.mem_append.mp he with he | he
    · cases hs.loop_cases hx with
      | same hold =>
        rcases ih hpre he hold with hover | ⟨loops, hk, hmem⟩
        · exact Or.inl hover
        · by_cases hturn : a.task? = some (.call k)
          · -- the shutdown has seen that all loops are over which it waits for
            obtain ⟨m, p, -, hstep, -⟩ := hs.shutdown_moves hk hturn
            rcases Poll.Shutdown.step_cases hstep with ⟨hp, -⟩ | ⟨loops', hp, hall, -⟩
            · exact absurd hp (by simp)
            · obtain rfl := Poll.Shutdown.awaiting.inj hp
              have hover := List.all_eq_true.mp hall n hmem
              exact Or.inl (by simpa [Poll.Supervisor.isFinished, hold] using hover)
          · exact Or.inr ⟨loops, hs.call_stays hregular hk (ha.ne_leave k) hturn, hmem⟩
      | spawned hnext =>
        have hle := next_loop_le_of_mem hrun he
        omega
      | moved hgives hold hmove =>
        rcases ih hpre he hold with hover | ⟨loops, hk, hmem⟩
        · exact absurd (hover.symm.trans hmove.isFinished) (by simp)
        · have hother : a.task? ≠ some (.call k) := by simp [hgives.task?]
          exact Or.inr ⟨loops, hs.call_stays hregular hk (ha.ne_leave k) hother, hmem⟩
    · -- it asks just now: the loops that are not over are registered
      rw [List.mem_singleton.mp he] at hasks hn
      have hstop := hc.not_stopping_of_asking hasks.2
      cases hs.loop_cases hx with
      | same hold =>
        cases hover : x.isFinished with
        | true => exact Or.inl rfl
        | false =>
          obtain ⟨m, p, -, hstep, hk⟩ := hs.shutdown_moves hasks.2 hasks.task?
          rcases Poll.Shutdown.step_cases hstep with ⟨-, -, rfl⟩ | ⟨_, hp, -⟩
          · have hregistered := hc.registered hstop n x hold hover
            exact Or.inr ⟨_, hk,
              List.mem_map_of_mem (f := Prod.snd) (Dict.mem_of_find? hregistered)⟩
          · exact absurd hp (by simp)
      | spawned hnext => exact absurd hn (by simp [hnext])
      | moved hgives => exact absurd (hgives.task?.symm.trans hasks.task?) (by simp)

/-- A loop that was started after the shutdown had asked stands where one does that was started
    too late, or has died for want of time between its ticks. -/
theorem late_of_asks (h : Run (act u g) (ofLedger u l) tr s)
    (hclosing : ∀ e ∈ tr, e.2.Closing e.1) (he : e ∈ tr) (hasks : Asks k e)
    (hn : e.1.supervisor.next ≤ n) (hx : s.supervisor.loops.find? n = some x) :
    x.phase = Poll.Loop.late (steps (.loop n) tr) ∨
      (u.pace.interval = 0 ∧ x.phase = .killed) := by
  induction h generalizing x with
  | nil => exact absurd he List.not_mem_nil
  | @snoc tr s s' a hrun hact ih =>
    obtain ⟨hpre, hc, hs, ha⟩ := closing_snoc hrun hact hclosing
    -- a loop that is started now has taken no step yet
    have hfresh : a.task? ≠ some (.loop n) → n = s.supervisor.next → x.phase = .fresh →
        x.phase = Poll.Loop.late (steps (.loop n) (tr ++ [(s, a)])) := by
      intro hother hnext hphase
      have hnew : ¬ s.Knows (.loop n) := by simp [Knows, hnext]
      rw [steps_snoc_other hother, steps_eq_zero hrun hnew]
      exact hphase
    rcases List.mem_append.mp he with he | he
    · cases hs.loop_cases hx with
      | same hold hother =>
        rw [steps_snoc_other hother]
        exact ih hpre he hold
      | spawned hnext hnew _ hother => exact Or.inl (hfresh hother hnext (by rw [hnew]))
      | moved hgives hold hmove =>
        obtain ⟨p, hk, hp⟩ := asked_of_asks hrun hpre he hasks
        rw [hc.stopping.mpr ⟨k, p, hk, hp⟩] at hmove
        rw [steps_snoc_self hgives.task?]
        rcases ih hpre he hold with hlate | ⟨-, hdead⟩
        · rcases hmove.late hlate with hnext | hdies
          · exact Or.inl hnext
          · exact Or.inr hdies
        · exact absurd hmove.isFinished (by simp [Poll.Loop.isFinished, hdead])
    · -- when the shutdown asks there is no such loop
      rw [List.mem_singleton.mp he] at hasks hn
      cases hs.loop_cases hx with
      | same hold =>
        have hlt := hc.numbered n x hold
        exact absurd (Nat.lt_of_lt_of_le hlt hn) (Nat.lt_irrefl n)
      | spawned hnext hnew _ hother => exact Or.inl (hfresh hother hnext (by rw [hnew]))
      | moved hgives => exact absurd (hgives.task?.symm.trans hasks.task?) (by simp)

/-! ### How loops end -/

/-- While no loop is killed, one dies only for want of time between its ticks. -/
theorem interval_of_killed (h : Run (act u g) (ofLedger u l) tr s)
    (hclosing : ∀ e ∈ tr, e.2.Closing e.1) (hx : s.supervisor.loops.find? n = some x)
    (hp : x.phase = .killed) : u.pace.interval = 0 := by
  induction h generalizing x with
  | nil => exact absurd hx (by simp [ofLedger, atRest])
  | @snoc tr s s' a hrun hact ih =>
    obtain ⟨hpre, hc, hs, ha⟩ := closing_snoc hrun hact hclosing
    cases hs.loop_cases hx with
    | same hold => exact ih hpre hold hp
    | spawned _ hnew => exact absurd hp (by simp [hnew])
    | @moved m e x₀ hgives hold hmove =>
      rcases hmove.killed hp with hinterval | rfl
      · exact hinterval
      · cases hgives
        exact absurd ha id

/-- A loop that has ended has taken its mark away. -/
theorem clears_of_ended (h : Run (act u g) (ofLedger u l) tr s)
    (hclosing : ∀ e ∈ tr, e.2.Closing e.1) (hx : s.supervisor.loops.find? n = some x)
    {o : Poll.Outcome} (hp : x.phase = .ended o) : ∃ e ∈ tr, Clears u g n x.reference e := by
  induction h generalizing x with
  | nil => exact absurd hx (by simp [ofLedger, atRest])
  | @snoc tr s s' a hrun hact ih =>
    obtain ⟨hpre, hc, hs, ha⟩ := closing_snoc hrun hact hclosing
    cases hs.loop_cases hx with
    | same hold =>
      obtain ⟨e, he, hclears⟩ := ih hpre hold hp
      exact ⟨e, List.mem_append_left _ he, hclears⟩
    | spawned _ hnew => exact absurd hp (by simp [hnew])
    | @moved m e x₀ hgives hold hmove =>
      rcases hmove.marks with ⟨o', -, rfl, hledger⟩ | ⟨hholds, -⟩
      · -- until now the loop held the mark
        have hbefore : s.holds? (.loop n) = some x₀.reference :=
          (holds?_of_loop hold).trans hmove.holds?
        refine ⟨(s, a), List.mem_append_right _ List.mem_cons_self, hgives.task?,
          (hc.held.marked _).mpr ⟨.inl (.loop n), hbefore⟩, s', hact, ?_⟩
        show s'.store.memory.ledger.marked x₀.reference = false
        rw [hledger, Ledger.marked_clear, if_pos rfl]
      · exact absurd hp ((Poll.Loop.holds?_eq_some hholds).2 o)

/-- A loop that has ended has let go of its transaction: it has taken the mark away, and if the
    row is marked again, that is for another task. -/
structure Released (u : Setup) (g : Reader ρ) (tr : List (Service × Action ρ)) (s : Service)
    (n : Nat) (r : String) : Prop where
  /-- The loop has taken the mark away. -/
  cleared : ∃ e ∈ tr, Clears u g n r e
  /-- A mark that is there now is held by another task. -/
  others : s.ledger.marked r = true → ∃ t, t ≠ .loop n ∧ s.holds? t = some r

theorem released_of_ended (h : Run (act u g) (ofLedger u l) tr s)
    (hclosing : ∀ e ∈ tr, e.2.Closing e.1) (hx : s.supervisor.loops.find? n = some x)
    {o : Poll.Outcome} (hp : x.phase = .ended o) : Released u g tr s n x.reference := by
  have hc := closing_of_run h hclosing
  refine ⟨clears_of_ended h hclosing hx hp, fun hmarked => ?_⟩
  obtain ⟨j, hj⟩ := (hc.held.marked x.reference).mp hmarked
  cases j with
  | inl t =>
    have hj : s.holds? t = some x.reference := hj
    refine ⟨t, ?_, hj⟩
    rintro rfl
    rw [holds?_of_loop hx] at hj
    exact (Poll.Loop.holds?_eq_some hj).2 o hp
  | inr r =>
    -- what was marked before is not attended to
    obtain ⟨hmarked', hr⟩ : l.marked r = true ∧ r = x.reference := by simpa [holder?] using hj
    rw [hr, hc.own n x hx] at hmarked'
    exact absurd hmarked' (by simp)

/-! ### Starts that come too late -/

/-- A start that comes in once the sign to stop is set does not get past its look at the sign. -/
theorem phase_of_stopping (h : Run (act u g) (ofLedger u l) tr s)
    (hclosing : ∀ e ∈ tr, e.2.Closing e.1) (he : e ∈ tr) (harrive : e.2 = .arrive (.attend r))
    (hstop : e.1.supervisor.stopping = true) :
    (s.calls.find? e.1.next = some (.start r .checking) ∨
      s.calls.find? e.1.next = some (.start r (.done false))) ∧
    ∀ e' ∈ tr, e'.2.task? = some (.call e.1.next) → KeepsStore u g e' := by
  induction h with
  | nil => exact absurd he List.not_mem_nil
  | @snoc tr s s' a hrun hact ih =>
    obtain ⟨hpre, hc, hs, ha⟩ := closing_snoc hrun hact hclosing
    rcases List.mem_append.mp he with he | he
    · obtain ⟨hphase, hkept⟩ := ih hpre he
      have hset := stopping_of_mem hrun he hstop
      by_cases hturn : a.task? = some (.call e.1.next)
      · -- it looks, and finds the sign
        have hmoved : s'.calls.find? e.1.next = some (.start r (.done false)) ∧
            s'.store = s.store := by
          rcases hphase with hn | hn
          · obtain ⟨m, p', -, hmove, hn'⟩ := hs.start_moves hn hturn
            generalize s'.supervisor = v, s'.store = store at hmove ⊢
            cases hmove with
            | refuse => exact ⟨hn', rfl⟩
            | pass hno => exact absurd (hset.symm.trans hno) (by simp)
          · obtain ⟨m, p', -, hmove, -⟩ := hs.start_moves hn hturn
            cases hmove
        refine ⟨Or.inr hmoved.1, fun e' he' ht => ?_⟩
        rcases List.mem_append.mp he' with he' | he'
        · exact hkept e' he' ht
        · rw [List.mem_singleton.mp he']
          intro s₁ hs₁
          obtain rfl := Option.some.inj (hact.symm.trans hs₁)
          exact hmoved.2
      · refine ⟨hphase.imp (fun hn => ?_) (fun hn => ?_), fun e' he' ht => ?_⟩
        · exact hs.call_stays hc.regular hn (ha.ne_leave _) hturn
        · exact hs.call_stays hc.regular hn (ha.ne_leave _) hturn
        · rcases List.mem_append.mp he' with he' | he'
          · exact hkept e' he' ht
          · rw [List.mem_singleton.mp he'] at ht
            exact absurd ht hturn
    · -- it comes in just now
      rw [List.mem_singleton.mp he] at harrive ⊢
      obtain rfl : a = .arrive (.attend r) := harrive
      obtain rfl := Option.some.inj hact
      refine ⟨Or.inl (Dict.find?_insert_self _ _ _), fun e' he' ht => ?_⟩
      rcases List.mem_append.mp he' with he' | he'
      · have hknown : s.next < s.next := knows_of_mem hrun he' ht
        omega
      · rw [List.mem_singleton.mp he'] at ht
        exact absurd ht (by simp [Action.task?])

/-- A start whose step is possible takes it in its turn. -/
theorem act_of_start (g : Reader ρ) (m : Moment) {p p' : Poll.Start} {v : Poll.Supervisor}
    {store : Store} (hn : s.calls.find? n = some (.start r p))
    (hstep : p.step r s.supervisor s.store = some (v, store, p')) :
    act u g (.turn m (.call n)) s =
      some ({ s with supervisor := v, store }.put n (.start r p')) := by
  simp [act, step, stepCall, hn, hstep]

/-- What a start does that goes on to mark its transaction. -/
theorem step_of_claiming (hf : s.store.faults = []) :
    Poll.Start.claiming.step r s.supervisor s.store =
      some (s.supervisor, { s.store with memory := (s.store.memory.claim r).2 },
        if (s.ledger.claim r).1 then .spawning else .done false) := by
  have heq : (s.store.memory.claim r).1 = (s.ledger.claim r).1 := rfl
  simp only [Poll.Start.step, claim_of_faults hf, ← heq]
  cases (s.store.memory.claim r).1 <;> rfl

/-- What becomes of a start that is refused. -/
structure Refused (u : Setup) (g : Reader ρ) (tr : List (Service × Action ρ)) (s : Service)
    (n : Nat) (r : String) : Prop where
  /-- It is about to look, or it has reported that it started no loop. -/
  phase : s.calls.find? n = some (.start r .checking) ∨
    s.calls.find? n = some (.start r (.done false))
  /-- It has left the store as it was: it has set no mark. -/
  kept : ∀ e ∈ tr, e.2.task? = some (.call n) → KeepsStore u g e
  /-- Once it has its turn it reports that it started no loop, and leaves the store alone. -/
  answers : s.calls.find? n = some (.start r .checking) → ∀ m,
    ∃ s', act u g (.turn m (.call n)) s = some s' ∧
      s'.calls.find? n = some (.start r (.done false)) ∧ s'.store = s.store

theorem refused_of_stopping (h : Run (act u g) (ofLedger u l) tr s)
    (hclosing : ∀ e ∈ tr, e.2.Closing e.1) (he : e ∈ tr) (harrive : e.2 = .arrive (.attend r))
    (hstop : e.1.supervisor.stopping = true) : Refused u g tr s e.1.next r := by
  obtain ⟨hphase, hkept⟩ := phase_of_stopping h hclosing he harrive hstop
  refine ⟨hphase, hkept, fun hn m => ?_⟩
  have hset := stopping_of_mem h he hstop
  have hstep : Poll.Start.checking.step r s.supervisor s.store =
      some (s.supervisor, s.store, .done false) := by
    simp [Poll.Start.step, hset]
  exact ⟨_, act_of_start g m hn hstep, Dict.find?_insert_self _ _ _, rfl⟩

/-! ### All work stops -/

/-- Once a shutdown is over, every loop is, or stands where one does that was started too late. -/
theorem subdued_of_done (h : Run (act u g) (ofLedger u l) tr s)
    (hclosing : ∀ e ∈ tr, e.2.Closing e.1) (hk : s.calls.find? k = some (.shutdown .done))
    (hx : s.supervisor.loops.find? n = some x) : x.isSubdued = true := by
  obtain ⟨e, he, hasks⟩ := asks_of_asked h hclosing hk (by simp)
  by_cases hn : n < e.1.supervisor.next
  · rcases finished_or_awaited h hclosing he hasks hn hx with hover | ⟨loops, hwaits, -⟩
    · exact Poll.Loop.isSubdued_of_finished hover
    · exact absurd (hk.symm.trans hwaits) (by simp)
  · rcases late_of_asks h hclosing he hasks (Nat.le_of_not_lt hn) hx with hlate | ⟨-, hdead⟩
    · exact Poll.Loop.isSubdued_of_late hlate
    · exact Poll.Loop.isSubdued_of_finished (by simp [Poll.Loop.isFinished, hdead])

/-- A loop that can take its next step has its turn whenever it is given it. -/
theorem exists_act_of_loop (g : Reader ρ) (m : Moment)
    (hx : s.supervisor.loops.find? n = some x)
    (hstep : (x.step u.pace s.supervisor.stopping m.now n .turn s.store s.limiter).isSome = true) :
    ∃ s', act u g (.turn m (.loop n)) s = some s' := by
  obtain ⟨⟨store, limiter, x'⟩, hstep⟩ := Option.isSome_iff_exists.mp hstep
  have hact : (act u g (.turn m (.loop n)) s).isSome = true := by
    simp [act, step, Poll.Supervisor.stepLoop, hx, hstep]
  exact Option.isSome_iff_exists.mp hact

/-- What is so once the shutdown of a number is over. -/
structure Stopped (u : Setup) (g : Reader ρ) (tr : List (Service × Action ρ)) (s : Service)
    (k : Nat) : Prop where
  /-- It has asked the loops to stop. -/
  asked : ∃ e ∈ tr, Asks k e
  /-- The sign to stop is set. -/
  stopping : s.supervisor.stopping = true
  /-- The loops that were there when it asked are over. With time between their ticks they have
      ended, and let go of their transactions. -/
  early : ∀ e ∈ tr, Asks k e → ∀ n x, e.1.supervisor.loops.find? n = some x →
    ∃ y, s.supervisor.loops.find? n = some y ∧ y.reference = x.reference ∧
      y.isFinished = true ∧ (u.pace.interval ≠ 0 →
        (∃ o, y.phase = .ended o) ∧ Released u g tr s n x.reference)
  /-- No loop inquires, whatever happens next, and no step of a loop changes a status. -/
  quiet : ∀ a s', act u g a s = some s' →
    (∀ n y, s'.supervisor.loops.find? n = some y → y.phase ≠ .inquiring) ∧
    ∀ n, a.task? = some (.loop n) → ∀ r, s'.ledger.status? r = s.ledger.status? r
  /-- A start that looked before the shutdown asked can go on to mark its transaction. -/
  claiming : ∀ j r m, s.calls.find? j = some (.start r .claiming) →
    ∃ s', act u g (.turn m (.call j)) s = some s' ∧ s'.calls.find? j =
      some (.start r (if (s.ledger.claim r).1 then .spawning else .done false))
  /-- Then it starts its loop. -/
  spawning : ∀ j r m, s.calls.find? j = some (.start r .spawning) →
    ∃ s', act u g (.turn m (.call j)) s = some s' ∧
      s'.calls.find? j = some (.start r (.done true)) ∧
      s'.supervisor.loops.find? s.supervisor.next = some { reference := r } ∧
      ∀ e ∈ tr, Asks k e → e.1.supervisor.next ≤ s.supervisor.next
  /-- Such a loop takes three steps, one after the other: it begins, sees the sign, and ends
      cancelled, with its mark taken away. -/
  late : ∀ e ∈ tr, Asks k e → u.pace.interval ≠ 0 → ∀ n y, e.1.supervisor.next ≤ n →
    s.supervisor.loops.find? n = some y →
      y.phase = Poll.Loop.late (steps (.loop n) tr) ∧
      (steps (.loop n) tr < 3 → ∀ m, ∃ s', act u g (.turn m (.loop n)) s = some s') ∧
      (3 ≤ steps (.loop n) tr → y.phase = .ended .cancelled ∧ Released u g tr s n y.reference)

theorem stopped_of_done (h : Run (act u g) (ofLedger u l) tr s)
    (hclosing : ∀ e ∈ tr, e.2.Closing e.1) (hk : s.calls.find? k = some (.shutdown .done)) :
    Stopped u g tr s k := by
  have hc := closing_of_run h hclosing
  have hstop : s.supervisor.stopping = true := hc.stopping.mpr ⟨k, _, hk, by simp⟩
  refine ⟨asks_of_asked h hclosing hk (by simp), hstop, ?_, ?_, ?_, ?_, ?_⟩
  · intro e he hasks n x hx
    obtain ⟨y, hy, hreference⟩ := loop_of_mem h he hx
    have hn : n < e.1.supervisor.next := by
      obtain ⟨tr₁, tr₂, s₁, -, hpre, -⟩ := h.of_mem he
      exact numbered_of_run hpre n x hx
    have hover : y.isFinished = true := by
      rcases finished_or_awaited h hclosing he hasks hn hy with hover | ⟨loops, hwaits, -⟩
      · exact hover
      · exact absurd (hk.symm.trans hwaits) (by simp)
    refine ⟨y, hy, hreference, hover, fun hinterval => ?_⟩
    -- a loop that is over has ended, for it was not killed
    obtain ⟨o, ho⟩ : ∃ o, y.phase = .ended o := by
      cases hp : y.phase with
      | ended o => exact ⟨o, rfl⟩
      | killed => exact absurd (interval_of_killed h hclosing hy hp) hinterval
      | _ => simp [Poll.Loop.isFinished, hp] at hover
    exact ⟨⟨o, ho⟩, hreference ▸ released_of_ended h hclosing hy ho⟩
  · intro a s' hact
    have hs := step_of_act hc.regular.faults hact
    constructor
    · intro n y hy
      apply Poll.Loop.phase_ne_inquiring_of_subdued
      cases hs.loop_cases hy with
      | same hold => exact subdued_of_done h hclosing hk hold
      | spawned _ hnew =>
        rw [hnew]
        rfl
      | moved _ hold hmove =>
        rw [hstop] at hmove
        exact hmove.subdued (subdued_of_done h hclosing hk hold)
    · intro n ha r
      obtain ⟨m, ev, x, x', -, hx, hmove⟩ := hs.loop_moves ha
      rcases hmove.status? with ⟨hbusy, -⟩ | hkeeps
      · exact absurd (hbusy.symm.trans (subdued_of_done h hclosing hk hx)) (by simp)
      · exact hkeeps r
  · intro j r m hj
    exact ⟨_, act_of_start g m hj (step_of_claiming hc.regular.faults),
      Dict.find?_insert_self _ _ _⟩
  · intro j r m hj
    refine ⟨_, act_of_start g m hj rfl, Dict.find?_insert_self _ _ _,
      Dict.find?_insert_self _ _ _, fun e he _ => next_loop_le_of_mem h he⟩
  · intro e he hasks hinterval n y hn hy
    have hlate : y.phase = Poll.Loop.late (steps (.loop n) tr) := by
      rcases late_of_asks h hclosing he hasks hn hy with hlate | ⟨hzero, -⟩
      · exact hlate
      · exact absurd hzero hinterval
    refine ⟨hlate, fun hsteps m => ?_, fun hsteps => ?_⟩
    · apply exists_act_of_loop g m hy
      rw [hstop]
      exact Poll.Loop.isSome_step_of_late hlate hsteps
    · have hended : y.phase = .ended .cancelled := by
        obtain ⟨t, ht⟩ := Nat.exists_eq_add_of_le' hsteps
        rw [hlate, ht]
        rfl
      exact ⟨hended, released_of_ended h hclosing hy hended⟩

/-- However the starts, loops and replies of a service and one shutdown are interleaved, with
    nobody waiting for a loop by a call of its own:
    * once the shutdown is over, the loops that were there when it asked have ended and taken
      their marks away; no loop inquires or writes a status any more; and a start that had
      looked before goes on, but its loop ends cancelled and takes its mark away;
    * a start that comes in afterwards reports that it started no loop, and sets no mark;
    * a loop that ends cancelled has never changed a status. -/
theorem shutdown_stops_all_work (h : Run (act u g) (ofLedger u l) tr s)
    (hclosing : ∀ e ∈ tr, e.2.Closing e.1) :
    (∀ k, s.calls.find? k = some (.shutdown .done) → Stopped u g tr s k) ∧
    (∀ e ∈ tr, ∀ k r, e.1.calls.find? k = some (.shutdown .done) →
      e.2 = .arrive (.attend r) → Refused u g tr s e.1.next r) ∧
    ∀ n x, s.supervisor.loops.find? n = some x → x.phase = .ended .cancelled →
      ∀ e ∈ tr, e.2.task? = some (.loop n) → KeepsStatuses u g e := by
  refine ⟨fun k hk => stopped_of_done h hclosing hk, fun e he k r hk harrive => ?_,
    fun n x hx hp => ?_⟩
  · -- the sign was set when the start came in
    obtain ⟨tr₁, tr₂, s₁, htr, hpre, -⟩ := h.of_mem he
    have hc := closing_of_run hpre fun e he => hclosing e (htr ▸ List.mem_append_left _ he)
    exact refused_of_stopping h hclosing he harrive (hc.stopping.mpr ⟨k, _, hk, by simp⟩)
  · exact keepsStatuses_of_untouching h hx (Poll.Loop.untouching_of_late (t := 3) hp)

/-- A loop inquires when the shutdown asks, and another start has looked already. The loop ends,
    and the shutdown is over; then the start goes on, and its loop ends as well. -/
def closingDown : List (Action (Except Gateway.Failure Gateway.Outcome)) :=
  let turn (k : Nat) (t : Task) := Action.turn (moment k) t
  [.arrive (.attend "T1"), turn 0 (.call 0), turn 0 (.call 0), turn 0 (.call 0),
    .arrive (.attend "T2"), turn 0 (.call 1), turn 0 (.loop 0), turn 0 (.loop 0),
    turn 5000 (.loop 0), turn 5000 (.loop 0), .arrive .shutdown, turn 5000 (.call 2),
    .reply (moment 5001) (.loop 0) (.ok (outcome .pending)), turn 5001 (.loop 0),
    turn 5001 (.loop 0), turn 5001 (.loop 0), turn 5001 (.call 2), turn 5002 (.call 1),
    turn 5002 (.call 1), turn 5002 (.loop 1), turn 5002 (.loop 1), turn 5002 (.loop 1)]

/-- Both loops take their marks away and have changed no status, and a start that comes in then
    sets no mark. -/
theorem closingDown_stopped :
    let start := ofLedger plain ((({} : Ledger).put (unattended "T1" 1)).put (unattended "T2" 2))
    let run := Run.play (act plain literally) closingDown start
    let later := (run.2.begin (Demand.call plain.client (.attend "T1"))).2
    Stopped plain literally run.1 run.2 2 ∧
      (∃ e ∈ run.1, Clears plain literally 0 "T1" e) ∧
      (∃ e ∈ run.1, Clears plain literally 1 "T2" e) ∧
      (∀ e ∈ run.1, e.2.task? = some (.loop 1) → KeepsStatuses plain literally e) ∧
      Refused plain literally (run.1 ++ [(run.2, .arrive (.attend "T1"))]) later run.2.next "T1" := by
  intro start run later
  have hrun : Run (act plain literally) start run.1 run.2 := Run.of_play closingDown start
  have hclosing : ∀ e ∈ run.1, e.2.Closing e.1 := by decide +kernel
  obtain ⟨hstopped, -, hcancelled⟩ := shutdown_stops_all_work hrun hclosing
  have hdone : run.2.calls.find? 2 = some (.shutdown .done) := by
    have hphase : (run.2.calls.find? 2).bind Call.shutdown? = some .done := by decide +kernel
    obtain ⟨c, hc, hp⟩ := Option.bind_eq_some_iff.mp hphase
    rw [hc, Call.shutdown?_eq_some hp]
  have hover := hstopped 2 hdone
  -- when the shutdown asked, the first loop was there and the second was not
  obtain ⟨e, he, hasks⟩ := hover.asked
  have hthen : ∀ e ∈ run.1, (e.1.calls.find? 2).bind Call.shutdown? = some .asking →
      e.1.supervisor.next = 1 ∧
        (e.1.supervisor.loops.find? 0).map Poll.Loop.reference = some "T1" := by
    decide +kernel
  obtain ⟨hnext, hfirst⟩ := hthen e he (by rw [hasks.2]; rfl)
  obtain ⟨x, hx, hreference⟩ := Option.map_eq_some_iff.mp hfirst
  obtain ⟨y, -, -, -, hended⟩ := hover.early e he hasks 0 x hx
  have hsecond : run.2.supervisor.loops.find? 1 =
      some { reference := "T2", phase := .ended .cancelled, deadline := 125002, nextTick := 10002 } := by
    decide +kernel
  obtain ⟨-, -, hlate⟩ := hover.late e he hasks (by decide) 1 _ (Nat.le_of_eq hnext) hsecond
  obtain ⟨-, hreleased⟩ := hlate (by decide +kernel)
  refine ⟨hover, hreference ▸ (hended (by decide)).2.cleared, hreleased.cleared,
    hcancelled 1 _ hsecond rfl, ?_⟩
  -- one more start comes in
  have hlast : ∀ tr s, Run (act plain literally) start tr s → (∀ e ∈ tr, e.2.Closing e.1) →
      s.calls.find? 2 = some (.shutdown .done) →
      Refused plain literally (tr ++ [(s, .arrive (.attend "T1"))])
        (s.begin (Demand.call plain.client (.attend "T1"))).2 s.next "T1" := by
    intro tr s htr hpre hk
    have hclosing' : ∀ e ∈ tr ++ [(s, .arrive (.attend "T1"))], e.2.Closing e.1 := by
      intro e he
      rcases List.mem_append.mp he with he | he
      · exact hpre e he
      · rw [List.mem_singleton.mp he]
        trivial
    obtain ⟨-, hrefused, -⟩ := shutdown_stops_all_work (htr.snoc rfl) hclosing'
    exact hrefused _ (List.mem_append_right _ List.mem_cons_self) 2 "T1" hk rfl
  exact hlast run.1 run.2 hrun hclosing hdone

end Service

end TopUp
