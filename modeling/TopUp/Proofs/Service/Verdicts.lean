import TopUp.Proofs.Service.Tasks
import TopUp.Proofs.Store.Rows

/-! # What the outcome of a poll loop says

    A poll loop whose inquiry was answered asks for the terminal status to be written, and one
    whose deadline has come for a failure. The write is refused without a word if the
    transaction has settled in the meantime: a customer has come back from the card page, or a
    call has inquired about it. The loop does not look at that; its outcome is the status that
    it has asked for. So the outcome and the row differ, and they do so just when the write
    was overruled (`Overruled`, `verdict_stored_iff`). Whatever the interleaving, in every
    other case the outcome is the stored status.

    The row of a loop is always there: its mark was taken on it, and rows are not lost
    (`Rooted`).
-/

namespace TopUp

open TopUp.Data TopUp.Store

/-! ### Status writes of loops -/

namespace Poll.Loop

variable {p : Pace} {stopping : Bool} {now id : Nat} {e : Event} {s s' : Store} {l l' : Limiter}
  {x x' : Loop}

/-- An outcome stays decided. -/
theorem Move.undecided (h : Move p stopping now id s l x e s' l' x') (hx' : x'.outcome? = none) :
    x.outcome? = none := by
  cases h with
  | clear => exact absurd hx' (by simp [Loop.outcome?])
  | stop => exact absurd hx' (by simp [Loop.outcome?])
  | unpaced hp | begin hp | wait hp | expire hp | tick hp | inquire hp | slotless hp
  | answered _ hp | unanswered hp | kill hp | giveBack hp | settle hp | unsettled hp | fail hp
  | unfailed hp => simp [Loop.outcome?, hp]

/-- An outcome that says something about the status is decided by the write of that status: the
    one that the loop was told, or a failure. -/
theorem Move.decides (h : Move p stopping now id s l x e s' l' x') {o : Outcome} {v : Status}
    (ho : x'.outcome? = some o) (hv : o.status? = some v) :
    (x.outcome? = some o ∧ x.storeAction.written? = none) ∨
      (x.outcome? = none ∧ x.storeAction.written? = some (x.reference, v) ∧
        (x.told? = some v ∨ v = .failed)) := by
  cases h with
  | stop =>
    obtain rfl : Outcome.cancelled = o := by simpa [Loop.outcome?] using ho
    exact absurd hv (by simp [Outcome.status?])
  | answered | unanswered => exact absurd ho (by simp)
  | @giveBack answer => cases answer <;> exact absurd ho (by simp [Loop.outcome?, afterInquiry])
  | @settle status _ _ hp =>
    obtain rfl : Outcome.settled status = o := by simpa [Loop.outcome?] using ho
    obtain rfl := Option.some.inj hv
    exact Or.inr ⟨by simp [Loop.outcome?, hp], by simp [storeAction, hp, Traffic.Action.written?],
      Or.inl (by simp [told?, hp])⟩
  | fail hp | unfailed hp =>
    obtain rfl : Outcome.timedOut = o := by simpa [Loop.outcome?] using ho
    obtain rfl := Option.some.inj hv
    exact Or.inr ⟨by simp [Loop.outcome?, hp], by simp [storeAction, hp, Traffic.Action.written?],
      Or.inr rfl⟩
  | clear hp =>
    exact Or.inl ⟨by simpa [Loop.outcome?, hp] using ho,
      by simp [storeAction, hp, Traffic.Action.written?]⟩
  | _ => exact absurd ho (by simp [Loop.outcome?])

/-- A write that does not fail decides the outcome. -/
theorem Move.written (h : Move p stopping now id s l x e s' l' x') {r : String} {v : Status}
    (hw : x.storeAction.written? = some (r, v)) :
    (∃ written, s.memory.update r v = .ok (written, s'.memory)) ∧ x'.outcome? ≠ none ∨
      ∃ cause, s.memory.update r v = .error cause := by
  cases h with
  | @settle _ _ _ hp hwritten | @fail _ _ hp hwritten =>
    obtain ⟨rfl, rfl⟩ : x.reference = r ∧ _ = v := by
      simpa [storeAction, hp, Traffic.Action.written?] using hw
    exact Or.inl ⟨⟨_, hwritten⟩, by simp [Loop.outcome?]⟩
  | unsettled hp hfailed | unfailed hp hfailed =>
    obtain ⟨rfl, rfl⟩ : x.reference = r ∧ _ = v := by
      simpa [storeAction, hp, Traffic.Action.written?] using hw
    exact Or.inr ⟨_, hfailed⟩
  | stop hp =>
    rcases hp with hp | ⟨hp, -⟩ <;>
      exact absurd hw (by simp [storeAction, hp, Traffic.Action.written?])
  | unpaced hp | begin hp | wait hp | expire hp | tick hp | inquire hp | slotless hp
  | answered _ hp | unanswered hp | kill hp | giveBack hp | clear hp =>
    exact absurd hw (by simp [storeAction, hp, Traffic.Action.written?])

end Poll.Loop

/-! ### Rows of loops -/

theorem Store.Ledger.find?_of_claim {l : Ledger} {r : String} (h : (l.claim r).1 = true) :
    l.find? r ≠ none := by
  intro hnone
  simp [claim, hnone] at h

/-- A start holds the mark of a transaction that is stored. -/
theorem Poll.Start.Move.row {reference r : String} {v v' : Poll.Supervisor} {s s' : Store}
    {p p' : Poll.Start} (h : Poll.Start.Move reference v s p v' s' p')
    (hp' : p'.holds? reference = some r) : s.memory.ledger.find? r ≠ none := by
  cases h with
  | claim hclaim =>
    obtain rfl := Option.some.inj hp'
    exact Ledger.find?_of_claim hclaim
  | _ => exact absurd hp' (by simp [Poll.Start.holds?])

namespace Service

variable {ρ : Type} {u : Setup} {g : Reader ρ} {s s' : Service} {a : Action ρ} {l : Ledger}
  {tr : List (Service × Action ρ)} {ts : List Transaction} {used : List String} {n : Nat}
  {x : Poll.Loop} {r : String} {v : Status}

/-- Whatever attends to a transaction, or is about to, finds its row. -/
structure Rooted (s : Service) : Prop where
  /-- A call that holds a mark finds the row. -/
  calls : ∀ n r, s.holds? (.call n) = some r → s.ledger.find? r ≠ none
  /-- A loop does, even if it is over. -/
  loops : ∀ n x, s.supervisor.loops.find? n = some x → s.ledger.find? x.reference ≠ none

theorem rooted_ofLedger (u : Setup) (l : Ledger) : (ofLedger u l).Rooted :=
  ⟨fun _ _ h => absurd h (by simp [holds?, ofLedger, atRest]),
    fun _ _ h => absurd h (by simp [ofLedger, atRest])⟩

/-- A call that holds a mark held it before, or has just claimed it. -/
theorem Step.row_of_holds (h : Step u g s a s') (hn : s'.holds? (.call n) = some r) :
    s.holds? (.call n) = some r ∨ s.ledger.find? r ≠ none := by
  obtain ⟨c, hc, hholds⟩ := Option.bind_eq_some_iff.mp hn
  rcases h.calls hc with hold | ⟨d, -, -, rfl⟩ | hstep
  · exact Or.inl ((holds?_of_call hold).trans hholds)
  · cases d with
    | topUp user request =>
      have hnone := Initiation.holds?_ofRequest user request
      exact absurd (hnone.symm.trans hholds) (by simp)
    | _ => exact absurd hholds (by simp [Demand.call, Call.holds?, Poll.Start.holds?])
  · cases hstep with
    | @initiate _ _ i _ scene p _ hcall hmove =>
      have hholds : p.holds? = some r := hholds
      cases hmove.handles with
      | start _ hp' hstart =>
        rw [hp'] at hholds
        exact Or.inr (hstart.row hholds)
      | commit _ _ hp' =>
        rw [hp', Initiation.holds?_afterCommit] at hholds
        exact absurd hholds (by simp)
      | other _ hp' => exact absurd (hp'.symm.trans hholds) (by simp)
    | start _ _ hmove => exact Or.inr (hmove.row hholds)
    | report | join | shutdown => exact absurd hholds (by simp [Call.holds?])

theorem Rooted.step (h : Rooted s) (hs : Step u g s a s') (hl : s.ledger.Extends s'.ledger) :
    Rooted s' := by
  have hkept : ∀ {r}, s.ledger.find? r ≠ none → s'.ledger.find? r ≠ none := by
    intro r hr
    obtain ⟨t, ht⟩ := Option.ne_none_iff_exists'.mp hr
    obtain ⟨t', ht', -⟩ := hl.some ht
    simp [ht']
  refine ⟨fun n r hn => ?_, fun n x hx => ?_⟩
  · rcases hs.row_of_holds hn with hold | hrow
    · exact hkept (h.calls n r hold)
    · exact hkept hrow
  · cases hs.loop_cases hx with
    | same hold => exact hkept (h.loops n x hold)
    | spawned _ hnew hk =>
      rw [hnew]
      exact hkept (h.calls _ _ hk)
    | moved _ hold hmove =>
      rw [hmove.reference_eq]
      exact hkept (h.loops n _ hold)

theorem nodup_made_of_snoc
    (h : ((made u (tr ++ [(s, a)])).map Transaction.reference).Nodup) :
    ((made u tr).map Transaction.reference).Nodup := by
  rw [made_snoc, List.map_append] at h
  exact (List.nodup_append.mp h).1

/-- In a run in which no two transactions have the same reference, every loop finds its row. -/
theorem rooted_of_run (hl : l.Coherent) (h : Run (act u g) (ofLedger u l) tr s)
    (hrefs : ((made u tr).map Transaction.reference).Nodup) : Rooted s := by
  induction h with
  | nil => exact rooted_ofLedger u l
  | snoc hrun hact ih =>
    have hpre := nodup_made_of_snoc hrefs
    have hsound := sound_of_run hl hrun hpre
    have hs := step_of_act hsound.regular.faults hact
    exact (ih hpre).step hs (hsound.extends_step hs)

/-! ### Writes of loops -/

/-- In an entry of a trace the loop of a number asks for a status to be written. -/
def Writes (n : Nat) (r : String) (v : Status) (e : Service × Action ρ) : Prop :=
  e.2.task? = some (.loop n) ∧ e.1.written? e.2 = some (r, v)

/-- The write of a loop comes too late: the row has settled otherwise. -/
def Overruled (n : Nat) (e : Service × Action ρ) : Prop :=
  ∃ r v stored, Writes n r v e ∧ e.1.ledger.status? r = some stored ∧ stored.isTerminal = true ∧
    stored ≠ v

/-- What a loop asks for in its step is what its phase says. -/
theorem written?_of_move {m : Moment} {e : Event} {x' : Poll.Loop} {store : Store}
    {limiter : Poll.Limiter} (hgives : a.Gives g s m (.loop n) e)
    (hx : s.supervisor.loops.find? n = some x)
    (hmove : Poll.Loop.Move u.pace s.supervisor.stopping m.now n s.store s.limiter x e store limiter
      x') : s.written? a = x.storeAction.written? := by
  cases hgives with
  | turn => simp [written?, hx]
  | reply | crash =>
    -- a loop writes nothing but in its turn
    cases hw : x.storeAction.written? with
    | none => rfl
    | some w => exact absurd (hmove.turn_of_written hw) (by simp)

/-- A loop that writes nothing is not overruled. -/
theorem not_overruled {e : Service × Action ρ} (hquiet : ∀ r v, ¬ Writes n r v e) :
    ¬ Overruled n e := by
  rintro ⟨r, v, stored, hw, -⟩
  exact hquiet r v hw

/-- A loop that writes is overruled if and only if its row has settled otherwise. -/
theorem overruled_iff_of_writes {e : Service × Action ρ} {old : Status} (hw : Writes n r v e)
    (hold : e.1.ledger.status? r = some old) :
    Overruled n e ↔ old.isTerminal = true ∧ old ≠ v := by
  constructor
  · rintro ⟨r', v', stored, hw', hstored, hterm, hne⟩
    obtain ⟨rfl, rfl⟩ := Prod.mk.inj (Option.some.inj (hw'.2.symm.trans hw.2))
    obtain rfl := Option.some.inj (hold.symm.trans hstored)
    exact ⟨hterm, hne⟩
  · rintro ⟨hterm, hne⟩
    exact ⟨r, v, old, hw, hold, hterm, hne⟩

/-- A settled status stays. -/
theorem status?_of_extends {l' : Ledger} (hl : l.Extends l') {stored : Status}
    (h : l.status? r = some stored) (hterm : stored.isTerminal = true) :
    l'.status? r = some stored := by
  obtain ⟨t, ht, rfl⟩ := Option.map_eq_some_iff.mp h
  obtain ⟨t', ht', hbecomes⟩ := hl.some ht
  rw [Ledger.status?, ht']
  exact congrArg some (hbecomes.status_eq_of_isTerminal hterm)

/-! ### Verdicts -/

/-- The row of a loop has settled, with the status that the loop has asked for unless it was
    overruled. -/
def Stored (n : Nat) (tr : List (Service × Action ρ)) (s : Service) (r : String) (v : Status) :
    Prop :=
  ∃ stored, s.ledger.status? r = some stored ∧ stored.isTerminal = true ∧
    (stored = v ↔ ¬ ∃ e ∈ tr, Overruled n e)

/-- What is known of the loop of a number, once what is in the trace has happened. -/
structure Truthful (n : Nat) (tr : List (Service × Action ρ)) (s : Service) (x : Poll.Loop) :
    Prop where
  /-- What it was told is terminal. -/
  told : ∀ v, x.told? = some v → v.isTerminal = true
  /-- It writes once at most: before its outcome is decided it has not. -/
  silent : x.outcome? = none → ∀ e ∈ tr, ∀ r v, ¬ Writes n r v e
  /-- Its outcome tells what is stored. -/
  verdict : ∀ o v, x.outcome? = some o → o.status? = some v → Stored n tr s x.reference v

theorem Stored.step (h : Stored n tr s r v) (hl : s.ledger.Extends s'.ledger)
    (hquiet : ∀ r v, ¬ Writes n r v (s, a)) : Stored n (tr ++ [(s, a)]) s' r v := by
  obtain ⟨stored, hstored, hterm, hiff⟩ := h
  refine ⟨stored, status?_of_extends hl hstored hterm, hterm, ?_⟩
  rw [exists_mem_snoc, or_iff_left (not_overruled hquiet)]
  exact hiff

/-- The write of a loop settles its row, unless it had settled before. -/
theorem stored_of_write {written : Bool} (hw : Writes n r v (s, a))
    (hupdate : s.store.memory.update r v = .ok (written, s'.store.memory))
    (hrow : s.ledger.find? r ≠ none) (hv : v.isTerminal = true)
    (hsilent : ∀ e ∈ tr, ∀ r v, ¬ Writes n r v e) : Stored n (tr ++ [(s, a)]) s' r v := by
  obtain ⟨t, ht⟩ := Option.ne_none_iff_exists'.mp hrow
  have hold : s.ledger.status? r = some t.status := by rw [Ledger.status?, ht]; rfl
  have hnew := Memory.status?_update hupdate hv
  rw [show s.store.memory.ledger.status? r = _ from hold, Option.map_some] at hnew
  -- it is the only write of the loop, so no other one can have been overruled
  have hnone : ¬ ∃ e ∈ tr, Overruled n e := by
    rintro ⟨e, he, hover⟩
    exact not_overruled (hsilent e he) hover
  have hover : (∃ e ∈ tr ++ [(s, a)], Overruled n e) ↔
      t.status.isTerminal = true ∧ t.status ≠ v := by
    rw [exists_mem_snoc, or_iff_right hnone]
    exact overruled_iff_of_writes hw hold
  cases hterm : t.status.isTerminal with
  | true =>
    rw [hterm, if_pos rfl] at hnew
    refine ⟨t.status, hnew, hterm, ?_⟩
    rw [hover]
    simp [hterm]
  | false =>
    rw [hterm, if_neg (by simp)] at hnew
    refine ⟨v, hnew, hv, iff_of_true rfl ?_⟩
    rw [hover]
    simp [hterm]

/-- Steps of others leave a loop truthful. -/
theorem Truthful.same (h : Truthful n tr s x) (hl : s.ledger.Extends s'.ledger)
    (hquiet : ∀ r v, ¬ Writes n r v (s, a)) : Truthful n (tr ++ [(s, a)]) s' x where
  told := h.told
  silent hnone := forall_mem_snoc.mpr ⟨h.silent hnone, hquiet⟩
  verdict o v ho hv := (h.verdict o v ho hv).step hl hquiet

/-- So do steps of its own, as long as its writes do not fail. -/
theorem Truthful.moved {m : Moment} {e : Event} {x' : Poll.Loop} (h : Truthful n tr s x)
    (hl : s.ledger.Extends s'.ledger) (hrow : s.ledger.find? x.reference ≠ none)
    (hwritable : ∀ r v, Writes n r v (s, a) → s.store.memory.readOnly = false)
    (hgives : a.Gives g s m (.loop n) e) (hx : s.supervisor.loops.find? n = some x)
    (hmove : Poll.Loop.Move u.pace s.supervisor.stopping m.now n s.store s.limiter x e s'.store
      s'.limiter x') : Truthful n (tr ++ [(s, a)]) s' x' := by
  have hwritten : s.written? a = x.storeAction.written? := written?_of_move hgives hx hmove
  have hwrites : ∀ r v, Writes n r v (s, a) → x'.outcome? ≠ none ∧
      ∃ written, s.store.memory.update r v = .ok (written, s'.store.memory) := by
    intro r v hw
    rcases hmove.written (hwritten.symm.trans hw.2) with ⟨hok, hne⟩ | ⟨cause, herror⟩
    · exact ⟨hne, hok⟩
    · obtain ⟨written, m', hok, -⟩ := Memory.update_eq_ok (hwritable r v hw) r v
      exact absurd (herror.symm.trans hok) (by simp)
  refine ⟨fun v hv => ?_, fun hnone => ?_, fun o v ho hv => ?_⟩
  · rcases hmove.told hv with hv | ⟨hterm, -⟩
    · exact h.told v hv
    · exact hterm
  · have hquiet : ∀ r v, ¬ Writes n r v (s, a) := fun r v hw => (hwrites r v hw).1 hnone
    exact forall_mem_snoc.mpr ⟨h.silent (hmove.undecided hnone), hquiet⟩
  · rw [hmove.reference_eq]
    rcases hmove.decides ho hv with ⟨ho, hnone⟩ | ⟨hnone, hasks, hv⟩
    · -- the outcome was decided before, and it does not write any more
      refine (h.verdict o v ho hv).step hl fun r v hw => ?_
      exact absurd ((hnone.symm.trans hwritten.symm).trans hw.2) (by simp)
    · -- this is the step that decides it, with the only write of the loop
      have hw : Writes n x.reference v (s, a) := ⟨hgives.task?, hwritten.trans hasks⟩
      obtain ⟨-, written, hupdate⟩ := hwrites _ _ hw
      refine stored_of_write hw hupdate hrow ?_ (h.silent hnone)
      rcases hv with htold | rfl
      · exact h.told v htold
      · rfl

/-- A loop whose writes do not fail is truthful, whatever else goes on. -/
theorem truthful_of_run (hl : l.Coherent) (h : Run (act u g) (ofLedger u l) tr s)
    (hrefs : ((made u tr).map Transaction.reference).Nodup)
    (hwritable : ∀ e ∈ tr, ∀ r v, Writes n r v e → e.1.store.memory.readOnly = false)
    (hx : s.supervisor.loops.find? n = some x) : Truthful n tr s x := by
  induction h generalizing x with
  | nil => exact absurd hx (by simp [ofLedger, atRest])
  | @snoc tr s s' a hrun hact ih =>
    have hpre := nodup_made_of_snoc hrefs
    have hsound := sound_of_run hl hrun hpre
    have hs := step_of_act hsound.regular.faults hact
    have hextends := hsound.extends_step hs
    obtain ⟨hwritable, hlast⟩ := forall_mem_snoc.mp hwritable
    cases hs.loop_cases hx with
    | same hold hother =>
      exact (ih hpre hwritable hold).same hextends fun r v hw => hother hw.1
    | spawned hn hnew _ hother =>
      -- nobody could have taken a step for it yet
      have hnone : ∀ e ∈ tr, ∀ r v, ¬ Writes n r v e := fun e he r v hw =>
        absurd (knows_of_mem hrun he hw.1) (by simp [Knows, hn])
      rw [hnew]
      exact ⟨fun v hv => absurd hv (by simp [Poll.Loop.told?]),
        fun _ => forall_mem_snoc.mpr ⟨hnone, fun r v hw => hother hw.1⟩,
        fun o v ho => absurd ho (by simp [Poll.Loop.outcome?])⟩
    | moved hgives hold hmove =>
      have hrow := (rooted_of_run hl hrun hpre).loops n _ hold
      exact (ih hpre hwritable hold).moved hextends hrow hlast hgives hold hmove

/-- When a loop has ended with a verdict, and its status writes did not fail, its row has settled.
    The row has the status of the verdict exactly if the write of the loop was not overruled. -/
theorem verdict_stored_iff (hl : l.Coherent) (h : Run (act u g) (ofLedger u l) tr s)
    (hrefs : ((made u tr).map Transaction.reference).Nodup)
    (hwritable : ∀ e ∈ tr, ∀ r v, Writes n r v e → e.1.store.memory.readOnly = false)
    (hx : s.supervisor.loops.find? n = some x) {o : Poll.Outcome} (ho : x.phase = .ended o)
    (hv : o.status? = some v) :
    ∃ stored, s.ledger.status? x.reference = some stored ∧ stored.isTerminal = true ∧
      (stored = v ↔ ¬ ∃ e ∈ tr, Overruled n e) :=
  (truthful_of_run hl h hrefs hwritable hx).verdict o v (by simp [Poll.Loop.outcome?, ho]) hv

/-- Two open payments. -/
def twoOpen : Ledger := (({} : Ledger).put (unattended "T1" 1)).put (unattended "T2" 2)

/-- Both payments get a loop. After what comes in between, the gateway answers the first loop that
    the payment has failed, and the deadline of the second one comes. -/
def polled (between : List (Action (Except Gateway.Failure Gateway.Outcome))) :
    List (Action (Except Gateway.Failure Gateway.Outcome)) :=
  .arrive (.attend "T1") :: List.replicate 3 (.turn (moment 7) (.call 0)) ++
    .arrive (.attend "T2") :: List.replicate 3 (.turn (moment 7) (.call 1)) ++
    List.replicate 2 (.turn (moment 7) (.loop 0)) ++
      List.replicate 2 (.turn (moment 7) (.loop 1)) ++ between ++
    List.replicate 2 (.turn (moment 5007) (.loop 0)) ++
      .reply (moment 5007) (.loop 0) (.ok (outcome .failed)) ::
        List.replicate 3 (.turn (moment 5007) (.loop 0)) ++
    List.replicate 3 (.turn (moment 120007) (.loop 1))

/-- Both customers ask again, and their calls are told that the payments have succeeded. -/
def asking : List (Action (Except Gateway.Failure Gateway.Outcome)) :=
  let ask (n k : Nat) : List (Action (Except Gateway.Failure Gateway.Outcome)) :=
    .arrive (walletDemand k) :: List.replicate 4 (.turn (moment 9) (.call n)) ++
      .reply (moment 9) (.call n) (.ok (outcome .success)) ::
        List.replicate 2 (.turn (moment 9) (.call n))
  ask 2 1 ++ ask 3 2

theorem coherent_twoOpen : twoOpen.Coherent :=
  (Ledger.coherent_empty.put (by decide) (by decide)).put (by decide) (by decide)

/-- If nothing comes in between, both outcomes are what is stored. -/
theorem verdicts_stored_if_undisturbed :
    let run := Run.play (act plain literally) (polled []) (ofLedger plain twoOpen)
    let tells (n : Nat) (o : Poll.Outcome) (v : Status) := ∃ x stored,
      run.2.supervisor.loops.find? n = some x ∧ x.phase = .ended o ∧ o.status? = some v ∧
        run.2.ledger.status? x.reference = some stored ∧ stored = v ∧
        (stored = v ↔ ¬ ∃ e ∈ run.1, Overruled n e)
    tells 0 (.settled .failed) .failed ∧ tells 1 .timedOut .failed := by
  intro run tells
  have hrun : Run (act plain literally) _ run.1 run.2 := Run.of_play (polled []) _
  have hplay : ((made plain run.1).map Transaction.reference).Nodup ∧
      (∀ e ∈ run.1, e.1.store.memory.readOnly = false) ∧
      (run.2.supervisor.loops.find? 0).map (fun x => (x.reference, x.phase)) =
        some ("T1", .ended (.settled .failed)) ∧
      (run.2.supervisor.loops.find? 1).map (fun x => (x.reference, x.phase)) =
        some ("T2", .ended .timedOut) ∧
      run.2.ledger.status? "T1" = some .failed ∧ run.2.ledger.status? "T2" = some .failed := by
    decide +kernel
  obtain ⟨hrefs, hwritable, hfirst, hsecond, hrow, hrow'⟩ := hplay
  have htells : ∀ {n r o v},
      (run.2.supervisor.loops.find? n).map (fun x => (x.reference, x.phase)) =
        some (r, .ended o) →
      o.status? = some v → run.2.ledger.status? r = some v → tells n o v := by
    intro n r o v hloop hv hrow
    obtain ⟨x, hx, hended⟩ := Option.map_eq_some_iff.mp hloop
    obtain ⟨rfl, ho⟩ := Prod.mk.inj hended
    obtain ⟨stored, hstored, -, hiff⟩ := verdict_stored_iff coherent_twoOpen hrun hrefs
      (fun e he _ _ _ => hwritable e he) hx ho hv
    exact ⟨x, stored, hx, ho, hv, hstored, Option.some.inj (hstored.symm.trans hrow), hiff⟩
  exact ⟨htells hfirst rfl hrow, htells hsecond rfl hrow'⟩

/-- If both calls settle the payments first, one loop says that its payment was settled as failed,
    and the other one that it gave its payment up; both payments have succeeded. -/
theorem verdicts_differ_if_overruled :
    let run := Run.play (act plain literally) (polled asking) (ofLedger plain twoOpen)
    Run (act plain literally) (ofLedger plain twoOpen) run.1 run.2 ∧
      ((made plain run.1).map Transaction.reference).Nodup ∧
      (∀ e ∈ run.1, e.1.store.memory.readOnly = false) ∧
      (run.2.supervisor.loops.find? 0).map (fun x => (x.reference, x.phase)) =
        some ("T1", .ended (.settled .failed)) ∧
      run.2.ledger.status? "T1" = some .success ∧
      (run.2.supervisor.loops.find? 1).map (fun x => (x.reference, x.phase)) =
        some ("T2", .ended .timedOut) ∧
      run.2.ledger.status? "T2" = some .success :=
  ⟨Run.of_play _ _, by decide +kernel⟩

end Service

end TopUp
