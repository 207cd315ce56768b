import TopUp.Proofs.Service.Tasks

/-! # A service that closes

    While a service closes, loops are started and run, and at most one shutdown is under way
    (`Action.Closing`). Nobody waits for a loop by a call of its own, so until the shutdown
    asks, every loop that is not over is registered under its reference: a loop leaves the
    registry when it is over, and no other one can take its place, since the call that would
    start it cannot hold the mark as well (`Closing.registered`).

    Transactions may be marked when the service begins. Such a mark belongs to nobody of this
    service; it is counted as held by a holder outside (`holder?`), who never lets go of it.
-/

namespace TopUp

open TopUp.Data TopUp.Store

/-- Where a call stands that ends all poll loops. -/
def Call.shutdown? : Call → Option Poll.Shutdown
  | .shutdown p => some p
  | _ => none

theorem Call.shutdown?_eq_some {c : Call} {p : Poll.Shutdown} (h : c.shutdown? = some p) :
    c = .shutdown p := by
  cases c with
  | shutdown q => exact congrArg Call.shutdown (Option.some.inj h)
  | _ => exact absurd h (by simp [Call.shutdown?])

/-- Whether a call is of a kind that is made while a service closes. -/
def Call.isPlain : Call → Bool
  | .cardReport _ | .start _ _ | .shutdown _ => true
  | .initiate _ | .join _ _ => false

/-- A start neither sets nor takes back the sign to stop. -/
theorem Poll.Start.Move.stopping {reference : String} {v v' : Poll.Supervisor} {s s' : Store}
    {p p' : Poll.Start} (h : Poll.Start.Move reference v s p v' s' p') :
    v'.stopping = v.stopping :=
  h.registry.1

/-- What a step of a shutdown is. -/
theorem Poll.Shutdown.step_cases {v v' : Poll.Supervisor} {p p' : Poll.Shutdown}
    (h : p.step v = some (v', p')) :
    (p = .asking ∧ v' = { v with stopping := true, registry := .empty } ∧
      p' = .awaiting v.registry.values) ∨
    (∃ loops, p = .awaiting loops ∧ loops.all v.isFinished = true ∧ v' = v ∧ p' = .done) := by
  cases p with
  | asking =>
    obtain ⟨rfl, rfl⟩ := by simpa [Poll.Shutdown.step] using h
    exact Or.inl ⟨rfl, rfl, rfl⟩
  | awaiting loops =>
    simp only [Poll.Shutdown.step] at h
    split at h
    · next hover =>
      obtain ⟨rfl, rfl⟩ := by simpa using h
      exact Or.inr ⟨loops, rfl, hover, rfl, rfl⟩
    · exact absurd h (by simp)
  | done => exact absurd h (by simp [Poll.Shutdown.step])

namespace Service

variable {ρ : Type} {u : Setup} {g : Reader ρ} {s s' : Service} {a : Action ρ} {l : Ledger}
  {tr : List (Service × Action ρ)} {n k : Nat} {r : String} {x : Poll.Loop}

/-! ### What may happen -/

/-- An action that may occur while a service closes: loops are started and take their steps, the
    gateway answers, the card page reports, and there is one shutdown at most. -/
def Action.Closing (s : Service) : Action ρ → Prop
  | .arrive (.attend _) | .arrive (.cardReport _) => True
  | .arrive .shutdown => ∀ c ∈ s.calls.values, c.shutdown? = none
  | .turn _ _ | .reply _ _ _ | .readOnly _ => True
  | .arrive (.topUp _ _) | .arrive (.join _) | .crash _ _ | .leave _ => False

instance (s : Service) (a : Action ρ) : Decidable (a.Closing s) :=
  match a with
  | .arrive .shutdown => inferInstanceAs (Decidable (∀ c ∈ s.calls.values, c.shutdown? = none))
  | .arrive (.attend _) | .arrive (.cardReport _) | .turn _ _ | .reply _ _ _ | .readOnly _ =>
    isTrue trivial
  | .arrive (.topUp _ _) | .arrive (.join _) | .crash _ _ | .leave _ => isFalse id

theorem Action.Closing.ne_leave (h : a.Closing s) (n : Nat) : a ≠ .leave n := by
  rintro rfl
  exact h

/-! ### Marks that were there before -/

/-- The mark that a task holds, or somebody outside of the service: whatever was marked when the
    service began stays with somebody there. -/
def holder? (l : Ledger) (s : Service) : Task ⊕ String → Option String
  | .inl t => s.holds? t
  | .inr r => if l.marked r then some r else none

theorem held_ofLedger (u : Setup) (l : Ledger) :
    Poll.Held (ofLedger u l).ledger (holder? l (ofLedger u l)) := by
  have hnone : ∀ t, (ofLedger u l).holds? t = none := by
    intro t
    cases t <;> simp [holds?, ofLedger, atRest]
  have houtside : ∀ {j r}, holder? l (ofLedger u l) j = some r →
      j = .inr r ∧ l.marked r = true := by
    intro j r hj
    cases j with
    | inl t => exact absurd ((hnone t).symm.trans hj) (by simp)
    | inr r' =>
      obtain ⟨hmarked, rfl⟩ := by simpa [holder?] using hj
      exact ⟨rfl, hmarked⟩
  refine ⟨fun hj hk => (houtside hj).1.trans (houtside hk).1.symm, fun r => ?_⟩
  constructor
  · intro hr
    have hr : l.marked r = true := hr
    exact ⟨.inr r, by simp [holder?, hr]⟩
  · rintro ⟨j, hj⟩
    exact (houtside hj).2

/-! ### The invariant -/

/-- A service that began over `l` and is closing. -/
structure Closing (l : Ledger) (s : Service) : Prop where
  /-- It is regular. -/
  regular : s.Regular
  /-- Its loops have numbers that were given out. -/
  numbered : s.supervisor.Numbered
  /-- Its calls are of the kinds that are made. -/
  plain : ∀ n c, s.calls.find? n = some c → c.isPlain = true
  /-- Each mark is held by one task, or was there before. -/
  held : Poll.Held s.ledger (holder? l s)
  /-- Loops attend to what was not marked before. -/
  own : ∀ n x, s.supervisor.loops.find? n = some x → l.marked x.reference = false
  /-- There is one shutdown at most. -/
  single : ∀ j k p q, s.calls.find? j = some (.shutdown p) → s.calls.find? k = some (.shutdown q) →
    j = k
  /-- The sign to stop is set once a shutdown has asked. -/
  stopping : s.supervisor.stopping = true ↔
    ∃ k p, s.calls.find? k = some (.shutdown p) ∧ p ≠ .asking
  /-- Until then, loops that are not over are registered. -/
  registered : s.supervisor.stopping = false → ∀ n x, s.supervisor.loops.find? n = some x →
    x.isFinished = false → s.supervisor.registry.find? x.reference = some n

theorem closing_ofLedger (u : Setup) (l : Ledger) : Closing l (ofLedger u l) where
  regular := regular_ofLedger u l
  numbered n x hx := absurd hx (by simp [ofLedger, atRest])
  plain n c hc := absurd hc (by simp [ofLedger, atRest])
  held := held_ofLedger u l
  own n x hx := absurd hx (by simp [ofLedger, atRest])
  single j k p q hj := absurd hj (by simp [ofLedger, atRest])
  stopping := by simp [ofLedger, atRest]
  registered _ n x hx := absurd hx (by simp [ofLedger, atRest])

/-! ### One step -/

theorem Closing.plain_step (h : Closing l s) (hs : Step u g s a s') (ha : a.Closing s) {c : Call}
    (hn : s'.calls.find? n = some c) : c.isPlain = true := by
  rcases hs.calls hn with hold | ⟨d, rfl, -, rfl⟩ | hstep
  · exact h.plain n c hold
  · cases d with
    | topUp | join => exact absurd ha id
    | _ => rfl
  · cases hstep with
    | initiate _ hcall | join _ hcall => exact absurd (h.plain n _ hcall) (by simp [Call.isPlain])
    | _ => rfl

/-- The marks pass among the tasks; those that were there before stay where they are. -/
theorem Closing.held_step (h : Closing l s) (hs : Step u g s a s') (ha : a.Closing s) :
    Poll.Held s'.ledger (holder? l s') := by
  have hplain : ∀ n i, s.calls.find? n ≠ some (.initiate i) := by
    intro n i hn
    exact absurd (h.plain n _ hn) (by simp [Call.isPlain])
  have hpasses := hs.passes h.regular h.numbered
    (fun t ht => absurd ht (by simp [committed_eq_nil hplain a]))
    fun n hn => absurd hn (ha.ne_leave n)
  refine h.held.step (hpasses.embed (f := Sum.inl) (fun _ _ => Sum.inl.inj)
    (fun _ => rfl) (fun _ => rfl) fun j hj => ?_)
  cases j with
  | inl t => exact absurd rfl (hj t)
  | inr r => rfl

/-- Nobody of the service holds a mark that was there before. -/
theorem Closing.unmarked_of_holds (h : Closing l s) {t : Task} (ht : s.holds? t = some r) :
    l.marked r = false := by
  cases hr : l.marked r with
  | false => rfl
  | true =>
    have houtside : holder? l s (.inr r) = some r := by simp [holder?, hr]
    have heq : (.inl t : Task ⊕ String) = .inr r := h.held.unique ht houtside
    exact absurd heq (by simp)

theorem Closing.own_step (h : Closing l s) (hs : Step u g s a s')
    (hx : s'.supervisor.loops.find? n = some x) : l.marked x.reference = false := by
  cases hs.loop_cases hx with
  | same hold => exact h.own n x hold
  | spawned _ hnew hk =>
    rw [hnew]
    exact h.unmarked_of_holds hk
  | moved _ hold hmove =>
    rw [hmove.reference_eq]
    exact h.own n _ hold

/-- A shutdown was there before, or has just come in. -/
theorem Step.shutdown_back (hs : Step u g s a s') {p : Poll.Shutdown}
    (hk : s'.calls.find? k = some (.shutdown p)) :
    (∃ q, s.calls.find? k = some (.shutdown q)) ∨
      (a = .arrive .shutdown ∧ k = s.next ∧ p = .asking) := by
  rcases hs.calls hk with hold | ⟨d, rfl, ⟨hnext, -⟩, hc⟩ | hstep
  · exact Or.inl ⟨p, hold⟩
  · cases d with
    | shutdown => exact Or.inr ⟨rfl, hnext, Call.shutdown.inj hc⟩
    | _ => exact absurd hc (by simp [Demand.call])
  · cases hstep with
    | shutdown _ hcall => exact Or.inl ⟨_, hcall⟩

theorem Closing.single_step (h : Closing l s) (hs : Step u g s a s') (ha : a.Closing s)
    {j k : Nat} {p q : Poll.Shutdown} (hj : s'.calls.find? j = some (.shutdown p))
    (hk : s'.calls.find? k = some (.shutdown q)) : j = k := by
  -- a shutdown comes in only if there was none
  have hnew : a = .arrive .shutdown → ∀ i o, s.calls.find? i ≠ some (.shutdown o) := by
    rintro rfl i o hi
    have hmem : Call.shutdown o ∈ s.calls.values :=
      List.mem_map_of_mem (f := Prod.snd) (Dict.mem_of_find? hi)
    exact absurd (ha _ hmem) (by simp [Call.shutdown?])
  rcases hs.shutdown_back hj with ⟨p', hj⟩ | ⟨harrive, rfl, -⟩
  · rcases hs.shutdown_back hk with ⟨q', hk⟩ | ⟨harrive, rfl, -⟩
    · exact h.single j k p' q' hj hk
    · exact absurd hj (hnew harrive j p')
  · rcases hs.shutdown_back hk with ⟨q', hk⟩ | ⟨-, rfl, -⟩
    · exact absurd hk (hnew harrive k q')
    · rfl

/-- The sign to stop is as it was, or a shutdown has asked. -/
theorem Step.stopping_cases (hs : Step u g s a s') :
    s'.supervisor.stopping = s.supervisor.stopping ∨
      (s'.supervisor.stopping = true ∧
        ∃ k, s'.calls.find? k = some (.shutdown (.awaiting s.supervisor.registry.values))) := by
  cases hs with
  | @initiate _ _ _ _ _ _ scene _ _ _ hmove =>
    left
    show scene.supervisor.stopping = s.supervisor.stopping
    cases hmove.handles with
    | start _ _ hstart => exact hstart.stopping
    | commit _ _ _ hsupervisor _ | other _ _ hsupervisor _ => rw [hsupervisor]
  | start _ hmove => exact Or.inl hmove.stopping
  | @join _ _ _ _ _ supervisor _ hstep =>
    left
    show supervisor.stopping = s.supervisor.stopping
    rw [Poll.Join.step_supervisor hstep]
  | @shutdown _ k _ _ _ _ hstep =>
    rcases Poll.Shutdown.step_cases hstep with ⟨-, rfl, rfl⟩ | ⟨_, -, -, rfl, -⟩
    · exact Or.inr ⟨rfl, k, Dict.find?_insert_self _ _ _⟩
    · exact Or.inl rfl
  | _ => exact Or.inl rfl

/-- The sign to stop stays set. -/
theorem Step.stopping (hs : Step u g s a s') (h : s.supervisor.stopping = true) :
    s'.supervisor.stopping = true := by
  rcases hs.stopping_cases with heq | ⟨hset, -⟩
  · exact heq.trans h
  · exact hset

/-- A shutdown that has asked goes on to wait, and to be over. -/
theorem Step.asked (hs : Step u g s a s') (hr : s.Regular) (hleave : a ≠ .leave k)
    {p : Poll.Shutdown} (hk : s.calls.find? k = some (.shutdown p)) (hp : p ≠ .asking) :
    ∃ q, s'.calls.find? k = some (.shutdown q) ∧ q ≠ .asking := by
  by_cases ha : a.task? = some (.call k)
  · obtain ⟨m, q, -, hstep, hk'⟩ := hs.shutdown_moves hk ha
    rcases Poll.Shutdown.step_cases hstep with ⟨-, -, rfl⟩ | ⟨_, -, -, -, rfl⟩
    · exact ⟨_, hk', by simp⟩
    · exact ⟨_, hk', by simp⟩
  · exact ⟨p, hs.call_stays hr hk hleave ha, hp⟩

theorem Closing.stopping_step (h : Closing l s) (hs : Step u g s a s') (ha : a.Closing s) :
    s'.supervisor.stopping = true ↔
      ∃ k p, s'.calls.find? k = some (.shutdown p) ∧ p ≠ .asking := by
  constructor
  · intro hstop
    rcases hs.stopping_cases with heq | ⟨-, k, hk⟩
    · obtain ⟨k, p, hk, hp⟩ := h.stopping.mp (heq.symm.trans hstop)
      exact ⟨k, hs.asked h.regular (ha.ne_leave k) hk hp⟩
    · exact ⟨k, _, hk, by simp⟩
  · rintro ⟨k, p, hk, hp⟩
    rcases hs.shutdown_back hk with ⟨q, hold⟩ | ⟨-, -, rfl⟩
    · by_cases hturn : a.task? = some (.call k)
      · obtain ⟨m, p', -, hstep, hk'⟩ := hs.shutdown_moves hold hturn
        rcases Poll.Shutdown.step_cases hstep with ⟨-, hv, -⟩ | ⟨_, rfl, -, -, -⟩
        · rw [hv]
        · exact hs.stopping (h.stopping.mpr ⟨k, _, hold, by simp⟩)
      · have hstays := hs.call_stays h.regular hold (ha.ne_leave k) hturn
        obtain rfl := Call.shutdown.inj (Option.some.inj (hstays.symm.trans hk))
        exact hs.stopping (h.stopping.mpr ⟨k, q, hold, hp⟩)
    · exact absurd rfl hp

/-- A loop that is started takes the place of none that is not over: that one would have to hold
    the same mark. -/
theorem Closing.registered_spawn (h : Closing l s) {reference : String}
    (hk : s.holds? (.call k) = some reference) (hstop : s.supervisor.stopping = false)
    (hx : (s.supervisor.spawn reference).loops.find? n = some x) (hlive : x.isFinished = false) :
    (s.supervisor.spawn reference).registry.find? x.reference = some n := by
  rw [Poll.Supervisor.spawn, Dict.find?_insert] at hx
  by_cases hn : s.supervisor.next = n
  · rw [if_pos hn] at hx
    obtain rfl := Option.some.inj hx
    rw [Poll.Supervisor.spawn, Dict.find?_insert_self, hn]
  · rw [if_neg hn] at hx
    have hholds : s.holds? (.loop n) = some x.reference :=
      (holds?_of_loop hx).trans (Poll.Loop.holds?_of_not_finished hlive)
    have hne : reference ≠ x.reference := by
      rintro rfl
      have heq : (.inl (.call k) : Task ⊕ String) = .inl (.loop n) := h.held.unique hk hholds
      exact absurd heq (by simp)
    rw [Poll.Supervisor.spawn, Dict.find?_insert_ne _ _ hne]
    refine Dict.find?_filter_of_keep _ _ (h.registered hstop n x hx hlive) ?_
    simp [Poll.Supervisor.isFinished, hx, hlive]

theorem Closing.registered_step (h : Closing l s) (hs : Step u g s a s')
    (hstop' : s'.supervisor.stopping = false) (hx : s'.supervisor.loops.find? n = some x)
    (hlive : x.isFinished = false) : s'.supervisor.registry.find? x.reference = some n := by
  have hstop : s.supervisor.stopping = false := by
    cases hset : s.supervisor.stopping with
    | false => rfl
    | true => exact absurd ((hs.stopping hset).symm.trans hstop') (by simp)
  cases hs with
  | initiate _ hcall | join hcall =>
    exact absurd (h.plain _ _ hcall) (by simp [Call.isPlain])
  | @start m k reference p p' store supervisor hcall hmove =>
    have hx : supervisor.loops.find? n = some x := hx
    show supervisor.registry.find? x.reference = some n
    cases hmove with
    | spawn => exact h.registered_spawn (k := k) (holds?_of_call hcall) hstop hx hlive
    | _ => exact h.registered hstop n x hx hlive
  | @shutdown _ _ _ _ supervisor _ hstep =>
    rcases Poll.Shutdown.step_cases hstep with ⟨-, rfl, -⟩ | ⟨_, -, -, rfl, -⟩
    · exact absurd (show true = false from hstop') (by simp)
    · exact h.registered hstop n x hx hlive
  | @loop _ m k e x₀ x' store limiter hgives hloop hmove =>
    have hput : (s.supervisor.loops.insert k x').find? n = some x := hx
    show s.supervisor.registry.find? x.reference = some n
    rw [Dict.find?_insert] at hput
    by_cases hk : k = n
    · rw [if_pos hk] at hput
      obtain rfl := Option.some.inj hput
      rw [hmove.reference_eq, ← hk]
      exact h.registered hstop k x₀ hloop hmove.isFinished
    · rw [if_neg hk] at hput
      exact h.registered hstop n x hput hlive
  | _ => exact h.registered hstop n x hx hlive

theorem Closing.step (h : Closing l s) (hs : Step u g s a s') (ha : a.Closing s) :
    Closing l s' where
  regular := h.regular.step hs
  numbered := hs.numbered h.numbered
  plain _ _ hc := h.plain_step hs ha hc
  held := h.held_step hs ha
  own _ _ hx := h.own_step hs hx
  single _ _ _ _ hj hk := h.single_step hs ha hj hk
  stopping := h.stopping_step hs ha
  registered hstop _ _ hx hlive := h.registered_step hs hstop hx hlive

/-- A service that begins over `l` and does nothing else is closing. -/
theorem closing_of_run (h : Run (act u g) (ofLedger u l) tr s)
    (hclosing : ∀ e ∈ tr, e.2.Closing e.1) : Closing l s := by
  induction h with
  | nil => exact closing_ofLedger u l
  | @snoc tr s s' a hrun hact ih =>
    have hs : Closing l s := ih fun e he => hclosing e (List.mem_append_left _ he)
    exact hs.step (step_of_act hs.regular.faults hact) (hclosing (s, a) (by simp))

end Service

end TopUp
