import TopUp.Proofs.Poll.Budget
import TopUp.Proofs.Service.Tasks

/-! # The gateway budget of a service

    Of all tasks of a service only its poll loops use the gateway budget. So whatever
    happens to the service, and in whatever order, its books agree with its loops
    (`Step.budgeted`): never more inquiries of loops are in flight than there are slots, no
    loop holds two, and once no loop is within an inquiry all slots are free
    (`loops_within_budget`).
-/

namespace TopUp

open TopUp.Data TopUp.Store

/-- The start of a loop leaves the budget alone. -/
theorem Poll.Start.Move.budgeted {reference : String} {v v' : Poll.Supervisor} {s s' : Store}
    {p p' : Poll.Start} {c : Nat} {l : Poll.Limiter}
    (h : Poll.Start.Move reference v s p v' s' p') (hv : v.Numbered)
    (hb : Poll.Budgeted c l v.loops) : Poll.Budgeted c l v'.loops := by
  cases h with
  | spawn => exact hb.spawn hv.find?_next rfl
  | _ => exact hb

namespace Service

variable {ρ : Type} {u : Setup} {g : Reader ρ} {s s' : Service} {a : Action ρ} {l : Ledger}
  {tr : List (Service × Action ρ)} {c : Nat}

/-- Every action keeps the books of the limiter. -/
theorem Step.budgeted (h : Step u g s a s') (hv : s.supervisor.Numbered)
    (hb : Poll.Budgeted c s.limiter s.supervisor.loops) :
    Poll.Budgeted c s'.limiter s'.supervisor.loops := by
  cases h with
  | @initiate _ m n e i ta scene p hgives hcall hmove =>
    -- a call touches the loops only where it starts one
    show Poll.Budgeted c s.limiter scene.supervisor.loops
    cases hmove.handles with
    | start _ _ hstart => exact hstart.budgeted hv hb
    | commit _ _ _ hsupervisor _ => exact hsupervisor ▸ hb
    | other _ _ hsupervisor _ => exact hsupervisor ▸ hb
  | start _ hmove => exact hmove.budgeted hv hb
  | @join _ _ _ _ _ supervisor _ hstep =>
    show Poll.Budgeted c s.limiter supervisor.loops
    rw [Poll.Join.step_supervisor hstep]
    exact hb
  | @shutdown _ _ _ _ supervisor _ hstep =>
    show Poll.Budgeted c s.limiter supervisor.loops
    rw [Poll.Shutdown.step_supervisor hstep]
    exact hb
  | loop _ hloop hmove => exact hb.move hloop hmove
  | _ => exact hb

/-- In the course of a run the books of the limiter always agree with the loops. -/
theorem budgeted_of_run (h : Run (act u g) (ofLedger u l) tr s) :
    Poll.Budgeted (max u.pace.maxConcurrent 1) s.limiter s.supervisor.loops := by
  induction h with
  | nil => exact Poll.budgeted_ofCapacity u.pace.maxConcurrent
  | snoc hrun hact ih =>
    have hs := step_of_act (regular_of_run hrun).faults hact
    exact hs.budgeted (numbered_of_run hrun) ih

/-! ### Who holds which slots -/

/-- The inquiries of loops that are in flight. -/
def inquiries (s : Service) : Nat := s.supervisor.loops.values.countP Poll.Loop.isInquiring

/-- The slots that loops are giving back. -/
def returns (s : Service) : Nat := s.supervisor.loops.values.countP Poll.Loop.isReturning

/-- The slots that the loop of a number holds: those it was granted, and the one that it uses
    or is giving back. -/
def slots (s : Service) (n : Nat) : Nat :=
  s.limiter.granted.count n +
    ((s.supervisor.loops.find? n).any fun x => x.isInquiring || x.isReturning).toNat

/-- A loop holds one slot at most. -/
theorem slots_le_one (h : Poll.Budgeted c s.limiter s.supervisor.loops) (n : Nat) :
    s.slots n ≤ 1 := by
  have honce : s.limiter.granted.count n ≤ 1 := by
    have hnodup : s.limiter.granted.Nodup := h.once.sublist (List.sublist_append_left _ _)
    exact List.nodup_iff_count.mp hnodup n
  by_cases hg : n ∈ s.limiter.granted
  · -- whoever was granted a slot still waits, so it uses none
    obtain ⟨x, hx, hqueue⟩ := (h.asked n).mp (List.mem_append_left _ hg)
    have hphase : x.phase = .slotWait := by simpa [Poll.Loop.isQueuing] using hqueue
    have hnone : (x.isInquiring || x.isReturning) = false := by
      simp [Poll.Loop.isInquiring, Poll.Loop.isReturning, hphase]
    rw [slots, hx, Option.any_some, hnone]
    exact honce
  · rw [slots, List.count_eq_zero_of_not_mem hg, Nat.zero_add]
    exact Bool.toNat_le _

/-- A loop that holds a slot is within an inquiry. -/
theorem isPolling_of_slots (h : Poll.Budgeted c s.limiter s.supervisor.loops) {n : Nat}
    (hn : s.slots n ≠ 0) :
    ∃ x, s.supervisor.loops.find? n = some x ∧ x.isPolling = true := by
  by_cases hg : n ∈ s.limiter.granted
  · obtain ⟨x, hx, hqueue⟩ := (h.asked n).mp (List.mem_append_left _ hg)
    exact ⟨x, hx, by simp [Poll.Loop.isPolling, hqueue]⟩
  · rw [slots, List.count_eq_zero_of_not_mem hg, Nat.zero_add] at hn
    -- the summand that is left looks at where the loop stands
    obtain ⟨x, hx, huses⟩ := (Option.any_eq_true _ _).mp (by simpa using hn)
    refine ⟨x, hx, ?_⟩
    rw [Poll.Loop.isPolling, Bool.or_assoc, huses, Bool.or_true]

/-! ### The budget -/

/-- Whatever happens to a service, and in whatever order: the loops never have more inquiries in
    flight than there are slots, of which there is at least one; a loop holds one slot at most,
    and none outside of an inquiry; every slot is free, granted, in use or on its way back; and
    while no loop is within an inquiry none is in use and all are free. -/
theorem loops_within_budget (h : Run (act u g) (ofLedger u l) tr s) :
    s.limiter.capacity = max u.pace.maxConcurrent 1 ∧
    s.inquiries ≤ max u.pace.maxConcurrent 1 ∧ s.limiter.inUse = s.inquiries ∧
    (∀ n, s.slots n ≤ 1 ∧
      (s.slots n ≠ 0 → ∃ x, s.supervisor.loops.find? n = some x ∧ x.isPolling = true)) ∧
    s.limiter.permits + s.limiter.granted.length + s.inquiries + s.returns = s.limiter.capacity ∧
    ((∀ n x, s.supervisor.loops.find? n = some x → x.isPolling = false) →
      s.limiter.inUse = 0 ∧ s.limiter.permits = s.limiter.capacity) := by
  have hb := budgeted_of_run h
  have hinUse : s.limiter.inUse = s.inquiries := hb.inUse
  have hreturning : s.limiter.returning = s.returns := hb.returning
  have hbalance : s.limiter.permits + s.limiter.granted.length + s.inquiries + s.returns =
      s.limiter.capacity := by
    rw [← hinUse, ← hreturning, hb.capacity]
    exact hb.balance
  have hcapacity := hb.capacity
  refine ⟨hcapacity, by omega, hinUse, fun n => ⟨slots_le_one hb n, isPolling_of_slots hb⟩,
    hbalance, fun hquiet => ?_⟩
  -- nobody uses a slot, and nobody has asked for one
  have hinquiries : s.inquiries = 0 :=
    Dict.countP_eq_zero hb.distinct fun n x hx =>
      (Poll.Loop.isPolling_eq_false.mp (hquiet n x hx)).2.1
  have hreturns : s.returns = 0 :=
    Dict.countP_eq_zero hb.distinct fun n x hx =>
      (Poll.Loop.isPolling_eq_false.mp (hquiet n x hx)).2.2
  have hgranted : s.limiter.granted = [] := by
    rw [List.eq_nil_iff_forall_not_mem]
    intro n hn
    obtain ⟨x, hx, hqueue⟩ := (hb.asked n).mp (List.mem_append_left _ hn)
    have hidle := (Poll.Loop.isPolling_eq_false.mp (hquiet n x hx)).1
    exact absurd (hqueue.symm.trans hidle) (by simp)
  rw [hgranted, List.length_nil] at hbalance
  constructor
  · omega
  · omega

/-- A service that asks for no slots has one all the same. -/
def narrow : Setup :=
  { plain with pace := { interval := 1, deadline := 10, maxConcurrent := 0 } }

/-- Two loops are started and ask for the one slot: the first inquires, the second waits. -/
def crowding : List (Action (Except Gateway.Failure Gateway.Outcome)) :=
  let turn (k : Nat) (t : Task) := Action.turn (moment k) t
  [.arrive (.attend "T1"), turn 0 (.call 0), turn 0 (.call 0), turn 0 (.call 0),
    .arrive (.attend "T2"), turn 0 (.call 1), turn 0 (.call 1), turn 0 (.call 1),
    turn 0 (.loop 0), turn 0 (.loop 1), turn 0 (.loop 0), turn 0 (.loop 1),
    turn 1 (.loop 0), turn 1 (.loop 1), turn 1 (.loop 0)]

/-- The deadline comes before an answer for the first loop, and before a slot for the second;
    then the slot of the first comes back. -/
def dispersing : List (Action (Except Gateway.Failure Gateway.Outcome)) :=
  let turn (k : Nat) (t : Task) := Action.turn (moment k) t
  [turn 10 (.loop 0), turn 10 (.loop 1), turn 10 (.loop 0)]

/-- The loops share the one slot in turn, and leave it free. -/
theorem crowding_within_budget :
    let start := ofLedger narrow ((({} : Ledger).put (unattended "T1" 1)).put (unattended "T2" 2))
    let crowded := Run.play (act narrow literally) crowding start
    let dispersed := Run.play (act narrow literally) (crowding ++ dispersing) start
    crowded.2.inquiries = 1 ∧ crowded.2.slots 0 = 1 ∧ crowded.2.limiter.queue = [1] ∧
      crowded.2.inquiries ≤ max 0 1 ∧ crowded.2.limiter.permits = 0 ∧
      dispersed.2.limiter.inUse = 0 ∧ dispersed.2.limiter.permits = 1 := by
  intro start crowded dispersed
  have hcrowded : Run (act narrow literally) start crowded.1 crowded.2 := Run.of_play crowding start
  have hdispersed : Run (act narrow literally) start dispersed.1 dispersed.2 :=
    Run.of_play (crowding ++ dispersing) start
  obtain ⟨-, hbound, -⟩ := loops_within_budget hcrowded
  obtain ⟨hcapacity, -, -, -, -, hquiet⟩ := loops_within_budget hdispersed
  have hidle : ∀ e ∈ dispersed.2.supervisor.loops.entries, e.2.isPolling = false := by
    decide +kernel
  obtain ⟨hinUse, hpermits⟩ := hquiet fun n x hx => hidle (n, x) (Dict.mem_of_find? hx)
  exact ⟨by decide +kernel, by decide +kernel, by decide +kernel, hbound, by decide +kernel, hinUse,
    hpermits.trans hcapacity⟩

end Service

end TopUp
