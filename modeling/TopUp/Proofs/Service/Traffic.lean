import TopUp.Proofs.Service.Machine

/-! # The traffic of a service on its store

    Seen from its store, a service is traffic: the calls that initiate top-ups have
    units of work, and each action of the service is one action on the store
    (`Service.Step.traffic`). A unit of work makes transactions of its own key only, so
    the traffic of a service is orderly, and what is known of orderly traffic is known
    of every run of a service.
-/

namespace TopUp.Service

open TopUp.Data TopUp.Store

variable {ρ : Type} {u : Setup} {g : Reader ρ} {s s' : Service} {a : Action ρ} {l : Ledger}
  {tr : List (Service × Action ρ)}

/-- The traffic on the store of a service. -/
def traffic (s : Service) : Traffic :=
  { memory := s.store.memory, units := fun n => (s.calls.find? n).bind Call.unit? }

/-- The stored transactions. -/
abbrev ledger (s : Service) : Ledger := s.store.memory.ledger

/-- The transaction that an action makes and submits to the gateway. -/
def made? (u : Setup) (s : Service) : Action ρ → Option Transaction
  | .turn m (.call n) =>
    match s.calls.find? n with
    | some (.initiate i) => i.made? u.calls m s.store
    | _ => none
  | _ => none

/-- The transactions that an action commits. -/
def committed (s : Service) : Action ρ → List Transaction
  | .turn _ (.call n) =>
    match s.calls.find? n with
    | some (.initiate i) => i.committed
    | _ => []
  | _ => []

/-- The status write that an action asks for. -/
def written? (s : Service) : Action ρ → Option (String × Status)
  | .turn _ (.call n) =>
    match s.calls.find? n with
    | some (.initiate i) => i.written?
    | some (.cardReport p) => p.storeAction.written?
    | _ => none
  | .turn _ (.loop n) => (s.supervisor.loops.find? n).bind fun x => x.storeAction.written?
  | _ => none

/-- The store has no faults, and calls have numbers that were given out. -/
structure Regular (s : Service) : Prop where
  /-- The store has no faults. -/
  faults : s.store.faults = []
  /-- The number of a call was given out. -/
  numbers : ∀ n c, s.calls.find? n = some c → n < s.next

theorem regular_ofLedger (u : Setup) (l : Ledger) : (ofLedger u l).Regular :=
  ⟨rfl, fun _ _ h => absurd h (by simp [ofLedger, atRest])⟩

/-- The number of the next call has not been given out. -/
theorem Regular.find?_next (h : s.Regular) : s.calls.find? s.next = none := by
  cases hfind : s.calls.find? s.next with
  | none => rfl
  | some c => exact absurd (h.numbers _ c hfind) (Nat.lt_irrefl _)

/-- A service that makes no transactions commits none. -/
theorem committed_eq_nil (hplain : ∀ n i, s.calls.find? n ≠ some (.initiate i)) (a : Action ρ) :
    s.committed a = [] := by
  unfold Service.committed
  split
  · split
    · next i hcall => exact absurd hcall (hplain _ i)
    · rfl
  · rfl

/-! ### Units of work -/

theorem units_of_call {n : Nat} {c : Call} (h : s.calls.find? n = some c) :
    s.traffic.units n = c.unit? := by
  simp [traffic, h]

/-- What a call that was replaced leaves of the traffic. -/
theorem traffic_put (s : Service) (store : Store) (v : Poll.Supervisor) (n : Nat) (c : Call) :
    ({ s with store, supervisor := v }.put n c).traffic =
      ({ s.traffic with memory := store.memory }).setUnit n c.unit? := by
  have hunits : ∀ m, ((s.calls.insert n c).find? m).bind Call.unit? =
      if m = n then c.unit? else (s.calls.find? m).bind Call.unit? := by
    intro m
    rw [Dict.find?_insert]
    by_cases hm : m = n
    · subst hm
      simp
    · simp [hm, Ne.symm hm]
  simp [traffic, put, Traffic.setUnit, hunits]

/-- A call without a unit of work leaves the units as they are. -/
theorem traffic_put_none (store : Store) (v : Poll.Supervisor) {n : Nat} {c c' : Call}
    (hcall : s.calls.find? n = some c) (hc : c.unit? = none) (hc' : c'.unit? = none) :
    ({ s with store, supervisor := v }.put n c').traffic =
      { s.traffic with memory := store.memory } := by
  have hunit : s.traffic.units n = none := by rw [units_of_call hcall, hc]
  rw [traffic_put, hc', ← hunit]
  exact Traffic.setUnit_units { s.traffic with memory := store.memory } n

theorem traffic_erase (s : Service) (store : Store) (n : Nat) :
    ({ s with store, calls := s.calls.erase n } : Service).traffic =
      ({ s.traffic with memory := store.memory }).setUnit n none := by
  have hunits : ∀ m, ((s.calls.erase n).find? m).bind Call.unit? =
      if m = n then none else (s.calls.find? m).bind Call.unit? := by
    intro m
    rw [Dict.find?_erase]
    by_cases hm : m = n
    · subst hm
      simp
    · simp [hm, Ne.symm hm]
  simp [traffic, Traffic.setUnit, hunits]

/-- A call that has just been made has no unit of work. -/
theorem unit?_call (client : Gateway.Client) (d : Demand) : (d.call client).unit? = none := by
  cases d with
  | topUp user request =>
    simp only [Demand.call, Call.unit?, Initiation.ofRequest]
    cases request.validate <;> rfl
  | _ => rfl

/-! ### One action -/

/-- What an action of a service is to its store. -/
structure Projects (u : Setup) (s : Service) (a : Action ρ) (s' : Service) (ta : Traffic.Action) :
    Prop where
  /-- It is an action on the store. -/
  step : Traffic.Step s.traffic ta s'.traffic
  /-- It is about the key of its unit of work. -/
  ownKey : ta.OwnKey s.traffic
  /-- It makes the same transaction. -/
  made : s.traffic.created? ta = s.made? u a
  /-- It commits the same transactions. -/
  committed : s.traffic.committed ta = s.committed a
  /-- It writes no other status. -/
  written : ∀ w, ta.written? = some w → s.written? a = some w

/-- An action that neither makes nor commits a transaction. -/
theorem projects_of_quiet {ta : Traffic.Action} (h : Traffic.act ta s.traffic = some s'.traffic)
    (hown : ∀ n new id now, ta ≠ .create n new id now) (hcommit : ∀ n, ta ≠ .commit n)
    (hmade : s.made? u a = none) (hcommitted : s.committed a = [])
    (hwritten : ∀ w, ta.written? = some w → s.written? a = some w) : Projects u s a s' ta := by
  refine ⟨Traffic.step_of_act h, ?_, ?_, ?_, hwritten⟩
  · cases ta with
    | create n new id now => exact absurd rfl (hown n new id now)
    | _ => trivial
  · rw [hmade]
    cases ta with
    | create n new id now => exact absurd rfl (hown n new id now)
    | _ => rfl
  · rw [hcommitted, Traffic.committed_eq_nil hcommit]

/-- Each action of a service is an action on its store. -/
theorem Step.traffic (h : Step u g s a s') (hr : s.Regular) : ∃ ta, Projects u s a s' ta := by
  cases h with
  | arrive d =>
    -- the number of a new call was free, and the call has no unit of work yet
    refine ⟨.read, projects_of_quiet ?_ (by simp) (by simp) rfl rfl
      (by simp [Traffic.Action.written?])⟩
    have hnone : s.calls.find? s.next = none := hr.find?_next
    have hput : (s.put s.next (d.call u.client)).traffic =
        s.traffic.setUnit s.next none := by
      rw [← unit?_call u.client d]
      exact traffic_put s s.store s.supervisor s.next (d.call u.client)
    have hunit : s.traffic.units s.next = none := by simp [Service.traffic, hnone]
    rw [← hunit, Traffic.setUnit_units] at hput
    exact congrArg some hput.symm
  | @initiate _ m n e i ta scene p hgives hcall hmove =>
    -- the one kind of call that has a unit of work
    have hx : s.traffic.units n = i.unit? := units_of_call hcall
    have hm : s.traffic.memory = s.store.memory := rfl
    have hact := hmove.act hm hx
    refine ⟨ta, ?_, hmove.ownKey hx, ?_, ?_, fun w hw => ?_⟩
    · apply Traffic.step_of_act
      rw [hact, traffic_put]
      rfl
    · rw [hmove.created? hr.faults hm hx]
      cases hgives with
      | turn => simp [made?, hcall]
      | reply => exact (hmove.quiet (by simp)).1
      | crash => cases hmove
    · rw [hmove.committed hx]
      cases hgives with
      | turn => simp [Service.committed, hcall]
      | reply => exact (hmove.quiet (by simp)).2.1
      | crash => cases hmove
    · have hphase := hmove.written? hw
      cases hgives with
      | turn => simp [Service.written?, hcall, hphase]
      | reply => exact absurd hphase (by simp [(hmove.quiet (by simp)).2.2])
      | crash => cases hmove
  | @report m n p p' store hcall hstep =>
    obtain ⟨-, -, hact⟩ := CardCallback.step_spec (u := s.traffic.units) hr.faults hstep
    refine ⟨p.storeAction, projects_of_quiet ?_ ?_ ?_ (by simp [made?, hcall])
      (by simp [Service.committed, hcall]) (by simp [Service.written?, hcall])⟩
    · rw [traffic_put_none store s.supervisor hcall rfl rfl]
      exact hact
    · cases p <;> simp [CardCallback.Phase.storeAction]
    · cases p <;> simp [CardCallback.Phase.storeAction]
  | @start m n reference p p' store supervisor hcall hmove =>
    refine ⟨p.storeAction reference, projects_of_quiet ?_ ?_ ?_ (by simp [made?, hcall])
      (by simp [Service.committed, hcall]) ?_⟩
    · rw [traffic_put_none store supervisor hcall rfl rfl]
      exact hmove.act
    · cases p <;> simp [Poll.Start.storeAction]
    · cases p <;> simp [Poll.Start.storeAction]
    · cases p <;> simp [Poll.Start.storeAction, Traffic.Action.written?]
  | @join m n reference p p' supervisor hcall hstep =>
    refine ⟨.read, projects_of_quiet ?_ (by simp) (by simp) (by simp [made?, hcall])
      (by simp [Service.committed, hcall]) (by simp [Traffic.Action.written?])⟩
    exact congrArg some (traffic_put_none s.store supervisor hcall rfl rfl).symm
  | @shutdown m n p p' supervisor hcall hstep =>
    refine ⟨.read, projects_of_quiet ?_ (by simp) (by simp) (by simp [made?, hcall])
      (by simp [Service.committed, hcall]) (by simp [Traffic.Action.written?])⟩
    exact congrArg some (traffic_put_none s.store supervisor hcall rfl rfl).symm
  | @loop _ m n e x x' store limiter hgives hloop hmove =>
    refine ⟨x.storeAction, projects_of_quiet hmove.act ?_ ?_ ?_ ?_ fun w hw => ?_⟩
    · unfold Poll.Loop.storeAction
      split <;> simp
    · unfold Poll.Loop.storeAction
      split <;> simp
    · cases hgives <;> rfl
    · cases hgives <;> rfl
    · -- a loop that writes has its turn, which `written?` sees
      have hturn := hmove.turn_of_written hw
      cases hgives with
      | turn => simp [Service.written?, hloop, hw]
      | reply => exact absurd hturn (by simp)
      | crash => exact absurd hturn (by simp)
  | @drop n c w hcall hover hunit =>
    refine ⟨.drop n, projects_of_quiet ?_ (by simp) (by simp) rfl rfl
      (by simp [Traffic.Action.written?])⟩
    have hx : s.traffic.units n = some w := (units_of_call hcall).trans hunit
    rw [traffic_erase, Traffic.act, hx]
    rfl
  | @leave n c hcall hover hunit =>
    refine ⟨.read, projects_of_quiet ?_ (by simp) (by simp) rfl rfl
      (by simp [Traffic.Action.written?])⟩
    have hx : s.traffic.units n = none := (units_of_call hcall).trans hunit
    have herase := traffic_erase s s.store n
    rw [← hx] at herase
    rw [herase]
    exact congrArg some (Traffic.setUnit_units s.traffic n).symm
  | readOnly on =>
    exact ⟨.readOnly on, projects_of_quiet rfl (by simp) (by simp) rfl rfl
      (by simp [Traffic.Action.written?])⟩

end TopUp.Service
