import TopUp.Proofs.Call.CardCallback
import TopUp.Proofs.Call.Initiation
import TopUp.Service

/-! # The service as a machine

    Whatever happens to a service is a sequence of actions: a request comes in, a task
    takes its turn, the gateway answers a task, a task that calls the gateway is killed,
    a caller goes away, status writes are switched off or on. `Service.act` is one
    action; a run of it is any interleaving of any number of calls and loops.

    What an answer of the gateway says is left open: a `Reader` makes an outcome of it.
    `Service.Step` lists once what an action can do to a service over a store without
    faults.
-/

namespace TopUp

open TopUp.Data TopUp.Store

/-- What is asked of a service. -/
inductive Demand where
  /-- A customer asks for a top-up. -/
  | topUp (user : Uuid) (request : Request)
  /-- The hosted card page posts fields. -/
  | cardReport (posted : FieldMap)
  /-- A poll loop is to attend to a transaction. -/
  | attend (reference : String)
  /-- The end of a poll loop is waited for. -/
  | join (reference : String)
  /-- All poll loops are to end. -/
  | shutdown

/-- The call that a demand is dealt with by. -/
def Demand.call (client : Gateway.Client) : Demand → Call
  | .topUp user request => .initiate (.ofRequest user request)
  | .cardReport posted => .cardReport (CardCallback.ofPosted client posted)
  | .attend reference => .start reference .checking
  | .join reference => .join reference .looking
  | .shutdown => .shutdown .asking

/-- How answers to the exchanges of a service are read. -/
abbrev Reader (ρ : Type) := Exchange → ρ → Except Gateway.Failure Gateway.Outcome

/-- The unit of work of a call, open or on its way. -/
def Call.unit? : Call → Option UnitOfWork
  | .initiate i => i.unit?
  | _ => none

namespace Service

variable {ρ : Type}

/-- A service at rest over the given transactions. -/
def ofLedger (u : Setup) (l : Ledger) : Service := { atRest u with store.memory.ledger := l }

/-- What can happen to a service. -/
inductive Action (ρ : Type) where
  /-- Something is asked of it. -/
  | arrive (d : Demand)
  /-- A task takes its turn. -/
  | turn (m : Moment) (t : Task)
  /-- The gateway answers a task. -/
  | reply (m : Moment) (t : Task) (r : ρ)
  /-- A task is killed while it calls the gateway. -/
  | crash (m : Moment) (t : Task)
  /-- The caller of a call goes away before it is over. -/
  | leave (n : Nat)
  /-- Status writes are switched off or on. -/
  | readOnly (on : Bool)

/-- A call is given up where it stands: its unit of work is dropped. -/
def leave (s : Service) (n : Nat) : Option Service :=
  match s.calls.find? n with
  | some c =>
    if c.isOver then none
    else
      let store := match c.unit? with
        | some w => s.store.leaveLock w.lock n
        | none => s.store
      some { s with store, calls := s.calls.erase n }
  | none => none

/-- One action, if it is possible. -/
def act (u : Setup) (g : Reader ρ) : Action ρ → Service → Option Service
  | .arrive d, s => some (s.begin (d.call u.client)).2
  | .turn m t, s => s.step u m t .turn
  | .reply m t r, s => (s.exchange? t).bind fun x => s.step u m t (.answer (g x r))
  | .crash m t, s => s.step u m t .crash
  | .leave n, s => s.leave n
  | .readOnly on, s => some { s with store.memory.readOnly := on }

/-- An action that makes a task take a step, with what the task is given. -/
inductive Action.Gives (g : Reader ρ) (s : Service) : Action ρ → Moment → Task → Event → Prop where
  /-- The task has its turn. -/
  | turn (m : Moment) (t : Task) : Gives g s (.turn m t) m t .turn
  /-- The gateway has answered. -/
  | reply {m : Moment} {t : Task} {r : ρ} {x : Exchange} (hx : s.exchange? t = some x) :
      Gives g s (.reply m t r) m t (.answer (g x r))
  /-- The task is killed. -/
  | crash (m : Moment) (t : Task) : Gives g s (.crash m t) m t .crash

/-- What an action can do to a service over a store without faults. -/
inductive Step (u : Setup) (g : Reader ρ) (s : Service) : Action ρ → Service → Prop where
  /-- A call begins. -/
  | arrive (d : Demand) : Step u g s (.arrive d) (s.begin (d.call u.client)).2
  /-- An initiation takes a step. -/
  | initiate {a : Action ρ} {m : Moment} {n : Nat} {e : Event} {i : Initiation}
      {ta : Traffic.Action} {scene : Initiation.Scene} {p : Initiation.Phase}
      (hgives : a.Gives g s m (.call n) e) (hcall : s.calls.find? n = some (.initiate i))
      (hmove : Initiation.Move u.calls u.page m n ⟨s.store, s.supervisor⟩ i e ta scene p) :
      Step u g s a ({ s with store := scene.store, supervisor := scene.supervisor }.put n
        (.initiate { i with phase := p }))
  /-- A report of the card page takes a step. -/
  | report {m : Moment} {n : Nat} {p p' : CardCallback.Phase} {store : Store}
      (hcall : s.calls.find? n = some (.cardReport p))
      (hstep : CardCallback.step s.store p = some (store, p')) :
      Step u g s (.turn m (.call n)) ({ s with store }.put n (.cardReport p'))
  /-- The start of a poll loop takes a step. -/
  | start {m : Moment} {n : Nat} {reference : String} {p p' : Poll.Start} {store : Store}
      {supervisor : Poll.Supervisor} (hcall : s.calls.find? n = some (.start reference p))
      (hmove : Poll.Start.Move reference s.supervisor s.store p supervisor store p') :
      Step u g s (.turn m (.call n)) ({ s with supervisor, store }.put n (.start reference p'))
  /-- Somebody waits for the end of a poll loop. -/
  | join {m : Moment} {n : Nat} {reference : String} {p p' : Poll.Join}
      {supervisor : Poll.Supervisor} (hcall : s.calls.find? n = some (.join reference p))
      (hstep : p.step reference s.supervisor = some (supervisor, p')) :
      Step u g s (.turn m (.call n)) ({ s with supervisor }.put n (.join reference p'))
  /-- A shutdown takes a step. -/
  | shutdown {m : Moment} {n : Nat} {p p' : Poll.Shutdown} {supervisor : Poll.Supervisor}
      (hcall : s.calls.find? n = some (.shutdown p))
      (hstep : p.step s.supervisor = some (supervisor, p')) :
      Step u g s (.turn m (.call n)) ({ s with supervisor }.put n (.shutdown p'))
  /-- A poll loop takes a step. -/
  | loop {a : Action ρ} {m : Moment} {n : Nat} {e : Event} {x x' : Poll.Loop} {store : Store}
      {limiter : Poll.Limiter} (hgives : a.Gives g s m (.loop n) e)
      (hloop : s.supervisor.loops.find? n = some x)
      (hmove : Poll.Loop.Move u.pace s.supervisor.stopping m.now n s.store s.limiter x e store
        limiter x') :
      Step u g s a { s with supervisor := s.supervisor.put n x', store, limiter }
  /-- A caller goes away whose call has a unit of work. -/
  | drop {n : Nat} {c : Call} {w : UnitOfWork} (hcall : s.calls.find? n = some c)
      (hover : c.isOver = false) (hunit : c.unit? = some w) :
      Step u g s (.leave n) { s with store := s.store.leaveLock w.lock n, calls := s.calls.erase n }
  /-- A caller goes away whose call has none. -/
  | leave {n : Nat} {c : Call} (hcall : s.calls.find? n = some c) (hover : c.isOver = false)
      (hunit : c.unit? = none) : Step u g s (.leave n) { s with calls := s.calls.erase n }
  /-- Status writes are switched off or on. -/
  | readOnly (on : Bool) : Step u g s (.readOnly on) { s with store.memory.readOnly := on }

variable {u : Setup} {g : Reader ρ} {s s' : Service} {a : Action ρ}

theorem Action.Gives.of_turn {m : Moment} {t : Task} (h : a.Gives g s m t .turn) :
    a = .turn m t := by
  cases h
  rfl

/-- An answer that a task is given is how the gateway's answer to its exchange is read. -/
theorem Action.Gives.of_answer {m : Moment} {t : Task}
    {result : Except Gateway.Failure Gateway.Outcome} (h : a.Gives g s m t (.answer result)) :
    ∃ d x, a = .reply m t d ∧ s.exchange? t = some x ∧ g x d = result := by
  generalize he : Event.answer result = e at h
  cases h with
  | @reply _ _ d x hx => exact ⟨d, x, rfl, hx, (Event.answer.inj he).symm⟩
  | turn => exact absurd he (by simp)
  | crash => exact absurd he (by simp)

theorem step_of_stepCall {m : Moment} {n : Nat} {e : Event} (hf : s.store.faults = [])
    (hgives : a.Gives g s m (.call n) e) (h : s.stepCall u m n e = some s') : Step u g s a s' := by
  simp only [stepCall, Option.bind_eq_bind, Option.bind_eq_some_iff] at h
  obtain ⟨c, hcall, h⟩ := h
  -- an initiation takes turns and answers; all other calls take turns only
  cases c with
  | initiate i =>
    simp only [Option.bind_eq_some_iff, Prod.exists, Option.some.injEq] at h
    obtain ⟨scene, p, hstep, rfl⟩ := h
    obtain ⟨ta, hmove⟩ := Initiation.move_of_step hf hstep
    exact .initiate hgives hcall hmove
  | cardReport p =>
    cases hgives with
    | turn =>
      simp only [Option.bind_eq_some_iff, Prod.exists, Option.some.injEq] at h
      obtain ⟨store, p', hstep, rfl⟩ := h
      exact .report hcall hstep
    | _ => exact absurd h (by simp)
  | start reference p =>
    cases hgives with
    | turn =>
      simp only [Option.bind_eq_some_iff, Prod.exists, Option.some.injEq] at h
      obtain ⟨supervisor, store, p', hstep, rfl⟩ := h
      exact .start hcall (Poll.Start.move_of_step hf hstep)
    | _ => exact absurd h (by simp)
  | join reference p =>
    cases hgives with
    | turn =>
      simp only [Option.bind_eq_some_iff, Prod.exists, Option.some.injEq] at h
      obtain ⟨supervisor, p', hstep, rfl⟩ := h
      exact .join hcall hstep
    | _ => exact absurd h (by simp)
  | shutdown p =>
    cases hgives with
    | turn =>
      simp only [Option.bind_eq_some_iff, Prod.exists, Option.some.injEq] at h
      obtain ⟨supervisor, p', hstep, rfl⟩ := h
      exact .shutdown hcall hstep
    | _ => exact absurd h (by simp)

theorem step_of_stepTask {m : Moment} {t : Task} {e : Event} (hf : s.store.faults = [])
    (hgives : a.Gives g s m t e) (h : s.step u m t e = some s') : Step u g s a s' := by
  cases t with
  | call n => exact step_of_stepCall hf hgives h
  | loop n =>
    -- the supervisor finds the loop, lets it take its step and puts it back
    simp only [step, Poll.Supervisor.stepLoop, Option.bind_eq_bind, Option.map_eq_some_iff,
      Option.bind_eq_some_iff, Prod.exists, Option.some.injEq, Prod.mk.injEq] at h
    obtain ⟨_, _, _, ⟨x, hloop, store, limiter, x', hstep, rfl, rfl, rfl⟩, rfl⟩ := h
    exact .loop hgives hloop (Poll.Loop.move_of_step hf hstep)

/-- Everything that an action does is in the list. -/
theorem step_of_act (hf : s.store.faults = []) (h : act u g a s = some s') : Step u g s a s' := by
  cases a with
  | arrive d =>
    obtain rfl := Option.some.inj h
    exact .arrive d
  | turn m t => exact step_of_stepTask hf (.turn m t) h
  | reply m t r =>
    obtain ⟨x, hx, h⟩ := Option.bind_eq_some_iff.mp h
    exact step_of_stepTask hf (.reply hx) h
  | crash m t => exact step_of_stepTask hf (.crash m t) h
  | leave n =>
    simp only [act, Service.leave] at h
    split at h
    · next c hcall =>
      split at h
      · exact absurd h (by simp)
      · next hover =>
        have hover : c.isOver = false := by simpa using hover
        obtain rfl := Option.some.inj h
        cases hunit : c.unit? with
        | some w => exact .drop hcall hover hunit
        | none => exact .leave hcall hover hunit
    · exact absurd h (by simp)
  | readOnly on =>
    obtain rfl := Option.some.inj h
    exact .readOnly on

/-! ### Calls -/

/-- How the call of a number took the step that an action is. -/
inductive CallStep (u : Setup) (g : Reader ρ) (s : Service) (a : Action ρ) (n : Nat)
    (s' : Service) : Call → Prop where
  /-- It initiates a top-up. -/
  | initiate {m : Moment} {e : Event} {i : Initiation} {ta : Traffic.Action}
      {scene : Initiation.Scene} {p : Initiation.Phase} (hgives : a.Gives g s m (.call n) e)
      (hcall : s.calls.find? n = some (.initiate i))
      (hmove : Initiation.Move u.calls u.page m n ⟨s.store, s.supervisor⟩ i e ta scene p)
      (hstore : s'.store = scene.store) : CallStep u g s a n s' (.initiate { i with phase := p })
  /-- It takes a report of the card page. -/
  | report {p p' : CardCallback.Phase} {store : Store}
      (hcall : s.calls.find? n = some (.cardReport p))
      (hstep : CardCallback.step s.store p = some (store, p')) :
      CallStep u g s a n s' (.cardReport p')
  /-- It starts a poll loop. -/
  | start {m : Moment} {reference : String} {p p' : Poll.Start} (ha : a = .turn m (.call n))
      (hcall : s.calls.find? n = some (.start reference p))
      (hmove : Poll.Start.Move reference s.supervisor s.store p s'.supervisor s'.store p') :
      CallStep u g s a n s' (.start reference p')
  /-- It waits for the end of a poll loop. -/
  | join {reference : String} {p : Poll.Join} (p' : Poll.Join)
      (hcall : s.calls.find? n = some (.join reference p)) :
      CallStep u g s a n s' (.join reference p')
  /-- It ends all poll loops. -/
  | shutdown {p : Poll.Shutdown} (p' : Poll.Shutdown)
      (hcall : s.calls.find? n = some (.shutdown p)) : CallStep u g s a n s' (.shutdown p')

/-- A call that has taken a step was there before. -/
theorem CallStep.known {n : Nat} {c : Call} (h : CallStep u g s a n s' c) :
    ∃ c₀, s.calls.find? n = some c₀ := by
  cases h with
  | initiate _ hcall _ _ => exact ⟨_, hcall⟩
  | report hcall _ => exact ⟨_, hcall⟩
  | start _ hcall _ => exact ⟨_, hcall⟩
  | join _ hcall => exact ⟨_, hcall⟩
  | shutdown _ hcall => exact ⟨_, hcall⟩

/-- A call is as it was, or has just come in, or has taken a step. -/
theorem Step.calls (h : Step u g s a s') {n : Nat} {c : Call} (hn : s'.calls.find? n = some c) :
    s.calls.find? n = some c ∨
      (∃ d, a = .arrive d ∧ (n = s.next ∧ n < s'.next) ∧ c = d.call u.client) ∨
      CallStep u g s a n s' c := by
  -- a call that was put is either the one of number `n` or not
  have hput : ∀ {k : Nat} {c' : Call}, (s.calls.insert k c').find? n = some c →
      (k = n ∧ c' = c) ∨ s.calls.find? n = some c := by
    intro k c' hfind
    rw [Dict.find?_insert] at hfind
    by_cases hk : k = n
    · rw [if_pos hk] at hfind
      exact Or.inl ⟨hk, Option.some.inj hfind⟩
    · rw [if_neg hk] at hfind
      exact Or.inr hfind
  have herase : ∀ {k : Nat}, (s.calls.erase k).find? n = some c → s.calls.find? n = some c := by
    intro k hfind
    rw [Dict.find?_erase] at hfind
    by_cases hk : k = n
    · rw [if_pos hk] at hfind
      exact absurd hfind (by simp)
    · rwa [if_neg hk] at hfind
  cases h with
  | arrive d =>
    rcases hput hn with ⟨rfl, rfl⟩ | hold
    · exact Or.inr (Or.inl ⟨d, rfl, ⟨rfl, Nat.lt_succ_self s.next⟩, rfl⟩)
    · exact Or.inl hold
  | initiate hgives hcall hmove =>
    rcases hput hn with ⟨rfl, rfl⟩ | hold
    · exact Or.inr (Or.inr (.initiate hgives hcall hmove rfl))
    · exact Or.inl hold
  | report hcall hstep =>
    rcases hput hn with ⟨rfl, rfl⟩ | hold
    · exact Or.inr (Or.inr (.report hcall hstep))
    · exact Or.inl hold
  | start hcall hmove =>
    rcases hput hn with ⟨rfl, rfl⟩ | hold
    · exact Or.inr (Or.inr (.start rfl hcall hmove))
    · exact Or.inl hold
  | join hcall =>
    rcases hput hn with ⟨rfl, rfl⟩ | hold
    · exact Or.inr (Or.inr (.join _ hcall))
    · exact Or.inl hold
  | shutdown hcall =>
    rcases hput hn with ⟨rfl, rfl⟩ | hold
    · exact Or.inr (Or.inr (.shutdown _ hcall))
    · exact Or.inl hold
  | loop => exact Or.inl hn
  | drop => exact Or.inl (herase hn)
  | leave => exact Or.inl (herase hn)
  | readOnly => exact Or.inl hn

/-- A call that has its turn takes a step. -/
theorem Step.call_of_turn {m : Moment} {n : Nat} (h : Step u g s (.turn m (.call n)) s') :
    ∃ c, s'.calls.find? n = some c ∧ CallStep u g s (.turn m (.call n)) n s' c := by
  cases h with
  | initiate hgives hcall hmove =>
    cases hgives
    exact ⟨_, Dict.find?_insert_self _ _ _, .initiate (.turn m _) hcall hmove rfl⟩
  | report hcall hstep => exact ⟨_, Dict.find?_insert_self _ _ _, .report hcall hstep⟩
  | start hcall hmove => exact ⟨_, Dict.find?_insert_self _ _ _, .start rfl hcall hmove⟩
  | join hcall => exact ⟨_, Dict.find?_insert_self _ _ _, .join _ hcall⟩
  | shutdown hcall => exact ⟨_, Dict.find?_insert_self _ _ _, .shutdown _ hcall⟩
  | loop hgives => cases hgives

/-- The start of a loop is as it was, or has just come in, or has moved in its turn. -/
theorem Step.start_cases (h : Step u g s a s') {n : Nat} {r : String} {p : Poll.Start}
    (hn : s'.calls.find? n = some (.start r p)) :
    (s.calls.find? n = some (.start r p) ∧ ∀ m, a ≠ .turn m (.call n)) ∨
    (n = s.next ∧ p = .checking ∧ ∀ m, a ≠ .turn m (.call n)) ∨
    ∃ m p₀, a = .turn m (.call n) ∧ s.calls.find? n = some (.start r p₀) ∧
      Poll.Start.Move r s.supervisor s.store p₀ s'.supervisor s'.store p := by
  by_cases hturn : ∃ m, a = .turn m (.call n)
  · obtain ⟨m, rfl⟩ := hturn
    obtain ⟨c, hc, hstep⟩ := h.call_of_turn
    obtain rfl : Call.start r p = c := Option.some.inj (hn.symm.trans hc)
    cases hstep with
    | start ha hcall hmove => exact Or.inr (Or.inr ⟨m, _, rfl, hcall, hmove⟩)
  · have hturn : ∀ m, a ≠ .turn m (.call n) := fun m heq => hturn ⟨m, heq⟩
    rcases h.calls hn with hold | ⟨d, rfl, ⟨hnext, -⟩, hc⟩ | hstep
    · exact Or.inl ⟨hold, hturn⟩
    · cases d with
      | attend reference => exact Or.inr (Or.inl ⟨hnext, (Call.start.inj hc).2, hturn⟩)
      | _ => exact absurd hc (by simp [Demand.call])
    · cases hstep with
      | start ha _ _ => exact absurd ha (hturn _)

/-- A start that is about to start its loop has done so after its step. -/
theorem CallStep.spawned {n : Nat} {r : String} {c : Call} (h : CallStep u g s a n s' c)
    (hcall : s.calls.find? n = some (.start r .spawning)) :
    ∃ x, s'.supervisor.loops.find? s.supervisor.next = some x ∧ x.reference = r := by
  cases h with
  | @start m reference p p' ha hcall' hmove =>
    obtain ⟨rfl, rfl⟩ := Call.start.inj (Option.some.inj (hcall'.symm.trans hcall))
    generalize hv : s'.supervisor = v at hmove ⊢
    generalize s'.store = store at hmove
    cases hmove with
    | spawn => exact ⟨{ reference }, by simp [Poll.Supervisor.spawn], rfl⟩
  | initiate _ hcall' _ _ => exact absurd (hcall'.symm.trans hcall) (by simp)
  | report hcall' _ => exact absurd (hcall'.symm.trans hcall) (by simp)
  | join _ hcall' => exact absurd (hcall'.symm.trans hcall) (by simp)
  | shutdown _ hcall' => exact absurd (hcall'.symm.trans hcall) (by simp)

/-- A loop is as it was, or has not run, or has taken a step. -/
theorem Step.loops (h : Step u g s a s') {x : Poll.Loop}
    (hn : s'.supervisor.loops.find? n = some x) :
    s.supervisor.loops.find? n = some x ∨ x.phase = .fresh ∨
      ∃ m e x₀, a.Gives g s m (.loop n) e ∧ s.supervisor.loops.find? n = some x₀ ∧
        Poll.Loop.Move u.pace s.supervisor.stopping m.now n s.store s.limiter x₀ e s'.store
          s'.limiter x := by
  cases h with
  | initiate _ _ hmove =>
    rcases hmove.loops hn with hold | hfresh
    · exact Or.inl hold
    · exact Or.inr (Or.inl hfresh)
  | start _ hmove =>
    rcases hmove.loops hn with hold | hfresh
    · exact Or.inl hold
    · exact Or.inr (Or.inl hfresh)
  | join _ hstep =>
    rw [Poll.Join.step_supervisor hstep] at hn
    exact Or.inl hn
  | shutdown _ hstep =>
    rw [Poll.Shutdown.step_supervisor hstep] at hn
    exact Or.inl hn
  | @loop _ m k e x₀ x' store limiter hgives hloop hmove =>
    have hput : (s.supervisor.loops.insert k x').find? n = some x := hn
    rw [Dict.find?_insert] at hput
    by_cases hk : k = n
    · rw [if_pos hk] at hput
      obtain rfl := Option.some.inj hput
      subst hk
      exact Or.inr (Or.inr ⟨m, e, x₀, hgives, hloop, hmove⟩)
    · rw [if_neg hk] at hput
      exact Or.inl hput
  | _ => exact Or.inl hn

/-- Numbers are given out in ascending order. -/
theorem Step.next_le (h : Step u g s a s') : s.next ≤ s'.next := by
  cases h with
  | arrive => exact Nat.le_succ s.next
  | _ => exact Nat.le_refl s.next

/-! ### A service to try -/

/-- A service for a merchant of whom only the salt is known. -/
def plain : Setup :=
  { calls := {}, pace := {}, client := ⟨{ salt := "salt" }, .standard "salt"⟩ }

/-- The moment of a number: what is drawn at it is made from the number. -/
def moment (n : Nat) : Moment :=
  { now := n
    wall := 1735689600000000
    id := .ofNat n
    billEnding := Reference.ending [n, n, n]
    referenceEnding := Reference.ending [n, n, n] }

/-- Somebody asks to pay by wallet, under the key of a number. -/
def walletDemand (key : Nat) : Demand :=
  .topUp .nil
    { key := .ofNat key
      amount := 50000
      method := .wallet
      phoneNumber := some "03001234567"
      nationalId := some "345678" }

/-- An answer that is an outcome already. -/
def literally : Reader (Except Gateway.Failure Gateway.Outcome) := fun _ r => r

/-- An outcome of a status and nothing else. -/
def outcome (status : Status) : Gateway.Outcome :=
  { status
    responseCode := ""
    paymentCode := none
    retrievalReference := none
    message := ""
    raw := [] }

end Service

end TopUp
