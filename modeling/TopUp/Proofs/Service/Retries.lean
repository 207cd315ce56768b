import TopUp.Proofs.Call.Debit
import TopUp.Proofs.Service.Provenance

/-! # Repeating a call

    A call may fail in a way that invites its client to repeat it with the same key. If
    the call has submitted a debit, it does so exactly if the answer to the debit was
    lost. Nothing is stored then, so the repeated call submits a debit of its own: a
    client that does what it is told makes the gateway accept two debits of one key only
    if the gateway accepted one whose answer was lost (`repeats_safe_unless_unheard`).

    Nothing is assumed of the store: it may fail at any operation. Which debits the
    gateway accepts is left open too; it has nothing to do with what it answers.
-/

namespace TopUp

open TopUp.Data TopUp.Gateway TopUp.Store

namespace Service

variable {u : Setup} {s s' : Service} {n : Nat} {i : Initiation}

/-! ### What happens to calls -/

section changes

variable {ρ : Type} {g : Reader ρ} {a : Action ρ}

/-- A step of a call, whatever the store does. -/
inductive Advance (u : Setup) (m : Moment) (n : Nat) (e : Event) (scene : Initiation.Scene) :
    Call → Call → Prop where
  /-- The call initiates a top-up. -/
  | initiate {i : Initiation} {scene' : Initiation.Scene} {p : Initiation.Phase}
      (hstep : i.step u.calls u.page m n e scene = some (scene', p)) :
      Advance u m n e scene (.initiate i) (.initiate { i with phase := p })
  /-- It is about something else, before and after. -/
  | other {c c' : Call} (hc : ∀ i, c ≠ .initiate i) (hc' : ∀ i, c' ≠ .initiate i) :
      Advance u m n e scene c c'

/-- What an action does to the calls of a service, whatever the store does. -/
inductive Change (u : Setup) (g : Reader ρ) (s : Service) : Action ρ → Service → Prop where
  /-- A call begins. -/
  | arrive (d : Demand) : Change u g s (.arrive d) (s.begin (d.call u.client)).2
  /-- A call takes a step. -/
  | advance {a : Action ρ} {s' : Service} {m : Moment} {n : Nat} {e : Event} {c c' : Call}
      (hgives : a.Gives g s m (.call n) e) (hcall : s.calls.find? n = some c)
      (hadvance : Advance u m n e ⟨s.store, s.supervisor⟩ c c')
      (hcalls : s'.calls = s.calls.insert n c') (hnext : s'.next = s.next) : Change u g s a s'
  /-- A call is given up. -/
  | leave {s' : Service} {n : Nat} {c : Call} (hcall : s.calls.find? n = some c)
      (hover : c.isOver = false) (hcalls : s'.calls = s.calls.erase n)
      (hnext : s'.next = s.next) : Change u g s (.leave n) s'
  /-- No call is concerned. -/
  | other {a : Action ρ} {s' : Service} (ha : ∀ m n e, ¬ a.Gives g s m (.call n) e)
      (hcalls : s'.calls = s.calls) (hnext : s'.next = s.next) : Change u g s a s'

theorem change_of_stepCall {m : Moment} {e : Event} (hgives : a.Gives g s m (.call n) e)
    (h : s.stepCall u m n e = some s') : Change u g s a s' := by
  simp only [stepCall, Option.bind_eq_bind, Option.bind_eq_some_iff] at h
  obtain ⟨c, hcall, h⟩ := h
  cases c with
  | initiate i =>
    simp only [Option.bind_eq_some_iff, Prod.exists, Option.some.injEq] at h
    obtain ⟨scene, p, hstep, rfl⟩ := h
    exact .advance hgives hcall (.initiate hstep) rfl rfl
  | cardReport p =>
    cases hgives with
    | turn =>
      simp only [Option.bind_eq_some_iff, Prod.exists, Option.some.injEq] at h
      obtain ⟨store, p', -, rfl⟩ := h
      exact .advance (.turn m _) hcall (.other (by simp) (by simp)) rfl rfl
    | _ => exact absurd h (by simp)
  | start reference p =>
    cases hgives with
    | turn =>
      simp only [Option.bind_eq_some_iff, Prod.exists, Option.some.injEq] at h
      obtain ⟨supervisor, store, p', -, rfl⟩ := h
      exact .advance (.turn m _) hcall (.other (by simp) (by simp)) rfl rfl
    | _ => exact absurd h (by simp)
  | join reference p =>
    cases hgives with
    | turn =>
      simp only [Option.bind_eq_some_iff, Prod.exists, Option.some.injEq] at h
      obtain ⟨supervisor, p', -, rfl⟩ := h
      exact .advance (.turn m _) hcall (.other (by simp) (by simp)) rfl rfl
    | _ => exact absurd h (by simp)
  | shutdown p =>
    cases hgives with
    | turn =>
      simp only [Option.bind_eq_some_iff, Prod.exists, Option.some.injEq] at h
      obtain ⟨supervisor, p', -, rfl⟩ := h
      exact .advance (.turn m _) hcall (.other (by simp) (by simp)) rfl rfl
    | _ => exact absurd h (by simp)

/-- An action gives something to one task only. -/
theorem Action.Gives.unique {m m' : Moment} {t t' : Task} {e e' : Event} (h : a.Gives g s m t e)
    (h' : a.Gives g s m' t' e') : t = t' := by
  cases h <;> cases h' <;> rfl

theorem change_of_stepTask {m : Moment} {t : Task} {e : Event} (hgives : a.Gives g s m t e)
    (h : s.step u m t e = some s') : Change u g s a s' := by
  cases t with
  | call n => exact change_of_stepCall hgives h
  | loop n =>
    obtain ⟨_, -, rfl⟩ := Option.map_eq_some_iff.mp h
    exact .other (fun m' n' e' h' => absurd (hgives.unique h') (by simp)) rfl rfl

/-- Every action does one of these things to the calls. -/
theorem change_of_act (h : act u g a s = some s') : Change u g s a s' := by
  cases a with
  | arrive d =>
    obtain rfl := Option.some.inj h
    exact .arrive d
  | turn m t => exact change_of_stepTask (.turn m t) h
  | reply m t r =>
    obtain ⟨x, hx, h⟩ := Option.bind_eq_some_iff.mp h
    exact change_of_stepTask (.reply hx) h
  | crash m t => exact change_of_stepTask (.crash m t) h
  | leave n =>
    simp only [act, Service.leave] at h
    split at h
    · next c hcall =>
      split at h
      · exact absurd h (by simp)
      · next hover =>
        obtain rfl := Option.some.inj h
        exact .leave hcall (by simpa using hover) rfl rfl
    · exact absurd h (by simp)
  | readOnly on =>
    obtain rfl := Option.some.inj h
    exact .other (fun m n e h => by cases h) rfl rfl

/-- A call that is there was there before or has just got its number. -/
theorem Change.numbers (h : Change u g s a s') : s.next ≤ s'.next ∧
    ∀ n c, s'.calls.find? n = some c →
      (∃ c₀, s.calls.find? n = some c₀) ∨ (n = s.next ∧ n < s'.next) := by
  cases h with
  | arrive d =>
    refine ⟨Nat.le_succ _, fun n c hn => ?_⟩
    simp only [begin, Dict.find?_insert] at hn ⊢
    split at hn
    · next heq => exact Or.inr ⟨heq.symm, by omega⟩
    · exact Or.inl ⟨c, hn⟩
  | advance _ hcall _ hcalls hnext =>
    refine ⟨hnext.ge, fun n c hn => ?_⟩
    rw [hcalls, Dict.find?_insert] at hn
    split at hn
    · next heq => exact Or.inl ⟨_, heq ▸ hcall⟩
    · exact Or.inl ⟨c, hn⟩
  | leave _ _ hcalls hnext =>
    refine ⟨hnext.ge, fun n c hn => ?_⟩
    rw [hcalls, Dict.find?_erase] at hn
    split at hn
    · exact absurd hn (by simp)
    · exact Or.inl ⟨c, hn⟩
  | other _ hcalls hnext =>
    refine ⟨hnext.ge, fun n c hn => Or.inl ⟨c, ?_⟩⟩
    rw [← hcalls, hn]

/-- How a call that initiates a top-up has come to be as it is. -/
theorem Change.initiation (h : Change u g s a s') (hn : s'.calls.find? n = some (.initiate i)) :
    (s.calls.find? n = some (.initiate i) ∧ ∀ m e, ¬ a.Gives g s m (.call n) e) ∨ n = s.next ∨
    ∃ m e i₀ scene p, a.Gives g s m (.call n) e ∧ s.calls.find? n = some (.initiate i₀) ∧
      i₀.step u.calls u.page m n e ⟨s.store, s.supervisor⟩ = some (scene, p) ∧
      i = { i₀ with phase := p } := by
  cases h with
  | arrive d =>
    simp only [begin, Dict.find?_insert] at hn
    split at hn
    · next heq => exact Or.inr (Or.inl heq.symm)
    · exact Or.inl ⟨hn, fun m e hgives => by cases hgives⟩
  | @advance _ _ m k e c c' hgives hcall hadvance hcalls =>
    rw [hcalls, Dict.find?_insert] at hn
    split at hn
    · next heq =>
      subst heq
      obtain rfl := Option.some.inj hn
      cases hadvance with
      | @initiate i₀ scene p hstep =>
        exact Or.inr (Or.inr ⟨m, e, i₀, scene, p, hgives, hcall, hstep, rfl⟩)
      | other _ hc' => exact absurd rfl (hc' i)
    · next hne =>
      refine Or.inl ⟨hn, fun m' e' hgives' => hne ?_⟩
      exact Task.call.inj (hgives.unique hgives')
  | leave _ _ hcalls =>
    rw [hcalls, Dict.find?_erase] at hn
    split at hn
    · exact absurd hn (by simp)
    · exact Or.inl ⟨hn, fun m e hgives => by cases hgives⟩
  | other ha hcalls =>
    rw [hcalls] at hn
    exact Or.inl ⟨hn, fun m e => ha m n e⟩

/-- A call that is over stays as it is. -/
theorem Change.over (h : Change u g s a s') (hnum : n < s.next) {result}
    (hn : s.calls.find? n = some (.initiate i)) (hover : i.phase = .done result) :
    s'.calls.find? n = some (.initiate i) := by
  cases h with
  | arrive d =>
    rw [begin, Dict.find?_insert_ne _ _ (by omega)]
    exact hn
  | @advance _ _ m k e c c' _ hcall hadvance hcalls =>
    rw [hcalls, Dict.find?_insert_ne _ _ ?_, hn]
    rintro rfl
    -- what is over takes no step
    obtain rfl := Option.some.inj (hn.symm.trans hcall)
    cases hadvance with
    | initiate hstep => exact absurd hstep (by simp [Initiation.step, hover])
    | other hc => exact hc i rfl
  | @leave _ k c hcall hopen hcalls =>
    rw [hcalls, Dict.find?_erase_ne _ ?_, hn]
    rintro rfl
    obtain rfl := Option.some.inj (hn.symm.trans hcall)
    exact absurd hopen (by simp [Call.isOver, Initiation.result?, hover])
  | other _ hcalls => rw [hcalls, hn]

/-- A call that is over stays as it is for the rest of a run. -/
theorem over_of_run {tr : List (Service × Action ρ)} (h : Run (act u g) s tr s')
    (hnum : n < s.next) {result} (hn : s.calls.find? n = some (.initiate i))
    (hover : i.phase = .done result) :
    n < s'.next ∧ s'.calls.find? n = some (.initiate i) := by
  induction h with
  | nil => exact ⟨hnum, hn⟩
  | snoc _ hact ih =>
    have hc := change_of_act hact
    exact ⟨ih.1.trans_le hc.numbers.1, hc.over ih.1 ih.2 hover⟩

end changes

/-! ### Debits -/

/-- Whether a call waits for the answer to its debit. -/
def debits (s : Service) (n : Nat) : Bool :=
  match s.calls.find? n with
  | some (.initiate i) => i.debits
  | _ => false

/-- The call whose debit is never heard of again, since an action loses the answer. -/
def lost? (s : Service) : Action Delivery → Option Nat
  | .reply _ (.call n) d => if s.debits n = true ∧ d.Lost then some n else none
  | _ => none

/-- Whether a call is over with a failure that invites its client to repeat it. -/
def invites (s : Service) (n : Nat) : Bool :=
  match s.calls.find? n with
  | some (.initiate i) =>
    match i.result? with
    | some (.error f) => f.problem.retryable
    | _ => false
  | _ => false

variable {tr : List (Service × Action Delivery)} {a : Action Delivery}

/-- A call submitted a debit in the course of a trace. -/
def Debited (tr : List (Service × Action Delivery)) (n : Nat) : Prop :=
  ∃ e ∈ tr, e.1.debits n = true

/-- The answer to the debit of a call was lost in the course of a trace. -/
def Unheard (tr : List (Service × Action Delivery)) (n : Nat) : Prop :=
  ∃ e ∈ tr, e.1.lost? e.2 = some n

/-- The gateway, which accepts the debits of some calls, has got and accepted that of a call. -/
def Accepted (accepts : Nat → Prop) (tr : List (Service × Action Delivery)) (n : Nat) : Prop :=
  accepts n ∧ Debited tr n

instance : Decidable (Debited tr n) := by
  unfold Debited
  infer_instance

instance : Decidable (Unheard tr n) := by
  unfold Unheard
  infer_instance

theorem debited_snoc : Debited (tr ++ [(s, a)]) n ↔ Debited tr n ∨ s.debits n = true := by
  simp [Debited, or_and_right, exists_or]

theorem unheard_snoc : Unheard (tr ++ [(s, a)]) n ↔ Unheard tr n ∨ s.lost? a = some n := by
  simp [Unheard, or_and_right, exists_or]

theorem debits_of_call (hn : s.calls.find? n = some (.initiate i)) : s.debits n = i.debits := by
  simp [debits, hn]

/-- Only a call that is there waits for an answer. -/
theorem exists_of_debits (h : s.debits n = true) : ∃ c, s.calls.find? n = some c := by
  unfold debits at h
  split at h
  · next i hn => exact ⟨_, hn⟩
  · exact absurd h (by simp)

theorem lost?_eq_some (h : s.lost? a = some n) :
    ∃ m d, a = .reply m (.call n) d ∧ s.debits n = true ∧ d.Lost := by
  unfold lost? at h
  split at h
  · next m k d =>
    split at h
    · next hk =>
      obtain rfl := Option.some.inj h
      exact ⟨m, d, rfl, hk⟩
    · exact absurd h (by simp)
  · exact absurd h (by simp)

theorem invites_eq_true : s.invites n = true ↔ ∃ i f, s.calls.find? n = some (.initiate i) ∧
    i.phase = .done (.error f) ∧ f.problem.retryable = true := by
  constructor
  · intro h
    unfold invites at h
    split at h
    · next i hn =>
      split at h
      · next f hresult => exact ⟨i, f, hn, Initiation.result?_eq_some.mp hresult, h⟩
      · exact absurd h (by simp)
    · exact absurd h (by simp)
  · rintro ⟨i, f, hn, hp, hf⟩
    simp [invites, hn, Initiation.result?, hp, hf]

/-! ### What a service keeps -/

/-- A service whose calls report of their debits what has happened. -/
structure Candid (tr : List (Service × Action Delivery)) (s : Service) : Prop where
  /-- Calls have numbers that were given out. -/
  numbers : ∀ n c, s.calls.find? n = some c → n < s.next
  /-- So had those that were there before. -/
  past : ∀ e ∈ tr, ∀ n c, e.1.calls.find? n = some c → n < s.next
  /-- What a call tells is right. -/
  reports : ∀ n i, s.calls.find? n = some (.initiate i) →
    i.phase.Reports (Debited tr n) (Unheard tr n)

theorem candid_nil (h : s.calls = .empty) : Candid [] s := by
  have hcalls : ∀ n c, s.calls.find? n ≠ some c := fun n c hn => by simp [h] at hn
  exact ⟨fun n c hn => absurd hn (hcalls n c), fun e he => absurd he List.not_mem_nil,
    fun n i hn => absurd hn (hcalls n _)⟩

theorem debited_of_unheard (h : Unheard tr n) : Debited tr n := by
  obtain ⟨e, he, hlost⟩ := h
  obtain ⟨_, _, -, hdebits, -⟩ := lost?_eq_some hlost
  exact ⟨e, he, hdebits⟩

/-- A call that waits for the answer to its debit is in an exchange with the gateway. -/
theorem exchange?_of_debits (hn : s.calls.find? n = some (.initiate i)) (hi : i.debits = true) :
    ∃ r, s.exchange? (.call n) = some (.wallet r) := by
  unfold Initiation.debits at hi
  split at hi
  · next w t r hp => exact ⟨r, by simp [exchange?, hn, hp]⟩
  · exact absurd hi (by simp)

/-- A call that takes no step reports what it has reported. -/
theorem Candid.reports_of_kept (h : Candid tr s) (hn : s.calls.find? n = some (.initiate i))
    (ha : ∀ m e, ¬ a.Gives (reader u.client) s m (.call n) e) :
    i.phase.Reports (Debited (tr ++ [(s, a)]) n) (Unheard (tr ++ [(s, a)]) n) := by
  have hlost : s.lost? a ≠ some n := by
    intro hlost
    obtain ⟨m, d, rfl, hdebits, -⟩ := lost?_eq_some hlost
    rw [debits_of_call hn] at hdebits
    obtain ⟨r, hx⟩ := exchange?_of_debits hn hdebits
    exact ha _ _ (.reply hx)
  have hreports := h.reports n i hn
  cases hi : i.debits with
  | true =>
    -- being seen in wait for an answer makes no difference to what it reports
    rw [Initiation.Phase.reports_of_debits hi] at hreports ⊢
    simpa [unheard_snoc, hlost] using hreports
  | false => simpa [debited_snoc, unheard_snoc, debits_of_call hn, hi, hlost] using hreports

/-- A call that takes a step reports what has happened. -/
theorem Candid.reports_of_step {m : Moment} {e : Event} {scene : Initiation.Scene}
    {p : Initiation.Phase} (h : Candid tr s) (hn : s.calls.find? n = some (.initiate i))
    (hgives : a.Gives (reader u.client) s m (.call n) e)
    (hstep : i.step u.calls u.page m n e ⟨s.store, s.supervisor⟩ = some (scene, p)) :
    p.Reports (Debited (tr ++ [(s, a)]) n) (Unheard (tr ++ [(s, a)]) n) := by
  have hreports := h.reports n i hn
  have hdebits := debits_of_call hn
  cases hi : i.debits with
  | true =>
    obtain ⟨result, rfl⟩ := Initiation.event_of_debits hi hstep
    obtain ⟨d, x, rfl, hx, rfl⟩ := hgives.of_answer
    obtain ⟨r, hx'⟩ := exchange?_of_debits hn hi
    obtain rfl := Option.some.inj (hx.symm.trans hx')
    rw [Initiation.Phase.reports_of_debits hi] at hreports
    have hlost : s.lost? (.reply m (.call n) d) = some n ↔ d.Lost := by
      simp [lost?, hdebits, hi]
    simpa [debited_snoc, unheard_snoc, hdebits, hi, hlost, hreports] using
      Initiation.Phase.reports_of_answer hi hstep
  | false =>
    have hlost : s.lost? a ≠ some n := by
      intro hlost
      obtain ⟨_, _, -, hwaits, -⟩ := lost?_eq_some hlost
      rw [hdebits, hi] at hwaits
      exact absurd hwaits (by simp)
    simpa [debited_snoc, unheard_snoc, hdebits, hi, hlost] using hreports.step hi hstep

theorem Candid.step (h : Candid tr s) (hc : Change u (reader u.client) s a s') :
    Candid (tr ++ [(s, a)]) s' := by
  obtain ⟨hle, hold⟩ := hc.numbers
  have hpast : ∀ e ∈ tr ++ [(s, a)], ∀ n c, e.1.calls.find? n = some c → n < s.next := by
    intro e he n c hn
    rcases List.mem_append.mp he with he | he
    · exact h.past e he n c hn
    · obtain rfl := List.mem_singleton.mp he
      exact h.numbers n c hn
  refine ⟨fun n c hn => ?_, fun e he n c hn => (hpast e he n c hn).trans_le hle,
    fun n i hn => ?_⟩
  · rcases hold n c hn with ⟨c₀, hn₀⟩ | ⟨-, hlt⟩
    · exact (h.numbers n c₀ hn₀).trans_le hle
    · exact hlt
  · rcases hc.initiation hn with ⟨hn₀, ha⟩ | rfl | ⟨m, e, i₀, scene, p, hgives, hn₀, hstep, rfl⟩
    · exact h.reports_of_kept hn₀ ha
    · -- the number is new, so nothing was submitted under it
      have hunsent : ¬ Debited (tr ++ [(s, a)]) s.next := by
        rintro ⟨e, he, hdebits⟩
        obtain ⟨c, hc⟩ := exists_of_debits hdebits
        exact absurd (hpast e he _ c hc) (by simp)
      exact Initiation.Phase.reports_of_unsent hunsent (mt debited_of_unheard hunsent) _
    · exact h.reports_of_step hn₀ hgives hstep

theorem candid_of_run {s₀ : Service} (hidle : s₀.calls = .empty)
    (h : Run (act u (reader u.client)) s₀ tr s) : Candid tr s := by
  induction h with
  | nil => exact candid_nil hidle
  | snoc _ hact ih => exact ih.step (change_of_act hact)

/-! ### Repeated calls -/

/-- Something that is asked of a service is a top-up with a key. -/
def Action.Asks (key : Uuid) : Action Delivery → Prop
  | .arrive (.topUp _ request) => request.key = key
  | _ => False

instance (key : Uuid) : DecidablePred (Action.Asks key) := fun a => by
  unfold Action.Asks
  split <;> infer_instance

/-- The clients of a key ask again only when all earlier calls with the key are over with
    failures that invite them to. -/
def Patient (tr : List (Service × Action Delivery)) (key : Uuid) : Prop :=
  tr.Pairwise fun e e' => e.2.Asks key → e'.2.Asks key → e'.1.invites e.1.next = true

/-- A call is one of those with a key. -/
def Asked (tr : List (Service × Action Delivery)) (key : Uuid) (n : Nat) : Prop :=
  ∃ e ∈ tr, e.1.next = n ∧ e.2.Asks key

instance (key : Uuid) : Decidable (Patient tr key) := by
  unfold Patient
  infer_instance

instance (key : Uuid) : Decidable (Asked tr key n) := by
  unfold Asked
  infer_instance

/-- Of two calls of patient clients the earlier one has invited to the later one. -/
theorem Patient.invites {key : Uuid} {e e' : Service × Action Delivery} (h : Patient tr key)
    (he : e ∈ tr) (he' : e' ∈ tr) (hasks : e.2.Asks key) (hasks' : e'.2.Asks key) :
    e = e' ∨ e'.1.invites e.1.next = true ∨ e.1.invites e'.1.next = true := by
  obtain ⟨tr₁, tr₂, rfl⟩ := List.append_of_mem he
  obtain ⟨-, hrest, hcross⟩ := List.pairwise_append.mp h
  rcases List.mem_append.mp he' with hbefore | hafter
  · exact Or.inr (Or.inr (hcross e' hbefore e List.mem_cons_self hasks' hasks))
  · rcases List.mem_cons.mp hafter with rfl | hafter
    · exact Or.inl rfl
    · exact Or.inr (Or.inl ((List.pairwise_cons.mp hrest).1 e' hafter hasks hasks'))

/-- A call that has submitted a debit and invites its client to repeat it was not answered. -/
theorem unheard_of_invites {s₀ : Service} (hidle : s₀.calls = .empty)
    (h : Run (act u (reader u.client)) s₀ tr s) {e : Service × Action Delivery} (he : e ∈ tr)
    (hinvites : e.1.invites n = true) (hdebited : Debited tr n) : Unheard tr n := by
  obtain ⟨tr₁, tr₂, s₁, rfl, hpre, hact, hpost⟩ := h.of_mem he
  obtain ⟨i, f, hn, hover, hagain⟩ := invites_eq_true.mp hinvites
  have hnum := (candid_of_run hidle hpre).numbers n _ hn
  obtain ⟨-, hlast⟩ := over_of_run (Run.cons hact hpost) hnum hn hover
  have hreports := (candid_of_run hidle h).reports n i hlast
  rw [hover] at hreports
  exact hreports.mp ⟨hdebited, hagain⟩

/-- Whatever the store does, whatever the gateway answers and whatever it accepts: a call
    whose debit is accepted ends with a failure that invites its client to repeat it
    exactly if the answer to the debit was lost. And unless that happens, at most one
    debit is accepted for a key with which calls are repeated on such invitations only. -/
theorem repeats_safe_unless_unheard {s₀ : Service} (hidle : s₀.calls = .empty)
    (h : Run (act u (reader u.client)) s₀ tr s) (accepts : Nat → Prop) :
    (∀ n i, s.calls.find? n = some (.initiate i) →
      ((∃ f, i.result? = some (.error f) ∧ f.problem.retryable = true) ∧ Accepted accepts tr n ↔
        accepts n ∧ Unheard tr n)) ∧
    ∀ key, Patient tr key → (∀ n, Asked tr key n → accepts n → ¬ Unheard tr n) →
      ∀ n n', Asked tr key n → Asked tr key n' → Accepted accepts tr n → Accepted accepts tr n' →
        n = n' := by
  constructor
  · intro n i hn
    have hreports := (candid_of_run hidle h).reports n i hn
    constructor
    · rintro ⟨⟨f, hresult, hagain⟩, haccepts, hdebited⟩
      rw [Initiation.result?_eq_some.mp hresult] at hreports
      exact ⟨haccepts, hreports.mp ⟨hdebited, hagain⟩⟩
    · rintro ⟨haccepts, hunheard⟩
      obtain ⟨f, hover, hdebited, hagain⟩ := hreports.of_lost hunheard
      exact ⟨⟨f, Initiation.result?_eq_some.mpr hover, hagain⟩, haccepts, hdebited⟩
  · rintro key hpatient hheard n n' hasked hasked' ⟨haccepts, hdebited⟩ ⟨haccepts', hdebited'⟩
    have hn := hheard n hasked haccepts
    have hn' := hheard n' hasked' haccepts'
    obtain ⟨e, he, rfl, hasks⟩ := hasked
    obtain ⟨e', he', rfl, hasks'⟩ := hasked'
    rcases hpatient.invites he he' hasks hasks' with rfl | hinvites | hinvites
    · rfl
    · exact absurd (unheard_of_invites hidle h he' hinvites hdebited) hn
    · exact absurd (unheard_of_invites hidle h he hinvites hdebited') hn'

/-- A customer pays by wallet and no answer comes; invited to repeat the call, the customer
    does so and the payment succeeds. -/
def repeating : List (Action Delivery) :=
  .arrive (walletDemand 1) :: List.replicate 5 (.turn (moment 7) (.call 0)) ++
    .reply (moment 7) (.call 0) .silent ::
  .arrive (walletDemand 1) :: List.replicate 5 (.turn (moment 8) (.call 1)) ++
    .reply (moment 8) (.call 1) (.answered signedAnswer) ::
      List.replicate 2 (.turn (moment 8) (.call 1))

/-- What happens then. -/
theorem played_repeating :
    let run := Run.play (act plain (reader plain.client)) repeating (atRest plain)
    run.2.invites 0 = true ∧ Debited run.1 0 ∧ Debited run.1 1 ∧ ¬ Unheard run.1 1 ∧
      Asked run.1 (.ofNat 1) 0 ∧ Asked run.1 (.ofNat 1) 1 ∧ Patient run.1 (.ofNat 1) := by
  decide +kernel

/-- The call that invites to repeat it was not answered; if the gateway has not accepted its
    debit, one debit is accepted in all. -/
theorem repeating_pays_once :
    let run := Run.play (act plain (reader plain.client)) repeating (atRest plain)
    Unheard run.1 0 ∧ Accepted (· = 1) run.1 1 ∧
      ∀ n n', Asked run.1 (.ofNat 1) n → Asked run.1 (.ofNat 1) n' → Accepted (· = 1) run.1 n →
        Accepted (· = 1) run.1 n' → n = n' := by
  intro run
  have hrun : Run (act plain (reader plain.client)) _ run.1 run.2 := Run.of_play repeating _
  obtain ⟨hinvites, hdebited, hdebited', hheard, -, -, hpatient⟩ := played_repeating
  obtain ⟨i, f, hn, hover, hagain⟩ := invites_eq_true.mp hinvites
  obtain ⟨hunheard, -⟩ := repeats_safe_unless_unheard rfl hrun fun _ => True
  obtain ⟨-, honce⟩ := repeats_safe_unless_unheard rfl hrun (· = 1)
  refine ⟨?_, ⟨rfl, hdebited'⟩, honce (.ofNat 1) hpatient ?_⟩
  · exact ((hunheard 0 i hn).mp ⟨⟨f, Initiation.result?_eq_some.mpr hover, hagain⟩, trivial,
      hdebited⟩).2
  · rintro n - rfl
    exact hheard

/-- If the gateway accepts every debit, it has accepted the one of the call that invites to
    repeat it, and another one of the same key. -/
theorem repeating_pays_twice :
    let run := Run.play (act plain (reader plain.client)) repeating (atRest plain)
    (run.2.invites 0 = true ∧ Accepted (fun _ => True) run.1 0) ∧ Patient run.1 (.ofNat 1) ∧
      ¬ ∀ n n', Asked run.1 (.ofNat 1) n → Asked run.1 (.ofNat 1) n' →
        Accepted (fun _ => True) run.1 n → Accepted (fun _ => True) run.1 n' → n = n' := by
  obtain ⟨hinvites, hdebited, hdebited', -, hasked, hasked', hpatient⟩ := played_repeating
  refine ⟨⟨hinvites, trivial, hdebited⟩, hpatient, fun honce => ?_⟩
  exact absurd (honce 0 1 hasked hasked' ⟨trivial, hdebited⟩ ⟨trivial, hdebited'⟩) (by decide)

end Service

end TopUp
