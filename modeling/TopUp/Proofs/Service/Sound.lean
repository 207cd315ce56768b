import TopUp.Proofs.Call.Knowledge
import TopUp.Proofs.Service.Traffic
import TopUp.Proofs.Store.Accounts

/-! # Sound services

    A service that began at rest keeps accounts of what it committed
    (`Service.Accounted`), whatever references its calls make. If no two transactions
    are made with the same reference, then moreover its ledger stays coherent, its units
    of work stay apart, and every initiation knows what it should
    (`Service.Sound`).
-/

namespace TopUp.Service

open TopUp.Data TopUp.Store

variable {ρ : Type} {u : Setup} {g : Reader ρ} {s s' : Service} {a : Action ρ} {l : Ledger}
  {tr : List (Service × Action ρ)} {ts : List Transaction} {used : List String} {n : Nat}

/-- The transactions that were made and submitted in the course of a trace. -/
def made (u : Setup) (tr : List (Service × Action ρ)) : List Transaction :=
  tr.flatMap fun e => (e.1.made? u e.2).toList

/-- The transactions that were committed in the course of a trace. -/
def commits (tr : List (Service × Action ρ)) : List Transaction :=
  tr.flatMap fun e => e.1.committed e.2

theorem made_snoc (u : Setup) (tr : List (Service × Action ρ)) (s : Service) (a : Action ρ) :
    made u (tr ++ [(s, a)]) = made u tr ++ (s.made? u a).toList := by
  simp [made]

theorem commits_snoc (tr : List (Service × Action ρ)) (s : Service) (a : Action ρ) :
    commits (tr ++ [(s, a)]) = commits tr ++ s.committed a := by
  simp [commits]

/-! ### Calls -/

/-- An initiation is as it was, or has just come in, or has taken a step. -/
theorem Step.initiations (h : Step u g s a s') {i : Initiation}
    (hn : s'.calls.find? n = some (.initiate i)) :
    s.calls.find? n = some (.initiate i) ∨
    (∃ user request, a = .arrive (.topUp user request) ∧ i = .ofRequest user request) ∨
    ∃ m e i₀ ta scene, a.Gives g s m (.call n) e ∧ s.calls.find? n = some (.initiate i₀) ∧
      Initiation.Move u.calls u.page m n ⟨s.store, s.supervisor⟩ i₀ e ta scene i.phase ∧
      i = { i₀ with phase := i.phase } ∧ s'.store = scene.store := by
  rcases h.calls hn with hold | ⟨d, rfl, -, hc⟩ | hstep
  · exact Or.inl hold
  · cases d with
    | topUp user request => exact Or.inr (Or.inl ⟨user, request, rfl, Call.initiate.inj hc⟩)
    | _ => exact absurd hc (by simp [Demand.call])
  · cases hstep with
    | @initiate m e i₀ ta scene p hgives hcall hmove hstore =>
      exact Or.inr (Or.inr ⟨m, e, i₀, ta, scene, hgives, hcall, hmove, rfl, hstore⟩)

/-- An initiation stays as it is, takes a step, or its caller goes away. -/
theorem Step.initiation_next (h : Step u g s a s') (hr : s.Regular) {i : Initiation}
    (hn : s.calls.find? n = some (.initiate i)) :
    a = .leave n ∨ s'.calls.find? n = some (.initiate i) ∨
    ∃ m e ta scene p, a.Gives g s m (.call n) e ∧
      Initiation.Move u.calls u.page m n ⟨s.store, s.supervisor⟩ i e ta scene p ∧
      s'.calls.find? n = some (.initiate { i with phase := p }) ∧ s'.store = scene.store ∧
      s'.supervisor = scene.supervisor := by
  -- a call that is not an initiation is another one
  have hput : ∀ {k : Nat} {c c' : Call}, s.calls.find? k = some c → (∀ i, c ≠ .initiate i) →
      (s.calls.insert k c').find? n = some (.initiate i) := by
    intro k c c' hk hc
    have hne : k ≠ n := by
      rintro rfl
      exact hc i (Option.some.inj (hk.symm.trans hn))
    rw [Dict.find?_insert_ne _ _ hne, hn]
  have herase : ∀ {k : Nat}, k ≠ n → (s.calls.erase k).find? n = some (.initiate i) :=
    fun hne => by rw [Dict.find?_erase_ne _ hne, hn]
  cases h with
  | arrive d =>
    have hne : s.next ≠ n := Nat.ne_of_gt (hr.numbers n _ hn)
    exact Or.inr (Or.inl ((Dict.find?_insert_ne _ _ hne).trans hn))
  | @initiate _ m k e i₀ ta scene p hgives hcall hmove =>
    by_cases hk : k = n
    · subst hk
      obtain rfl := Call.initiate.inj (Option.some.inj (hcall.symm.trans hn))
      exact Or.inr (Or.inr ⟨m, e, ta, scene, p, hgives, hmove, Dict.find?_insert_self _ _ _,
        rfl, rfl⟩)
    · exact Or.inr (Or.inl ((Dict.find?_insert_ne _ _ hk).trans hn))
  | report hcall => exact Or.inr (Or.inl (hput hcall (by simp)))
  | start hcall => exact Or.inr (Or.inl (hput hcall (by simp)))
  | join hcall => exact Or.inr (Or.inl (hput hcall (by simp)))
  | shutdown hcall => exact Or.inr (Or.inl (hput hcall (by simp)))
  | @drop k _ _ =>
    by_cases hk : k = n
    · exact Or.inl (by rw [hk])
    · exact Or.inr (Or.inl (herase hk))
  | @leave k _ =>
    by_cases hk : k = n
    · exact Or.inl (by rw [hk])
    · exact Or.inr (Or.inl (herase hk))
  | loop | readOnly => exact Or.inr (Or.inl hn)

theorem Step.faults (h : Step u g s a s') (hf : s.store.faults = []) : s'.store.faults = [] := by
  cases h with
  | initiate _ _ hmove => exact hmove.faults hf
  | report _ hstep => exact (CardCallback.step_spec (u := fun _ => none) hf hstep).1
  | start _ hmove => exact hmove.faults.trans hf
  | loop _ _ hmove => exact hmove.faults.trans hf
  | _ => exact hf

/-- Status writes are switched off and on by nothing else. -/
theorem Step.readOnly_eq (h : Step u g s a s') (hf : s.store.faults = [])
    (ha : ∀ on, a ≠ .readOnly on) :
    s'.store.memory.readOnly = s.store.memory.readOnly := by
  have hstart : ∀ {p p' : Poll.Start} {reference : String} {v v' : Poll.Supervisor} {store : Store},
      Poll.Start.Move reference v s.store p v' store p' →
        store.memory.readOnly = s.store.memory.readOnly := by
    intro p p' reference v v' store hmove
    cases hmove <;> rfl
  cases h with
  | initiate _ _ hmove => exact hmove.readOnly
  | @report _ _ p _ store hcall hstep =>
    obtain ⟨-, -, hact⟩ := CardCallback.step_spec (u := fun _ => none) hf hstep
    show store.memory.readOnly = s.store.memory.readOnly
    rcases Traffic.memory_of_act hact p.storeAction_cases with hm | ⟨_, _, hm⟩
    · rw [show store.memory = s.store.memory from hm]
    · rw [show store.memory = _ from hm]
  | start _ hmove => exact hstart hmove
  | loop _ _ hmove =>
    cases hmove with
    | @settle _ _ memory _ hw | @fail _ memory _ hw =>
      show memory.readOnly = s.store.memory.readOnly
      rw [Memory.update_eq hw]
    | _ => rfl
  | readOnly on => exact absurd rfl (ha on)
  | _ => rfl

/-- Calls keep the numbers that were given out. -/
theorem Step.numbers (h : Step u g s a s') (hr : s.Regular) :
    ∀ n c, s'.calls.find? n = some c → n < s'.next := by
  intro n c hn
  have hle : s.next ≤ s'.next := h.next_le
  rcases h.calls hn with hold | ⟨d, -, ⟨-, hlt⟩, -⟩ | hstep
  · have hlt : n < s.next := hr.numbers n c hold
    omega
  · exact hlt
  · obtain ⟨c₀, hcall⟩ := hstep.known
    have hlt : n < s.next := hr.numbers n c₀ hcall
    omega

theorem Regular.step (hr : s.Regular) (h : Step u g s a s') : s'.Regular :=
  ⟨h.faults hr.faults, h.numbers hr⟩

/-! ### Accounts -/

/-- A service that began over `l` and has committed `ts`. -/
structure Accounted (l : Ledger) (ts : List Transaction) (s : Service) : Prop where
  /-- It is regular. -/
  regular : s.Regular
  /-- Its store keeps accounts. -/
  accounts : Traffic.Accounts l ts s.traffic

theorem Accounted.step (h : Accounted l ts s) (hs : Step u g s a s') :
    Accounted l (ts ++ s.committed a) s' := by
  obtain ⟨ta, hp⟩ := hs.traffic h.regular
  refine ⟨h.regular.step hs, ?_⟩
  rw [← hp.committed]
  exact h.accounts.step hp.step hp.ownKey

theorem accounted_ofLedger (u : Setup) (hl : l.WellKeyed) : Accounted l [] (ofLedger u l) :=
  ⟨regular_ofLedger u l, Traffic.accounts_ofLedger hl⟩

/-- Every run keeps accounts. -/
theorem accounted_of_run (hl : l.WellKeyed) (h : Run (act u g) (ofLedger u l) tr s) :
    Accounted l (commits tr) s := by
  induction h with
  | nil => exact accounted_ofLedger u hl
  | snoc _ hact ih =>
    rw [commits_snoc]
    exact ih.step (step_of_act ih.regular.faults hact)

/-! ### Soundness -/

/-- What the initiations of a service know is so. -/
def Knowing (s : Service) : Prop :=
  ∀ n i, s.calls.find? n = some (.initiate i) → i.phase.Knows s.ledger i.request.key

/-- A service that began over `l`, has committed `ts` and has made transactions of the
    references `used` only. -/
structure Sound (l : Ledger) (used : List String) (ts : List Transaction) (s : Service) : Prop
    extends Accounted l ts s where
  /-- Open units of work have different references. -/
  apart : s.traffic.Apart used
  /-- Index and rows fit together. -/
  coherent : s.ledger.Coherent
  /-- The initiations know what they should. -/
  knowing : s.Knowing

theorem Sound.owns (h : Sound l used ts s) {i : Initiation} {w : Initiation.Work}
    (hcall : s.calls.find? n = some (.initiate i)) (hw : i.phase.work? = some w) :
    w.draft.Owns s.ledger i.request.key := by
  apply h.accounts.orderly.owns n i.request.key w.lock w.draft
  rw [units_of_call hcall]
  exact Initiation.unit?_of_work hw

/-- A new reference lets the ledger of a sound service only grow. -/
theorem Sound.extends_step (h : Sound l used ts s) (hs : Step u g s a s') :
    s.ledger.Extends s'.ledger := by
  obtain ⟨ta, hp⟩ := hs.traffic h.regular
  exact h.accounts.orderly.extends_step hp.step fun t ht => h.apart.committed_absent hp.step ht

/-- A row was there before, younger, or is that of a transaction that has been committed. -/
theorem Sound.find?_cases (h : Sound l used ts s) (hs : Step u g s a s') {r : String}
    {t' : Transaction} (ht' : s'.ledger.find? r = some t') :
    (∃ t, s.ledger.find? r = some t ∧ t.Becomes t') ∨
      ∃ t ∈ s.committed a, t.reference = r ∧ t.Becomes t' := by
  obtain ⟨ta, hp⟩ := hs.traffic h.regular
  rw [← hp.committed]
  cases hr : s.ledger.find? r with
  | some t =>
    obtain ⟨t'', ht'', hb⟩ := (h.extends_step hs).some hr
    obtain rfl : t'' = t' := Option.some.inj (ht''.symm.trans ht')
    exact Or.inl ⟨t, rfl, hb⟩
  | none =>
    by_cases hc : ∃ t ∈ s.traffic.committed ta, t.reference = r
    · obtain ⟨t, ht, rfl⟩ := hc
      obtain ⟨-, -, hages⟩ := h.accounts.orderly.committed_refs hp.step ht
      obtain ⟨t'', ht'', hb⟩ := hages.some (Ledger.find?_put_self _ t)
      obtain rfl : t'' = t' := Option.some.inj (ht''.symm.trans ht')
      exact Or.inr ⟨t, ht, rfl, hb⟩
    · -- nothing comes into the ledger but by a commit
      have hnone := hp.step.find?_eq_none hr fun t ht href => hc ⟨t, ht, href⟩
      exact absurd (ht'.symm.trans hnone) (by simp)

theorem Sound.knowing_step (h : Sound l used ts s) (hs : Step u g s a s') : s'.Knowing := by
  intro n i hn
  -- the steps of others let the ledger grow, its own step leads to new knowledge
  rcases hs.initiations hn with hold | ⟨user, request, -, rfl⟩ |
    ⟨m, e, i₀, ta, scene, -, hcall, hmove, hi, hstore⟩
  · exact Initiation.Knows.extends (h.knowing n i hold) (h.extends_step hs)
  · unfold Initiation.ofRequest
    split <;> trivial
  · have hknows := hmove.knows h.coherent (fun w hw => h.owns hcall hw)
      (h.knowing n i₀ hcall)
    rw [hi, ledger, hstore]
    exact hknows

theorem Sound.step (h : Sound l used ts s) (hs : Step u g s a s')
    (hnew : ∀ t, s.made? u a = some t → t.reference ∉ used) :
    Sound l (used ++ (s.made? u a).toList.map Transaction.reference) (ts ++ s.committed a) s' := by
  obtain ⟨ta, hp⟩ := hs.traffic h.regular
  refine ⟨h.toAccounted.step hs, ?_, ?_, h.knowing_step hs⟩
  · rw [← hp.made]
    exact h.apart.step hp.step fun t ht => hnew t (hp.made ▸ ht)
  · exact h.accounts.orderly.coherent_step h.coherent hp.step fun t ht =>
      h.apart.committed_absent hp.step ht

theorem sound_ofLedger (u : Setup) (hl : l.Coherent) : Sound l [] [] (ofLedger u l) :=
  ⟨accounted_ofLedger u hl.wellKeyed, Traffic.apart_ofLedger l, hl,
    fun _ _ h => absurd h (by simp [ofLedger, atRest])⟩

/-- A run in which no two transactions are made with the same reference is sound. -/
theorem sound_of_run (hl : l.Coherent) (h : Run (act u g) (ofLedger u l) tr s)
    (hrefs : ((made u tr).map Transaction.reference).Nodup) :
    Sound l ((made u tr).map Transaction.reference) (commits tr) s := by
  induction h with
  | nil => exact sound_ofLedger u hl
  | @snoc tr s s' a _ hact ih =>
    -- the reference of a new transaction is none of those before
    rw [made_snoc, List.map_append, List.nodup_append] at hrefs
    obtain ⟨hpre, -, hdisjoint⟩ := hrefs
    have hs := ih hpre
    rw [made_snoc, List.map_append, commits_snoc]
    apply hs.step (step_of_act hs.regular.faults hact)
    intro t ht hmem
    exact hdisjoint _ hmem t.reference (by simp [ht]) rfl

end TopUp.Service
