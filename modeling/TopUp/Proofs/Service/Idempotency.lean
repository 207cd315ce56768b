import TopUp.Proofs.Service.Sound

/-! # Idempotent initiation

    Of all calls that initiate a top-up with one idempotency key, at whatever points
    they are interleaved with each other and with everything else, at most one commits
    a transaction; their submissions to the gateway never overlap and stop with that
    commit; and whoever gets a receipt gets that of the committed transaction
    (`initiation_idempotent`).

    The first three rest on the lock of the key and on the index by key alone. For the
    last one the rows must be those that were committed, so the references must differ.
-/

namespace TopUp.Service

open TopUp.Data TopUp.Store

variable {ρ : Type} {u : Setup} {g : Reader ρ} {s : Service} {a : Action ρ} {l : Ledger}
  {tr tr₁ tr₂ : List (Service × Action ρ)} {ts : List Transaction} {n m : Nat} {key : Uuid}
  {t : Transaction}

/-! ### Submissions -/

/-- A call waits for the answer to a wallet debit that it submitted for a key. -/
def Submits (s : Service) (key : Uuid) (n : Nat) : Prop :=
  ∃ i w t r, s.calls.find? n = some (.initiate i) ∧ i.request.key = key ∧
    i.phase = .submitting w t r

/-- A step that makes a transaction is that of a call that has found none of its key. -/
theorem made?_eq_some (hf : s.store.faults = []) (h : s.made? u a = some t) :
    ∃ m n i w, a = .turn m (.call n) ∧ s.calls.find? n = some (.initiate i) ∧
      i.phase = .creating w ∧ t.key = i.request.key ∧ s.ledger.refs.find? t.key = none := by
  unfold made? at h
  split at h
  · next m n =>
    split at h
    · next i hcall =>
      unfold Initiation.made? at h
      split at h
      · next w hp =>
        rw [createDraft_of_faults hf] at h
        cases hc : w.draft.create s.store.memory.ledger (Initiation.newTransaction u.calls m i)
            m.id m.wall with
        | error cause => exact absurd h (by simp [hc, Except.toOption])
        | ok x =>
          obtain ⟨t', d⟩ := x
          obtain ⟨ht, -, href, -⟩ := Draft.create_eq_ok hc
          obtain rfl : t' = t := by simpa [hc, Except.toOption] using h
          have hkey : t'.key = i.request.key := by rw [ht]; rfl
          exact ⟨m, n, i, w, rfl, hcall, hp, hkey, hkey ▸ href⟩
      · exact absurd h (by simp)
    · exact absurd h (by simp)
  · exact absurd h (by simp)

/-- The open unit of work of a call. -/
theorem units_of_work {i : Initiation} {w : Initiation.Work}
    (hcall : s.calls.find? n = some (.initiate i)) (hw : i.phase.work? = some w) :
    s.traffic.units n = some ⟨i.request.key, w.lock, .opened w.draft⟩ := by
  rw [units_of_call hcall]
  exact Initiation.unit?_of_work hw

/-- Two calls that have open units of work of one key are the same. -/
theorem Accounted.exclusive (h : Accounted l ts s) {i j : Initiation} {w v : Initiation.Work}
    (hn : s.calls.find? n = some (.initiate i)) (hm : s.calls.find? m = some (.initiate j))
    (hw : i.phase.work? = some w) (hv : j.phase.work? = some v)
    (hkey : i.request.key = j.request.key) : n = m := by
  -- both hold the lock of the key
  have hx := units_of_work hn hw
  have hy := units_of_work hm hv
  rw [← hkey] at hy
  exact h.accounts.orderly.exclusive hx hy

/-- Submissions of one key never overlap. -/
theorem Accounted.submits_unique (h : Accounted l ts s) (hn : s.Submits key n)
    (hm : s.Submits key m) : n = m := by
  obtain ⟨i, w, t, r, hcall, hkey, hp⟩ := hn
  obtain ⟨j, v, t', r', hcall', hkey', hp'⟩ := hm
  exact h.exclusive hcall hcall' (by rw [hp]; rfl) (by rw [hp']; rfl) (hkey.trans hkey'.symm)

/-- A submission begins only when no other one of the key is under way. -/
theorem Accounted.not_submits_of_made (h : Accounted l ts s) (ht : s.made? u a = some t)
    (n : Nat) : ¬ s.Submits t.key n := by
  rintro ⟨i, w, t', r, hcall, hkey, hp⟩
  obtain ⟨_, m, j, v, -, hcall', hp', hkey', -⟩ := made?_eq_some h.regular.faults ht
  have hnm : n = m :=
    h.exclusive hcall hcall' (by rw [hp]; rfl) (by rw [hp']; rfl) (hkey.trans hkey')
  subst hnm
  -- one call cannot be in two phases
  rw [hcall'] at hcall
  obtain rfl : j = i := by simpa using hcall
  rw [hp'] at hp
  exact absurd hp (by simp)

/-- Nothing is made or submitted for a key under which a transaction was committed. -/
theorem Accounted.made_key_ne (h : Accounted l ts s) (ht : s.made? u a = some t)
    {c : Transaction} (hc : c ∈ ts) : t.key ≠ c.key := by
  obtain ⟨_, _, _, _, -, -, -, -, href⟩ := made?_eq_some h.regular.faults ht
  have hknown := h.accounts.known c hc
  intro hkey
  rw [hkey] at href
  exact absurd (hknown.symm.trans href) (by simp)

/-! ### Commits -/

/-- A key has one transaction at most, from the beginning or committed since. -/
theorem Accounted.count_le_one (h : Accounted l ts s) (key : Uuid) :
    (l.byKey? key).toList.length + (ts.map Transaction.key).count key ≤ 1 := by
  have hcount : (ts.map Transaction.key).count key ≤ 1 :=
    List.nodup_iff_count.mp h.accounts.keys key
  cases hkey : l.byKey? key with
  | none =>
    simp only [Option.toList_none, List.length_nil]
    omega
  | some t =>
    -- the index has the key from the beginning, so nothing was committed under it
    have hzero : (ts.map Transaction.key).count key = 0 := by
      apply List.count_eq_zero_of_not_mem
      intro hmem
      obtain ⟨c, hc, rfl⟩ := List.mem_map.mp hmem
      obtain ⟨r, hr, -⟩ := Ledger.byKey?_eq_some.mp hkey
      rw [h.accounts.fresh c hc] at hr
      exact absurd hr (by simp)
    simp [hzero]

/-! ### All together -/

/-- Whatever the interleaving and whatever the gateway does, for every key: at most one
    transaction is ever committed; at any time at most one submission is under way, and
    one begins only when none is; none begins after a commit; and every receipt is that
    of the committed transaction. -/
theorem initiation_idempotent (hl : l.Coherent) (h : Run (act u g) (ofLedger u l) tr s)
    (hrefs : ((made u tr).map Transaction.reference).Nodup) (key : Uuid) :
    (l.byKey? key).toList.length + ((commits tr).map Transaction.key).count key ≤ 1 ∧
    ((∀ n m, s.Submits key n → s.Submits key m → n = m) ∧
      ∀ e ∈ tr, ∀ t, e.1.made? u e.2 = some t → t.key = key → ∀ n, ¬ e.1.Submits key n) ∧
    (∀ tr₁ e tr₂, tr = tr₁ ++ e :: tr₂ → (∃ t ∈ e.1.committed e.2, t.key = key) →
      ∀ e' ∈ tr₂, ∀ t, e'.1.made? u e'.2 = some t → t.key ≠ key) ∧
    ∀ n i r, s.calls.find? n = some (.initiate i) → i.request.key = key →
      i.result? = some (.ok r) → ∃ t, s.ledger.byKey? key = some t ∧ r.Of t := by
  have hacc : Accounted l (commits tr) s := accounted_of_run hl.wellKeyed h
  refine ⟨hacc.count_le_one key, ⟨fun n m => hacc.submits_unique, ?_⟩, ?_, ?_⟩
  · rintro e he t ht rfl n
    obtain ⟨tr₁, _, _, -, hpre, -⟩ := h.of_mem he
    exact (accounted_of_run hl.wellKeyed hpre).not_submits_of_made ht n
  · rintro tr₁ e tr₂ rfl ⟨c, hc, rfl⟩ e' he' t ht
    obtain ⟨tr₃, tr₄, rfl⟩ := List.append_of_mem he'
    -- the accounts before the later step have the commit of the earlier one
    have hcut : tr₁ ++ e :: (tr₃ ++ e' :: tr₄) = (tr₁ ++ e :: tr₃) ++ e' :: tr₄ := by simp
    obtain ⟨hpre, -⟩ := h.split hcut
    have hmem : c ∈ commits (tr₁ ++ e :: tr₃) := by
      simp only [commits, List.flatMap_append, List.flatMap_cons, List.mem_append]
      exact Or.inr (Or.inl hc)
    exact (accounted_of_run hl.wellKeyed hpre).made_key_ne ht hmem
  · rintro n i r hcall rfl hresult
    have hsound := sound_of_run hl h hrefs
    have hknows := hsound.knowing n i hcall
    have hp : i.phase = .done (.ok r) := by
      unfold Initiation.result? at hresult
      split at hresult
      · next hp => rw [hp, Option.some.inj hresult]
      · exact absurd hresult (by simp)
    rw [hp] at hknows
    exact hknows

/-- Two calls of one key: the second one waits for the first one, which pays. -/
def twice : List (Action (Except Gateway.Failure Gateway.Outcome)) :=
  [.arrive (walletDemand 1), .arrive (walletDemand 1)] ++
    [0, 0, 1, 1, 0, 0, 0].map (fun n => .turn (moment 7) (.call n)) ++
    [.reply (moment 7) (.call 0) (.ok (outcome .success))] ++
    [0, 0, 1, 1, 1].map fun n => .turn (moment 7) (.call n)

/-- Of the two calls one commits, both are over, and each receipt is of what was committed. -/
theorem twice_pays_once :
    let run := Run.play (act plain literally) twice (ofLedger plain {})
    (commits run.1).map Transaction.key = [.ofNat 1] ∧
      run.2.isOver 0 = true ∧ run.2.isOver 1 = true ∧
      ∀ n i r, run.2.calls.find? n = some (.initiate i) → i.request.key = .ofNat 1 →
        i.result? = some (.ok r) → ∃ t, run.2.ledger.byKey? (.ofNat 1) = some t ∧ r.Of t := by
  have hrun : Run (act plain literally) _ _ _ := Run.of_play twice (ofLedger plain {})
  have hidem := initiation_idempotent Ledger.coherent_empty hrun (by decide +kernel) (.ofNat 1)
  exact ⟨by decide +kernel, by decide +kernel, by decide +kernel, hidem.2.2.2⟩

end TopUp.Service
