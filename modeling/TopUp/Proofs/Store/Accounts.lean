import TopUp.Proofs.Store.Orderly

/-! # Accounts of what was committed

    The index by key is the memory of a store: what was committed under a key leaves the
    key in the index for good, and nothing is committed under a key that is in it. So no
    two commits are of one key, whatever becomes of the rows (`Traffic.Accounts`).
-/

namespace TopUp.Store.Traffic

variable {x x' : Traffic} {a : Action} {l : Ledger} {tr : List (Traffic × Action)}
  {ts : List Transaction} {t : Transaction}

/-- The transactions that were committed in the course of a trace. -/
def commits (tr : List (Traffic × Action)) : List Transaction :=
  tr.flatMap fun e => e.1.committed e.2

theorem commits_snoc (tr : List (Traffic × Action)) (x : Traffic) (a : Action) :
    commits (tr ++ [(x, a)]) = commits tr ++ x.committed a := by
  simp [commits]

/-- Traffic that began over `l` and has committed `ts`. -/
structure Accounts (l : Ledger) (ts : List Transaction) (x : Traffic) : Prop where
  /-- It is orderly. -/
  orderly : x.Orderly
  /-- No two of the transactions have the same key. -/
  keys : (ts.map Transaction.key).Nodup
  /-- The index leads from the key of each to its reference. -/
  known : ∀ t ∈ ts, x.ledger.refs.find? t.key = some t.reference
  /-- What the index knew at the beginning it still knows. -/
  indexed : ∀ k r, l.refs.find? k = some r → x.ledger.refs.find? k = some r
  /-- None of them is of a key that the index knew at the beginning. -/
  fresh : ∀ t ∈ ts, l.refs.find? t.key = none
  /-- No row of the beginning is gone. -/
  persists : ∀ r, l.find? r ≠ none → x.ledger.find? r ≠ none
  /-- All other rows are of committed transactions. -/
  origin : ∀ r, x.ledger.find? r ≠ none → l.find? r ≠ none ∨ r ∈ ts.map Transaction.reference
  /-- What open units of work make is not among the rows of the beginning. -/
  unused : ∀ n r, x.Makes n r → l.find? r = none

theorem accounts_ofLedger (hl : l.WellKeyed) : Accounts l [] (ofLedger l) := by
  refine ⟨orderly_ofLedger hl, List.nodup_nil, by simp, fun _ _ h => h, by simp, fun _ h => h,
    fun _ h => Or.inl h, ?_⟩
  rintro n r ⟨key, lock, d, hunit, -⟩
  exact absurd hunit (by simp [ofLedger])

/-- A transaction is committed under a key that was never in use. -/
theorem Orderly.committed_refs (h : x.Orderly) (hs : Step x a x') (ht : t ∈ x.committed a) :
    x.committed a = [t] ∧ x.ledger.refs.find? t.key = none ∧ (x.ledger.put t).Ages x'.ledger := by
  rcases h.ledger_step hs with ⟨hnil, -⟩ | ⟨t', ht', href, hages⟩
  · rw [hnil] at ht
    exact absurd ht (by simp)
  · rw [ht', List.mem_singleton] at ht
    subst ht
    exact ⟨ht', href, hages⟩

/-- A row is never taken away. -/
theorem Orderly.find?_ne_none_step (h : x.Orderly) (hs : Step x a x') {r : String}
    (hr : x.ledger.find? r ≠ none) : x'.ledger.find? r ≠ none := by
  obtain ⟨t, ht⟩ := Option.ne_none_iff_exists'.mp hr
  rcases h.ledger_step hs with ⟨-, hages⟩ | ⟨t', -, -, hages⟩
  · obtain ⟨t'', ht'', -⟩ := hages.some ht
    simp [ht'']
  · -- a row that is put in may take the place of this one, but then there is one again
    have hput : (x.ledger.put t').find? r ≠ none := by
      rw [Ledger.find?_put]
      split
      · simp
      · exact hr
    obtain ⟨t₀, ht₀⟩ := Option.ne_none_iff_exists'.mp hput
    obtain ⟨t'', ht'', -⟩ := hages.some ht₀
    simp [ht'']

theorem Accounts.step (h : Accounts l ts x) (hs : Step x a x') (ha : a.OwnKey x) :
    Accounts l (ts ++ x.committed a) x' := by
  refine ⟨h.orderly.step hs ha, ?_, ?_, ?_, ?_, ?_, ?_, ?_⟩
  · -- the key of a new commit is not in the index, those of the earlier ones are
    rcases h.orderly.ledger_step hs with ⟨hnil, -⟩ | ⟨t, ht, href, -⟩
    · rw [hnil, List.append_nil]
      exact h.keys
    · rw [ht, List.map_append, List.map_singleton, List.nodup_append]
      refine ⟨h.keys, by simp, ?_⟩
      intro k hk k' hk' heq
      rw [List.mem_singleton] at hk'
      obtain ⟨c, hc, rfl⟩ := List.mem_map.mp hk
      have hknown := h.known c hc
      rw [heq, hk', href] at hknown
      exact absurd hknown (by simp)
  · intro t ht
    rcases List.mem_append.mp ht with ht | ht
    · exact h.orderly.refs_step hs (h.known t ht)
    · obtain ⟨-, -, hages⟩ := h.orderly.committed_refs hs ht
      rw [hages.refs, Ledger.refs_find?_put, if_pos rfl]
  · intro k r hk
    exact h.orderly.refs_step hs (h.indexed k r hk)
  · intro t ht
    rcases List.mem_append.mp ht with ht | ht
    · exact h.fresh t ht
    · -- the index has lost nothing since the beginning, and does not know the key now
      obtain ⟨-, href, -⟩ := h.orderly.committed_refs hs ht
      cases hk : l.refs.find? t.key with
      | none => rfl
      | some r =>
        rw [h.indexed t.key r hk] at href
        exact absurd href (by simp)
  · intro r hr
    exact h.orderly.find?_ne_none_step hs (h.persists r hr)
  · intro r hr
    by_cases hc : ∃ t ∈ x.committed a, t.reference = r
    · obtain ⟨t, ht, rfl⟩ := hc
      exact Or.inr (List.mem_map_of_mem (List.mem_append_right _ ht))
    · have hold : x.ledger.find? r ≠ none := by
        intro hnone
        exact hr (hs.find?_eq_none hnone fun t ht href => hc ⟨t, ht, href⟩)
      rw [List.map_append]
      exact (h.origin r hold).imp_right (List.mem_append_left _)
  · intro n r hm
    rcases makes_step hs hm with hm | ⟨_, _, _, _, -, -, -, hfind⟩
    · exact h.unused n r hm
    · -- a row of the beginning would still be there
      cases hr : l.find? r with
      | none => rfl
      | some t => exact absurd hfind (h.persists r (by simp [hr]))

end TopUp.Store.Traffic
