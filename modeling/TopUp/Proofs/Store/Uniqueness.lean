import TopUp.Proofs.Store.Accounts

/-! # One row for each committed transaction

    The lock of a key serialises the units of work of that key, so no two transactions
    of one key are ever committed. No lock serialises references: a reference is looked
    up when a transaction is made, and the row is put in when the unit of work is
    committed. Two units of work of different keys may thus both make a transaction of
    one reference, and the later commit replaces the row of the earlier one.

    That is the only way in which a committed row is lost
    (`committed_rows_kept_iff_references_distinct`).
-/

namespace TopUp.Store

/-- A transaction is still found, by its key and by its reference. -/
def Ledger.Keeps (l : Ledger) (t : Transaction) : Prop :=
  ∃ t', l.byKey? t.key = some t' ∧ l.find? t.reference = some t' ∧ t'.id = t.id ∧ t'.key = t.key

namespace Traffic

variable {x x' : Traffic} {a : Action} {l : Ledger} {tr : List (Traffic × Action)}
  {ts : List Transaction} {t : Transaction}

/-! ### Rows kept and rows lost -/

/-- The row of a committed transaction was replaced by one of another key. -/
def Lost (ts : List Transaction) (x : Traffic) : Prop :=
  ∃ t ∈ ts, ∃ u, x.ledger.find? t.reference = some u ∧ u.key ≠ t.key

/-- Where a row was replaced, the index leads from its key to a row of another key. -/
theorem Lost.not_coherent (h : Lost ts x) (hacc : Accounts l ts x) : ¬ x.ledger.Coherent := by
  obtain ⟨t, ht, u, hu, hne⟩ := h
  intro hco
  obtain ⟨u', hu', hkey⟩ := hco.stored (hacc.known t ht)
  obtain rfl : u = u' := by simpa [hu] using hu'
  exact hne hkey

theorem Lost.not_keeps (h : Lost ts x) : ¬ ∀ t ∈ ts, x.ledger.Keeps t := by
  obtain ⟨t, ht, u, hu, hne⟩ := h
  intro hkeeps
  obtain ⟨t', -, ht', -, hkey⟩ := hkeeps t ht
  obtain rfl : u = t' := by simpa [hu] using ht'
  exact hne hkey

/-- A lost row does not come back: its key is in use, so nothing is committed under it. -/
theorem Lost.step (h : Lost ts x) (hacc : Accounts l ts x) (hs : Step x a x') :
    Lost (ts ++ x.committed a) x' := by
  obtain ⟨t, ht, u, hu, hne⟩ := h
  refine ⟨t, List.mem_append_left _ ht, ?_⟩
  rcases hacc.orderly.ledger_step hs with ⟨-, hages⟩ | ⟨c, -, href, hages⟩
  · obtain ⟨u', hu', hb⟩ := hages.some hu
    exact ⟨u', hu', hb.key ▸ hne⟩
  · by_cases hr : c.reference = t.reference
    · have hput : (x.ledger.put c).find? t.reference = some c := by
        rw [Ledger.find?_put, if_pos hr]
      obtain ⟨u', hu', hb⟩ := hages.some hput
      refine ⟨u', hu', ?_⟩
      rw [hb.key]
      -- the key of the lost row is in the index, so the new row is not of that key
      intro hkey
      have hknown := hacc.known t ht
      rw [← hkey, href] at hknown
      exact absurd hknown (by simp)
    · have hput : (x.ledger.put c).find? t.reference = some u := by
        rw [Ledger.find?_put, if_neg hr, hu]
      obtain ⟨u', hu', hb⟩ := hages.some hput
      exact ⟨u', hu', hb.key ▸ hne⟩

/-- Since the index is right, a transaction is kept if its row is. -/
theorem Accounts.keeps_iff (h : Accounts l ts x) (ht : t ∈ ts) :
    x.ledger.Keeps t ↔
      ∃ t', x.ledger.find? t.reference = some t' ∧ t'.id = t.id ∧ t'.key = t.key := by
  constructor
  · rintro ⟨t', -, hrest⟩
    exact ⟨t', hrest⟩
  · rintro ⟨t', hfind, hrest⟩
    exact ⟨t', Ledger.byKey?_eq_some.mpr ⟨_, h.known t ht, hfind⟩, hfind, hrest⟩

/-- Nothing was lost so far. -/
structure Intact (ts : List Transaction) (x : Traffic) : Prop where
  /-- Index and rows fit together. -/
  coherent : x.ledger.Coherent
  /-- No two commits were of one reference. -/
  references : (ts.map Transaction.reference).Nodup
  /-- Every committed transaction is kept. -/
  keeps : ∀ t ∈ ts, x.ledger.Keeps t

/-- A commit under a reference that was not committed before loses nothing. -/
theorem Intact.step (h : Intact ts x) (hacc : Accounts l ts x) (hs : Step x a x')
    (ha : a.OwnKey x)
    (hnew : ∀ t ∈ x.committed a, t.reference ∉ ts.map Transaction.reference) :
    Intact (ts ++ x.committed a) x' := by
  have hacc' : Accounts l (ts ++ x.committed a) x' := hacc.step hs ha
  -- the reference is in no row: not in one of the beginning, and not in a committed one
  have habsent : ∀ t ∈ x.committed a, x.ledger.find? t.reference = none := by
    intro t ht
    obtain ⟨n, hmakes, -⟩ := makes_of_committed hs ht
    cases hr : x.ledger.find? t.reference with
    | none => rfl
    | some u =>
      rcases hacc.origin t.reference (by simp [hr]) with hl | hts
      · exact absurd (hacc.unused n _ hmakes) hl
      · exact absurd hts (hnew t ht)
  refine ⟨hacc.orderly.coherent_step h.coherent hs habsent, ?_, ?_⟩
  · rcases hacc.orderly.ledger_step hs with ⟨hnil, -⟩ | ⟨t, ht, -⟩
    · rw [hnil, List.append_nil]
      exact h.references
    · have hnew := hnew t (by simp [ht])
      rw [ht, List.map_append, List.map_singleton, List.nodup_append]
      refine ⟨h.references, by simp, ?_⟩
      intro r hr r' hr' heq
      rw [List.mem_singleton] at hr'
      exact hnew (hr' ▸ heq ▸ hr)
  · intro t ht
    rw [hacc'.keeps_iff ht]
    rcases List.mem_append.mp ht with ht | ht
    · obtain ⟨t', ht', hid, hkey⟩ := (hacc.keeps_iff ht).mp (h.keeps t ht)
      obtain ⟨t'', ht'', hb⟩ := (hacc.orderly.extends_step hs habsent).some ht'
      exact ⟨t'', ht'', hb.id.trans hid, hb.key.trans hkey⟩
    · obtain ⟨-, -, hages⟩ := hacc.orderly.committed_refs hs ht
      obtain ⟨t', ht', hb⟩ := hages.some (Ledger.find?_put_self _ t)
      exact ⟨t', ht', hb.id, hb.key⟩

/-- A second commit under a reference takes the row of the first one. -/
theorem Accounts.lost_step (hacc : Accounts l ts x) (hs : Step x a x')
    (ht : t ∈ x.committed a) (hused : t.reference ∈ ts.map Transaction.reference) :
    Lost (ts ++ x.committed a) x' := by
  obtain ⟨c, hc, hr⟩ := List.mem_map.mp hused
  obtain ⟨-, href, hages⟩ := hacc.orderly.committed_refs hs ht
  obtain ⟨u, hu, hb⟩ := hages.some (Ledger.find?_put_self _ t)
  refine ⟨c, List.mem_append_left _ hc, u, by rw [hr, hu], ?_⟩
  rw [hb.key]
  intro hkey
  have hknown := hacc.known c hc
  rw [← hkey, href] at hknown
  exact absurd hknown (by simp)

/-- Whether anything was lost is a matter of the committed references alone. -/
theorem intact_or_lost (hl : l.Coherent) (h : Run act (ofLedger l) tr x)
    (hown : ∀ e ∈ tr, e.2.OwnKey e.1) :
    Accounts l (commits tr) x ∧
      (Intact (commits tr) x ∨
        ¬ ((commits tr).map Transaction.reference).Nodup ∧ Lost (commits tr) x) := by
  induction h with
  | nil =>
    refine ⟨accounts_ofLedger hl.wellKeyed, Or.inl ⟨hl, ?_, ?_⟩⟩
    · simp [commits]
    · simp [commits]
  | @snoc tr x x' a _ hact ih =>
    have hs : Step x a x' := step_of_act hact
    have ha : a.OwnKey x := hown (x, a) (by simp)
    obtain ⟨hacc, hcase⟩ := ih fun e he => hown e (List.mem_append_left _ he)
    rw [commits_snoc]
    refine ⟨hacc.step hs ha, ?_⟩
    rcases hcase with hint | ⟨hdup, hlost⟩
    · -- as long as nothing is lost, it depends on the reference of the next commit
      by_cases hnew : ∀ t ∈ x.committed a, t.reference ∉ (commits tr).map Transaction.reference
      · exact Or.inl (hint.step hacc hs ha hnew)
      · obtain ⟨t, ht, hused⟩ : ∃ t ∈ x.committed a,
            t.reference ∈ (commits tr).map Transaction.reference := by
          simpa using hnew
        refine Or.inr ⟨?_, hacc.lost_step hs ht hused⟩
        rw [List.map_append, List.nodup_append]
        rintro ⟨-, -, hdisjoint⟩
        exact hdisjoint _ hused _ (List.mem_map_of_mem ht) rfl
    · refine Or.inr ⟨?_, hlost.step hacc hs⟩
      rw [List.map_append, List.nodup_append]
      exact fun hnodup => hdup hnodup.1

/-! ### What is kept -/

/-- However the units of work of different keys are interleaved, no two of them commit a
    transaction of the same key; and every committed transaction is still found by its
    key and by its reference, and index and rows fit together, just when no two of them
    committed a transaction of the same reference. -/
theorem committed_rows_kept_iff_references_distinct (hl : l.Coherent)
    (h : Run act (ofLedger l) tr x) (hown : ∀ e ∈ tr, e.2.OwnKey e.1) :
    ((commits tr).map Transaction.key).Nodup ∧
    ((∀ t ∈ commits tr, x.ledger.Keeps t) ↔
      ((commits tr).map Transaction.reference).Nodup) ∧
    (x.ledger.Coherent ↔ ((commits tr).map Transaction.reference).Nodup) := by
  obtain ⟨hacc, hint | ⟨hdup, hlost⟩⟩ := intact_or_lost hl h hown
  · exact ⟨hacc.keys, iff_of_true hint.keeps hint.references,
      iff_of_true hint.coherent hint.references⟩
  · exact ⟨hacc.keys, iff_of_false hlost.not_keeps hdup,
      iff_of_false (hlost.not_coherent hacc) hdup⟩

/-- Two units of work of different keys, each of which makes a transaction while the other
    one is open. -/
def crossing (r r' : String) : List Action :=
  let new (key : Nat) (reference : String) : NewTransaction :=
    { user := .nil, key := .ofNat key, billReference := "B1", reference, method := .wallet,
      amount := 50000 }
  [.lookup 0 (.ofNat 1), .ask 0, .enter 0, .lookup 1 (.ofNat 2), .ask 1, .enter 1,
    .create 0 (new 1 r) (.ofNat 3) 0, .create 1 (new 2 r') (.ofNat 4) 0, .commit 0, .commit 1]

/-- Crossing units of work that make different references commit both, and both are kept. -/
theorem crossing_rows_kept :
    let run := Run.play act (crossing "T1" "T2") (ofLedger {})
    (commits run.1).length = 2 ∧ ∀ t ∈ commits run.1, run.2.ledger.Keeps t := by
  refine ⟨by decide, ?_⟩
  have hkept := committed_rows_kept_iff_references_distinct Ledger.coherent_empty
    (Run.of_play (crossing "T1" "T2") (ofLedger {})) (by decide)
  exact hkept.2.1.mpr (by decide)

/-- Crossing units of work that make the same reference are both committed, and the row of
    the first one is lost: its key leads to the row of the other key. -/
theorem crossing_row_lost :
    let run := Run.play act (crossing "T1" "T1") (ofLedger {})
    Run act (ofLedger {}) run.1 run.2 ∧ (∀ e ∈ run.1, e.2.OwnKey e.1) ∧
      (commits run.1).map Transaction.key = [.ofNat 1, .ofNat 2] ∧
      (run.2.ledger.byKey? (.ofNat 1)).map Transaction.key = some (.ofNat 2) ∧
      ¬ ∀ t ∈ commits run.1, run.2.ledger.Keeps t := by
  have hrun : Run act _ _ _ := Run.of_play (crossing "T1" "T1") (ofLedger {})
  refine ⟨hrun, by decide, by decide, by decide, ?_⟩
  obtain ⟨-, hint | ⟨-, hlost⟩⟩ := intact_or_lost Ledger.coherent_empty hrun (by decide)
  · exact absurd hint.references (by decide)
  · exact hlost.not_keeps

end Traffic

end TopUp.Store
