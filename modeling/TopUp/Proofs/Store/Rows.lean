import TopUp.Proofs.Store.Orderly

/-! # The rows of a store

    No lock protects references, but a transaction is made only under a reference that
    is in no row and in no transaction of the same unit of work. So units of work that
    make different references commit nothing in the place of a row, whatever keys they
    work for. From its commit on, a row then only ages: its status and the mark of its
    poll loop may change, a status never becomes pending again, and a terminal one
    stays (`rows_only_age`).
-/

namespace TopUp.Store

/-- What a status write does while writes are switched on: it takes place exactly on a
    row with an open status, and no other row is touched. -/
theorem Memory.update_eq_ok {m : Memory} (hwritable : m.readOnly = false) (r : String)
    (s : Status) :
    ∃ written m', m.update r s = .ok (written, m') ∧
      (written = true ↔
        ∃ t, m.ledger.find? r = some t ∧ t.status.isTerminal = false ∧ s ≠ .pending) ∧
      (written = true → ∀ r', m'.ledger.find? r' =
        if r = r' then (m.ledger.find? r').map fun t => { t with status := s }
        else m.ledger.find? r') ∧
      (written = false → m' = m) := by
  have htakes : m.ledger.mayTake r s = true ↔
      ∃ t, m.ledger.find? r = some t ∧ t.status.isTerminal = false ∧ s ≠ .pending := by
    simp only [Ledger.mayTake_eq_true, Status.canBecome_eq_true]
  have hupdate : m.update r s =
      .ok ((m.ledger.writeStatus r s).1, { m with ledger := (m.ledger.writeStatus r s).2 }) := by
    simp [update, hwritable]
  cases hmay : m.ledger.mayTake r s with
  | true =>
    refine ⟨true, { m with ledger := (m.ledger.writeStatus r s).2 }, ?_, ?_, fun _ r' => ?_, ?_⟩
    · simp [hupdate, Ledger.writeStatus, hmay]
    · exact iff_of_true rfl (htakes.mp hmay)
    · simp [Ledger.find?_writeStatus, hmay]
    · simp
  | false =>
    refine ⟨false, m, ?_, ?_, by simp, fun _ => rfl⟩
    · simp [hupdate, Ledger.writeStatus, hmay]
    · rw [← htakes, hmay]

namespace Traffic

variable {x x' : Traffic} {a : Action} {l : Ledger} {tr : List (Traffic × Action)}
  {used : List String}

/-! ### Units of work with references of their own -/

/-- The transactions that were made in the course of a trace, committed or not. -/
def made (tr : List (Traffic × Action)) : List Transaction :=
  tr.flatMap fun e => (e.1.created? e.2).toList

theorem made_snoc (tr : List (Traffic × Action)) (x : Traffic) (a : Action) :
    made (tr ++ [(x, a)]) = made tr ++ (x.created? a).toList := by
  simp [made]

/-- Open units of work have different references, and each of them has a reference only
    once. -/
structure Separate (x : Traffic) (used : List String) : Prop extends x.Apart used where
  /-- No unit of work makes two transactions of one reference. -/
  distinct : ∀ n key lock d, x.units n = some ⟨key, lock, .opened d⟩ →
    (d.created.map Transaction.reference).Nodup

theorem separate_ofLedger (l : Ledger) : (ofLedger l).Separate [] :=
  ⟨apart_ofLedger l, fun _ _ _ _ hunit => absurd hunit (by simp [ofLedger])⟩

theorem Separate.step (h : x.Separate used) (hs : Step x a x')
    (hnew : ∀ t, x.created? a = some t → t.reference ∉ used) :
    x'.Separate (used ++ (x.created? a).toList.map Transaction.reference) := by
  refine ⟨h.toApart.step hs hnew, fun n key lock d hu => ?_⟩
  rcases hs.units hu with hold | hnew
  · exact h.distinct n key lock d hold
  · cases hnew with
    | enter => exact List.nodup_nil
    | create hunit hcreate =>
      -- a reference that the unit of work has made already is refused
      obtain ⟨rfl, rfl, -, -, -, hfree⟩ := Draft.create_eq_ok hcreate
      rw [List.map_append, List.map_singleton, List.nodup_append]
      refine ⟨h.distinct n _ _ _ hunit, by simp, ?_⟩
      intro r hr r' hr' heq
      obtain ⟨t, ht, rfl⟩ := List.mem_map.mp hr
      rw [List.mem_singleton] at hr'
      exact hfree t ht (heq.trans hr')
    | write hunit =>
      rw [Draft.map_writeStatus _ fun _ _ => rfl]
      exact h.distinct n _ _ _ hunit

theorem separate_of_run (h : Run act (ofLedger l) tr x)
    (hrefs : ((made tr).map Transaction.reference).Nodup) :
    x.Separate ((made tr).map Transaction.reference) := by
  induction h with
  | nil => exact separate_ofLedger l
  | @snoc tr x x' a _ hact ih =>
    rw [made_snoc, List.map_append, List.nodup_append] at hrefs
    obtain ⟨hpre, -, hdisjoint⟩ := hrefs
    rw [made_snoc, List.map_append]
    apply (ih hpre).step (step_of_act hact)
    intro t ht hmem
    exact hdisjoint _ hmem t.reference (by simp [ht]) rfl

/-! ### Rows -/

/-- No row is replaced. -/
theorem Separate.retains_step (h : x.Separate used) (hs : Step x a x') :
    x.ledger.Retains x'.ledger := by
  have hput : x.ledger.Retains ((x.committed a).foldl Ledger.put x.ledger) :=
    Ledger.putAll_retains fun t ht => h.committed_absent hs ht
  exact hput.trans hs.ledger.retains

/-- What is committed is in its row. -/
theorem Separate.stores_step (h : x.Separate used) (hs : Step x a x') {t : Transaction}
    (ht : t ∈ x.committed a) : ∃ t', x'.ledger.find? t.reference = some t' ∧ t.Becomes t' := by
  obtain ⟨n, key, lock, d, hunit, hcreated⟩ := opened_of_committed ht
  have hdistinct := h.distinct n key lock d hunit
  rw [← hcreated] at hdistinct
  exact hs.ledger.some (Ledger.find?_putAll_of_mem hdistinct ht)

/-- A transaction that is stored at some moment, or committed by the next action. -/
def Stored (e : Traffic × Action) (r : String) (t : Transaction) : Prop :=
  e.1.ledger.find? r = some t ∨ (t ∈ e.1.committed e.2 ∧ t.reference = r)

/-- What was stored at any moment of a run is stored at its end, only older. -/
theorem stored_becomes (h : Run act (ofLedger l) tr x)
    (hrefs : ((made tr).map Transaction.reference).Nodup) {e : Traffic × Action} (he : e ∈ tr)
    {r : String} {t : Transaction} (ht : Stored e r t) :
    ∃ t', x.ledger.find? r = some t' ∧ t.Becomes t' := by
  induction h with
  | nil => exact absurd he List.not_mem_nil
  | @snoc tr x x' a hrun hact ih =>
    rw [made_snoc, List.map_append, List.nodup_append] at hrefs
    have hsep := separate_of_run hrun hrefs.1
    have hs : Step x a x' := step_of_act hact
    rcases List.mem_append.mp he with he | he
    · obtain ⟨t', ht', hb⟩ := ih hrefs.1 he
      obtain ⟨t'', ht'', hb'⟩ := hsep.retains_step hs r t' ht'
      exact ⟨t'', ht'', hb.trans hb'⟩
    · obtain rfl := List.mem_singleton.mp he
      rcases ht with ht | ⟨ht, rfl⟩
      · exact hsep.retains_step hs r t ht
      · exact hsep.stores_step hs ht

/-- In a run in which no two units of work make the same reference, every row that is
    stored or committed at some moment is there at the end with all its data but its
    status and its mark; a status does not become pending again, and a terminal one is
    for good. A status write takes place exactly on a row with an open status, and only
    there. -/
theorem rows_only_age (h : Run act (ofLedger l) tr x)
    (hrefs : ((made tr).map Transaction.reference).Nodup) :
    (∀ e ∈ tr, ∀ r t, Stored e r t →
      ∃ t', x.ledger.find? r = some t' ∧
        t' = { t with status := t'.status, polling := t'.polling } ∧
        (t.status ≠ .pending → t'.status ≠ .pending) ∧
        (t.status.isTerminal = true → t'.status = t.status)) ∧
    ∀ r s, x.memory.readOnly = false →
      ∃ written m, x.memory.update r s = .ok (written, m) ∧
        (written = true ↔
          ∃ t, x.ledger.find? r = some t ∧ t.status.isTerminal = false ∧ s ≠ .pending) ∧
        (written = true → ∀ r', m.ledger.find? r' =
          if r = r' then (x.ledger.find? r').map fun t => { t with status := s }
          else x.ledger.find? r') ∧
        (written = false → m = x.memory) := by
  constructor
  · intro e he r t ht
    obtain ⟨t', ht', hb⟩ := stored_becomes h hrefs he ht
    exact ⟨t', ht', hb.same, hb.status_ne_pending, hb.status_eq_of_isTerminal⟩
  · intro r s hwritable
    exact Memory.update_eq_ok hwritable r s

/-- Two units of work of one run, one inside the other; the first row is settled while
    the unit that made it has asked for another status, and then written to again. -/
def settledTwice : List Action :=
  let new (key : Nat) (reference : String) : NewTransaction :=
    { user := .nil, key := .ofNat key, billReference := "B1", reference, method := .wallet,
      amount := 50000 }
  [.lookup 0 (.ofNat 1), .ask 0, .enter 0, .lookup 1 (.ofNat 2), .ask 1, .enter 1,
    .create 0 (new 1 "T1") (.ofNat 3) 0, .create 1 (new 2 "T2") (.ofNat 4) 0,
    .write 0 "T1" .unknown, .commit 0, .write 1 "T1" .failed, .update "T1" .success, .commit 1,
    .claim "T1", .update "T1" .failed]

/-- The row keeps the status that settled it first. -/
theorem settledTwice_first_stays :
    let run := Run.play act settledTwice (ofLedger {})
    ∃ t, run.2.ledger.find? "T1" = some t ∧ t.status = .success := by
  have hage := (rows_only_age (Run.of_play settledTwice (ofLedger {})) (by decide +kernel)).1
  obtain ⟨e, he, t, ht, hstatus⟩ : ∃ e ∈ (Run.play act settledTwice (ofLedger {})).1,
      ∃ t ∈ e.1.ledger.find? "T1", t.status = .success := by
    decide +kernel
  obtain ⟨t', ht', -, -, hterm⟩ := hage e he "T1" t (Or.inl ht)
  exact ⟨t', ht', by rw [hterm (by rw [hstatus]; rfl), hstatus]⟩

end Traffic

end TopUp.Store
