import TopUp.Proofs.Store.Ledger

/-! # What a unit of work gathers

    A unit of work may make a transaction only if neither the ledger nor the unit
    itself uses its key or its reference. A status write touches a transaction that the
    unit made itself at once (`restate`) and puts any other off until the commit. A
    unit that works for one key only has made one transaction at most, and none while
    that key is in use (`Draft.Owns`).
-/

namespace TopUp.Store.Draft

open TopUp.Data

variable {d d' : Draft} {l l' : Ledger} {t : Transaction} {key : Uuid}

/-! ### Making a transaction -/

/-- When a transaction can be made, and what becomes of the unit of work. -/
theorem create_eq_ok {new : NewTransaction} {id : Uuid} {now : Int}
    (h : d.create l new id now = .ok (t, d')) :
    t = new.opened id now ∧ d' = { d with created := d.created ++ [t] } ∧
      l.refs.find? new.key = none ∧ l.find? new.reference = none ∧
      (∀ t' ∈ d.created, t'.key ≠ new.key) ∧ ∀ t' ∈ d.created, t'.reference ≠ new.reference := by
  unfold create at h
  split at h
  · exact absurd h (by simp)
  · next hkey =>
    split at h
    · exact absurd h (by simp)
    · next href =>
      simp only [Except.ok.injEq, Prod.mk.injEq] at h
      obtain ⟨rfl, rfl⟩ := h
      simp only [Dict.contains, Bool.or_eq_true, not_or, Bool.not_eq_true,
        Option.isSome_eq_false_iff, Option.isNone_iff_eq_none, List.any_eq_false,
        decide_eq_true_eq] at hkey href
      exact ⟨rfl, rfl, hkey.1, href.1, hkey.2, href.2⟩

/-! ### Writing a status -/

theorem map_restate {β : Type} (f : Transaction → β)
    (hf : ∀ (t : Transaction) s, f { t with status := s } = f t) (r : String) (s : Status)
    (ts : List Transaction) : (restate r s ts).map f = ts.map f := by
  induction ts with
  | nil => rfl
  | cons t rest ih =>
    by_cases hr : t.reference = r
    · simp [restate, hr, ← hf t s]
    · simp [restate, hr, ih]

/-- What a status write leaves of the transactions that the unit of work made. -/
theorem created_writeStatus (d : Draft) (l : Ledger) (r : String) (s : Status) :
    (d.writeStatus l r s).2.created = d.created ∨
      (d.writeStatus l r s).2.created = restate r s d.created := by
  unfold writeStatus
  split
  · split
    · exact Or.inr rfl
    · exact Or.inl rfl
  · split
    · exact Or.inl rfl
    · exact Or.inl rfl

/-- Nothing but statuses of transactions that were made is changed by a status write. -/
theorem map_writeStatus {β : Type} (f : Transaction → β)
    (hf : ∀ (t : Transaction) s, f { t with status := s } = f t) (d : Draft) (l : Ledger)
    (r : String) (s : Status) : (d.writeStatus l r s).2.created.map f = d.created.map f := by
  rcases created_writeStatus d l r s with h | h
  · rw [h]
  · rw [h, map_restate f hf]

/-- A status write on the one transaction that a unit of work made. -/
theorem writeStatus_of_singleton (h : d.created = [t]) (l : Ledger) (s : Status) :
    d.writeStatus l t.reference s =
      if t.status.canBecome s = true then (true, { d with created := [{ t with status := s }] })
      else (false, d) := by
  simp [writeStatus, h, restate]

/-- A status write of a unit of work that made no transaction. -/
theorem writeStatus_of_nil (h : d.created = []) (l : Ledger) (r : String) (s : Status) :
    d.writeStatus l r s =
      if l.mayTake r s = true then (true, { d with updates := d.updates ++ [(r, s)] })
      else (false, d) := by
  simp [writeStatus, h]

/-! ### Committing -/

/-- A commit puts in what was made and lets all rows age. -/
theorem commit_ages (d : Draft) (l : Ledger) : (d.created.foldl Ledger.put l).Ages (d.commit l) :=
  Ledger.writeAll_ages _ d.updates

theorem commit_ages_of_nil (h : d.created = []) (l : Ledger) : l.Ages (d.commit l) := by
  have hages := d.commit_ages l
  rwa [h] at hages

theorem commit_ages_of_singleton (h : d.created = [t]) (l : Ledger) :
    (l.put t).Ages (d.commit l) := by
  have hages := d.commit_ages l
  rwa [h] at hages

/-! ### Working for one key -/

/-- A unit of work that made nothing, or one transaction of its key while the ledger has
    none of that key. -/
def Owns (d : Draft) (l : Ledger) (key : Uuid) : Prop :=
  d.created = [] ∨ (d.created.map Transaction.key = [key] ∧ l.refs.find? key = none)

theorem owns_empty (l : Ledger) (key : Uuid) : ({} : Draft).Owns l key := Or.inl rfl

/-- The one transaction of a unit of work that made some. -/
theorem Owns.singleton (h : d.Owns l key) (hmem : t ∈ d.created) :
    d.created = [t] ∧ t.key = key ∧ l.refs.find? key = none := by
  rcases h with h | ⟨h, href⟩
  · rw [h] at hmem
    exact absurd hmem (by simp)
  · obtain ⟨t', ht', hkey⟩ := List.map_eq_singleton_iff.mp h
    rw [ht', List.mem_singleton] at hmem
    exact ⟨hmem ▸ ht', hmem ▸ hkey, href⟩

theorem Owns.create (h : d.Owns l key) {new : NewTransaction} {id : Uuid} {now : Int}
    (hkey : new.key = key) (hc : d.create l new id now = .ok (t, d')) : d'.Owns l key := by
  obtain ⟨rfl, rfl, href, -, hkeys, -⟩ := create_eq_ok hc
  rw [hkey] at href hkeys
  rcases h with h | ⟨h, -⟩
  · refine Or.inr ⟨?_, href⟩
    simp [h, NewTransaction.opened, hkey]
  · -- the transaction that is there already has the same key
    obtain ⟨t', ht', hkey'⟩ := List.map_eq_singleton_iff.mp h
    exact absurd hkey' (hkeys t' (by simp [ht']))

theorem Owns.writeStatus (h : d.Owns l key) (r : String) (s : Status) :
    (d.writeStatus l r s).2.Owns l key := by
  -- a status write changes no key
  rcases h with h | ⟨h, href⟩
  · left
    have hmap := map_writeStatus Transaction.key (fun _ _ => rfl) d l r s
    rw [h, List.map_nil, List.map_eq_nil_iff] at hmap
    exact hmap
  · exact Or.inr ⟨by rw [map_writeStatus _ (fun _ _ => rfl), h], href⟩

theorem Owns.of_refs (h : d.Owns l key) (href : l'.refs.find? key = l.refs.find? key) :
    d.Owns l' key :=
  h.imp_right fun h => ⟨h.1, href.trans h.2⟩

/-- A commit lets the rows age; if a transaction was made, it puts that one in first. -/
theorem Owns.commit_cases (h : d.Owns l key) :
    (d.created = [] ∧ l.Ages (d.commit l)) ∨
      ∃ t, d.created = [t] ∧ t.key = key ∧ l.refs.find? key = none ∧
        (l.put t).Ages (d.commit l) := by
  rcases h with h | ⟨h, href⟩
  · exact Or.inl ⟨h, commit_ages_of_nil h l⟩
  · obtain ⟨t, ht, hkey⟩ := List.map_eq_singleton_iff.mp h
    exact Or.inr ⟨t, ht, hkey, href, commit_ages_of_singleton ht l⟩

/-- A commit changes the index at no key but that of the unit of work. -/
theorem Owns.refs_find?_commit (h : d.Owns l key) {k : Uuid} (hne : k ≠ key) :
    (d.commit l).refs.find? k = l.refs.find? k := by
  rcases h.commit_cases with ⟨-, hages⟩ | ⟨t, -, hkey, -, hages⟩
  · rw [hages.refs]
  · rw [hages.refs, Ledger.refs_find?_put, if_neg (hkey ▸ hne.symm)]

end TopUp.Store.Draft
