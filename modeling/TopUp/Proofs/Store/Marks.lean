import TopUp.Proofs.Store.Draft
import TopUp.Proofs.Store.Traffic

/-! # The marks of poll loops

    A row is marked while a poll loop attends to it. Of all operations on a store only
    `claim` sets a mark, and only `clear` takes one away; a transaction that is put in
    unmarked under a reference that is not marked leaves all marks as they are.
-/

namespace TopUp.Store

namespace Ledger

variable {l : Ledger} {r r' : String}

/-- Whether a reference has a row that is marked. -/
def marked (l : Ledger) (r : String) : Bool := (l.find? r).any Transaction.polling

theorem marked_eq_true : l.marked r = true ↔ ∃ t, l.find? r = some t ∧ t.polling = true := by
  simp [marked, Option.any_eq_true]

theorem marked_of_find? {t : Transaction} (h : l.find? r = some t) : l.marked r = t.polling := by
  simp [marked, h]

@[simp] theorem marked_empty (r : String) : ({} : Ledger).marked r = false := by
  simp [marked, find?]

theorem marked_change {f : Transaction → Transaction} (hf : ∀ t, (f t).polling = t.polling) :
    (l.change r f).marked r' = l.marked r' := by
  rw [marked, marked, find?_change]
  split
  · cases l.find? r' <;> simp [hf]
  · rfl

@[simp] theorem marked_writeStatus (l : Ledger) (r r' : String) (s : Status) :
    (l.writeStatus r s).2.marked r' = l.marked r' := by
  unfold writeStatus
  split
  · exact marked_change (f := fun t => { t with status := s }) fun _ => rfl
  · rfl

/-- The status writes of a unit of work leave the marks as they are. -/
theorem marked_writeAll (us : List (String × Status)) :
    (us.foldl (fun l u => (l.writeStatus u.1 u.2).2) l).marked r = l.marked r := by
  induction us generalizing l with
  | nil => rfl
  | cons u rest ih => rw [List.foldl_cons, ih, marked_writeStatus]

theorem marked_put {t : Transaction} (ht : t.polling = false)
    (hr : l.marked t.reference = false) : (l.put t).marked r = l.marked r := by
  by_cases heq : t.reference = r
  · subst heq
    rw [marked_of_find? (find?_put_self l t), ht, hr]
  · rw [marked, marked, find?_put, if_neg heq]

theorem marked_putAll {ts : List Transaction}
    (h : ∀ t ∈ ts, t.polling = false ∧ l.marked t.reference = false) :
    (ts.foldl put l).marked r = l.marked r := by
  induction ts generalizing l with
  | nil => rfl
  | cons t rest ih =>
    obtain ⟨ht, hr⟩ := h t List.mem_cons_self
    rw [List.foldl_cons, ih, marked_put ht hr]
    intro t' ht'
    obtain ⟨hpolling, hmarked⟩ := h t' (List.mem_cons_of_mem _ ht')
    exact ⟨hpolling, by rw [marked_put ht hr, hmarked]⟩

/-- A commit of unmarked transactions leaves the marks as they are. -/
theorem marked_commit {d : Draft}
    (h : ∀ t ∈ d.created, t.polling = false ∧ l.marked t.reference = false) :
    (d.commit l).marked r = l.marked r := by
  rw [Draft.commit, marked_writeAll, marked_putAll h]

/-- A claim succeeds on a row that is not marked, and marks it. -/
theorem marked_claim (h : (l.claim r).1 = true) :
    l.marked r = false ∧ ∀ r', (l.claim r).2.marked r' = if r = r' then true else l.marked r' := by
  unfold claim at h ⊢
  cases hfind : l.find? r with
  | none => simp [hfind] at h
  | some t =>
    cases hpolling : t.polling with
    | true => simp [hfind, hpolling] at h
    | false =>
      refine ⟨by rw [marked_of_find? hfind, hpolling], fun r' => ?_⟩
      by_cases heq : r = r'
      · subst heq
        simp [marked, find?_change, hfind, hpolling]
      · simp [marked, find?_change, hpolling, heq]

/-- A claim that fails changes nothing, and the row is marked if there is one. -/
theorem claim_eq_false (h : (l.claim r).1 = false) :
    (l.claim r).2 = l ∧ (l.find? r ≠ none → l.marked r = true) := by
  unfold claim at h ⊢
  cases hfind : l.find? r with
  | none => simp
  | some t =>
    cases hpolling : t.polling with
    | true => exact ⟨by simp [hpolling], fun _ => by rw [marked_of_find? hfind, hpolling]⟩
    | false => simp [hfind, hpolling] at h

theorem marked_clear (l : Ledger) (r r' : String) :
    (l.clear r).marked r' = if r = r' then false else l.marked r' := by
  rw [marked, clear, find?_change]
  by_cases heq : r = r'
  · subst heq
    cases l.find? r <;> simp
  · simp [heq, marked]

end Ledger

/-- A status write leaves the marks as they are. -/
theorem Memory.marked_update {m m' : Memory} {r : String} {s : Status} {written : Bool}
    (h : m.update r s = .ok (written, m')) (r' : String) :
    m'.ledger.marked r' = m.ledger.marked r' := by
  rw [Memory.update_eq h]
  exact Ledger.marked_writeStatus _ _ _ _

/-- The transactions of open units of work are not marked. -/
def Traffic.Unmarked (x : Traffic) : Prop :=
  ∀ n key lock d, x.units n = some ⟨key, lock, .opened d⟩ → ∀ t ∈ d.created, t.polling = false

theorem Traffic.unmarked_ofLedger (l : Ledger) : (ofLedger l).Unmarked :=
  fun _ _ _ _ h => absurd h (by simp [ofLedger])

theorem Traffic.Unmarked.step {x x' : Traffic} {a : Traffic.Action} (h : x.Unmarked)
    (hs : Step x a x') : x'.Unmarked := by
  intro n key lock d hu
  rcases hs.units hu with hold | hnew
  · exact h n key lock d hold
  · cases hnew with
    | enter => simp
    | create hunit hcreate =>
      obtain ⟨rfl, rfl, -⟩ := Draft.create_eq_ok hcreate
      intro t ht
      rcases List.mem_append.mp ht with ht | ht
      · exact h n _ _ _ hunit t ht
      · rw [List.mem_singleton.mp ht]
        rfl
    | write hunit =>
      -- a status write changes no mark
      intro t ht
      have hmem := List.mem_map_of_mem (f := Transaction.polling) ht
      rw [Draft.map_writeStatus _ fun _ _ => rfl] at hmem
      obtain ⟨t₀, ht₀, hpolling⟩ := List.mem_map.mp hmem
      rw [← hpolling, h n _ _ _ hunit t₀ ht₀]

/-- Nor does an action that at most writes a status change any mark. -/
theorem Traffic.marked_of_act {x x' : Traffic} {a : Traffic.Action} (h : act a x = some x')
    (ha : a = .read ∨ ∃ r s, a = .update r s) (r : String) :
    x'.ledger.marked r = x.ledger.marked r := by
  rcases memory_of_act h ha with hm | ⟨r', s, hm⟩
  · rw [Traffic.ledger, hm]
  · rw [Traffic.ledger, hm]
    exact Ledger.marked_writeStatus _ _ _ _

end TopUp.Store
