import TopUp.Proofs.Call.Knowledge

/-! # What a successful call leaves

    A call that succeeds leaves its key with one transaction, that of its receipt, and
    the ledger otherwise as it was (`Booked`). It has found the transaction as it is,
    or written a terminal status on it, or made it; and it may have marked it for a poll
    loop.
-/

namespace TopUp

open TopUp.Gateway TopUp.Store

namespace Status

theorem clientVisible_ne_unknown (s : Status) : s.clientVisible ≠ .unknown := by
  cases s <;> decide

/-- Clients are shown an open status as pending. -/
theorem clientVisible_of_open {s : Status} (h : s.isTerminal = false) :
    s.clientVisible = .pending := by
  cases s <;> first | rfl | exact absurd h (by decide)

end Status

/-- What a call that succeeds leaves of a ledger, and how its receipt tells of it. -/
structure Booked (before after : Ledger) (request : Request) (r : Receipt) : Prop where
  /-- The receipt is that of the row of the key. -/
  row : ∃ t, after.find? r.reference = some t ∧ t.key = request.key ∧ r.Of t ∧
    r.status = t.status.clientVisible
  /-- The key leads to that row. -/
  index : after.refs.find? request.key = some r.reference
  /-- A row that was there before belonged to the key. -/
  own : ∀ t, before.find? r.reference = some t → t.key = request.key
  /-- If the key led to a row before, it was this one. -/
  kept : ∀ reference, before.refs.find? request.key = some reference → reference = r.reference
  /-- All other rows are as they were. -/
  rows : ∀ reference, reference ≠ r.reference → after.find? reference = before.find? reference
  /-- All other keys lead where they led. -/
  refs : ∀ key, key ≠ request.key → after.refs.find? key = before.refs.find? key
  /-- Rows and index fit together. -/
  coherent : after.Coherent
  /-- The customer is redirected exactly if the row was made, for a card payment. -/
  redirect : r.redirect.isSome = true ↔ before.byKey? request.key = none ∧ request.method = .card

namespace Booked

variable {before l : Ledger} {request : Request} {r : Receipt} {t : Transaction}

/-- The receipt of a transaction that the key has. -/
theorem of_stored (hl : l.Coherent) (hkey : l.byKey? request.key = some t) (hof : r.Of t)
    (hstatus : r.status = t.status.clientVisible) (hredirect : r.redirect = none) :
    Booked l l request r := by
  obtain ⟨htkey, hfind⟩ := hl.of_byKey? hkey
  have hindex : l.refs.find? request.key = some r.reference := by
    rw [← htkey, hl.indexed hfind, hof.reference]
  exact
    { row := ⟨t, by rw [hof.reference, hfind], htkey, hof, hstatus⟩
      index := hindex
      own := fun t' ht' => by
        rw [hof.reference, hfind] at ht'
        rw [← Option.some.inj ht', htkey]
      kept := fun reference href => Option.some.inj (href.symm.trans hindex)
      rows := fun _ _ => rfl
      refs := fun _ _ => rfl
      coherent := hl
      redirect := by simp [hredirect, hkey] }

/-- The receipt of a terminal status that was written. -/
theorem of_written {status : Status} (hl : l.Coherent) (hkey : l.byKey? request.key = some t)
    (hopen : t.status.isTerminal = false) (hstatus : status ≠ .pending) (message : String) :
    Booked l (l.writeStatus t.reference status).2 request
      (.ofTransaction t status message) := by
  obtain ⟨htkey, hfind⟩ := hl.of_byKey? hkey
  have hmay : l.mayTake t.reference status = true :=
    Ledger.mayTake_eq_true.mpr ⟨t, hfind, Status.canBecome_of_open hopen hstatus⟩
  have hages := Ledger.writeStatus_ages l t.reference status
  have hindex : l.refs.find? request.key = some t.reference := by rw [← htkey, hl.indexed hfind]
  exact
    { row := by
        refine ⟨{ t with status }, ?_, htkey, ⟨rfl, rfl, rfl⟩, rfl⟩
        show (l.writeStatus t.reference status).2.find? t.reference = _
        rw [Ledger.find?_writeStatus, if_pos ⟨rfl, hmay⟩, hfind]
        rfl
      index := by rw [hages.refs]; exact hindex
      own := fun t' ht' => by
        obtain rfl : t = t' := Option.some.inj (hfind.symm.trans ht')
        exact htkey
      kept := fun reference href => Option.some.inj (href.symm.trans hindex)
      rows := fun reference hne => by
        have hother : t.reference ≠ reference := Ne.symm hne
        rw [Ledger.find?_writeStatus, if_neg (by simp [hother])]
      refs := fun key _ => by rw [hages.refs]
      coherent := hages.coherent hl
      redirect := by simp [Receipt.ofTransaction, hkey] }

/-- The receipt of a transaction that was made. -/
theorem of_made (hl : l.Coherent) (hkey : t.key = request.key)
    (hnew : l.refs.find? t.key = none) (hfresh : l.find? t.reference = none) (hof : r.Of t)
    (hstatus : r.status = t.status.clientVisible)
    (hredirect : r.redirect.isSome = true ↔ request.method = .card) :
    Booked l (l.put t) request r := by
  have hnone : l.refs.find? request.key = none := by rw [← hkey, hnew]
  exact
    { row := ⟨t, by rw [hof.reference, Ledger.find?_put_self], hkey, hof, hstatus⟩
      index := by rw [Ledger.refs_find?_put, if_pos hkey, hof.reference]
      own := fun t' ht' => by
        rw [hof.reference, hfresh] at ht'
        exact absurd ht' (by simp)
      kept := fun reference href => by
        rw [hnone] at href
        exact absurd href (by simp)
      rows := fun reference hne => by
        have hother : t.reference ≠ reference := by
          rw [← hof.reference]
          exact Ne.symm hne
        rw [Ledger.find?_put, if_neg hother]
      refs := fun key hne => by
        have hother : t.key ≠ key := by
          rw [hkey]
          exact Ne.symm hne
        rw [Ledger.refs_find?_put, if_neg hother]
      coherent := hl.put hnew hfresh
      redirect := by simp [Ledger.byKey?, hnone, hredirect] }

/-- Marking the row for a poll loop changes nothing that was said. -/
theorem claim (h : Booked before l request r) : Booked before (l.claim r.reference).2 request r := by
  have hages := Ledger.claim_ages l r.reference
  obtain ⟨t, hfind, hkey, hof, hstatus⟩ := h.row
  obtain ⟨t', hfind', hb⟩ := hages.some hfind
  obtain ⟨t'', hfind'', hsame⟩ := Ledger.status_claim hfind'
  obtain rfl : t = t'' := Option.some.inj (hfind.symm.trans hfind'')
  exact
    { row := ⟨t', hfind', hb.key.trans hkey, Initiation.of_becomes hof hb, by rw [hstatus, hsame]⟩
      index := by rw [hages.refs]; exact h.index
      own := h.own
      kept := h.kept
      rows := fun reference hne => by
        have hother : r.reference ≠ reference := Ne.symm hne
        have hclaim : (l.claim r.reference).2.find? reference = l.find? reference := by
          unfold Ledger.claim
          rw [hfind]
          by_cases hpolling : t.polling = true
          · simp [hpolling]
          · simp [hpolling, Ledger.find?_change, hother]
        rw [hclaim, h.rows reference hne]
      refs := fun key hne => by rw [hages.refs, h.refs key hne]
      coherent := hages.coherent h.coherent
      redirect := h.redirect }

end Booked

end TopUp
