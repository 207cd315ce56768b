import TopUp.Store.Draft

/-! # What becomes of stored transactions

    A stored transaction ages: its status may give way to another one and the mark of
    its poll loop comes and goes, all else stays (`Transaction.Becomes`). Every
    operation on a ledger but `put` only lets its rows age (`Ledger.Ages`). A ledger is
    coherent when its index by key and its rows by reference are inverse to each other
    (`Ledger.Coherent`); aging keeps that, and so does `put` under a new key and a new
    reference, which only adds to what was there (`Ledger.Extends`).
-/

namespace TopUp

open TopUp.Data

/-! ### Statuses -/

namespace Status

@[simp] theorem canBecome_pending (s : Status) : s.canBecome .pending = false := by
  simp [canBecome]

theorem isTerminal_of_not_canBecome {s next : Status} (hn : next ≠ .pending)
    (h : s.canBecome next = false) : s.isTerminal = true := by
  simpa [canBecome, hn] using h

theorem canBecome_eq_false_of_isTerminal {s : Status} (h : s.isTerminal = true) (next : Status) :
    s.canBecome next = false := by
  simp [canBecome, h]

theorem canBecome_eq_true {s next : Status} :
    s.canBecome next = true ↔ s.isTerminal = false ∧ next ≠ .pending := by
  simp [canBecome]

theorem canBecome_of_open {s next : Status} (hs : s.isTerminal = false) (hn : next ≠ .pending) :
    s.canBecome next = true := by
  simp [canBecome, hs, hn]

theorem ne_pending_of_isTerminal {s : Status} (h : s.isTerminal = true) : s ≠ .pending := by
  rintro rfl
  exact absurd h (by decide)

@[simp] theorem clientVisible_isTerminal (s : Status) :
    s.clientVisible.isTerminal = s.isTerminal := by
  cases s <;> rfl

/-- Clients are shown a terminal status as it is. -/
theorem clientVisible_of_isTerminal {s : Status} (h : s.isTerminal = true) :
    s.clientVisible = s := by
  cases s <;> first | rfl | exact absurd h (by decide)

/-- The status that is left when statuses are written one after another. -/
def after (s : Status) (news : List Status) : Status :=
  news.foldl (fun s new => if s.canBecome new then new else s) s

@[simp] theorem after_nil (s : Status) : s.after [] = s := rfl

@[simp] theorem after_cons (s new : Status) (news : List Status) :
    s.after (new :: news) = (if s.canBecome new then new else s).after news := rfl

theorem after_of_isTerminal {s : Status} (h : s.isTerminal = true) (news : List Status) :
    s.after news = s := by
  induction news with
  | nil => rfl
  | cons new rest ih => rw [after_cons, canBecome_eq_false_of_isTerminal h, if_neg (by simp), ih]

/-- An open status ends as the first terminal one that is written; without one it ends as
    unknown if that is written at all. -/
theorem after_of_open {s : Status} (h : s.isTerminal = false) (news : List Status) :
    s.after news =
      (news.find? isTerminal).getD (if .unknown ∈ news then .unknown else s) := by
  induction news generalizing s with
  | nil => simp
  | cons new rest ih =>
    rw [after_cons]
    cases hnew : new.isTerminal with
    | true =>
      rw [if_pos (canBecome_of_open h (ne_pending_of_isTerminal hnew)), after_of_isTerminal hnew]
      simp [hnew]
    | false =>
      -- a pending status is not written; an unknown one is what is left if nothing follows
      cases new with
      | success | failed => exact absurd hnew (by decide)
      | pending => rw [canBecome_pending, if_neg (by simp), ih h]; simp [hnew]
      | unknown =>
        rw [if_pos (canBecome_of_open h (by decide)), ih hnew]
        simp [hnew]

/-- A status gives way for good exactly if a terminal one is written. -/
theorem after_isTerminal {s : Status} (h : s.isTerminal = false) (news : List Status) :
    (s.after news).isTerminal = true ↔ ∃ new ∈ news, new.isTerminal = true := by
  rw [after_of_open h]
  cases hfind : news.find? isTerminal with
  | some new =>
    have hterm := List.find?_some hfind
    simpa [hterm] using ⟨new, List.mem_of_find?_eq_some hfind, hterm⟩
  | none =>
    have hnone : ∀ new ∈ news, ¬ new.isTerminal = true := by simpa using hfind
    have hleft : (if .unknown ∈ news then .unknown else s : Status).isTerminal = false := by
      split
      · rfl
      · exact h
    simpa [hleft] using hnone

/-- A status that may give way to all that is written is left if nothing else is written. -/
theorem after_eq_self {s : Status} {news : List Status}
    (h : ∀ new ∈ news, s.canBecome new = true) :
    s.after news = s ↔ ∀ new ∈ news, new = s := by
  cases news with
  | nil => simp
  | cons first rest =>
    have hopen : s.isTerminal = false := (canBecome_eq_true.mp (h first List.mem_cons_self)).1
    rw [after_of_open hopen]
    generalize first :: rest = news at h
    cases hfind : news.find? isTerminal with
    | some new =>
      have hterm := List.find?_some hfind
      have hne : new ≠ s := by
        rintro rfl
        rw [hopen] at hterm
        exact absurd hterm (by decide)
      simpa [hne] using ⟨new, List.mem_of_find?_eq_some hfind, hne⟩
    | none =>
      -- what is written is neither terminal nor pending
      have hunknown : ∀ new ∈ news, new = .unknown := by
        intro new hmem
        have hterm : new.isTerminal = false := by simpa using List.find?_eq_none.mp hfind new hmem
        have hne := (canBecome_eq_true.mp (h new hmem)).2
        cases new <;> simp_all [isTerminal]
      rw [Option.getD_none]
      split
      · next hmem =>
        constructor
        · rintro rfl new hnew
          exact hunknown new hnew
        · intro hall
          exact hall .unknown hmem
      · next hmem =>
        simp only [true_iff]
        intro new hnew
        exact absurd (hunknown new hnew ▸ hnew) hmem

end Status

namespace Store

/-! ### Transactions -/

/-- A transaction at a later time: only its status and the mark of its poll loop may be
    others, and a status that changed was one that may give way. -/
structure Transaction.Becomes (t t' : Transaction) : Prop where
  /-- All else is the same. -/
  same : t' = { t with status := t'.status, polling := t'.polling }
  /-- The status is the same, or it gave way. -/
  status : t'.status = t.status ∨ t.status.canBecome t'.status = true

namespace Transaction.Becomes

variable {t t' t'' : Transaction}

theorem refl (t : Transaction) : t.Becomes t := ⟨rfl, Or.inl rfl⟩

theorem id (h : t.Becomes t') : t'.id = t.id := by rw [h.same]
theorem user (h : t.Becomes t') : t'.user = t.user := by rw [h.same]
theorem key (h : t.Becomes t') : t'.key = t.key := by rw [h.same]
theorem reference (h : t.Becomes t') : t'.reference = t.reference := by rw [h.same]
theorem amount (h : t.Becomes t') : t'.amount = t.amount := by rw [h.same]
theorem createdAt (h : t.Becomes t') : t'.createdAt = t.createdAt := by rw [h.same]

/-- A terminal status stays. -/
theorem status_eq_of_isTerminal (h : t.Becomes t') (ht : t.status.isTerminal = true) :
    t'.status = t.status := by
  rcases h.status with heq | hcan
  · exact heq
  · rw [Status.canBecome_eq_false_of_isTerminal ht] at hcan
    exact absurd hcan (by decide)

/-- No status becomes pending again. -/
theorem status_ne_pending (h : t.Becomes t') (ht : t.status ≠ .pending) :
    t'.status ≠ .pending := by
  rcases h.status with heq | hcan
  · rw [heq]
    exact ht
  · intro hpending
    rw [hpending, Status.canBecome_pending] at hcan
    exact absurd hcan (by decide)

theorem trans (h : t.Becomes t') (h' : t'.Becomes t'') : t.Becomes t'' := by
  refine ⟨by rw [h'.same, h.same], ?_⟩
  rcases h'.status with heq | hcan
  · rw [heq]
    exact h.status
  · -- the later change shows that the status before it was open, and so was the first one
    right
    have hopen : t.status.isTerminal = false := by
      cases hterm : t.status.isTerminal with
      | false => rfl
      | true =>
        rw [h.status_eq_of_isTerminal hterm, Status.canBecome_eq_false_of_isTerminal hterm] at hcan
        exact absurd hcan (by decide)
    apply Status.canBecome_of_open hopen
    rintro hpending
    rw [hpending, Status.canBecome_pending] at hcan
    exact absurd hcan (by decide)

end Transaction.Becomes

namespace Ledger

variable {l l' l'' : Ledger}

/-! ### Reading after writing -/

@[simp] theorem refs_change (l : Ledger) (r : String) (f : Transaction → Transaction) :
    (l.change r f).refs = l.refs := by
  unfold change
  split <;> rfl

theorem find?_change (l : Ledger) (r r' : String) (f : Transaction → Transaction) :
    (l.change r f).find? r' = if r = r' then (l.find? r').map f else l.find? r' := by
  unfold change
  cases hfind : l.find? r with
  | none =>
    by_cases hr : r = r'
    · subst hr
      simp [hfind]
    · simp [hr]
  | some t =>
    by_cases hr : r = r'
    · subst hr
      simp [find?, show l.rows.find? r = some t from hfind]
    · simp [find?, hr]

theorem find?_put (l : Ledger) (t : Transaction) (r : String) :
    (l.put t).find? r = if t.reference = r then some t else l.find? r :=
  Dict.find?_insert l.rows t.reference r t

theorem find?_put_self (l : Ledger) (t : Transaction) : (l.put t).find? t.reference = some t := by
  rw [find?_put, if_pos rfl]

theorem refs_find?_put (l : Ledger) (t : Transaction) (k : Uuid) :
    (l.put t).refs.find? k = if t.key = k then some t.reference else l.refs.find? k :=
  Dict.find?_insert l.refs t.key k t.reference

theorem writeStatus_of_refused {r : String} {s : Status} (h : l.mayTake r s = false) :
    l.writeStatus r s = (false, l) := by
  simp [writeStatus, h]

theorem writeStatus_of_taken {r : String} {s : Status} {t : Transaction}
    (ht : l.find? r = some t) (hcan : t.status.canBecome s = true) :
    l.writeStatus r s = (true, { l with rows := l.rows.insert r { t with status := s } }) := by
  simp [writeStatus, mayTake, change, ht, hcan]

@[simp] theorem writeStatus_fst (l : Ledger) (r : String) (s : Status) :
    (l.writeStatus r s).1 = l.mayTake r s := by
  cases hmay : l.mayTake r s <;> simp [writeStatus, hmay]

/-- What a status write leaves under a reference. -/
theorem find?_writeStatus (l : Ledger) (r r' : String) (s : Status) :
    (l.writeStatus r s).2.find? r' =
      if r = r' ∧ l.mayTake r s = true then (l.find? r').map fun t => { t with status := s }
      else l.find? r' := by
  unfold writeStatus
  by_cases hmay : l.mayTake r s = true
  · simp [hmay, find?_change]
  · simp [hmay]

/-- What status writes one after another leave under a reference. -/
theorem find?_writeAll (l : Ledger) (us : List (String × Status)) (r : String) :
    (us.foldl (fun l u => (l.writeStatus u.1 u.2).2) l).find? r =
      (l.find? r).map fun t =>
        { t with status := t.status.after ((us.filter fun u => u.1 = r).map Prod.snd) } := by
  induction us generalizing l with
  | nil => simp
  | cons u rest ih =>
    rw [List.foldl_cons, ih, find?_writeStatus]
    by_cases hr : u.1 = r
    · subst hr
      cases hfind : l.find? u.1 with
      | none => simp
      | some t => by_cases hcan : t.status.canBecome u.2 = true <;> simp [mayTake, hfind, hcan]
    · simp [hr]

/-- A row after a status write is as before, or it is the row that was written. -/
theorem find?_writeStatus_cases {l : Ledger} {r r' : String} {s : Status} {t : Transaction}
    (h : (l.writeStatus r s).2.find? r' = some t) :
    l.find? r' = some t ∨ (r = r' ∧ s = t.status) := by
  rw [find?_writeStatus] at h
  split at h
  · next hr =>
    obtain ⟨t', -, rfl⟩ := Option.map_eq_some_iff.mp h
    exact Or.inr ⟨hr.1, rfl⟩
  · exact Or.inl h

/-- A change that leaves the status alone changes no status. -/
theorem status_change {l : Ledger} {r r' : String} {f : Transaction → Transaction}
    {t : Transaction} (hf : ∀ t, (f t).status = t.status) (h : (l.change r f).find? r' = some t) :
    ∃ t', l.find? r' = some t' ∧ t'.status = t.status := by
  rw [find?_change] at h
  split at h
  · obtain ⟨t', ht', rfl⟩ := Option.map_eq_some_iff.mp h
    exact ⟨t', ht', (hf t').symm⟩
  · exact ⟨t, h, rfl⟩

theorem status_claim {l : Ledger} {r r' : String} {t : Transaction}
    (h : (l.claim r).2.find? r' = some t) :
    ∃ t', l.find? r' = some t' ∧ t'.status = t.status := by
  unfold claim at h
  split at h
  · split at h
    · exact ⟨t, h, rfl⟩
    · exact status_change (f := fun t => { t with polling := true }) (fun _ => rfl) h
  · exact ⟨t, h, rfl⟩

theorem status_clear {l : Ledger} {r r' : String} {t : Transaction}
    (h : (l.clear r).find? r' = some t) : ∃ t', l.find? r' = some t' ∧ t'.status = t.status :=
  status_change (f := fun t => { t with polling := false }) (fun _ => rfl) h

theorem mayTake_eq_true {r : String} {s : Status} :
    l.mayTake r s = true ↔ ∃ t, l.find? r = some t ∧ t.status.canBecome s = true := by
  unfold mayTake
  cases l.find? r <;> simp

/-! ### Aging -/

/-- The rows of a ledger at a later time at which none was added. -/
structure Ages (l l' : Ledger) : Prop where
  /-- The index is the same. -/
  refs : l'.refs = l.refs
  /-- No row was added. -/
  none : ∀ {r}, l.find? r = none → l'.find? r = none
  /-- Every row is still there, at a later time. -/
  some : ∀ {r t}, l.find? r = some t → ∃ t', l'.find? r = some t' ∧ t.Becomes t'

namespace Ages

theorem refl (l : Ledger) : l.Ages l :=
  ⟨rfl, fun h => h, fun {_ t} h => ⟨t, h, .refl t⟩⟩

theorem trans (h : l.Ages l') (h' : l'.Ages l'') : l.Ages l'' := by
  refine ⟨h'.refs.trans h.refs, fun hr => h'.none (h.none hr), fun hr => ?_⟩
  obtain ⟨t', ht', hb⟩ := h.some hr
  obtain ⟨t'', ht'', hb'⟩ := h'.some ht'
  exact ⟨t'', ht'', hb.trans hb'⟩

/-- A row of the later ledger is one of the earlier ledger at a later time. -/
theorem back (h : l.Ages l') {r : String} {t' : Transaction} (ht' : l'.find? r = .some t') :
    ∃ t, l.find? r = .some t ∧ t.Becomes t' := by
  cases hr : l.find? r with
  | none => simp [h.none hr] at ht'
  | some t =>
    obtain ⟨t'', ht'', hb⟩ := h.some hr
    rw [ht'', Option.some.injEq] at ht'
    exact ⟨t, rfl, ht' ▸ hb⟩

end Ages

theorem change_ages (l : Ledger) (r : String) {f : Transaction → Transaction}
    (hf : ∀ t, l.find? r = some t → t.Becomes (f t)) : l.Ages (l.change r f) := by
  refine ⟨refs_change l r f, fun {r'} hr => ?_, fun {r' t} hr => ?_⟩
  · rw [find?_change, hr]
    simp
  · rw [find?_change, hr]
    by_cases heq : r = r'
    · subst heq
      exact ⟨f t, by simp, hf t hr⟩
    · exact ⟨t, by simp [heq], .refl t⟩

theorem writeStatus_ages (l : Ledger) (r : String) (s : Status) :
    l.Ages (l.writeStatus r s).2 := by
  unfold writeStatus
  split
  · next hmay =>
    apply change_ages
    intro t ht
    obtain ⟨t', ht', hcan⟩ := mayTake_eq_true.mp hmay
    obtain rfl : t = t' := by simpa [ht] using ht'
    exact ⟨rfl, Or.inr hcan⟩
  · exact .refl l

theorem claim_ages (l : Ledger) (r : String) : l.Ages (l.claim r).2 := by
  unfold claim
  split
  · split
    · exact .refl l
    · exact change_ages l r fun t _ => ⟨rfl, Or.inl rfl⟩
  · exact .refl l

theorem clear_ages (l : Ledger) (r : String) : l.Ages (l.clear r) :=
  change_ages l r fun _ _ => ⟨rfl, Or.inl rfl⟩

/-- The status writes of a unit of work let the rows age. -/
theorem writeAll_ages (l : Ledger) (us : List (String × Status)) :
    l.Ages (us.foldl (fun l u => (l.writeStatus u.1 u.2).2) l) := by
  induction us generalizing l with
  | nil => exact .refl l
  | cons u rest ih => exact (writeStatus_ages l u.1 u.2).trans (ih _)

/-! ### Growth -/

/-- A ledger at a later time: rows may have been added, none was lost. -/
structure Extends (l l' : Ledger) : Prop where
  /-- What the index knew it still knows. -/
  refs : ∀ {k r}, l.refs.find? k = some r → l'.refs.find? k = some r
  /-- Every row is still there, at a later time. -/
  some : ∀ {r t}, l.find? r = some t → ∃ t', l'.find? r = some t' ∧ t.Becomes t'

theorem Ages.extends (h : l.Ages l') : l.Extends l' :=
  ⟨fun hk => by rw [h.refs, hk], h.some⟩

theorem Extends.trans (h : l.Extends l') (h' : l'.Extends l'') : l.Extends l'' := by
  refine ⟨fun hk => h'.refs (h.refs hk), fun hr => ?_⟩
  obtain ⟨t', ht', hb⟩ := h.some hr
  obtain ⟨t'', ht'', hb'⟩ := h'.some ht'
  exact ⟨t'', ht'', hb.trans hb'⟩

theorem put_extends {t : Transaction} (hk : l.refs.find? t.key = none)
    (hr : l.find? t.reference = none) : l.Extends (l.put t) := by
  refine ⟨fun {k r} hkey => ?_, fun {r t'} ht' => ?_⟩
  · -- neither the index nor the rows had an entry that the new one could take the place of
    have hne : t.key ≠ k := by
      rintro rfl
      rw [hk] at hkey
      exact absurd hkey (by simp)
    rw [refs_find?_put, if_neg hne, hkey]
  · have hne : t.reference ≠ r := by
      rintro rfl
      rw [hr] at ht'
      exact absurd ht' (by simp)
    exact ⟨t', by rw [find?_put, if_neg hne, ht'], .refl t'⟩

/-- The rows of a ledger at a later time: none was lost. -/
def Retains (l l' : Ledger) : Prop :=
  ∀ r t, l.find? r = some t → ∃ t', l'.find? r = some t' ∧ t.Becomes t'

theorem Retains.trans (h : l.Retains l') (h' : l'.Retains l'') : l.Retains l'' := by
  intro r t ht
  obtain ⟨t', ht', hb⟩ := h r t ht
  obtain ⟨t'', ht'', hb'⟩ := h' r t' ht'
  exact ⟨t'', ht'', hb.trans hb'⟩

theorem Ages.retains (h : l.Ages l') : l.Retains l' := fun _ _ ht => h.some ht

/-- Transactions that are put in touch no other reference. -/
theorem find?_putAll_of_ne {ts : List Transaction} {r : String}
    (h : ∀ t ∈ ts, t.reference ≠ r) : (ts.foldl put l).find? r = l.find? r := by
  induction ts generalizing l with
  | nil => rfl
  | cons t rest ih =>
    rw [List.foldl_cons, ih fun t' ht' => h t' (List.mem_cons_of_mem _ ht'), find?_put,
      if_neg (h t List.mem_cons_self)]

/-- Of transactions with different references each is found once all are put in. -/
theorem find?_putAll_of_mem {ts : List Transaction} {t : Transaction}
    (hts : (ts.map Transaction.reference).Nodup) (ht : t ∈ ts) :
    (ts.foldl put l).find? t.reference = some t := by
  induction ts generalizing l with
  | nil => exact absurd ht List.not_mem_nil
  | cons t' rest ih =>
    rw [List.map_cons, List.nodup_cons] at hts
    rcases List.mem_cons.mp ht with rfl | hrest
    · -- those after it have other references
      have hne : ∀ t' ∈ rest, t'.reference ≠ t.reference := by
        intro t' ht' heq
        exact hts.1 (heq ▸ List.mem_map_of_mem ht')
      rw [List.foldl_cons, find?_putAll_of_ne hne, find?_put_self]
    · rw [List.foldl_cons, ih hts.2 hrest]

/-- Transactions under new references take the place of no row. -/
theorem putAll_retains {ts : List Transaction} (h : ∀ t ∈ ts, l.find? t.reference = none) :
    l.Retains (ts.foldl put l) := by
  intro r t ht
  have hne : ∀ t' ∈ ts, t'.reference ≠ r := by
    rintro t' ht' rfl
    rw [h t' ht'] at ht
    exact absurd ht (by simp)
  exact ⟨t, by rw [find?_putAll_of_ne hne, ht], .refl t⟩

/-! ### Coherence -/

/-- Every row is stored under its own reference. -/
def WellKeyed (l : Ledger) : Prop := ∀ r t, l.find? r = some t → t.reference = r

/-- The index by key and the rows by reference are inverse to each other. -/
structure Coherent (l : Ledger) : Prop where
  /-- Every row is stored under its own reference. -/
  wellKeyed : l.WellKeyed
  /-- The key of a row leads to its reference. -/
  indexed : ∀ {r t}, l.find? r = some t → l.refs.find? t.key = some r
  /-- A key leads to a row of that key. -/
  stored : ∀ {k r}, l.refs.find? k = some r → ∃ t, l.find? r = some t ∧ t.key = k

theorem coherent_empty : ({} : Ledger).Coherent :=
  ⟨fun _ _ h => by simp [find?] at h, fun h => by simp [find?] at h, fun h => by simp at h⟩

theorem Ages.wellKeyed (h : l.Ages l') (hl : l.WellKeyed) : l'.WellKeyed := by
  intro r t' ht'
  obtain ⟨t, ht, hb⟩ := h.back ht'
  rw [hb.reference, hl r t ht]

theorem Ages.coherent (h : l.Ages l') (hl : l.Coherent) : l'.Coherent := by
  refine ⟨h.wellKeyed hl.wellKeyed, fun ht' => ?_, fun hk => ?_⟩
  · obtain ⟨t, ht, hb⟩ := h.back ht'
    rw [h.refs, hb.key]
    exact hl.indexed ht
  · rw [h.refs] at hk
    obtain ⟨t, ht, hkey⟩ := hl.stored hk
    obtain ⟨t', ht', hb⟩ := h.some ht
    exact ⟨t', ht', hb.key.trans hkey⟩

theorem WellKeyed.put (hl : l.WellKeyed) (t : Transaction) : (l.put t).WellKeyed := by
  intro r t' ht'
  rw [find?_put] at ht'
  split at ht'
  · next hr =>
    obtain rfl : t = t' := by simpa using ht'
    exact hr
  · exact hl r t' ht'

/-- A transaction under a new key and a new reference keeps a ledger coherent. -/
theorem Coherent.put (hl : l.Coherent) {t : Transaction} (hk : l.refs.find? t.key = none)
    (hr : l.find? t.reference = none) : (l.put t).Coherent := by
  refine ⟨hl.wellKeyed.put t, fun {r t'} ht' => ?_, fun {k r} hkey => ?_⟩
  · rw [find?_put] at ht'
    rw [refs_find?_put]
    split at ht'
    · next hre =>
      obtain rfl : t = t' := by simpa using ht'
      simp [hre]
    · -- an old row has another key, since its own is in the index
      have hindex := hl.indexed ht'
      have hne : t.key ≠ t'.key := by
        intro heq
        rw [← heq, hk] at hindex
        exact absurd hindex (by simp)
      rw [if_neg hne, hindex]
  · rw [refs_find?_put] at hkey
    rw [find?_put]
    split at hkey
    · next hke =>
      obtain rfl : t.reference = r := by simpa using hkey
      exact ⟨t, by simp, hke⟩
    · obtain ⟨t', ht', hkey'⟩ := hl.stored hkey
      have hne : t.reference ≠ r := by
        rintro rfl
        rw [hr] at ht'
        exact absurd ht' (by simp)
      exact ⟨t', by rw [if_neg hne, ht'], hkey'⟩

theorem byKey?_eq_some {k : Uuid} {t : Transaction} :
    l.byKey? k = some t ↔ ∃ r, l.refs.find? k = some r ∧ l.find? r = some t := by
  simp [byKey?, Option.bind_eq_some_iff]

/-- The transaction of a key bears that key and is found by its reference as well. -/
theorem Coherent.of_byKey? (hl : l.Coherent) {k : Uuid} {t : Transaction}
    (h : l.byKey? k = some t) : t.key = k ∧ l.find? t.reference = some t := by
  obtain ⟨r, hr, ht⟩ := byKey?_eq_some.mp h
  obtain ⟨t', ht', hkey⟩ := hl.stored hr
  obtain rfl : t = t' := by simpa [ht] using ht'
  exact ⟨hkey, by rw [hl.wellKeyed r t ht, ht]⟩

/-- A key keeps its transaction. -/
theorem Extends.byKey? (h : l.Extends l') {k : Uuid} {t : Transaction}
    (ht : l.byKey? k = .some t) : ∃ t', l'.byKey? k = .some t' ∧ t.Becomes t' := by
  obtain ⟨r, hr, hfind⟩ := byKey?_eq_some.mp ht
  obtain ⟨t', ht', hb⟩ := h.some hfind
  exact ⟨t', byKey?_eq_some.mpr ⟨r, h.refs hr, ht'⟩, hb⟩

end Ledger

end Store

end TopUp
