import TopUp.Store.KeyLocks

/-! # Who stands where at the key locks

    Whoever has a handle to the lock of a key is a visitor, has asked for it, or holds
    it (`Standing`). As long as someone stands at a lock, the table of locks finds that
    very lock under its key: it is not idle, so no lookup discards it
    (`KeyLocks.Stands`). Nothing that others do takes a standing away, and of those who
    hold the lock of one key there is only one (`Stands.holding_unique`).
-/

namespace TopUp.Store

open TopUp.Data

/-- How someone stands to a lock. -/
inductive Standing where
  /-- Looked it up. -/
  | visiting
  /-- Asked for it. -/
  | queued
  /-- Holds it. -/
  | holding
  deriving DecidableEq, Repr

namespace KeyLock

variable {l : KeyLock} {owner other : Nat} {st : Standing}

/-- Whether someone stands to a lock in a given way. Who has asked for it may have got it
    without having noticed. -/
def Admits (l : KeyLock) (owner : Nat) : Standing → Prop
  | .visiting => owner ∈ l.visitors
  | .queued => l.holder = some owner ∨ owner ∈ l.waiting
  | .holding => l.holder = some owner

/-- A lock at which someone stands is not idle. -/
theorem Admits.not_idle (h : l.Admits owner st) : l.isIdle = false := by
  cases st with
  | visiting =>
    have hne : l.visitors.isEmpty = false := List.isEmpty_eq_false_iff_exists_mem.mpr ⟨owner, h⟩
    simp [isIdle, hne]
  | queued =>
    rcases h with h | h
    · simp [isIdle, h]
    · have hne : l.waiting.isEmpty = false := List.isEmpty_eq_false_iff_exists_mem.mpr ⟨owner, h⟩
      simp [isIdle, hne]
  | holding =>
    have hsome : l.holder = some owner := h
    simp [isIdle, hsome]

theorem Admits.visit (h : l.Admits owner st) (other : Nat) :
    Admits { l with visitors := l.visitors ++ [other] } owner st := by
  cases st with
  | visiting => exact List.mem_append_left _ h
  | queued => exact h
  | holding => exact h

theorem ask_of_free (h : l.holder = none) (owner : Nat) :
    l.ask owner = { l with visitors := l.visitors.erase owner, holder := some owner } := by
  simp [ask, h]

theorem ask_of_held (h : l.holder = some other) (owner : Nat) :
    l.ask owner =
      { l with visitors := l.visitors.erase owner, waiting := l.waiting ++ [owner] } := by
  simp [ask, h]

/-- Who asks for a lock does not push anyone else away. -/
theorem Admits.ask (h : l.Admits owner st) (hne : owner ≠ other) :
    (l.ask other).Admits owner st := by
  cases hholder : l.holder with
  | none =>
    -- the other one gets the lock at once; nobody held it, so nobody loses it
    rw [ask_of_free hholder]
    cases st with
    | visiting => exact (List.mem_erase_of_ne hne).mpr h
    | queued =>
      rcases h with h | h
      · rw [hholder] at h
        exact absurd h (by simp)
      · exact Or.inr h
    | holding =>
      have hsome : l.holder = some owner := h
      rw [hholder] at hsome
      exact absurd hsome (by simp)
  | some m =>
    rw [ask_of_held hholder]
    cases st with
    | visiting => exact (List.mem_erase_of_ne hne).mpr h
    | queued => exact h.imp (fun h => h) (List.mem_append_left _)
    | holding => exact h

/-- Who gives a handle up does not push anyone else away; the next one may get the lock. -/
theorem Admits.leave (h : l.Admits owner st) (hne : owner ≠ other) :
    (l.leave other).Admits owner st := by
  unfold KeyLock.leave
  by_cases hholder : l.holder = some other
  · -- the holder leaves: the lock goes to whoever has waited longest
    rw [if_pos hholder]
    cases st with
    | visiting => exact h
    | queued =>
      rcases h with h | h
      · rw [hholder, Option.some.injEq] at h
        exact absurd h.symm hne
      · -- the first who waits becomes the holder, the others go on waiting
        cases hw : l.waiting with
        | nil =>
          rw [hw] at h
          exact absurd h (by simp)
        | cons first rest =>
          rw [hw] at h
          rcases List.mem_cons.mp h with rfl | h
          · exact Or.inl rfl
          · exact Or.inr h
    | holding =>
      have hsome : l.holder = some owner := h
      rw [hholder, Option.some.injEq] at hsome
      exact absurd hsome.symm hne
  · rw [if_neg hholder]
    cases st with
    | visiting => exact (List.mem_erase_of_ne hne).mpr h
    | queued => exact h.imp (fun h => h) (List.mem_erase_of_ne hne).mpr
    | holding => exact h

theorem ask_admits (l : KeyLock) (owner : Nat) : (l.ask owner).Admits owner .queued := by
  cases hholder : l.holder with
  | none =>
    rw [ask_of_free hholder]
    exact Or.inl rfl
  | some m =>
    rw [ask_of_held hholder]
    exact Or.inr (List.mem_append_right _ List.mem_cons_self)

end KeyLock

namespace KeyLocks

variable {k : KeyLocks} {key key' : Uuid} {n m owner other : Nat} {st : Standing}

/-- All locks of the table have numbers that were given out. -/
def Bounded (k : KeyLocks) : Prop := ∀ e ∈ k.table.entries, e.2 < k.next

/-- Someone stands at the lock of a number, which is the lock of a key. -/
structure Stands (k : KeyLocks) (key : Uuid) (n owner : Nat) (st : Standing) : Prop where
  /-- The table finds the lock. -/
  found : k.table.find? key = some n
  /-- The number was given out. -/
  below : n < k.next
  /-- They stand at it. -/
  admits : ∃ l, k.locks.find? n = some l ∧ l.Admits owner st

/-! ### What the operations leave -/

@[simp] theorem table_change (k : KeyLocks) (n : Nat) (f : KeyLock → KeyLock) :
    (k.change n f).table = k.table := by
  unfold change
  split <;> rfl

@[simp] theorem next_change (k : KeyLocks) (n : Nat) (f : KeyLock → KeyLock) :
    (k.change n f).next = k.next := by
  unfold change
  split <;> rfl

theorem locks_find?_change (k : KeyLocks) (n m : Nat) (f : KeyLock → KeyLock) :
    (k.change n f).locks.find? m =
      if n = m then (k.locks.find? m).map f else k.locks.find? m := by
  unfold change
  cases hfind : k.locks.find? n with
  | none =>
    by_cases hn : n = m
    · subst hn
      simp [hfind]
    · simp [hn]
  | some l =>
    by_cases hn : n = m
    · subst hn
      simp [hfind]
    · simp [hn]

theorem lookup_of_some (h : k.prune.table.find? key = some n) (owner : Nat) :
    k.lookup key owner =
      (n, k.prune.change n fun l => { l with visitors := l.visitors ++ [owner] }) := by
  simp only [lookup, h]

theorem lookup_of_none (h : k.prune.table.find? key = none) (owner : Nat) :
    k.lookup key owner =
      (k.prune.next,
        { table := k.prune.table.insert key k.prune.next
          locks := k.prune.locks.insert k.prune.next { visitors := [owner] }
          next := k.prune.next + 1 }) := by
  simp only [lookup, h]

theorem Stands.change (h : k.Stands key n owner st) {f : KeyLock → KeyLock}
    (hf : ∀ l, l.Admits owner st → (f l).Admits owner st) :
    (k.change m f).Stands key n owner st := by
  obtain ⟨l, hl, hadmits⟩ := h.admits
  refine ⟨by rw [table_change, h.found], by rw [next_change]; exact h.below, ?_⟩
  rw [locks_find?_change, hl]
  by_cases hm : m = n
  · exact ⟨f l, by simp [hm], hf l hadmits⟩
  · exact ⟨l, by simp [hm], hadmits⟩

/-- Idle locks are discarded, and nobody stands at those. -/
theorem Stands.prune (h : k.Stands key n owner st) : k.prune.Stands key n owner st := by
  obtain ⟨l, hl, hadmits⟩ := h.admits
  have hkept : k.prune.locks.find? n = some l :=
    Dict.find?_filter_of_keep _ _ hl (by simp [hadmits.not_idle])
  refine ⟨Dict.find?_filter_of_keep _ _ h.found ?_, h.below, l, hkept, hadmits⟩
  show (k.prune.locks.find? n).isSome = true
  rw [hkept]
  rfl

/-- A lookup takes no standing away. -/
theorem Stands.lookup (h : k.Stands key n owner st) (key' : Uuid) (other : Nat) :
    (k.lookup key' other).2.Stands key n owner st := by
  have hpruned := h.prune
  cases hfind : k.prune.table.find? key' with
  | some m =>
    rw [lookup_of_some hfind]
    exact hpruned.change fun l hl => hl.visit other
  | none =>
    rw [lookup_of_none hfind]
    -- a new lock: the key is another one, and so is the number
    have hkey : key' ≠ key := by
      rintro rfl
      rw [hpruned.found] at hfind
      exact absurd hfind (by simp)
    have hnum : k.prune.next ≠ n := Nat.ne_of_gt hpruned.below
    obtain ⟨l, hl, hadmits⟩ := hpruned.admits
    refine ⟨?_, Nat.lt_succ_of_lt hpruned.below, l, ?_, hadmits⟩
    · show (k.prune.table.insert key' k.prune.next).find? key = some n
      rw [Dict.find?_insert_ne _ _ hkey, hpruned.found]
    · show (k.prune.locks.insert k.prune.next _).find? n = some l
      rw [Dict.find?_insert_ne _ _ hnum, hl]

/-- Who looks a lock up has a handle to the lock of the key. -/
theorem lookup_stands (hk : k.Bounded) (key : Uuid) (owner : Nat) :
    (k.lookup key owner).2.Stands key (k.lookup key owner).1 owner .visiting := by
  cases hfind : k.prune.table.find? key with
  | some n =>
    rw [lookup_of_some hfind]
    -- the table keeps only entries whose lock was kept
    have hmem : (key, n) ∈ k.prune.table.entries := Dict.mem_of_find? hfind
    obtain ⟨hentry, hcontains⟩ := List.mem_filter.mp hmem
    obtain ⟨l, hl⟩ := Option.isSome_iff_exists.mp hcontains
    refine ⟨by rw [table_change, hfind], by rw [next_change]; exact hk _ hentry, ?_⟩
    refine ⟨{ l with visitors := l.visitors ++ [owner] }, ?_, ?_⟩
    · have hl' : k.prune.locks.find? n = some l := hl
      rw [locks_find?_change, hl']
      simp
    · exact List.mem_append_right _ List.mem_cons_self
  | none =>
    rw [lookup_of_none hfind]
    exact ⟨Dict.find?_insert_self _ _ _, Nat.lt_succ_self _, _, Dict.find?_insert_self _ _ _,
      List.mem_cons_self⟩

theorem Stands.ask (h : k.Stands key n owner st) (hne : owner ≠ other) (m : Nat) :
    (k.ask m other).Stands key n owner st :=
  h.change fun _ hl => hl.ask hne

theorem Stands.leave (h : k.Stands key n owner st) (hne : owner ≠ other) (m : Nat) :
    (k.leave m other).Stands key n owner st :=
  h.change fun _ hl => hl.leave hne

theorem Stands.ask_self (h : k.Stands key n owner .visiting) :
    (k.ask n owner).Stands key n owner .queued := by
  obtain ⟨l, hl, -⟩ := h.admits
  refine ⟨by rw [KeyLocks.ask, table_change, h.found],
    by rw [KeyLocks.ask, next_change]; exact h.below, l.ask owner, ?_, l.ask_admits owner⟩
  rw [KeyLocks.ask, locks_find?_change, hl]
  simp

/-- Who has asked for a lock and sees that it is theirs holds it. -/
theorem Stands.of_holds (h : k.Stands key n owner .queued) (hholds : k.holds n owner = true) :
    k.Stands key n owner .holding := by
  obtain ⟨l, hl, -⟩ := h.admits
  refine ⟨h.found, h.below, l, hl, ?_⟩
  rw [holds, hl] at hholds
  show l.holder = some owner
  exact of_decide_eq_true hholds

/-- Only one holds the lock of a key. -/
theorem Stands.holding_unique (h : k.Stands key n owner .holding)
    (h' : k.Stands key m other .holding) : owner = other := by
  obtain ⟨l, hl, hholder⟩ := h.admits
  obtain ⟨l', hl', hholder'⟩ := h'.admits
  obtain rfl : n = m := by simpa [h.found] using h'.found
  obtain rfl : l = l' := by simpa [hl] using hl'
  have hsome : l.holder = some owner := hholder
  have hsome' : l.holder = some other := hholder'
  simpa [hsome] using hsome'

/-! ### Numbers -/

theorem bounded_empty : ({} : KeyLocks).Bounded := by
  intro e he
  exact absurd he (List.not_mem_nil)

theorem Bounded.change (h : k.Bounded) (n : Nat) (f : KeyLock → KeyLock) :
    (k.change n f).Bounded := by
  intro e he
  rw [table_change] at he
  rw [next_change]
  exact h e he

theorem Bounded.prune (h : k.Bounded) : k.prune.Bounded :=
  fun e he => h e (List.mem_filter.mp he).1

theorem Bounded.lookup (h : k.Bounded) (key : Uuid) (owner : Nat) :
    (k.lookup key owner).2.Bounded := by
  cases hfind : k.prune.table.find? key with
  | some n =>
    rw [lookup_of_some hfind]
    exact h.prune.change n _
  | none =>
    rw [lookup_of_none hfind]
    intro e he
    rcases Dict.mem_insert he with rfl | he
    · exact Nat.lt_succ_self _
    · exact Nat.lt_succ_of_lt (h.prune e he)

/-! ### A lock that is free -/

/-- Both tables have one entry a key. -/
structure Distinct (k : KeyLocks) : Prop where
  /-- A key has one number. -/
  table : k.table.keys.Nodup
  /-- A number has one lock. -/
  locks : k.locks.keys.Nodup

/-- Nobody has a handle to the lock of a key. -/
def Free (k : KeyLocks) (key : Uuid) : Prop :=
  ∀ n l, k.table.find? key = some n → k.locks.find? n = some l → l.isIdle = true

/-- The lock of a key has a number and is as given. -/
structure Has (k : KeyLocks) (key : Uuid) (n : Nat) (l : KeyLock) : Prop where
  /-- The table finds the lock. -/
  found : k.table.find? key = some n
  /-- The lock is this one. -/
  lock : k.locks.find? n = some l

theorem distinct_empty : ({} : KeyLocks).Distinct := ⟨List.nodup_nil, List.nodup_nil⟩

theorem free_empty (key : Uuid) : ({} : KeyLocks).Free key := by
  intro n l hfound
  exact absurd hfound (by simp)

theorem Distinct.prune (h : k.Distinct) : k.prune.Distinct :=
  ⟨Dict.nodup_keys_filter h.table _, Dict.nodup_keys_filter h.locks _⟩

theorem Distinct.change (h : k.Distinct) (n : Nat) (f : KeyLock → KeyLock) :
    (k.change n f).Distinct := by
  refine ⟨by rw [table_change]; exact h.table, ?_⟩
  unfold KeyLocks.change
  split
  · exact Dict.nodup_keys_insert h.locks _ _
  · exact h.locks

theorem Distinct.lookup (h : k.Distinct) (key : Uuid) (owner : Nat) :
    (k.lookup key owner).2.Distinct := by
  cases hfind : k.prune.table.find? key with
  | some n =>
    rw [lookup_of_some hfind]
    exact h.prune.change n _
  | none =>
    rw [lookup_of_none hfind]
    exact ⟨Dict.nodup_keys_insert h.prune.table _ _, Dict.nodup_keys_insert h.prune.locks _ _⟩

/-- A free lock is discarded by the next lookup. -/
theorem Free.prune (h : k.Free key) (hd : k.Distinct) : k.prune.table.find? key = none := by
  have htable : k.prune.table.find? key =
      (k.table.find? key).filter fun n => k.prune.locks.contains n :=
    Dict.find?_filter hd.table _ key
  have hlocks : ∀ n, k.prune.locks.find? n = (k.locks.find? n).filter fun l => !l.isIdle :=
    fun n => Dict.find?_filter hd.locks _ n
  rw [htable, Option.filter_eq_none_iff]
  intro n hn hcontains
  obtain ⟨l, hl⟩ := Option.isSome_iff_exists.mp hcontains
  rw [hlocks, Option.filter_eq_some_iff] at hl
  have hidle : l.isIdle = true := h n l hn hl.1
  simp [hidle] at hl

/-- Who looks up a free lock is its only visitor. -/
theorem Free.lookup (h : k.Free key) (hd : k.Distinct) (owner : Nat) :
    (k.lookup key owner).2.Has key (k.lookup key owner).1 { visitors := [owner] } := by
  rw [lookup_of_none (h.prune hd)]
  exact ⟨Dict.find?_insert_self _ _ _, Dict.find?_insert_self _ _ _⟩

theorem Has.change {l : KeyLock} (h : k.Has key n l) (f : KeyLock → KeyLock) :
    (k.change n f).Has key n (f l) := by
  refine ⟨by rw [table_change, h.found], ?_⟩
  rw [locks_find?_change, if_pos rfl, h.lock]
  rfl

/-- The only visitor of a lock gets it. -/
theorem Has.ask (h : k.Has key n { visitors := [owner] }) :
    (k.ask n owner).Has key n { holder := some owner } := by
  have hask : KeyLock.ask { visitors := [owner] } owner = { holder := some owner } := by
    simp [KeyLock.ask]
  exact hask ▸ h.change fun l => l.ask owner

/-- A lock that its only holder leaves is free again. -/
theorem Has.leave (h : k.Has key n { holder := some owner }) : (k.leave n owner).Free key := by
  have hleft : (k.leave n owner).Has key n {} := by
    have hleave : KeyLock.leave { holder := some owner } owner = {} := by
      simp [KeyLock.leave]
    exact hleave ▸ h.change fun l => l.leave owner
  intro n' l hn' hl
  obtain rfl : n = n' := by simpa [hleft.found] using hn'
  obtain rfl : {} = l := by simpa [hleft.lock] using hl
  rfl

end KeyLocks

end TopUp.Store
