import Mathlib.Data.List.Basic
import TopUp.Proofs.Store.KeyLocks

/-! # A lock for every key

    Locks are made when they are looked up and discarded when nobody has a handle to
    them. Seen from outside none of this happens: every key has its lock all the time
    (`KeyLocks.lockOf`), for a lock that is not in the table is as good as one to which
    nobody has a handle. Clearing the table changes no lock (`lockOf_prune`), a lookup
    brings its visitor to the lock of its key and leaves all others alone
    (`lockOf_lookup`), and so does everything else that is done to the lock of a number.
-/

namespace TopUp.Store

open TopUp.Data

namespace KeyLock

variable {l : KeyLock} {owner : Nat}

/-- Those who have asked for the lock, the holder first. -/
def line (l : KeyLock) : List Nat := l.holder.toList ++ l.waiting

/-- Someone looks the lock up. -/
def visit (l : KeyLock) (owner : Nat) : KeyLock := { l with visitors := l.visitors ++ [owner] }

/-- A lock to which nobody has a handle is a new one. -/
theorem isIdle_iff : l.isIdle = true ↔ l = {} := by
  obtain ⟨visitors, holder, waiting⟩ := l
  simp [isIdle, and_assoc]

/-- Someone has a handle to a lock that is not idle. -/
theorem exists_of_not_idle (h : l.isIdle = false) : ∃ m, m ∈ l.visitors ∨ m ∈ l.line := by
  by_contra hnobody
  have hnone : ∀ m, m ∉ l.visitors ∧ m ∉ l.line := by simpa using hnobody
  have hvisitors : l.visitors = [] := List.eq_nil_iff_forall_not_mem.mpr fun m => (hnone m).1
  have hline : l.line = [] := List.eq_nil_iff_forall_not_mem.mpr fun m => (hnone m).2
  obtain ⟨hholder, hwaiting⟩ := List.append_eq_nil_iff.mp hline
  simp [isIdle, hvisitors, hwaiting, Option.toList_eq_nil_iff.mp hholder] at h

/-! ### The line -/

/-- Who asks for a lock goes to the end of the line. -/
theorem line_ask (h : l.holder = none → l.waiting = []) (owner : Nat) :
    (l.ask owner).line = l.line ++ [owner] := by
  cases hholder : l.holder with
  | none => simp [ask_of_free hholder, line, hholder, h hholder]
  | some m => simp [ask_of_held hholder, line, hholder]

/-- Who gives a handle up goes out of the line. -/
theorem line_leave (h : l.holder = none → l.waiting = []) (owner : Nat) :
    (l.leave owner).line = l.line.erase owner := by
  unfold leave
  cases hholder : l.holder with
  | none => simp [line, hholder, h hholder]
  | some m =>
    by_cases hm : m = owner
    · subst hm
      cases hwaiting : l.waiting <;> simp [line, hholder, hwaiting]
    · simp [line, hholder, hm]

theorem ordered_ask (owner : Nat) : (l.ask owner).holder = none → (l.ask owner).waiting = [] := by
  cases hholder : l.holder with
  | none => simp [ask_of_free hholder]
  | some m => simp [ask_of_held hholder, hholder]

theorem ordered_leave (h : l.holder = none → l.waiting = []) (owner : Nat) :
    (l.leave owner).holder = none → (l.leave owner).waiting = [] := by
  unfold leave
  split
  · intro hnone
    have hempty : l.waiting = [] := List.head?_eq_none_iff.mp hnone
    simp [hempty]
  · intro hnone
    have hempty : l.waiting = [] := h hnone
    simp [hempty]

theorem visitors_ask (l : KeyLock) (owner : Nat) :
    (l.ask owner).visitors = l.visitors.erase owner := by
  unfold ask
  cases l.holder <;> rfl

/-- Who gives a handle up is no visitor any more, unless it is one that also holds the lock. -/
theorem visitors_leave (h : owner ∈ l.visitors → l.holder ≠ some owner) :
    (l.leave owner).visitors = l.visitors.erase owner := by
  unfold leave
  split
  · next hholder =>
    have hnot : owner ∉ l.visitors := fun hmem => h hmem hholder
    rw [List.erase_of_not_mem hnot]
  · rfl

end KeyLock

namespace KeyLocks

variable {k : KeyLocks} {key key' : Uuid} {n m owner : Nat} {f : KeyLock → KeyLock}

/-- The lock of a key, which nobody has a handle to if the table does not know it. -/
def lockOf (k : KeyLocks) (key : Uuid) : KeyLock :=
  ((k.table.find? key).bind k.locks.find?).getD {}

/-- Keys and locks belong together one by one. -/
structure Proper (k : KeyLocks) : Prop extends k.Distinct where
  /-- All locks have numbers that were given out. -/
  bounded : k.Bounded
  /-- No two keys have the same lock. -/
  injective : ∀ {key key' n}, k.table.find? key = some n → k.table.find? key' = some n → key = key'
  /-- Every number of the table has a lock. -/
  backed : ∀ {key n}, k.table.find? key = some n → ∃ l, k.locks.find? n = some l

theorem proper_empty : ({} : KeyLocks).Proper :=
  { toDistinct := distinct_empty
    bounded := bounded_empty
    injective := fun h => absurd h (by simp)
    backed := fun h => absurd h (by simp) }

theorem lockOf_of_find? (h : k.table.find? key = some n) {l : KeyLock}
    (hl : k.locks.find? n = some l) : k.lockOf key = l := by
  simp [lockOf, h, hl]

theorem lockOf_of_none (h : k.table.find? key = none) : k.lockOf key = {} := by
  simp [lockOf, h]

/-! ### Clearing the table -/

/-- What is left in the table has a lock that someone has a handle to. -/
theorem find?_prune (h : k.Proper) :
    k.prune.table.find? key = some n ↔
      k.table.find? key = some n ∧ (k.lockOf key).isIdle = false := by
  have htable : k.prune.table.find? key =
      (k.table.find? key).filter fun n => k.prune.locks.contains n :=
    Dict.find?_filter h.table _ key
  have hlocks : ∀ n, k.prune.locks.find? n = (k.locks.find? n).filter fun l => !l.isIdle :=
    fun n => Dict.find?_filter h.locks _ n
  rw [htable, Option.filter_eq_some_iff]
  refine and_congr_right fun hn => ?_
  obtain ⟨l, hl⟩ := h.backed hn
  rw [lockOf_of_find? hn hl, Dict.contains, hlocks, hl]
  cases hidle : l.isIdle <;> simp [hidle]

/-- Clearing the table changes no lock. -/
theorem lockOf_prune (h : k.Proper) (key : Uuid) : k.prune.lockOf key = k.lockOf key := by
  cases hfound : k.prune.table.find? key with
  | none =>
    rw [lockOf_of_none hfound]
    cases hn : k.table.find? key with
    | none => rw [lockOf_of_none hn]
    | some n =>
      -- the lock was discarded, so nobody had a handle to it
      cases hidle : (k.lockOf key).isIdle with
      | true => exact (KeyLock.isIdle_iff.mp hidle).symm
      | false =>
        rw [(find?_prune h).mpr ⟨hn, hidle⟩] at hfound
        exact absurd hfound (by simp)
  | some n =>
    obtain ⟨hn, hidle⟩ := (find?_prune h).mp hfound
    obtain ⟨l, hl⟩ := h.backed hn
    rw [lockOf_of_find? hn hl] at hidle
    have hkept : k.prune.locks.find? n = some l :=
      Dict.find?_filter_of_keep _ _ hl (by simp [hidle])
    rw [lockOf_of_find? hfound hkept, lockOf_of_find? hn hl]

theorem Proper.prune (h : k.Proper) : k.prune.Proper where
  toDistinct := h.toDistinct.prune
  bounded := h.bounded.prune
  injective hn hn' := h.injective ((find?_prune h).mp hn).1 ((find?_prune h).mp hn').1
  backed hn := by
    obtain ⟨hfound, hidle⟩ := (find?_prune h).mp hn
    obtain ⟨l, hl⟩ := h.backed hfound
    rw [lockOf_of_find? hfound hl] at hidle
    exact ⟨l, Dict.find?_filter_of_keep _ _ hl (by simp [hidle])⟩

/-! ### Changing one lock -/

theorem Proper.change (h : k.Proper) (n : Nat) (f : KeyLock → KeyLock) : (k.change n f).Proper where
  toDistinct := h.toDistinct.change n f
  bounded := h.bounded.change n f
  injective hn hn' := by
    rw [table_change] at hn hn'
    exact h.injective hn hn'
  backed {key m} hm := by
    rw [table_change] at hm
    obtain ⟨l, hl⟩ := h.backed hm
    rw [locks_find?_change, hl]
    split <;> exact ⟨_, rfl⟩

/-- What is done to the lock of a number is done to the lock of one key. -/
theorem lockOf_change (h : k.Proper) (hn : k.table.find? key = some n) (f : KeyLock → KeyLock)
    (key' : Uuid) :
    (k.change n f).lockOf key' = if key = key' then f (k.lockOf key) else k.lockOf key' := by
  unfold lockOf
  rw [table_change]
  by_cases hkey : key = key'
  · subst hkey
    obtain ⟨l, hl⟩ := h.backed hn
    simp [hn, hl, locks_find?_change]
  · rw [if_neg hkey]
    cases hm : k.table.find? key' with
    | none => rfl
    | some m =>
      have hne : n ≠ m := by
        rintro rfl
        exact hkey (h.injective hn hm)
      simp [locks_find?_change, hne]

/-! ### Looking a lock up -/

theorem Proper.lookup (h : k.Proper) (key : Uuid) (owner : Nat) :
    (k.lookup key owner).2.Proper := by
  cases hfind : k.prune.table.find? key with
  | some n =>
    rw [lookup_of_some hfind]
    exact h.prune.change n _
  | none =>
    have hdistinct := h.toDistinct.lookup key owner
    have hbounded := h.bounded.lookup key owner
    rw [lookup_of_none hfind] at hdistinct hbounded ⊢
    -- the number of the new lock is greater than those of all others
    have hfresh : ∀ {key'}, k.prune.table.find? key' ≠ some k.prune.next := by
      intro key' hn
      exact Nat.lt_irrefl _ (h.prune.bounded _ (Dict.mem_of_find? hn))
    refine ⟨hdistinct, hbounded, ?_, ?_⟩
    · intro key₁ key₂ n hn hn'
      simp only [Dict.find?_insert] at hn hn'
      split at hn <;> split at hn'
      · next h₁ h₂ => rw [← h₁, ← h₂]
      · obtain rfl := Option.some.inj hn
        exact absurd hn' hfresh
      · obtain rfl := Option.some.inj hn'
        exact absurd hn hfresh
      · exact h.prune.injective hn hn'
    · intro key₁ n hn
      simp only [Dict.find?_insert] at hn ⊢
      split at hn
      · obtain rfl := Option.some.inj hn
        exact ⟨_, if_pos rfl⟩
      · obtain ⟨l, hl⟩ := h.prune.backed hn
        split <;> exact ⟨_, by first | rfl | exact hl⟩

/-- Who looks a lock up gets the number of the lock of the key. -/
theorem find?_lookup_self (k : KeyLocks) (key : Uuid) (owner : Nat) :
    (k.lookup key owner).2.table.find? key = some (k.lookup key owner).1 := by
  cases hfind : k.prune.table.find? key with
  | some n => rw [lookup_of_some hfind, table_change, hfind]
  | none => rw [lookup_of_none hfind]; exact Dict.find?_insert_self _ _ _

/-- Locks that someone has a handle to stay where they are. -/
theorem find?_lookup_of_not_idle (h : k.Proper) (hn : k.table.find? key' = some n)
    (hidle : (k.lockOf key').isIdle = false) (key : Uuid) (owner : Nat) :
    (k.lookup key owner).2.table.find? key' = some n := by
  have hkept : k.prune.table.find? key' = some n := (find?_prune h).mpr ⟨hn, hidle⟩
  cases hfind : k.prune.table.find? key with
  | some m => rw [lookup_of_some hfind, table_change, hkept]
  | none =>
    rw [lookup_of_none hfind]
    have hne : key ≠ key' := by
      rintro rfl
      rw [hkept] at hfind
      exact absurd hfind (by simp)
    show (k.prune.table.insert key k.prune.next).find? key' = some n
    rw [Dict.find?_insert_ne _ _ hne, hkept]

/-- A lookup brings a visitor to the lock of its key and changes no other lock. -/
theorem lockOf_lookup (h : k.Proper) (key : Uuid) (owner : Nat) (key' : Uuid) :
    (k.lookup key owner).2.lockOf key' =
      if key = key' then (k.lockOf key).visit owner else k.lockOf key' := by
  cases hfind : k.prune.table.find? key with
  | some n =>
    rw [lookup_of_some hfind, lockOf_change h.prune hfind, lockOf_prune h, lockOf_prune h]
    rfl
  | none =>
    rw [lookup_of_none hfind]
    unfold lockOf
    by_cases hkey : key = key'
    · subst hkey
      have hidle : k.lockOf key = {} := by rw [← lockOf_prune h, lockOf_of_none hfind]
      show _ = if key = key then (k.lockOf key).visit owner else _
      simp [hidle, KeyLock.visit]
    · show _ = if key = key' then _ else k.lockOf key'
      rw [if_neg hkey, ← lockOf_prune h]
      simp only [Dict.find?_insert, if_neg hkey]
      cases hm : k.prune.table.find? key' with
      | none => simp [lockOf, hm]
      | some m =>
        have hne : k.prune.next ≠ m := Nat.ne_of_gt (h.prune.bounded _ (Dict.mem_of_find? hm))
        simp [lockOf, hm, hne]

/-- Right after a lookup the table has the key and keys whose lock someone has a handle to. -/
theorem of_mem_keys_lookup (h : k.Proper) {owner : Nat}
    (hmem : key' ∈ (k.lookup key owner).2.table.keys) :
    key' = key ∨ (k.lockOf key').isIdle = false := by
  have hkept : key' ∈ k.prune.table.keys → (k.lockOf key').isIdle = false := by
    intro hmem
    obtain ⟨⟨_, n⟩, he, rfl⟩ := List.mem_map.mp hmem
    have hfound := Dict.find?_of_mem h.toDistinct.prune.table he
    exact ((find?_prune h).mp hfound).2
  cases hfind : k.prune.table.find? key with
  | some n =>
    rw [lookup_of_some hfind, table_change] at hmem
    exact Or.inr (hkept hmem)
  | none =>
    rw [lookup_of_none hfind] at hmem
    obtain ⟨e, he, rfl⟩ := List.mem_map.mp hmem
    rcases Dict.mem_insert he with rfl | he
    · exact Or.inl rfl
    · exact Or.inr (hkept (List.mem_map_of_mem he))

end KeyLocks

end TopUp.Store
