import TopUp.Proofs.Poll.Budget
import TopUp.Proofs.Run

/-! # Permits in whatever hands

    The gateway budget as anybody may use it, not only poll loops: acquires that are counted
    or cancelled, slots that are disposed of as often as one likes, and releases without a
    slot at any moment. Each use of the budget has a number and a state of its own (`Use`),
    and its two steps are two actions, so that all others may come in between
    (`Permits.act`).

    A release without a slot may take a permit off the count that somebody else's slot stands
    for; that slot then finds nothing to give back. So the slots in use are not those that
    somebody holds, and the limiter's count cannot be told from the uses. What can be told is
    who is between two steps, and with these all permits are accounted for (`Booked`,
    `permits_conserved`).
-/

namespace TopUp.Poll

open TopUp.Data

/-! ### Uses of the budget -/

/-- What has become of a use of the budget. -/
inductive Use where
  /-- It is to get a slot. -/
  | acquiring
  /-- It was given up before it got one. -/
  | cancelled
  /-- It has got a slot, which may be on its way back. -/
  | slot (s : Slot) (returning : Bool)
  /-- It is a release without a slot. It was answered whether a slot was in use, and one may be
      on its way back. -/
  | stray (answer returning : Bool)
  deriving DecidableEq, Repr

namespace Use

/-- Whether a use is between the two steps of a release. -/
def isReturning : Use → Bool
  | .slot _ returning | .stray _ returning => returning
  | .acquiring | .cancelled => false

/-- A use after the second step of a release. -/
def returned : Use → Use
  | .slot s _ => .slot s false
  | .stray answer _ => .stray answer false
  | u => u

theorem returned_of_idle {u : Use} (h : u.isReturning = false) : u.returned = u := by
  cases u with
  | slot s returning =>
    obtain rfl : returning = false := h
    rfl
  | stray answer returning =>
    obtain rfl : returning = false := h
    rfl
  | acquiring | cancelled => rfl

/-- How many permits a use can return at most from now on. -/
def mayReturn : Option Use → Nat
  | none | some .acquiring => 1
  | some .cancelled => 0
  | some (.slot s returning) => if s.spent then returning.toNat else 1
  | some (.stray _ returning) => returning.toNat

theorem mayReturn_le_one (u : Option Use) : mayReturn u ≤ 1 := by
  unfold mayReturn
  split
  · exact Nat.le_refl _
  · exact Nat.le_refl _
  · exact Nat.zero_le _
  · split
    · exact Bool.toNat_le _
    · exact Nat.le_refl _
  · exact Bool.toNat_le _

end Use

/-! ### State and actions -/

/-- The limiter and the uses that were made of it. -/
structure Permits where
  /-- The limiter. -/
  limiter : Limiter
  /-- The uses. -/
  uses : Dict Nat Use := .empty
  deriving DecidableEq, Repr

/-- The first step of a release: takes a permit off the count, unless none is counted, and tells
    whether it did. -/
def Limiter.uncount (l : Limiter) : Bool × Limiter :=
  match l.uncount? with
  | some l => (true, l)
  | none => (false, l)

namespace Permits

/-- What can be done with the budget. -/
inductive Action where
  /-- A slot is asked for. -/
  | acquire (n : Nat)
  /-- A permit that was granted is counted. -/
  | count (n : Nat)
  /-- A request is given up. -/
  | cancel (n : Nat)
  /-- A slot is disposed of. -/
  | dispose (n : Nat)
  /-- A slot is given back without being held. -/
  | release (n : Nat)
  /-- The permit of a release becomes free. -/
  | giveBack (n : Nat)
  deriving DecidableEq, Repr

/-- The use that an action is about. -/
def Action.number : Action → Nat
  | .acquire n | .count n | .cancel n | .dispose n | .release n | .giveBack n => n

/-- All slots are free. -/
def start (capacity : Nat) : Permits := { limiter := .ofCapacity capacity }

/-- The limiter and the use of a number after an action. -/
def put (s : Permits) (n : Nat) (limiter : Limiter) (u : Use) : Permits :=
  { limiter, uses := s.uses.insert n u }

/-- One action, if it is possible. -/
def act (a : Action) (s : Permits) : Option Permits :=
  match a with
  | .acquire n =>
    if (s.uses.find? n).isSome then none else some (s.put n (s.limiter.request n) .acquiring)
  | .count n =>
    if s.uses.find? n = some .acquiring ∧ s.limiter.isGranted n = true then
      some (s.put n (s.limiter.count n) (.slot {} false))
    else none
  | .cancel n =>
    if s.uses.find? n = some .acquiring then some (s.put n (s.limiter.cancel n) .cancelled)
    else none
  | .dispose n =>
    match s.uses.find? n with
    | some (.slot slot _) =>
      if slot.spent then some s
      else some (s.put n s.limiter.uncount.2 (.slot ⟨true⟩ s.limiter.uncount.1))
    | _ => none
  | .release n =>
    if (s.uses.find? n).isSome then none
    else some (s.put n s.limiter.uncount.2 (.stray s.limiter.uncount.1 s.limiter.uncount.1))
  | .giveBack n =>
    match s.uses.find? n with
    | some u => if u.isReturning then some (s.put n s.limiter.giveBack u.returned) else none
    | none => none

end Permits

/-! ### The two steps of a release -/

namespace Limiter

variable {l : Limiter} {n : Nat}

theorem uncount_of_pos (h : 0 < l.inUse) : l.uncount = (true, l.uncounted) := by
  rw [uncount, uncount?_of_pos h]

theorem uncount_of_zero (h : l.inUse = 0) : l.uncount = (false, l) := by
  rw [uncount, uncount?, if_neg (by omega)]

/-- The first step of a release takes a permit off the count if and only if one is counted. -/
theorem uncount_eq_false : l.uncount.1 = false ↔ l.inUse = 0 := by
  rcases Nat.eq_zero_or_pos l.inUse with h | h
  · simp [uncount_of_zero h, h]
  · simp [uncount_of_pos h, Nat.ne_of_gt h]

/-- It leaves the limiter alone in the same case. -/
theorem uncount_eq_self : l.uncount.2 = l ↔ l.inUse = 0 := by
  rcases Nat.eq_zero_or_pos l.inUse with h | h
  · simp [uncount_of_zero h, h]
  · have hne : l.uncounted ≠ l := fun heq =>
      absurd (congrArg Limiter.returning heq) (Nat.succ_ne_self l.returning)
    simp [uncount_of_pos h, Nat.ne_of_gt h, hne]

/-- A release is its two steps in a row. -/
theorem release_eq (l : Limiter) :
    l.release = (l.uncount.1, if l.uncount.1 then l.uncount.2.giveBack else l.uncount.2) := by
  rcases Nat.eq_zero_or_pos l.inUse with h | h
  · rw [release, uncount_of_zero h, uncount?, if_neg (by omega)]
    rfl
  · rw [release, uncount_of_pos h, uncount?_of_pos h]
    rfl

theorem total_uncount (l : Limiter) : l.uncount.2.total = l.total := by
  rcases Nat.eq_zero_or_pos l.inUse with h | h
  · rw [uncount_of_zero h]
  · rw [uncount_of_pos h]
    exact total_uncounted h

theorem pending_uncount (l : Limiter) : l.uncount.2.pending = l.pending := by
  rcases Nat.eq_zero_or_pos l.inUse with h | h
  · rw [uncount_of_zero h]
  · rw [uncount_of_pos h]
    rfl

theorem returning_uncount (l : Limiter) :
    l.uncount.2.returning = l.returning + l.uncount.1.toNat := by
  rcases Nat.eq_zero_or_pos l.inUse with h | h
  · rw [uncount_of_zero h]
    rfl
  · rw [uncount_of_pos h]
    rfl

theorem inUse_uncount (l : Limiter) : l.uncount.2.inUse + l.uncount.1.toNat = l.inUse := by
  rcases Nat.eq_zero_or_pos l.inUse with h | h
  · rw [uncount_of_zero h]
    rfl
  · rw [uncount_of_pos h]
    exact Nat.sub_add_cancel h

/-- The permits that are neither in use nor on their way back: the free ones, and those that were
    granted. -/
def unused (l : Limiter) : Nat := l.permits + l.granted.length

theorem total_eq (l : Limiter) : l.total = l.unused + l.inUse + l.returning := rfl

end Limiter

namespace Permits

variable {c n : Nat} {s s' : Permits} {a : Action} {tr : List (Permits × Action)}

/-! ### Steps -/

/-- What an action can do. -/
inductive Step (s : Permits) : Action → Permits → Prop where
  /-- A slot is asked for. -/
  | acquire {n : Nat} (hn : s.uses.find? n = none) :
      Step s (.acquire n) (s.put n (s.limiter.request n) .acquiring)
  /-- A permit that was granted is counted. -/
  | count {n : Nat} (hn : s.uses.find? n = some .acquiring)
      (hgranted : s.limiter.isGranted n = true) :
      Step s (.count n) (s.put n (s.limiter.count n) (.slot {} false))
  /-- A request is given up. -/
  | cancel {n : Nat} (hn : s.uses.find? n = some .acquiring) :
      Step s (.cancel n) (s.put n (s.limiter.cancel n) .cancelled)
  /-- A slot is disposed of for the first time. -/
  | dispose {n : Nat} {slot : Slot} {returning : Bool}
      (hn : s.uses.find? n = some (.slot slot returning)) (hslot : slot.spent = false) :
      Step s (.dispose n) (s.put n s.limiter.uncount.2 (.slot ⟨true⟩ s.limiter.uncount.1))
  /-- A slot is disposed of once more. -/
  | again {n : Nat} {slot : Slot} {returning : Bool}
      (hn : s.uses.find? n = some (.slot slot returning)) (hslot : slot.spent = true) :
      Step s (.dispose n) s
  /-- A slot is given back without being held. -/
  | release {n : Nat} (hn : s.uses.find? n = none) :
      Step s (.release n)
        (s.put n s.limiter.uncount.2 (.stray s.limiter.uncount.1 s.limiter.uncount.1))
  /-- The permit of a release becomes free. -/
  | giveBack {n : Nat} {u : Use} (hn : s.uses.find? n = some u) (hu : u.isReturning = true) :
      Step s (.giveBack n) (s.put n s.limiter.giveBack u.returned)

/-- Everything that an action does is in the list. -/
theorem step_of_act (h : act a s = some s') : Step s a s' := by
  cases a with
  | acquire n | release n =>
    simp only [act] at h
    split at h
    · exact absurd h (by simp)
    · next hn =>
      obtain rfl := Option.some.inj h
      constructor
      simpa using hn
  | count n =>
    simp only [act] at h
    split at h
    · next hn =>
      obtain rfl := Option.some.inj h
      exact .count hn.1 hn.2
    · exact absurd h (by simp)
  | cancel n =>
    simp only [act] at h
    split at h
    · next hn =>
      obtain rfl := Option.some.inj h
      exact .cancel hn
    · exact absurd h (by simp)
  | dispose n =>
    simp only [act] at h
    split at h
    · next slot returning hn =>
      split at h
      · next hslot =>
        obtain rfl := Option.some.inj h
        exact .again hn hslot
      · next hslot =>
        obtain rfl := Option.some.inj h
        exact .dispose hn (by simpa using hslot)
    · exact absurd h (by simp)
  | giveBack n =>
    simp only [act] at h
    split at h
    · next u hn =>
      split at h
      · next hu =>
        obtain rfl := Option.some.inj h
        exact .giveBack hn hu
      · exact absurd h (by simp)
    · exact absurd h (by simp)

theorem find?_put (s : Permits) (n k : Nat) (l : Limiter) (u : Use) :
    (s.put n l u).uses.find? k = if n = k then some u else s.uses.find? k :=
  Dict.find?_insert _ _ _ _

/-- The second step of a release may follow the first one at once. -/
theorem exists_giveBack (s : Permits) (n : Nat) {u : Use}
    (hu : u.isReturning = s.limiter.uncount.1) :
    ∃ tr s', Run act (s.put n s.limiter.uncount.2 u) tr s' ∧ (∀ e ∈ tr, e.2.number = n) ∧
      s'.limiter = s.limiter.release.2 ∧ s'.uses.find? n = some u.returned := by
  rw [Limiter.release_eq]
  cases hanswer : s.limiter.uncount.1 with
  | false =>
    have hreturned : u.returned = u := Use.returned_of_idle (hu.trans hanswer)
    exact ⟨[], _, .nil, by simp, rfl, (find?_put ..).trans (by rw [if_pos rfl, hreturned])⟩
  | true =>
    have hsecond : act (.giveBack n) (s.put n s.limiter.uncount.2 u) =
        some ((s.put n s.limiter.uncount.2 u).put n s.limiter.uncount.2.giveBack u.returned) := by
      simp [act, put, hu.trans hanswer]
    exact ⟨_, _, .cons hsecond .nil, by simp [Action.number], rfl,
      (find?_put ..).trans (if_pos rfl)⟩

/-- A release without a slot whose steps follow each other at once is a `Limiter.release`. -/
theorem release_at_once (hn : s.uses.find? n = none) :
    ∃ tr s', Run act s ((s, .release n) :: tr) s' ∧ (∀ e ∈ tr, e.2.number = n) ∧
      s'.limiter = s.limiter.release.2 ∧
      s'.uses.find? n = some (.stray s.limiter.release.1 false) := by
  obtain ⟨tr, s', hrun, hown, hlimiter, huse⟩ := exists_giveBack s n
    (u := .stray s.limiter.uncount.1 s.limiter.uncount.1) rfl
  refine ⟨tr, s', .cons (by simp [act, hn]) hrun, hown, hlimiter, ?_⟩
  rw [huse, Limiter.release_eq]
  rfl

/-- A slot that is disposed of, and given back at once, is a `Slot.dispose`. -/
theorem dispose_at_once {slot : Slot} (hn : s.uses.find? n = some (.slot slot false)) :
    ∃ tr s', Run act s ((s, .dispose n) :: tr) s' ∧ (∀ e ∈ tr, e.2.number = n) ∧
      s'.limiter = (slot.dispose s.limiter).2 ∧
      s'.uses.find? n = some (.slot (slot.dispose s.limiter).1 false) := by
  cases hslot : slot.spent with
  | true =>
    rw [Slot.dispose, if_pos hslot]
    exact ⟨[], s, .cons (by simp [act, hn, hslot]) .nil, by simp, rfl, hn⟩
  | false =>
    obtain ⟨tr, s', hrun, hown, hlimiter, huse⟩ := exists_giveBack s n
      (u := .slot ⟨true⟩ s.limiter.uncount.1) rfl
    rw [Slot.dispose, if_neg (by simp [hslot])]
    exact ⟨tr, s', .cons (by simp [act, hn, hslot]) hrun, hown, hlimiter, huse⟩

/-! ### The books -/

/-- The books of a limiter of `c` slots agree with the uses that were made of it. -/
structure Booked (c : Nat) (s : Permits) : Prop where
  /-- No two uses have the same number. -/
  distinct : s.uses.keys.Nodup
  /-- All permits are accounted for. -/
  balance : s.limiter.total = c
  /-- The permits on their way back are those of the releases between their two steps. -/
  returning : s.limiter.returning = s.uses.values.countP Use.isReturning
  /-- Nobody has asked twice. -/
  once : s.limiter.pending.Nodup
  /-- Those who have asked are the uses that are to get a slot. -/
  asked : ∀ n, n ∈ s.limiter.pending ↔ s.uses.find? n = some .acquiring
  /-- A slot that is on its way back is spent. -/
  spent : ∀ n slot, s.uses.find? n = some (.slot slot true) → slot.spent = true

theorem booked_start (c : Nat) : Booked (max c 1) (start c) where
  distinct := List.nodup_nil
  balance := rfl
  returning := rfl
  once := List.nodup_nil
  asked n := by simp [start, Limiter.pending, Limiter.ofCapacity]
  spent n slot h := absurd h (by simp [start])

namespace Booked

/-- What an action of a number has to do to the books: what changes about its use changes in them,
    and nobody else is touched. -/
theorem put (h : Booked c s) {l : Limiter} {u : Use} (htotal : l.total = s.limiter.total)
    (hreturning : l.returning + ((s.uses.find? n).any Use.isReturning).toNat =
      s.limiter.returning + u.isReturning.toNat)
    (honce : l.pending.Nodup) (hself : n ∈ l.pending ↔ u = .acquiring)
    (hothers : ∀ k, k ≠ n → (k ∈ l.pending ↔ k ∈ s.limiter.pending))
    (hspent : ∀ slot, u = .slot slot true → slot.spent = true) : Booked c (s.put n l u) where
  distinct := Dict.nodup_keys_insert h.distinct n u
  balance := htotal.trans h.balance
  returning := by
    have hold := h.returning
    show l.returning = (s.uses.insert n u).values.countP Use.isReturning
    cases hn : s.uses.find? n with
    | none =>
      have hcount := Dict.countP_insert_of_none Use.isReturning u hn
      rw [hn, Option.any_none, Bool.toNat_false] at hreturning
      omega
    | some old =>
      have hcount := Dict.countP_insert Use.isReturning u hn
      rw [hn, Option.any_some] at hreturning
      omega
  once := honce
  asked k := by
    show k ∈ l.pending ↔ (s.uses.insert n u).find? k = _
    rw [Dict.find?_insert]
    by_cases hk : n = k
    · subst hk
      simp [hself]
    · rw [if_neg hk, hothers k (Ne.symm hk), h.asked k]
  spent k slot hk := by
    have hk : (s.uses.insert n u).find? k = some (.slot slot true) := hk
    rw [Dict.find?_insert] at hk
    by_cases hkn : n = k
    · rw [if_pos hkn] at hk
      exact hspent slot (Option.some.inj hk)
    · rw [if_neg hkn] at hk
      exact h.spent k slot hk

/-- A use that is to get a slot gets one or is given up. -/
theorem unqueue (h : Booked c s) (hn : s.uses.find? n = some .acquiring) {l : Limiter} {u : Use}
    (hu : u ≠ .acquiring) (hidle : u.isReturning = false) (htotal : l.total = s.limiter.total)
    (hpending : l.pending = s.limiter.pending.erase n)
    (hreturning : l.returning = s.limiter.returning) : Booked c (s.put n l u) := by
  refine h.put htotal ?_ ?_ ?_ (fun k hk => ?_) fun slot hslot => ?_
  · rw [hn, hidle, hreturning]
    rfl
  · rw [hpending]
    exact h.once.erase n
  · rw [hpending]
    simp [h.once.mem_erase_iff, hu]
  · rw [hpending, List.mem_erase_of_ne hk]
  · rw [hslot] at hidle
    exact absurd hidle (by simp [Use.isReturning])

/-- The first step of a release, by a use that was not to get a slot. -/
theorem uncount (h : Booked c s) {u : Use} (hn : s.uses.find? n ≠ some .acquiring)
    (hold : (s.uses.find? n).any Use.isReturning = false) (hu : u ≠ .acquiring)
    (hnew : u.isReturning = s.limiter.uncount.1)
    (hspent : ∀ slot, u = .slot slot true → slot.spent = true) :
    Booked c (s.put n s.limiter.uncount.2 u) := by
  refine h.put (Limiter.total_uncount _) ?_ ?_ ?_ (fun k _ => ?_) hspent
  · rw [hold, hnew, Limiter.returning_uncount]
    rfl
  · rw [Limiter.pending_uncount]
    exact h.once
  · rw [Limiter.pending_uncount, h.asked n]
    simp [hn, hu]
  · rw [Limiter.pending_uncount]

/-- The permit of a release between its two steps is on its way back. -/
theorem returning_pos (h : Booked c s) {u : Use} (hn : s.uses.find? n = some u)
    (hu : u.isReturning = true) : 0 < s.limiter.returning := by
  have hle := Dict.toNat_le_countP Use.isReturning hn
  rw [hu, Bool.toNat_true] at hle
  rw [h.returning]
  exact hle

/-- Every action keeps the books. -/
theorem step (h : Booked c s) (hs : Step s a s') : Booked c s' := by
  cases hs with
  | @acquire n hn =>
    have hperm := s.limiter.pending_request n
    have hnew : n ∉ s.limiter.pending := by
      rw [h.asked n, hn]
      simp
    refine h.put (Limiter.total_request _ n) ?_ ?_ ?_ (fun k hk => ?_) (by simp)
    · simp [hn, Use.isReturning]
    · exact hperm.nodup_iff.mpr (List.nodup_cons.mpr ⟨hnew, h.once⟩)
    · rw [hperm.mem_iff]
      simp
    · rw [hperm.mem_iff, List.mem_cons, or_iff_right hk]
  | @count n hn hgranted =>
    exact h.unqueue hn (by simp) rfl (Limiter.total_count _ n) (Limiter.pending_count hgranted)
      (Limiter.returning_count _ n)
  | @cancel n hn =>
    exact h.unqueue hn (by simp) rfl (Limiter.total_cancel _ n) (Limiter.pending_cancel _ n)
      (Limiter.returning_cancel _ n)
  | @dispose n slot returning hn hslot =>
    -- a slot that is not spent is not on its way back
    have hidle : returning = false := by
      cases returning with
      | false => rfl
      | true => exact absurd (h.spent n slot hn) (by simp [hslot])
    refine h.uncount (by simp [hn]) (by simp [hn, Use.isReturning, hidle]) (by simp) rfl ?_
    intro slot' hslot'
    obtain ⟨rfl, -⟩ := Use.slot.inj hslot'
    rfl
  | again => exact h
  | release hn => exact h.uncount (by simp [hn]) (by simp [hn]) (by simp) rfl (by simp)
  | @giveBack n u hn hu =>
    have hpos := h.returning_pos hn hu
    have hne : u ≠ .acquiring := by
      rintro rfl
      exact absurd hu (by simp [Use.isReturning])
    refine h.put (Limiter.total_giveBack _) ?_ ?_ ?_ (fun k _ => ?_) ?_
    · rw [Limiter.returning_giveBack hpos, hn, Option.any_some, hu]
      cases u <;> simp [Use.isReturning, Use.returned] at hu ⊢ <;> omega
    · rw [Limiter.pending_giveBack]
      exact h.once
    · rw [Limiter.pending_giveBack, h.asked n, hn]
      cases u <;> simp [Use.returned] at hne ⊢
    · rw [Limiter.pending_giveBack]
    · intro slot hslot
      cases u <;> simp [Use.returned] at hslot

theorem of_run (h : Run act (start c) tr s) : Booked (max c 1) s := by
  induction h with
  | nil => exact booked_start c
  | snoc _ hact ih => exact ih.step (step_of_act hact)

end Booked

/-! ### Operations between their two steps -/

/-- The acquires that have a permit which is not counted yet. -/
def halfAcquired (s : Permits) : Nat :=
  s.uses.entries.countP fun e => e.2 = .acquiring && s.limiter.isGranted e.1

/-- The releases whose permit is no longer counted and not yet free. -/
def halfReleased (s : Permits) : Nat := s.uses.values.countP Use.isReturning

theorem Booked.halfAcquired (h : Booked c s) : s.halfAcquired = s.limiter.granted.length := by
  -- the permits that were granted are those of distinct uses
  let p : Nat × Use → Bool := fun e => e.2 = .acquiring && s.limiter.isGranted e.1
  have hperm : ((s.uses.entries.filter p).map Prod.fst).Perm s.limiter.granted := by
    refine (List.perm_ext_iff_of_nodup ?_ ?_).mpr fun n => ?_
    · exact h.distinct.sublist (List.filter_sublist.map Prod.fst)
    · exact h.once.sublist (List.sublist_append_left _ _)
    · constructor
      · intro hn
        obtain ⟨e, he, rfl⟩ := List.mem_map.mp hn
        have hp := (List.mem_filter.mp he).2
        simpa [Limiter.isGranted] using (Bool.and_eq_true_iff.mp hp).2
      · intro hn
        have hfind := (h.asked n).mp (List.mem_append_left _ hn)
        refine List.mem_map.mpr ⟨(n, .acquiring), List.mem_filter.mpr ⟨?_, ?_⟩, rfl⟩
        · exact Dict.mem_of_find? hfind
        · simpa [p, Limiter.isGranted] using hn
  rw [Permits.halfAcquired, List.countP_eq_length_filter, ← hperm.length_eq, List.length_map]

/-! ### What a use returns -/

/-- The permit of a use becomes free. -/
def gives (n : Nat) : Permits × Action → Bool
  | (_, .giveBack k) => k = n
  | _ => false

theorem Step.find?_of_ne (hs : Step s a s') (hn : a.number ≠ n) :
    s'.uses.find? n = s.uses.find? n := by
  cases hs with
  | again => rfl
  | _ => exact (find?_put ..).trans (if_neg hn)

/-- A use can return no more permits after an action than before, less the one it returns. -/
theorem Step.mayReturn_le (hs : Step s a s') (h : Booked c s) (n : Nat) :
    Use.mayReturn (s'.uses.find? n) + (gives n (s, a)).toNat ≤ Use.mayReturn (s.uses.find? n) := by
  by_cases hk : a.number = n
  · subst hk
    cases hs with
    | again => exact Nat.le_refl _
    | acquire hn | release hn | count hn | cancel hn =>
      rw [Action.number, find?_put, if_pos rfl, hn]
      show Use.mayReturn _ + 0 ≤ 1
      rw [Nat.add_zero]
      exact Use.mayReturn_le_one _
    | @dispose n slot returning hn hslot =>
      have hone : Use.mayReturn (s.uses.find? n) = 1 := by simp [hn, Use.mayReturn, hslot]
      rw [Action.number, find?_put, if_pos rfl, hone]
      show Use.mayReturn _ + 0 ≤ 1
      rw [Nat.add_zero]
      exact Use.mayReturn_le_one _
    | @giveBack n u hn hu =>
      rw [Action.number, find?_put, if_pos rfl, hn]
      cases u with
      | slot slot returning =>
        obtain rfl : returning = true := hu
        simp [Use.returned, Use.mayReturn, h.spent n slot hn, gives]
      | stray answer returning =>
        obtain rfl : returning = true := hu
        simp [Use.returned, Use.mayReturn, gives]
      | acquiring | cancelled => exact absurd hu (by simp [Use.isReturning])
  · have hgives : gives n (s, a) = false := by
      cases a with
      | giveBack k => simpa [gives, Action.number] using hk
      | _ => rfl
    rw [hs.find?_of_ne hk, hgives]
    exact Nat.le_refl _

/-- A use returns at most one permit. -/
theorem gives_le_one (h : Run act (start c) tr s) (n : Nat) :
    tr.countP (gives n) + Use.mayReturn (s.uses.find? n) ≤ 1 := by
  induction h with
  | nil => simpa using Use.mayReturn_le_one _
  | @snoc tr s s' a hrun hact ih =>
    have hle := (step_of_act hact).mayReturn_le (Booked.of_run hrun) n
    rw [countP_snoc]
    omega

/-! ### Conservation -/

/-- Whether a permit is counted. -/
def Action.isCount : Action → Bool
  | .count _ => true
  | _ => false

/-- Whether a permit becomes free. -/
def Action.isGiveBack : Action → Bool
  | .giveBack _ => true
  | _ => false

/-- A permit that is counted is used, the one that a release ends with is no longer, and nothing
    else uses or returns one. -/
theorem Step.unused (hs : Step s a s') (h : Booked c s) :
    s'.limiter.unused + a.isCount.toNat = s.limiter.unused + a.isGiveBack.toNat := by
  -- the sum stays, so it is enough to know what becomes of the other two numbers
  have hbalance := (h.step hs).balance.trans h.balance.symm
  rw [Limiter.total_eq, Limiter.total_eq] at hbalance
  cases hs with
  | again => rfl
  | @acquire n hn =>
    have hinUse := s.limiter.inUse_request n
    have hreturning := s.limiter.returning_request n
    simp only [put, Action.isCount, Action.isGiveBack] at hbalance ⊢
    omega
  | @count n hn hgranted =>
    have hinUse := Limiter.inUse_count hgranted
    have hreturning := s.limiter.returning_count n
    simp only [put, Action.isCount, Action.isGiveBack, Bool.toNat_true, Bool.toNat_false]
      at hbalance ⊢
    omega
  | @cancel n hn =>
    have hinUse := s.limiter.inUse_cancel n
    have hreturning := s.limiter.returning_cancel n
    simp only [put, Action.isCount, Action.isGiveBack] at hbalance ⊢
    omega
  | dispose | release =>
    have hinUse := s.limiter.inUse_uncount
    have hreturning := s.limiter.returning_uncount
    simp only [put, Action.isCount, Action.isGiveBack] at hbalance ⊢
    omega
  | @giveBack n u hn hu =>
    have hinUse := s.limiter.inUse_giveBack
    have hreturning := Limiter.returning_giveBack (h.returning_pos hn hu)
    have hpos := h.returning_pos hn hu
    simp only [put, Action.isCount, Action.isGiveBack, Bool.toNat_true, Bool.toNat_false]
      at hbalance ⊢
    omega

/-- The slots of a limiter after the actions of a trace, if it began with `c` of them. -/
structure Conserved (c : Nat) (tr : List (Permits × Action)) (s : Permits) : Prop where
  /-- Every slot is free, in use, or in the hands of an operation between its two steps. -/
  sum : s.limiter.permits + s.limiter.inUse + (s.halfAcquired + s.halfReleased) = max c 1
  /-- No more are free than there are. -/
  free : s.limiter.permits ≤ max c 1
  /-- No more are in use than there are. -/
  used : s.limiter.inUse ≤ max c 1
  /-- A permit is used when it is counted, and returned by the second step of a release. -/
  moves : ∀ a s', act a s = some s' →
    s'.limiter.unused + a.isCount.toNat = s.limiter.unused + a.isGiveBack.toNat
  /-- A release without a slot is answered with no, and changes nothing, if and only if no slot is
      in use. -/
  released : ∀ n s', act (.release n) s = some s' →
    ∃ answer, s'.uses.find? n = some (.stray answer answer) ∧
      (answer = false ↔ s.limiter.inUse = 0) ∧ (s'.limiter = s.limiter ↔ s.limiter.inUse = 0)
  /-- A use has returned one permit at most. -/
  once : ∀ n, tr.countP (gives n) ≤ 1

/-- However acquires, cancelled acquires, slots that are disposed of and releases without a slot
    are interleaved, no permit is lost and none is made. -/
theorem permits_conserved (h : Run act (start c) tr s) : Conserved c tr s := by
  have hbooked := Booked.of_run h
  have hsum :
      s.limiter.permits + s.limiter.inUse + (s.halfAcquired + s.halfReleased) = max c 1 := by
    rw [hbooked.halfAcquired, halfReleased, ← hbooked.returning, ← hbooked.balance, Limiter.total]
    omega
  refine ⟨hsum, by omega, by omega, ?_, ?_, ?_⟩
  · exact fun a s' hact => (step_of_act hact).unused hbooked
  · intro n s' hact
    cases step_of_act hact with
    | release hn =>
      refine ⟨_, (find?_put ..).trans (if_pos rfl), Limiter.uncount_eq_false, ?_⟩
      exact Limiter.uncount_eq_self
  · intro n
    have hle := gives_le_one h n
    omega

/-- Two slots, one of which is waited for, and two releases without a slot. The first of these takes
    the permit of slot 0 off the count, so that slot 0 gives the permit of slot 2 back, and slot 2
    finds nothing. -/
def crossed : List Action :=
  [.acquire 0, .count 0, .acquire 2, .acquire 3, .release 1, .cancel 3, .giveBack 1, .count 2,
    .dispose 0, .dispose 2, .giveBack 0, .dispose 2, .release 4]

/-- The slot is free in the end, and was returned twice: once for each time it was taken. -/
theorem crossed_conserved :
    let run := Run.play act crossed (start 0)
    run.1.length = 13 ∧ run.2.limiter = { capacity := 1, permits := 1 } ∧
      run.2.uses.find? 2 = some (.slot ⟨true⟩ false) ∧
      run.2.uses.find? 4 = some (.stray false false) ∧
      run.1.countP (gives 0) = 1 ∧ run.1.countP (gives 1) = 1 ∧ run.1.countP (gives 2) = 0 ∧
      Conserved 0 run.1 run.2 := by
  intro run
  exact ⟨by decide, by decide, by decide, by decide, by decide, by decide, by decide,
    permits_conserved (Run.of_play crossed (start 0))⟩

end Permits

end TopUp.Poll
