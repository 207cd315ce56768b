import TopUp.Proofs.Poll.Steps

/-! # The gateway budget of poll loops

    A loop asks for a slot at a tick, is granted one sooner or later, counts it as in use
    while it inquires, and gives it back whichever way the inquiry ends. The limiter knows
    nothing of loops; that its books agree with where the loops stand is an invariant
    (`Budgeted`): as many slots are in use as loops inquire, as many are on their way back
    as loops return theirs, those who have asked are the loops that wait for a slot, and
    together with the free ones these are all slots there are.

    The invariant is kept by every step of a loop (`Budgeted.move`) and by the start of
    another one (`Budgeted.spawn`). A slot that leaked, or came back twice, would break the
    sum.
-/

namespace TopUp

open TopUp.Data TopUp.Store

/-! ### Counting the values of a dictionary -/

namespace Data.Dict

variable {κ α : Type} [DecidableEq κ] {d : Dict κ α} {key : κ} {a : α}

theorem countP_replace (p : α → Bool) (b : α) {l : List (κ × α)} (h : lookup key l = some a) :
    ((replace key b l).map Prod.snd).countP p + (p a).toNat =
      (l.map Prod.snd).countP p + (p b).toNat := by
  induction l with
  | nil => exact absurd h (by simp [lookup])
  | cons e rest ih =>
    obtain ⟨k, c⟩ := e
    by_cases hk : k = key
    · subst hk
      obtain rfl : c = a := by simpa [lookup] using h
      simp only [replace, if_pos, List.map_cons, List.countP_cons]
      cases p c <;> cases p b <;> simp
    · have hrest := ih (by simpa [lookup, hk] using h)
      simp only [replace, if_neg hk, List.map_cons, List.countP_cons]
      omega

/-- A value that takes the place of another one is counted in its stead. -/
theorem countP_insert (p : α → Bool) (b : α) (h : d.find? key = some a) :
    (d.insert key b).values.countP p + (p a).toNat = d.values.countP p + (p b).toNat :=
  countP_replace p b h

theorem countP_replace_of_none (p : α → Bool) (b : α) {l : List (κ × α)}
    (h : lookup key l = none) :
    ((replace key b l).map Prod.snd).countP p = (l.map Prod.snd).countP p + (p b).toNat := by
  induction l with
  | nil => cases hb : p b <;> simp [replace, hb]
  | cons e rest ih =>
    obtain ⟨k, c⟩ := e
    have hk : k ≠ key := by
      rintro rfl
      exact absurd h (by simp [lookup])
    have hrest := ih (by simpa [lookup, hk] using h)
    simp only [replace, if_neg hk, List.map_cons, List.countP_cons]
    omega

/-- A value under a new key is counted as well. -/
theorem countP_insert_of_none (p : α → Bool) (b : α) (h : d.find? key = none) :
    (d.insert key b).values.countP p = d.values.countP p + (p b).toNat :=
  countP_replace_of_none p b h

/-- A value that is found is there to be counted. -/
theorem toNat_le_countP (p : α → Bool) (h : d.find? key = some a) :
    (p a).toNat ≤ d.values.countP p := by
  cases hp : p a with
  | false => exact Nat.zero_le _
  | true =>
    have hmem : a ∈ d.values := List.mem_map_of_mem (mem_of_find? h)
    exact List.countP_pos_iff.mpr ⟨a, hmem, hp⟩

/-- Under distinct keys nothing is counted if nothing that is found counts. -/
theorem countP_eq_zero (hd : d.keys.Nodup) {p : α → Bool}
    (h : ∀ key a, d.find? key = some a → p a = false) : d.values.countP p = 0 := by
  rw [List.countP_eq_zero]
  intro a ha
  obtain ⟨⟨key, b⟩, hmem, rfl⟩ := List.mem_map.mp ha
  simp [h key b (find?_of_mem hd hmem)]

end Data.Dict

namespace Poll

/-! ### The books of the limiter -/

namespace Limiter

variable {l : Limiter} {n : Nat}

/-- Those who have asked for a slot and do not use one yet, those first who were granted a
    permit. -/
def pending (l : Limiter) : List Nat := l.granted ++ l.queue

/-- The slots that the limiter knows of: free, granted, in use and on their way back. -/
def total (l : Limiter) : Nat := l.permits + l.granted.length + l.inUse + l.returning

/-! A permit that is passed on is free or granted, to somebody who has asked. -/

theorem total_passOn (l : Limiter) : l.passOn.total = l.total + 1 := by
  unfold passOn total
  split
  · simp only [List.length_append, List.length_singleton]
    omega
  · show l.permits + 1 + l.granted.length + l.inUse + l.returning = _
    omega

@[simp] theorem pending_passOn (l : Limiter) : l.passOn.pending = l.pending := by
  unfold passOn pending
  split
  · next owner rest hq => simp [hq]
  · next hq => rfl

@[simp] theorem capacity_passOn (l : Limiter) : l.passOn.capacity = l.capacity := by
  unfold passOn
  split <;> rfl

@[simp] theorem inUse_passOn (l : Limiter) : l.passOn.inUse = l.inUse := by
  unfold passOn
  split <;> rfl

@[simp] theorem returning_passOn (l : Limiter) : l.passOn.returning = l.returning := by
  unfold passOn
  split <;> rfl

/-! Whoever asks is granted a permit or waits. -/

theorem total_request (l : Limiter) (n : Nat) : (l.request n).total = l.total := by
  unfold request total
  split
  · simp only [List.length_append, List.length_singleton]
    omega
  · rfl

theorem pending_request (l : Limiter) (n : Nat) : (l.request n).pending.Perm (n :: l.pending) := by
  unfold request pending
  split
  · show (l.granted ++ [n] ++ l.queue).Perm (n :: (l.granted ++ l.queue))
    rw [List.append_assoc]
    exact List.perm_middle
  · show (l.granted ++ (l.queue ++ [n])).Perm (n :: (l.granted ++ l.queue))
    rw [← List.append_assoc]
    exact List.perm_append_singleton n _

@[simp] theorem capacity_request (l : Limiter) (n : Nat) :
    (l.request n).capacity = l.capacity := by
  unfold request
  split <;> rfl

@[simp] theorem inUse_request (l : Limiter) (n : Nat) : (l.request n).inUse = l.inUse := by
  unfold request
  split <;> rfl

@[simp] theorem returning_request (l : Limiter) (n : Nat) :
    (l.request n).returning = l.returning := by
  unfold request
  split <;> rfl

/-! A permit that was granted can be counted. -/

theorem total_count (l : Limiter) (n : Nat) : (l.count n).total = l.total := by
  unfold count
  split
  · next hg =>
    have hmem : n ∈ l.granted := by simpa [isGranted] using hg
    have hlen := List.length_erase_of_mem hmem
    have hpos := List.length_pos_of_mem hmem
    show l.permits + (l.granted.erase n).length + (l.inUse + 1) + l.returning = _
    unfold total
    omega
  · rfl

theorem pending_count (h : l.isGranted n = true) : (l.count n).pending = l.pending.erase n := by
  have hmem : n ∈ l.granted := by simpa [isGranted] using h
  rw [count, if_pos h]
  exact (List.erase_append_left _ hmem).symm

theorem inUse_count (h : l.isGranted n = true) : (l.count n).inUse = l.inUse + 1 := by
  rw [count, if_pos h]

@[simp] theorem capacity_count (l : Limiter) (n : Nat) : (l.count n).capacity = l.capacity := by
  unfold count
  split <;> rfl

@[simp] theorem returning_count (l : Limiter) (n : Nat) :
    (l.count n).returning = l.returning := by
  unfold count
  split <;> rfl

/-! Whoever gives up leaves the queue, or passes on what was granted. -/

theorem total_cancel (l : Limiter) (n : Nat) : (l.cancel n).total = l.total := by
  unfold cancel
  split
  · next hg =>
    have hmem : n ∈ l.granted := by simpa [isGranted] using hg
    have hlen := List.length_erase_of_mem hmem
    have hpos := List.length_pos_of_mem hmem
    rw [total_passOn]
    show l.permits + (l.granted.erase n).length + l.inUse + l.returning + 1 = _
    unfold total
    omega
  · rfl

theorem pending_cancel (l : Limiter) (n : Nat) : (l.cancel n).pending = l.pending.erase n := by
  unfold cancel
  split
  · next hg =>
    have hmem : n ∈ l.granted := by simpa [isGranted] using hg
    rw [pending_passOn]
    exact (List.erase_append_left _ hmem).symm
  · next hg =>
    have hmem : n ∉ l.granted := by simpa [isGranted] using hg
    exact (List.erase_append_right _ hmem).symm

@[simp] theorem capacity_cancel (l : Limiter) (n : Nat) :
    (l.cancel n).capacity = l.capacity := by
  unfold cancel
  split
  · exact capacity_passOn _
  · rfl

@[simp] theorem inUse_cancel (l : Limiter) (n : Nat) : (l.cancel n).inUse = l.inUse := by
  unfold cancel
  split
  · exact inUse_passOn _
  · rfl

@[simp] theorem returning_cancel (l : Limiter) (n : Nat) :
    (l.cancel n).returning = l.returning := by
  unfold cancel
  split
  · exact returning_passOn _
  · rfl

/-! A slot that is given back first leaves the count and then passes on. -/

/-- The limiter with one slot less in use, and one more on its way back. -/
def uncounted (l : Limiter) : Limiter :=
  { l with inUse := l.inUse - 1, returning := l.returning + 1 }

theorem uncount?_of_pos (h : 0 < l.inUse) : l.uncount? = some l.uncounted := if_pos h

theorem total_uncounted (h : 0 < l.inUse) : l.uncounted.total = l.total := by
  show l.permits + l.granted.length + (l.inUse - 1) + (l.returning + 1) = _
  unfold total
  omega

theorem giveBack_of_pos (h : 0 < l.returning) :
    l.giveBack = passOn { l with returning := l.returning - 1 } := if_pos h

theorem total_giveBack (l : Limiter) : l.giveBack.total = l.total := by
  unfold giveBack
  split
  · next h =>
    rw [total_passOn]
    show l.permits + l.granted.length + l.inUse + (l.returning - 1) + 1 = _
    unfold total
    omega
  · rfl

@[simp] theorem pending_giveBack (l : Limiter) : l.giveBack.pending = l.pending := by
  unfold giveBack
  split
  · exact pending_passOn _
  · rfl

@[simp] theorem capacity_giveBack (l : Limiter) : l.giveBack.capacity = l.capacity := by
  unfold giveBack
  split
  · exact capacity_passOn _
  · rfl

@[simp] theorem inUse_giveBack (l : Limiter) : l.giveBack.inUse = l.inUse := by
  unfold giveBack
  split
  · exact inUse_passOn _
  · rfl

theorem returning_giveBack (h : 0 < l.returning) : l.giveBack.returning = l.returning - 1 := by
  rw [giveBack_of_pos h, returning_passOn]

end Limiter

/-! ### Where loops stand -/

namespace Loop

/-- Whether a loop waits for a slot. -/
def isQueuing (x : Loop) : Bool := x.phase = .slotWait

/-- Whether a loop has an inquiry in flight. -/
def isInquiring (x : Loop) : Bool := x.phase = .inquiring

/-- Whether a loop is giving its slot back. -/
def isReturning (x : Loop) : Bool :=
  match x.phase with
  | .returning _ => true
  | _ => false

/-- Whether a loop is within the one inquiry of a tick: from the moment in which it asks for
    a slot until it has given the slot back. -/
def isPolling (x : Loop) : Bool := x.isQueuing || x.isInquiring || x.isReturning

theorem isPolling_eq_false {x : Loop} : x.isPolling = false ↔
    x.isQueuing = false ∧ x.isInquiring = false ∧ x.isReturning = false := by
  simp [isPolling, and_assoc]

/-- What is left of an inquiry when it is over and nothing was counted. -/
theorem isPolling_afterInquiry (x : Loop) (answer : Option Status) :
    ({ x with phase := afterInquiry answer } : Loop).isPolling = false := by
  cases answer <;> rfl

end Loop

/-! ### The invariant -/

/-- The books of a limiter of `c` slots agree with the loops. -/
structure Budgeted (c : Nat) (l : Limiter) (loops : Dict Nat Loop) : Prop where
  /-- No two loops have the same number. -/
  distinct : loops.keys.Nodup
  /-- The number of slots never changes. -/
  capacity : l.capacity = c
  /-- All slots are accounted for. -/
  balance : l.total = c
  /-- The slots in use are those of the loops that inquire. -/
  inUse : l.inUse = loops.values.countP Loop.isInquiring
  /-- The slots on their way back are those of the loops that return theirs. -/
  returning : l.returning = loops.values.countP Loop.isReturning
  /-- Nobody has asked twice. -/
  once : l.pending.Nodup
  /-- Those who have asked are the loops that wait for a slot. -/
  asked : ∀ n, n ∈ l.pending ↔ ∃ x, loops.find? n = some x ∧ x.isQueuing = true

theorem budgeted_ofCapacity (c : Nat) : Budgeted (max c 1) (.ofCapacity c) .empty where
  distinct := List.nodup_nil
  capacity := rfl
  balance := rfl
  inUse := rfl
  returning := rfl
  once := List.nodup_nil
  asked n := by simp [Limiter.pending, Limiter.ofCapacity]

namespace Budgeted

variable {c : Nat} {l l' : Limiter} {loops : Dict Nat Loop} {n : Nat} {x x' : Loop}

/-- A loop that has just been started uses no slot. -/
theorem spawn (h : Budgeted c l loops) (hn : loops.find? n = none) (hx : x.isPolling = false) :
    Budgeted c l (loops.insert n x) := by
  obtain ⟨hqueue, hinquire, hreturn⟩ := Loop.isPolling_eq_false.mp hx
  refine ⟨Dict.nodup_keys_insert h.distinct n x, h.capacity, h.balance, ?_, ?_, h.once, fun k => ?_⟩
  · rw [Dict.countP_insert_of_none _ _ hn, hinquire, h.inUse]
    rfl
  · rw [Dict.countP_insert_of_none _ _ hn, hreturn, h.returning]
    rfl
  · rw [h.asked k, Dict.find?_insert]
    by_cases hk : n = k
    · subst hk
      simp [hn, hqueue]
    · rw [if_neg hk]

/-- What a step of the loop of number `n` has to do to the books: whatever changes about the
    loop changes in them, and nobody else is touched. -/
theorem put (h : Budgeted c l loops) (hx : loops.find? n = some x) (htotal : l'.total = l.total)
    (hcapacity : l'.capacity = l.capacity)
    (hinUse : l'.inUse + x.isInquiring.toNat = l.inUse + x'.isInquiring.toNat)
    (hreturning : l'.returning + x.isReturning.toNat = l.returning + x'.isReturning.toNat)
    (honce : l'.pending.Nodup) (hself : n ∈ l'.pending ↔ x'.isQueuing = true)
    (hothers : ∀ k, k ≠ n → (k ∈ l'.pending ↔ k ∈ l.pending)) :
    Budgeted c l' (loops.insert n x') := by
  refine ⟨Dict.nodup_keys_insert h.distinct n x', hcapacity.trans h.capacity,
    htotal.trans h.balance, ?_, ?_, honce, fun k => ?_⟩
  · have hcount := Dict.countP_insert Loop.isInquiring x' hx
    have hold := h.inUse
    omega
  · have hcount := Dict.countP_insert Loop.isReturning x' hx
    have hold := h.returning
    omega
  · rw [Dict.find?_insert]
    by_cases hk : n = k
    · subst hk
      simp [hself]
    · rw [if_neg hk, hothers k (Ne.symm hk), h.asked k]

/-- A loop that is outside of an inquiry and stays so leaves the books alone. -/
theorem idle (h : Budgeted c l loops) (hx : loops.find? n = some x) (hp : x.isPolling = false)
    (hp' : x'.isPolling = false) : Budgeted c l (loops.insert n x') := by
  obtain ⟨hqueue, hinquire, hreturn⟩ := Loop.isPolling_eq_false.mp hp
  obtain ⟨hqueue', hinquire', hreturn'⟩ := Loop.isPolling_eq_false.mp hp'
  refine h.put hx rfl rfl ?_ ?_ h.once ?_ fun _ _ => Iff.rfl
  · rw [hinquire, hinquire']
  · rw [hreturn, hreturn']
  · rw [h.asked n, hx]
    simp [hqueue, hqueue']

/-- A loop asks for a slot. -/
theorem request (h : Budgeted c l loops) (hx : loops.find? n = some x) (hp : x.isPolling = false)
    (hp' : x'.phase = .slotWait) : Budgeted c (l.request n) (loops.insert n x') := by
  obtain ⟨hqueue, hinquire, hreturn⟩ := Loop.isPolling_eq_false.mp hp
  have hperm := l.pending_request n
  have hnew : n ∉ l.pending := by
    rw [h.asked n, hx]
    simp [hqueue]
  refine h.put hx (l.total_request n) (l.capacity_request n) ?_ ?_ ?_ ?_ fun k hk => ?_
  · have hinquire' : x'.isInquiring = false := by simp [Loop.isInquiring, hp']
    rw [Limiter.inUse_request, hinquire, hinquire']
  · have hreturn' : x'.isReturning = false := by simp [Loop.isReturning, hp']
    rw [Limiter.returning_request, hreturn, hreturn']
  · exact hperm.nodup_iff.mpr (List.nodup_cons.mpr ⟨hnew, h.once⟩)
  · rw [hperm.mem_iff]
    simp [Loop.isQueuing, hp']
  · rw [hperm.mem_iff, List.mem_cons, or_iff_right hk]

/-- A loop that waits for a slot gets one or gives up; it is no longer among those who have
    asked. -/
theorem unqueue (h : Budgeted c l loops) (hx : loops.find? n = some x) (hp : x.phase = .slotWait)
    (hp' : x'.isQueuing = false) (hreturn' : x'.isReturning = false)
    (htotal : l'.total = l.total) (hcapacity : l'.capacity = l.capacity)
    (hpending : l'.pending = l.pending.erase n)
    (hinUse : l'.inUse = l.inUse + x'.isInquiring.toNat)
    (hreturning : l'.returning = l.returning) : Budgeted c l' (loops.insert n x') := by
  refine h.put hx htotal hcapacity ?_ ?_ ?_ ?_ fun k hk => ?_
  · simpa [Loop.isInquiring, hp] using hinUse
  · have hreturn : x.isReturning = false := by simp [Loop.isReturning, hp]
    rw [hreturning, hreturn, hreturn']
  · rw [hpending]
    exact h.once.erase n
  · rw [hpending, hp']
    simp [h.once.mem_erase_iff]
  · rw [hpending, List.mem_erase_of_ne hk]

/-- A loop that inquires uses a slot that is counted. -/
theorem inUse_pos (h : Budgeted c l loops) (hx : loops.find? n = some x)
    (hp : x.phase = .inquiring) : 0 < l.inUse := by
  have hle := Dict.toNat_le_countP Loop.isInquiring hx
  have hone : x.isInquiring.toNat = 1 := by simp [Loop.isInquiring, hp]
  rw [h.inUse]
  omega

/-- A loop that returns its slot has one on its way back. -/
theorem returning_pos (h : Budgeted c l loops) (hx : loops.find? n = some x)
    {answer : Option Status} (hp : x.phase = .returning answer) : 0 < l.returning := by
  have hle := Dict.toNat_le_countP Loop.isReturning hx
  have hone : x.isReturning.toNat = 1 := by simp [Loop.isReturning, hp]
  rw [h.returning]
  omega

/-- An inquiry is over, whether it was answered or its deadline came. -/
theorem endInquiry (h : Budgeted c l loops) (hx : loops.find? n = some x)
    (hp : x.phase = .inquiring) (answer : Option Status) :
    Budgeted c (Loop.endInquiry l x answer).1 (loops.insert n (Loop.endInquiry l x answer).2) := by
  have hpos := h.inUse_pos hx hp
  -- the slot is counted, so it is its return that comes next
  have hend : Loop.endInquiry l x answer = (l.uncounted, { x with phase := .returning answer }) := by
    rw [Loop.endInquiry, Limiter.uncount?_of_pos hpos]
  rw [hend]
  refine h.put hx (Limiter.total_uncounted hpos) rfl ?_ ?_ h.once ?_ fun _ _ => Iff.rfl
  · show l.inUse - 1 + x.isInquiring.toNat = l.inUse + 0
    have hone : x.isInquiring.toNat = 1 := by simp [Loop.isInquiring, hp]
    omega
  · show l.returning + 1 + x.isReturning.toNat = l.returning + 1
    simp [Loop.isReturning, hp]
  · show n ∈ l.pending ↔ _
    rw [h.asked n, hx]
    simp [Loop.isQueuing, hp]

/-- A slot is back; it may have gone on to somebody who waited. -/
theorem giveBack (h : Budgeted c l loops) (hx : loops.find? n = some x) {answer : Option Status}
    (hp : x.phase = .returning answer) (hp' : x'.isPolling = false) :
    Budgeted c l.giveBack (loops.insert n x') := by
  obtain ⟨hqueue', hinquire', hreturn'⟩ := Loop.isPolling_eq_false.mp hp'
  have hpos := h.returning_pos hx hp
  refine h.put hx l.total_giveBack l.capacity_giveBack ?_ ?_ ?_ ?_ fun k _ => ?_
  · have hinquire : x.isInquiring = false := by simp [Loop.isInquiring, hp]
    rw [Limiter.inUse_giveBack, hinquire, hinquire']
  · have hone : x.isReturning.toNat = 1 := by simp [Loop.isReturning, hp]
    rw [Limiter.returning_giveBack hpos, hone, hreturn']
    show l.returning - 1 + 1 = l.returning + 0
    omega
  · rw [Limiter.pending_giveBack]
    exact h.once
  · rw [Limiter.pending_giveBack, h.asked n, hx, hqueue']
    simp [Loop.isQueuing, hp]
  · rw [Limiter.pending_giveBack]

/-- A loop that is killed while it inquires gives its slot back as it goes: the two steps of
    the return happen at once. -/
theorem kill (h : Budgeted c l loops) (hx : loops.find? n = some x) (hp : x.phase = .inquiring) :
    Budgeted c l.release.2 (loops.insert n { x with phase := .killed }) := by
  have hpos := h.inUse_pos hx hp
  have hrelease : l.release.2 = l.uncounted.giveBack := by
    rw [Limiter.release, Limiter.uncount?_of_pos hpos]
  have hone : x.isInquiring.toNat = 1 := by simp [Loop.isInquiring, hp]
  have hreturn : x.isReturning = false := by simp [Loop.isReturning, hp]
  have hback : 0 < l.uncounted.returning := Nat.succ_pos l.returning
  rw [hrelease]
  refine h.put hx ?_ (Limiter.capacity_giveBack _) ?_ ?_ ?_ ?_ fun k _ => ?_
  · rw [Limiter.total_giveBack, Limiter.total_uncounted hpos]
  · rw [Limiter.inUse_giveBack, hone]
    show l.inUse - 1 + 1 = l.inUse + 0
    omega
  · rw [Limiter.returning_giveBack hback, hreturn]
    rfl
  · rw [Limiter.pending_giveBack]
    exact h.once
  · rw [Limiter.pending_giveBack]
    show n ∈ l.pending ↔ _
    rw [h.asked n, hx]
    simp [Loop.isQueuing, hp]
  · rw [Limiter.pending_giveBack]
    rfl

/-- Every step of a loop keeps the books. -/
theorem move {p : Pace} {stopping : Bool} {now : Nat} {e : Event} {s s' : Store}
    (h : Budgeted c l loops) (hx : loops.find? n = some x)
    (hm : Loop.Move p stopping now n s l x e s' l' x') : Budgeted c l' (loops.insert n x') := by
  have hidle : ∀ {q : Phase}, x.phase = q → ({ x with phase := q } : Loop).isPolling = false →
      x.isPolling = false := by
    rintro q rfl hq
    exact hq
  cases hm with
  | unpaced hp | begin hp | wait hp | expire hp | clear hp | settle hp | unsettled hp | fail hp
  | unfailed hp => exact h.idle hx (hidle hp rfl) rfl
  | stop hp =>
    rcases hp with hp | ⟨hp, -⟩
    · exact h.idle hx (hidle hp rfl) rfl
    · exact h.idle hx (hidle hp rfl) rfl
  | tick hp => exact h.request hx (hidle hp rfl) rfl
  | inquire hp hgranted =>
    exact h.unqueue hx hp rfl rfl (l.total_count n) (l.capacity_count n)
      (Limiter.pending_count hgranted) (Limiter.inUse_count hgranted) (l.returning_count n)
  | slotless hp =>
    exact h.unqueue hx hp rfl rfl (l.total_cancel n) (l.capacity_cancel n) (l.pending_cancel n)
      (l.inUse_cancel n) (l.returning_cancel n)
  | answered result hp => exact h.endInquiry hx hp _
  | unanswered hp => exact h.endInquiry hx hp none
  | kill hp => exact h.kill hx hp
  | @giveBack answer hp => exact h.giveBack hx hp (Loop.isPolling_afterInquiry x answer)

end Budgeted

end Poll

end TopUp
