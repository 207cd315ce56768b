import Mathlib.Data.List.Nodup
import TopUp.Proofs.Store.LockPerKey
import TopUp.Proofs.Store.Traffic

/-! # Who waits for whom

    The line of a key (`Traffic.line`) is read off a run alone: whoever asks for the lock of
    the key comes to its end, and whoever commits or drops a unit of work goes out of it.
    The lock of the key serves this line (`Traffic.Serves`): its holder is the first one,
    those who wait are the others in their order, and its visitors are those who have looked
    it up and not asked yet. Locks of other keys have no part in it, and neither has the
    clearing of the table.
-/

namespace TopUp.Store.Traffic

open TopUp.Data

variable {x x' : Traffic} {a : Action} {n m : Nat} {key key' : Uuid} {lock lock' : Nat}
  {d d' : Draft} {q : List Nat} {tr : List (Traffic × Action)}

/-! ### The line of a key -/

/-- The line of a key after one more action. -/
def lineAfter (key : Uuid) (q : List Nat) (x : Traffic) : Action → List Nat
  | .ask n => if (x.units n).map UnitOfWork.key = some key then q ++ [n] else q
  | .commit n | .drop n => q.erase n
  | _ => q

/-- Those who have asked for the lock of a key and not left it, in the order of asking. -/
def line (key : Uuid) (tr : List (Traffic × Action)) : List Nat :=
  tr.foldl (fun q e => lineAfter key q e.1 e.2) []

theorem line_snoc (key : Uuid) (tr : List (Traffic × Action)) (x : Traffic) (a : Action) :
    line key (tr ++ [(x, a)]) = lineAfter key (line key tr) x a := by
  simp [line]

/-! ### What an action does to the locks -/

/-- Where the owner of a unit of work stands: at the lock of which key, of which number, and
    how. -/
def place (x : Traffic) (n : Nat) : Option (Uuid × Nat × Standing) :=
  (x.units n).map fun u => (u.key, u.lock, u.stage.standing)

theorem place_of_unit {u : UnitOfWork} (h : x.units n = some u) :
    x.place n = some (u.key, u.lock, u.stage.standing) := by
  simp [place, h]

theorem place_of_none (h : x.units n = none) : x.place n = none := by
  simp [place, h]

theorem key_of_place {st : Standing} (h : x.place n = some (key, lock, st)) :
    (x.units n).map UnitOfWork.key = some key := by
  obtain ⟨u, hu, heq⟩ := Option.map_eq_some_iff.mp h
  rw [hu, Option.map_some, (Prod.mk.inj heq).1]

/-- What an action does to the locks, to where owners stand and to the lines. -/
inductive Turn (x x' : Traffic) (a : Action) : Prop where
  /-- Nothing of the kind. -/
  | quiet (hlocks : x'.memory.locks = x.memory.locks) (hplace : x'.place = x.place)
      (hline : ∀ key q, lineAfter key q x a = q)
  /-- Someone looks a lock up. -/
  | lookup {n : Nat} {key : Uuid} (ha : a = .lookup n key) (hold : x.place n = none)
      (hlocks : x'.memory.locks = (x.memory.locks.lookup key n).2)
      (hplace : x'.place = Function.update x.place n
        (some (key, (x.memory.locks.lookup key n).1, .visiting)))
  /-- Someone asks for a lock. -/
  | ask {n : Nat} {key : Uuid} {lock : Nat} (ha : a = .ask n)
      (hold : x.place n = some (key, lock, .visiting))
      (hlocks : x'.memory.locks = x.memory.locks.ask lock n)
      (hplace : x'.place = Function.update x.place n (some (key, lock, .queued)))
  /-- Someone finds that the lock is theirs. -/
  | enter {n : Nat} {key : Uuid} {lock : Nat} (ha : a = .enter n)
      (hold : x.place n = some (key, lock, .queued))
      (hholds : x.memory.locks.holds lock n = true) (hlocks : x'.memory.locks = x.memory.locks)
      (hplace : x'.place = Function.update x.place n (some (key, lock, .holding)))
  /-- Someone gives a handle up. -/
  | leave {n : Nat} {key : Uuid} {lock : Nat} {st : Standing} (ha : a = .commit n ∨ a = .drop n)
      (hold : x.place n = some (key, lock, st))
      (hlocks : x'.memory.locks = x.memory.locks.leave lock n)
      (hplace : x'.place = Function.update x.place n none)

theorem place_setUnit (x : Traffic) (n : Nat) (u : Option UnitOfWork) :
    (x.setUnit n u).place =
      Function.update x.place n (u.map fun u => (u.key, u.lock, u.stage.standing)) := by
  funext m
  by_cases hm : m = n
  · subst hm
    simp [place]
  · simp [place, hm]

/-- A unit of work that goes on gathering writes stands where it stood. -/
theorem place_setUnit_opened (hunit : x.units n = some ⟨key, lock, .opened d⟩) (d' : Draft) :
    (x.setUnit n (some ⟨key, lock, .opened d'⟩)).place = x.place := by
  have hsame : some (key, lock, Standing.holding) = x.place n := (place_of_unit hunit).symm
  rw [place_setUnit]
  exact Function.update_eq_self_iff.mpr hsame

/-- An action whose owner neither comes to a lock nor goes from one leaves all in place. -/
theorem Step.quiet (hs : Step x a x') (hline : ∀ key q, lineAfter key q x a = q)
    (hlookup : ∀ n key, a ≠ .lookup n key) (henter : ∀ n, a ≠ .enter n)
    (hask : ∀ n, a ≠ .ask n) (hcommit : ∀ n, a ≠ .commit n) (hdrop : ∀ n, a ≠ .drop n) :
    Turn x x' a := by
  cases hs with
  | stay => exact .quiet rfl rfl hline
  | lookup => exact absurd rfl (hlookup _ _)
  | ask => exact absurd rfl (hask _)
  | enter => exact absurd rfl (henter _)
  | create hunit _ => exact .quiet rfl (place_setUnit_opened hunit _) hline
  | write hunit => exact .quiet rfl (place_setUnit_opened hunit _) hline
  | commit => exact absurd rfl (hcommit _)
  | drop => exact absurd rfl (hdrop _)
  | store _ hlocks => exact .quiet hlocks rfl hline

theorem turn_of_act (h : act a x = some x') : Turn x x' a := by
  have hs := step_of_act h
  cases a with
  | lookup n key =>
    simp only [act] at h
    split at h
    · exact absurd h (by simp)
    · next hunit =>
      obtain rfl := Option.some.inj h
      exact .lookup rfl (place_of_none hunit) rfl (place_setUnit _ _ _)
  | ask n =>
    simp only [act] at h
    split at h
    · next hunit =>
      obtain rfl := Option.some.inj h
      exact .ask rfl (place_of_unit hunit) rfl (place_setUnit _ _ _)
    · exact absurd h (by simp)
  | enter n =>
    simp only [act] at h
    split at h
    · next hunit =>
      split at h
      · next hholds =>
        obtain rfl := Option.some.inj h
        exact .enter rfl (place_of_unit hunit) hholds rfl (place_setUnit _ _ _)
      · exact absurd h (by simp)
    · exact absurd h (by simp)
  | commit n =>
    simp only [act] at h
    split at h
    · next hunit =>
      obtain rfl := Option.some.inj h
      exact .leave (Or.inl rfl) (place_of_unit hunit) rfl (place_setUnit _ _ _)
    · exact absurd h (by simp)
  | drop n =>
    simp only [act] at h
    obtain ⟨u, hunit, rfl⟩ := Option.map_eq_some_iff.mp h
    exact .leave (Or.inr rfl) (place_of_unit hunit) rfl (place_setUnit _ _ _)
  | _ => exact hs.quiet (fun _ _ => rfl) (by simp) (by simp) (by simp) (by simp) (by simp)

/-! ### A lock serves its line -/

/-- The lock of a key serves the line of the key. -/
structure Serves (x : Traffic) (key : Uuid) (l : KeyLock) (q : List Nat) : Prop where
  /-- Those who have asked for it are the line. -/
  line : l.line = q
  /-- Nobody waits for a lock that nobody holds. -/
  ordered : l.holder = none → l.waiting = []
  /-- Everyone is in the line once. -/
  nodup : q.Nodup
  /-- Everyone visits once. -/
  visitors : l.visitors.Nodup
  /-- The visitors are those who have looked the lock up and not asked for it. -/
  mem_visitors : ∀ m, m ∈ l.visitors ↔ ∃ lock, x.place m = some (key, lock, .visiting)
  /-- In the line are those who have asked for the lock. -/
  mem_line : ∀ m, m ∈ q ↔ ∃ lock st, x.place m = some (key, lock, st) ∧ st ≠ .visiting
  /-- Who has opened a unit of work holds the lock. -/
  holding : ∀ {m lock}, x.place m = some (key, lock, .holding) → l.holder = some m

/-- The locks serve the lines. -/
structure Serving (tr : List (Traffic × Action)) (x : Traffic) : Prop where
  /-- Keys and locks belong together. -/
  proper : x.memory.locks.Proper
  /-- Whoever has a handle has it to the lock of their key. -/
  found : ∀ {m key lock st}, x.place m = some (key, lock, st) →
    x.memory.locks.table.find? key = some lock
  /-- Every lock serves the line of its key. -/
  serves : ∀ key, x.Serves key (x.memory.locks.lockOf key) (line key tr)

theorem serving_ofLedger (l : Ledger) : Serving [] (ofLedger l) := by
  have hplace : ∀ m, (ofLedger l).place m = none := fun _ => rfl
  have hlock : ∀ key, (ofLedger l).memory.locks.lockOf key = {} := fun _ => rfl
  refine ⟨KeyLocks.proper_empty, fun h => absurd h (by simp [hplace]), fun key => ?_⟩
  rw [hlock]
  exact ⟨rfl, fun _ => rfl, List.nodup_nil, List.nodup_nil, by simp [hplace], by
    simp [line, hplace], fun h => absurd h (by simp [hplace])⟩

namespace Serves

variable {l l' : KeyLock} {q' : List Nat} {p : Option (Uuid × Nat × Standing)}

theorem notMem_visitors {st : Standing} (h : x.Serves key l q)
    (hold : x.place n = some (key', lock, st)) (hst : st ≠ .visiting) : n ∉ l.visitors := by
  intro hmem
  obtain ⟨lock', hplace⟩ := (h.mem_visitors n).mp hmem
  rw [hold] at hplace
  simp only [Option.some.injEq, Prod.mk.injEq] at hplace
  exact hst hplace.2.2

theorem notMem_line (h : x.Serves key l q) (hold : x.place n = some (key', lock, .visiting)) :
    n ∉ q := by
  intro hmem
  obtain ⟨lock', st, hplace, hst⟩ := (h.mem_line n).mp hmem
  rw [hold] at hplace
  simp only [Option.some.injEq, Prod.mk.injEq] at hplace
  exact hst hplace.2.2.symm

/-- When one owner moves, only what is said of that owner has to be looked at. -/
theorem moved (h : x.Serves key l q) (hplace : x'.place = Function.update x.place n p)
    (hline : l'.line = q') (hordered : l'.holder = none → l'.waiting = []) (hnodup : q'.Nodup)
    (hvisitors : l'.visitors.Nodup)
    (hothers : ∀ m, m ≠ n → (m ∈ l'.visitors ↔ m ∈ l.visitors) ∧ (m ∈ q' ↔ m ∈ q) ∧
      (l.holder = some m → l'.holder = some m))
    (hvisits : n ∈ l'.visitors ↔ ∃ lock, p = some (key, lock, .visiting))
    (hstays : n ∈ q' ↔ ∃ lock st, p = some (key, lock, st) ∧ st ≠ .visiting)
    (hholds : ∀ lock, p = some (key, lock, .holding) → l'.holder = some n) :
    x'.Serves key l' q' := by
  refine ⟨hline, hordered, hnodup, hvisitors, ?_, ?_, ?_⟩
  · intro m
    by_cases hm : m = n
    · subst hm
      rw [hplace, Function.update_self, hvisits]
    · rw [hplace, Function.update_of_ne hm, (hothers m hm).1, h.mem_visitors]
  · intro m
    by_cases hm : m = n
    · subst hm
      rw [hplace, Function.update_self, hstays]
    · rw [hplace, Function.update_of_ne hm, (hothers m hm).2.1, h.mem_line]
  · intro m lock hm
    rw [hplace] at hm
    by_cases hmn : m = n
    · subst hmn
      rw [Function.update_self] at hm
      exact hholds lock hm
    · rw [Function.update_of_ne hmn] at hm
      exact (hothers m hmn).2.2 (h.holding hm)

/-- Who comes to the lock of another key, or goes from it, changes nothing here. -/
theorem elsewhere (h : x.Serves key l q) (hplace : x'.place = Function.update x.place n p)
    (hold : ∀ lock st, x.place n ≠ some (key, lock, st))
    (hnew : ∀ lock st, p ≠ some (key, lock, st)) : x'.Serves key l q := by
  refine h.moved hplace h.line h.ordered h.nodup h.visitors (fun _ _ => ⟨.rfl, .rfl, id⟩) ?_ ?_ ?_
  · simp [h.mem_visitors, hold, hnew]
  · simp [h.mem_line, hold, hnew]
  · intro lock hp
    exact absurd hp (hnew _ _)

/-- A lookup adds a visitor. -/
theorem visit (h : x.Serves key l q) (hold : x.place n = none)
    (hplace : x'.place = Function.update x.place n (some (key, lock, .visiting))) :
    x'.Serves key (l.visit n) q := by
  have hnew : n ∉ l.visitors := by simp [h.mem_visitors, hold]
  have hout : n ∉ q := by simp [h.mem_line, hold]
  have hvisitors : (l.visit n).visitors.Nodup := by
    simpa [KeyLock.visit] using h.visitors.concat hnew
  refine h.moved hplace h.line h.ordered h.nodup hvisitors ?_ ?_ ?_ ?_
  · intro m hm
    exact ⟨by simp [KeyLock.visit, hm], .rfl, id⟩
  · simp [KeyLock.visit]
  · simp [hout]
  · simp

/-- Who asks for the lock goes from the visitors to the end of the line. -/
theorem ask (h : x.Serves key l q) (hold : x.place n = some (key, lock, .visiting))
    (hplace : x'.place = Function.update x.place n (some (key, lock, .queued))) :
    x'.Serves key (l.ask n) (q ++ [n]) := by
  have hout : n ∉ q := h.notMem_line hold
  have hline : (l.ask n).line = q ++ [n] := by rw [KeyLock.line_ask h.ordered, h.line]
  have hnodup : (q ++ [n]).Nodup := by simpa using h.nodup.concat hout
  have hgone : n ∉ (l.ask n).visitors := by
    rw [KeyLock.visitors_ask]
    exact h.visitors.not_mem_erase
  refine h.moved hplace hline (KeyLock.ordered_ask n) hnodup ?_ ?_ ?_ ?_ ?_
  · rw [KeyLock.visitors_ask]
    exact h.visitors.erase n
  · intro m hm
    refine ⟨by rw [KeyLock.visitors_ask, List.mem_erase_of_ne hm], by simp [hm], ?_⟩
    intro hholder
    simpa [KeyLock.ask_of_held hholder] using hholder
  · simp [hgone]
  · simp
  · simp

/-- Who enters is the holder already. -/
theorem enter (h : x.Serves key l q) (hold : x.place n = some (key, lock, .queued))
    (hholder : l.holder = some n)
    (hplace : x'.place = Function.update x.place n (some (key, lock, .holding))) :
    x'.Serves key l q := by
  have hin : n ∈ q := (h.mem_line n).mpr ⟨_, _, hold, by simp⟩
  have hout : n ∉ l.visitors := h.notMem_visitors hold (by simp)
  refine h.moved hplace h.line h.ordered h.nodup h.visitors (fun _ _ => ⟨.rfl, .rfl, id⟩) ?_ ?_ ?_
  · simp [hout]
  · simp [hin]
  · intro _ _
    exact hholder

/-- Who gives a handle up is neither a visitor nor in the line any more. -/
theorem leave (h : x.Serves key l q) (hplace : x'.place = Function.update x.place n none) :
    x'.Serves key (l.leave n) (q.erase n) := by
  have hline : (l.leave n).line = q.erase n := by rw [KeyLock.line_leave h.ordered, h.line]
  have hvisitors : (l.leave n).visitors = l.visitors.erase n := by
    apply KeyLock.visitors_leave
    intro hvisits hholder
    have hin : n ∈ q := by
      rw [← h.line]
      simp [KeyLock.line, hholder]
    obtain ⟨lock', hvisiting⟩ := (h.mem_visitors n).mp hvisits
    exact h.notMem_line hvisiting hin
  refine h.moved hplace hline (KeyLock.ordered_leave h.ordered n) (h.nodup.erase n) ?_ ?_ ?_ ?_ ?_
  · rw [hvisitors]
    exact h.visitors.erase n
  · intro m hm
    refine ⟨by rw [hvisitors, List.mem_erase_of_ne hm], List.mem_erase_of_ne hm, ?_⟩
    intro hholder
    simp [KeyLock.leave, hholder, hm]
  · simp [hvisitors, h.visitors.not_mem_erase]
  · simp [h.nodup.not_mem_erase]
  · simp

end Serves

/-! ### Every action keeps the locks serving -/

theorem lineAfter_erase (ha : a = .commit n ∨ a = .drop n) (key : Uuid) (q : List Nat) :
    lineAfter key q x a = q.erase n := by
  rcases ha with rfl | rfl <;> rfl

/-- Handles stay handles to the lock of their key when the table stays and one owner moves
    without a new lock. -/
theorem found_of_update (h : Serving tr x) {p : Option (Uuid × Nat × Standing)} {st : Standing}
    (hold : x.place n = some (key, lock, st))
    (htable : x'.memory.locks.table = x.memory.locks.table)
    (hplace : x'.place = Function.update x.place n p)
    (hp : ∀ key' lock' st', p = some (key', lock', st') → key' = key ∧ lock' = lock)
    {m : Nat} {key' : Uuid} {lock' : Nat} {st' : Standing}
    (hm : x'.place m = some (key', lock', st')) :
    x'.memory.locks.table.find? key' = some lock' := by
  rw [hplace] at hm
  rw [htable]
  by_cases hmn : m = n
  · subst hmn
    rw [Function.update_self] at hm
    obtain ⟨rfl, rfl⟩ := hp _ _ _ hm
    exact h.found hold
  · rw [Function.update_of_ne hmn] at hm
    exact h.found hm

/-- Someone has a handle to the lock, so it is not idle. -/
theorem Serves.not_idle {st : Standing} (h : x.Serves key l q)
    (hold : x.place n = some (key, lock, st)) : l.isIdle = false := by
  by_contra hidle
  obtain rfl := KeyLock.isIdle_iff.mp (by simpa using hidle)
  by_cases hst : st = .visiting
  · exact absurd ((h.mem_visitors n).mpr ⟨lock, hst ▸ hold⟩) (by simp)
  · have hin := (h.mem_line n).mpr ⟨lock, st, hold, hst⟩
    rw [← h.line] at hin
    exact absurd hin (by simp [KeyLock.line])

/-- Every action keeps the locks serving their lines. -/
theorem Serving.step (h : Serving tr x) (ht : Turn x x' a) : Serving (tr ++ [(x, a)]) x' := by
  cases ht with
  | quiet hlocks hplace hline =>
    refine ⟨hlocks ▸ h.proper, ?_, fun key => ?_⟩
    · rw [hplace, hlocks]
      exact h.found
    · rw [line_snoc, hline, hlocks]
      have hs := h.serves key
      exact ⟨hs.line, hs.ordered, hs.nodup, hs.visitors, hplace ▸ hs.mem_visitors,
        hplace ▸ hs.mem_line, fun hm => hs.holding (hplace ▸ hm)⟩
  | @lookup n key ha hold hlocks hplace =>
    refine ⟨hlocks ▸ h.proper.lookup key n, ?_, fun key' => ?_⟩
    · intro m key' lock st hm
      rw [hplace] at hm
      rw [hlocks]
      by_cases hmn : m = n
      · subst hmn
        obtain ⟨rfl, rfl, -⟩ := by simpa using hm
        exact KeyLocks.find?_lookup_self _ _ _
      · rw [Function.update_of_ne hmn] at hm
        exact KeyLocks.find?_lookup_of_not_idle h.proper (h.found hm)
          ((h.serves key').not_idle hm) key n
    · rw [line_snoc, ha, hlocks, KeyLocks.lockOf_lookup h.proper]
      split
      · next hkey =>
        subst hkey
        exact (h.serves key).visit hold hplace
      · next hkey =>
        exact (h.serves key').elsewhere hplace (by simp [hold]) (by simp [hkey])
  | @ask n key lock ha hold hlocks hplace =>
    have hfound := h.found hold
    refine ⟨hlocks ▸ h.proper.change lock _, ?_, fun key' => ?_⟩
    · exact found_of_update h hold (by rw [hlocks, KeyLocks.ask, KeyLocks.table_change]) hplace
        (by simp)
    · rw [line_snoc, ha, lineAfter, key_of_place hold, hlocks, KeyLocks.ask,
        KeyLocks.lockOf_change h.proper hfound]
      by_cases hkey : key = key'
      · subst hkey
        simpa using (h.serves key).ask hold hplace
      · simpa [hkey] using (h.serves key').elsewhere hplace (by simp [hold, hkey]) (by simp [hkey])
  | @enter n key lock ha hold hholds hlocks hplace =>
    have hfound := h.found hold
    refine ⟨hlocks ▸ h.proper, ?_, fun key' => ?_⟩
    · exact found_of_update h hold (by rw [hlocks]) hplace (by simp)
    · rw [line_snoc, ha, hlocks]
      by_cases hkey : key = key'
      · subst hkey
        obtain ⟨l, hl⟩ := h.proper.backed hfound
        have hholder : l.holder = some n := by simpa [KeyLocks.holds, hl] using hholds
        rw [KeyLocks.lockOf_of_find? hfound hl]
        have hs := h.serves key
        rw [KeyLocks.lockOf_of_find? hfound hl] at hs
        exact hs.enter hold hholder hplace
      · exact (h.serves key').elsewhere hplace (by simp [hold, hkey]) (by simp [hkey])
  | @leave n key lock st ha hold hlocks hplace =>
    have hfound := h.found hold
    refine ⟨hlocks ▸ h.proper.change lock _, ?_, fun key' => ?_⟩
    · exact found_of_update h hold (by rw [hlocks, KeyLocks.leave, KeyLocks.table_change]) hplace
        (by simp)
    · rw [line_snoc, lineAfter_erase ha, hlocks, KeyLocks.leave,
        KeyLocks.lockOf_change h.proper hfound]
      by_cases hkey : key = key'
      · subst hkey
        simpa using (h.serves key).leave hplace
      · have hout : n ∉ line key' tr := by
          simp [(h.serves key').mem_line, hold, hkey]
        rw [if_neg hkey, List.erase_of_not_mem hout]
        exact (h.serves key').elsewhere hplace (by simp [hold, hkey]) (by simp)

theorem serving_of_run {l : Ledger} (h : Run act (ofLedger l) tr x) : Serving tr x := by
  induction h with
  | nil => exact serving_ofLedger l
  | snoc _ hact ih => exact ih.step (turn_of_act hact)

/-! ### Units of work of one key run one after another -/

namespace Serving

variable {u v : UnitOfWork}

/-- In the line of a key are the units of work that have asked for its lock. -/
theorem mem_line_iff (h : Serving tr x) :
    m ∈ line key tr ↔ ∃ u, x.units m = some u ∧ u.key = key ∧ u.stage.standing ≠ .visiting := by
  rw [(h.serves key).mem_line]
  constructor
  · rintro ⟨lock, st, hplace, hst⟩
    obtain ⟨u, hu, heq⟩ := Option.map_eq_some_iff.mp hplace
    obtain ⟨hkey, -, rfl⟩ : u.key = key ∧ u.lock = lock ∧ u.stage.standing = st := by
      simpa using heq
    exact ⟨u, hu, hkey, hst⟩
  · rintro ⟨u, hu, rfl, hst⟩
    exact ⟨_, _, place_of_unit hu, hst⟩

/-- The first one in the line of a key holds the lock. -/
theorem head?_line (h : Serving tr x) (key : Uuid) :
    (line key tr).head? = (x.memory.locks.lockOf key).holder := by
  have hs := h.serves key
  rw [← hs.line, KeyLock.line]
  cases hholder : (x.memory.locks.lockOf key).holder with
  | none => simp [hs.ordered hholder]
  | some m => rfl

/-- An open unit of work is the first in the line of its key. -/
theorem head?_of_opened (h : Serving tr x) (hu : x.units n = some u) (hd : u.stage = .opened d) :
    (line u.key tr).head? = some n := by
  rw [h.head?_line]
  exact (h.serves u.key).holding (by rw [place_of_unit hu, hd]; rfl)

/-- Just the first in the line can be opened. -/
theorem enter_iff (h : Serving tr x) (hu : x.units n = some ⟨key, lock, .queued⟩) :
    (act (.enter n) x).isSome ↔ (line key tr).head? = some n := by
  have hfound := h.found (place_of_unit hu)
  obtain ⟨l, hl⟩ := h.proper.backed hfound
  rw [h.head?_line, KeyLocks.lockOf_of_find? hfound hl]
  by_cases hholder : l.holder = some n <;> simp [act, hu, KeyLocks.holds, hl, hholder]

/-- Two units of work have the same lock just when they have the same key. -/
theorem lock_eq_iff (h : Serving tr x) (hu : x.units n = some u) (hv : x.units m = some v) :
    u.lock = v.lock ↔ u.key = v.key := by
  have hn := h.found (place_of_unit hu)
  have hm := h.found (place_of_unit hv)
  constructor
  · intro hlock
    rw [hlock] at hn
    exact h.proper.injective hn hm
  · intro hkey
    rw [hkey, hm] at hn
    exact (Option.some.inj hn).symm

/-- Who waits in vain has someone before them in the line. -/
theorem exists_before (h : Serving tr x) (hu : x.units n = some ⟨key, lock, .queued⟩)
    (hblocked : act (.enter n) x = none) :
    ∃ m, (line key tr).head? = some m ∧ m ≠ n ∧ [m, n].Sublist (line key tr) := by
  have hin : n ∈ line key tr := h.mem_line_iff.mpr ⟨_, hu, rfl, by simp [Stage.standing]⟩
  have hhead : (line key tr).head? ≠ some n := by
    intro hfirst
    have henters := (h.enter_iff hu).mpr hfirst
    simp [hblocked] at henters
  cases hline : line key tr with
  | nil => simp [hline] at hin
  | cons m q =>
    rw [hline, List.head?_cons, ne_eq, Option.some.injEq] at hhead
    rw [hline] at hin
    refine ⟨m, rfl, hhead, ?_⟩
    rcases List.mem_cons.mp hin with rfl | hin
    · exact absurd rfl hhead
    · exact (List.singleton_sublist.mpr hin).cons_cons m

/-- Right after a lookup the table has keys that a unit of work was opened with. -/
theorem of_mem_keys (h : Serving tr x) (hact : act (.lookup n key) x = some x')
    (hmem : key' ∈ x'.memory.locks.table.keys) :
    key' = key ∨ ∃ m u, m ≠ n ∧ x'.units m = some u ∧ u.key = key' := by
  simp only [act] at hact
  split at hact
  · exact absurd hact (by simp)
  · next hfree =>
    obtain rfl := Option.some.inj hact
    refine (KeyLocks.of_mem_keys_lookup h.proper hmem).imp_right fun hidle => ?_
    obtain ⟨m, hm⟩ := KeyLock.exists_of_not_idle hidle
    have hs := h.serves key'
    rw [hs.line, hs.mem_visitors, hs.mem_line] at hm
    obtain ⟨lock, st, hplace⟩ : ∃ lock st, x.place m = some (key', lock, st) := by
      rcases hm with ⟨lock, hplace⟩ | ⟨lock, st, hplace, -⟩
      · exact ⟨lock, _, hplace⟩
      · exact ⟨lock, st, hplace⟩
    obtain ⟨u, hu, heq⟩ := Option.map_eq_some_iff.mp hplace
    have hne : m ≠ n := by
      rintro rfl
      rw [hfree] at hu
      exact absurd hu (by simp)
    exact ⟨m, u, hne, by rwa [units_setUnit_ne _ _ hne], (Prod.mk.inj heq).1⟩

end Serving

/-- However units of work come, wait, are committed and are dropped: of one key at most one
    is open; two units of work have the same lock just when they have the same key, and it
    is the one that the table has under that key; whoever waits in vain waits for an open
    unit of work of the same key, or one that was to be opened before it, and to look a lock
    up and to ask for it is always possible; and right after a lookup the table has no key
    but that one and those of other units of work. -/
theorem units_of_a_key_take_turns {l : Ledger} (h : Run act (ofLedger l) tr x) :
    (∀ n m u v d e, x.units n = some u → x.units m = some v → u.stage = .opened d →
      v.stage = .opened e → u.key = v.key → n = m) ∧
    (∀ n m u v, x.units n = some u → x.units m = some v →
      (u.lock = v.lock ↔ u.key = v.key) ∧ x.memory.locks.table.find? u.key = some u.lock) ∧
    (∀ n key, (x.units n = none → (act (.lookup n key) x).isSome) ∧
      (∀ lock, x.units n = some ⟨key, lock, .entering⟩ → (act (.ask n) x).isSome) ∧
      (∀ lock, x.units n = some ⟨key, lock, .queued⟩ → act (.enter n) x = none →
        ∃ m v, m ≠ n ∧ x.units m = some v ∧ v.key = key ∧
          ((∃ d, v.stage = .opened d) ∨ v.stage = .queued) ∧
          [m, n].Sublist (line key tr))) ∧
    (∀ n key x', act (.lookup n key) x = some x' → ∀ key' ∈ x'.memory.locks.table.keys,
      key' = key ∨ ∃ m v, m ≠ n ∧ x'.units m = some v ∧ v.key = key') := by
  have hserving : Serving tr x := serving_of_run h
  refine ⟨?_, ?_, ?_, ?_⟩
  · intro n m u v d e hu hv hd he hkey
    have hn := hserving.head?_of_opened hu hd
    have hm := hserving.head?_of_opened hv he
    rw [hkey, hm] at hn
    exact (Option.some.inj hn).symm
  · intro n m u v hu hv
    exact ⟨hserving.lock_eq_iff hu hv, hserving.found (place_of_unit hu)⟩
  · intro n key
    refine ⟨fun hfree => by simp [act, hfree], fun lock hu => by simp [act, hu], ?_⟩
    intro lock hu hblocked
    obtain ⟨m, hfirst, hne, hbefore⟩ := hserving.exists_before hu hblocked
    obtain ⟨v, hv, hkey, hst⟩ := hserving.mem_line_iff.mp (List.mem_of_head? hfirst)
    refine ⟨m, v, hne, hv, hkey, ?_, hbefore⟩
    cases hstage : v.stage with
    | entering => simp [hstage, Stage.standing] at hst
    | queued => exact Or.inr rfl
    | opened d => exact Or.inl ⟨d, rfl⟩
  · intro n key x' hact key' hmem
    exact hserving.of_mem_keys hact hmem

/-- Three units of work on one key, of which the second gives up waiting, and one on another
    key, with lookups of a third key in between. -/
def rush : List Action :=
  [.lookup 0 (.ofNat 1), .lookup 1 (.ofNat 1), .ask 0, .enter 0, .ask 1, .lookup 5 (.ofNat 3),
    .drop 5, .lookup 2 (.ofNat 1), .ask 2, .lookup 3 (.ofNat 2), .ask 3, .enter 3, .drop 1]

/-- The one that is left waiting has come after the open one of its key. -/
theorem rush_waits :
    let run := Run.play act rush (ofLedger {})
    run.1.length = 13 ∧ line (.ofNat 1) run.1 = [0, 2] ∧
      run.2.memory.locks.table.keys.length = 2 ∧
      ∃ m, m ≠ 2 ∧ [m, 2].Sublist (line (.ofNat 1) run.1) := by
  refine ⟨by decide, by decide, by decide, ?_⟩
  have hturns := units_of_a_key_take_turns (Run.of_play rush (ofLedger {}))
  obtain ⟨m, -, hne, -, -, -, hbefore⟩ := (hturns.2.2.1 2 (.ofNat 1)).2.2 0 (by rfl) (by rfl)
  exact ⟨m, hne, hbefore⟩

end TopUp.Store.Traffic
