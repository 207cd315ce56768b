import TopUp.Proofs.Run
import TopUp.Proofs.Store.KeyLocks
import TopUp.Proofs.Store.Ledger
import TopUp.Store.Basic

/-! # The traffic on a store

    A store in memory together with the units of work on it, each under the number of
    its owner. Any unit may take its next action at any time, in between the store
    itself is written to: `Traffic.act` is one action. `Traffic.Step` lists once what
    an action can do, and everything below is derived from that list.
-/

namespace TopUp.Store

/-! ### State -/

/-- How far a unit of work has come. -/
inductive Stage where
  /-- It has looked the lock of its key up. -/
  | entering
  /-- It has asked for the lock. -/
  | queued
  /-- It holds the lock and gathers writes. -/
  | opened (d : Draft)

/-- How the owner of a unit of work stands to the lock of its key. -/
def Stage.standing : Stage → Standing
  | .entering => .visiting
  | .queued => .queued
  | .opened _ => .holding

/-- A unit of work. -/
structure UnitOfWork where
  /-- The key that it is opened with. -/
  key : Uuid
  /-- The number of the lock. -/
  lock : Nat
  /-- How far it has come. -/
  stage : Stage

/-- A store and the units of work on it. -/
structure Traffic where
  /-- The store. -/
  memory : Memory := {}
  /-- The units of work by their owners. -/
  units : Nat → Option UnitOfWork := fun _ => none

/-- What a status write that is not refused with a failure makes of a store. -/
theorem Memory.update_eq {m m' : Memory} {r : String} {s : Status} {written : Bool}
    (h : m.update r s = .ok (written, m')) :
    m' = { m with ledger := (m.ledger.writeStatus r s).2 } := by
  unfold update at h
  split at h
  · exact absurd h (by simp)
  · obtain ⟨-, rfl⟩ := by simpa using h
    rfl

namespace Traffic

variable {x x' : Traffic} {n m : Nat} {key : Uuid} {lock : Nat} {d : Draft}

/-- The committed transactions. -/
abbrev ledger (x : Traffic) : Ledger := x.memory.ledger

/-- A store at rest over the given transactions. -/
def ofLedger (l : Ledger) : Traffic := { memory := { ledger := l } }

/-- Replaces the unit of work of an owner. -/
def setUnit (x : Traffic) (n : Nat) (u : Option UnitOfWork) : Traffic :=
  { x with units := fun m => if m = n then u else x.units m }

/-- Replaces the locks. -/
def setLocks (x : Traffic) (locks : KeyLocks) : Traffic :=
  { x with memory := { x.memory with locks } }

@[simp] theorem units_setUnit_self (x : Traffic) (n : Nat) (u : Option UnitOfWork) :
    (x.setUnit n u).units n = u := by
  simp [setUnit]

@[simp] theorem units_setUnit_ne (x : Traffic) (u : Option UnitOfWork) (h : m ≠ n) :
    (x.setUnit n u).units m = x.units m := by
  simp [setUnit, h]

theorem setUnit_units (x : Traffic) (n : Nat) : x.setUnit n (x.units n) = x := by
  have hunits : (fun m => if m = n then x.units n else x.units m) = x.units := by
    funext m
    split
    · next hm => rw [hm]
    · rfl
  simp [setUnit, hunits]

/-- The units of work after one of them was replaced. -/
theorem units_setUnit_cases {u : Option UnitOfWork} {v : UnitOfWork}
    (h : (x.setUnit n u).units m = some v) :
    (m = n ∧ u = some v) ∨ (m ≠ n ∧ x.units m = some v) := by
  by_cases hm : m = n
  · subst hm
    rw [units_setUnit_self] at h
    exact Or.inl ⟨rfl, h⟩
  · rw [units_setUnit_ne _ _ hm] at h
    exact Or.inr ⟨hm, h⟩

/-! ### Actions -/

/-- What can happen on a store. -/
inductive Action where
  /-- A unit of work looks the lock of its key up. -/
  | lookup (n : Nat) (key : Uuid)
  /-- A unit of work asks for the lock. -/
  | ask (n : Nat)
  /-- A unit of work is opened, for the lock is its own. -/
  | enter (n : Nat)
  /-- A unit of work makes a transaction. -/
  | create (n : Nat) (new : NewTransaction) (id : Uuid) (now : Int)
  /-- A unit of work writes a status. -/
  | write (n : Nat) (reference : String) (status : Status)
  /-- A unit of work is committed. -/
  | commit (n : Nat)
  /-- A unit of work is dropped, open or not. -/
  | drop (n : Nat)
  /-- Somebody reads. -/
  | read
  /-- A status is written. -/
  | update (reference : String) (status : Status)
  /-- The mark of a poll loop is set. -/
  | claim (reference : String)
  /-- The mark of a poll loop is taken away. -/
  | clear (reference : String)
  /-- Status writes are switched off or on. -/
  | readOnly (on : Bool)

/-- One action, if it is possible. An operation that fails changes nothing. -/
def act : Action → Traffic → Option Traffic
  | .lookup n key, x =>
    match x.units n with
    | some _ => none
    | none =>
      some ((x.setLocks (x.memory.locks.lookup key n).2).setUnit n
        (some ⟨key, (x.memory.locks.lookup key n).1, .entering⟩))
  | .ask n, x =>
    match x.units n with
    | some ⟨key, lock, .entering⟩ =>
      some ((x.setLocks (x.memory.locks.ask lock n)).setUnit n (some ⟨key, lock, .queued⟩))
    | _ => none
  | .enter n, x =>
    match x.units n with
    | some ⟨key, lock, .queued⟩ =>
      if x.memory.locks.holds lock n then some (x.setUnit n (some ⟨key, lock, .opened {}⟩))
      else none
    | _ => none
  | .create n new id now, x =>
    match x.units n with
    | some ⟨key, lock, .opened d⟩ =>
      match d.create x.ledger new id now with
      | .ok (_, d) => some (x.setUnit n (some ⟨key, lock, .opened d⟩))
      | .error _ => some x
    | _ => none
  | .write n reference status, x =>
    match x.units n with
    | some ⟨key, lock, .opened d⟩ =>
      match x.memory.updateDraft d reference status with
      | .ok (_, d) => some (x.setUnit n (some ⟨key, lock, .opened d⟩))
      | .error _ => some x
    | _ => none
  | .commit n, x =>
    match x.units n with
    | some ⟨_, lock, .opened d⟩ =>
      some (({ x with memory := x.memory.commit d }.setLocks (x.memory.locks.leave lock n)).setUnit
        n none)
    | _ => none
  | .drop n, x =>
    (x.units n).map fun u => (x.setLocks (x.memory.locks.leave u.lock n)).setUnit n none
  | .read, x => some x
  | .update reference status, x =>
    match x.memory.update reference status with
    | .ok (_, memory) => some { x with memory }
    | .error _ => some x
  | .claim reference, x => some { x with memory := (x.memory.claim reference).2 }
  | .clear reference, x => some { x with memory := x.memory.clear reference }
  | .readOnly on, x => some { x with memory := { x.memory with readOnly := on } }

/-- A transaction is made only under the key that the unit of work was opened with. -/
def Action.OwnKey (x : Traffic) : Action → Prop
  | .create n new _ _ => ∀ u ∈ x.units n, new.key = u.key
  | _ => True

instance (x : Traffic) (a : Action) : Decidable (a.OwnKey x) :=
  match a with
  | .create n new _ _ => inferInstanceAs (Decidable (∀ u ∈ x.units n, new.key = u.key))
  | .lookup .. | .ask .. | .enter .. | .write .. | .commit .. | .drop .. | .read | .update ..
  | .claim .. | .clear .. | .readOnly .. => .isTrue trivial

/-- What an action can do. -/
inductive Step (x : Traffic) : Action → Traffic → Prop where
  /-- Nothing changes. -/
  | stay {a : Action} (hcommit : ∀ n, a ≠ .commit n) : Step x a x
  /-- A unit of work gets a handle to the lock of its key. -/
  | lookup {n : Nat} {key : Uuid} (hunit : x.units n = none) :
      Step x (.lookup n key) ((x.setLocks (x.memory.locks.lookup key n).2).setUnit n
        (some ⟨key, (x.memory.locks.lookup key n).1, .entering⟩))
  /-- A unit of work asks for its lock. -/
  | ask {n : Nat} {key : Uuid} {lock : Nat} (hunit : x.units n = some ⟨key, lock, .entering⟩) :
      Step x (.ask n)
        ((x.setLocks (x.memory.locks.ask lock n)).setUnit n (some ⟨key, lock, .queued⟩))
  /-- A unit of work has got its lock. -/
  | enter {n : Nat} {key : Uuid} {lock : Nat} (hunit : x.units n = some ⟨key, lock, .queued⟩)
      (hholds : x.memory.locks.holds lock n = true) :
      Step x (.enter n) (x.setUnit n (some ⟨key, lock, .opened {}⟩))
  /-- A unit of work has made a transaction. -/
  | create {n : Nat} {key : Uuid} {lock : Nat} {d d' : Draft} {new : NewTransaction} {id : Uuid}
      {now : Int} {t : Transaction} (hunit : x.units n = some ⟨key, lock, .opened d⟩)
      (hcreate : d.create x.ledger new id now = .ok (t, d')) :
      Step x (.create n new id now) (x.setUnit n (some ⟨key, lock, .opened d'⟩))
  /-- A unit of work has gathered a status write, or was refused it. -/
  | write {n : Nat} {key : Uuid} {lock : Nat} {d : Draft} {reference : String} {status : Status}
      (hunit : x.units n = some ⟨key, lock, .opened d⟩) :
      Step x (.write n reference status) (x.setUnit n
        (some ⟨key, lock, .opened (d.writeStatus x.ledger reference status).2⟩))
  /-- The writes of a unit of work become visible and its lock is free. -/
  | commit {n : Nat} {key : Uuid} {lock : Nat} {d : Draft}
      (hunit : x.units n = some ⟨key, lock, .opened d⟩) :
      Step x (.commit n) (({ x with memory := x.memory.commit d }.setLocks
        (x.memory.locks.leave lock n)).setUnit n none)
  /-- The writes of a unit of work are forgotten and its lock is free. -/
  | drop {n : Nat} {u : UnitOfWork} (hunit : x.units n = some u) :
      Step x (.drop n) ((x.setLocks (x.memory.locks.leave u.lock n)).setUnit n none)
  /-- The rows of the store age; a status that is new is the one that was written. -/
  | store {a : Action} {memory : Memory} (hcommit : ∀ n, a ≠ .commit n)
      (hlocks : memory.locks = x.memory.locks) (hages : x.ledger.Ages memory.ledger)
      (hstatus : ∀ r t, memory.ledger.find? r = some t →
        (∃ t', x.ledger.find? r = some t' ∧ t'.status = t.status) ∨ a = .update r t.status) :
      Step x a { x with memory }

/-- Everything that an action does is in the list. -/
theorem step_of_act {a : Action} (h : act a x = some x') : Step x a x' := by
  cases a with
  | lookup n key =>
    simp only [act] at h
    split at h
    · exact absurd h (by simp)
    · next hunit =>
      obtain rfl := Option.some.inj h
      exact .lookup hunit
  | ask n =>
    simp only [act] at h
    split at h
    · next hunit =>
      obtain rfl := Option.some.inj h
      exact .ask hunit
    · exact absurd h (by simp)
  | enter n =>
    simp only [act] at h
    split at h
    · next hunit =>
      split at h
      · next hholds =>
        obtain rfl := Option.some.inj h
        exact .enter hunit hholds
      · exact absurd h (by simp)
    · exact absurd h (by simp)
  | create n new id now =>
    simp only [act] at h
    split at h
    · next hunit =>
      split at h
      · next hcreate =>
        obtain rfl := Option.some.inj h
        exact .create hunit hcreate
      · obtain rfl := Option.some.inj h
        exact .stay (by simp)
    · exact absurd h (by simp)
  | write n reference status =>
    simp only [act, Memory.updateDraft] at h
    split at h
    · next hunit =>
      cases hread : x.memory.readOnly with
      | true =>
        rw [hread] at h
        obtain rfl := Option.some.inj h
        exact .stay (by simp)
      | false =>
        rw [hread] at h
        obtain rfl := Option.some.inj h
        exact .write hunit
    · exact absurd h (by simp)
  | commit n =>
    simp only [act] at h
    split at h
    · next hunit =>
      obtain rfl := Option.some.inj h
      exact .commit hunit
    · exact absurd h (by simp)
  | drop n =>
    simp only [act] at h
    obtain ⟨u, hunit, rfl⟩ := Option.map_eq_some_iff.mp h
    exact .drop hunit
  | read =>
    obtain rfl := Option.some.inj h
    exact .stay (by simp)
  | update reference status =>
    simp only [act, Memory.update] at h
    cases hread : x.memory.readOnly with
    | true =>
      rw [hread] at h
      obtain rfl := Option.some.inj h
      exact .stay (by simp)
    | false =>
      rw [hread] at h
      obtain rfl := Option.some.inj h
      refine .store (by simp) rfl (Ledger.writeStatus_ages _ _ _) fun r t ht => ?_
      rcases Ledger.find?_writeStatus_cases ht with hold | ⟨rfl, rfl⟩
      · exact Or.inl ⟨t, hold, rfl⟩
      · exact Or.inr rfl
  | claim reference =>
    obtain rfl := Option.some.inj h
    exact .store (by simp) rfl (Ledger.claim_ages _ _) fun r t ht =>
      Or.inl (Ledger.status_claim ht)
  | clear reference =>
    obtain rfl := Option.some.inj h
    exact .store (by simp) rfl (Ledger.clear_ages _ _) fun r t ht =>
      Or.inl (Ledger.status_clear ht)
  | readOnly on =>
    obtain rfl := Option.some.inj h
    exact .store (by simp) rfl (.refl _) fun r t ht => Or.inl ⟨t, ht, rfl⟩

/-- Unless a unit of work is committed, the rows age. -/
theorem Step.ages {a : Action} (h : Step x a x') (hcommit : ∀ n, a ≠ .commit n) :
    x.ledger.Ages x'.ledger := by
  cases h with
  | commit => exact absurd rfl (hcommit _)
  | store _ _ hages => exact hages
  | _ => exact .refl _

/-- An action that at most writes a status changes nothing but the status. -/
theorem memory_of_act {a : Action} (h : act a x = some x')
    (ha : a = .read ∨ ∃ r s, a = .update r s) :
    x'.memory = x.memory ∨ ∃ r s, x'.memory =
      { x.memory with ledger := (x.ledger.writeStatus r s).2 } := by
  rcases ha with rfl | ⟨r, s, rfl⟩
  · obtain rfl := Option.some.inj h
    exact Or.inl rfl
  · simp only [act] at h
    split at h
    · next hupdate =>
      obtain rfl := Option.some.inj h
      exact Or.inr ⟨r, s, Memory.update_eq hupdate⟩
    · obtain rfl := Option.some.inj h
      exact Or.inl rfl

/-! ### Units of work -/

/-- How a unit of work came to be what it is by an action of its owner. -/
inductive UnitStep (x x' : Traffic) (m : Nat) : Action → UnitOfWork → Prop where
  | lookup {key : Uuid} {lock : Nat} : UnitStep x x' m (.lookup m key) ⟨key, lock, .entering⟩
  | ask {key : Uuid} {lock : Nat} : UnitStep x x' m (.ask m) ⟨key, lock, .queued⟩
  | enter {key : Uuid} {lock : Nat} : UnitStep x x' m (.enter m) ⟨key, lock, .opened {}⟩
  | create {key : Uuid} {lock : Nat} {d d' : Draft} {new : NewTransaction} {id : Uuid}
      {now : Int} {t : Transaction} (hunit : x.units m = some ⟨key, lock, .opened d⟩)
      (hcreate : d.create x.ledger new id now = .ok (t, d')) (hledger : x'.ledger = x.ledger) :
      UnitStep x x' m (.create m new id now) ⟨key, lock, .opened d'⟩
  | write {key : Uuid} {lock : Nat} {d : Draft} {reference : String} {status : Status}
      (hunit : x.units m = some ⟨key, lock, .opened d⟩) (hledger : x'.ledger = x.ledger) :
      UnitStep x x' m (.write m reference status)
        ⟨key, lock, .opened (d.writeStatus x.ledger reference status).2⟩

/-- A unit of work is as it was, or its owner has acted. -/
theorem Step.units {a : Action} (hs : Step x a x') {u : UnitOfWork} (hu : x'.units m = some u) :
    x.units m = some u ∨ UnitStep x x' m a u := by
  cases hs with
  | stay | store => exact Or.inl hu
  | lookup =>
    rcases units_setUnit_cases hu with ⟨rfl, heq⟩ | ⟨-, hu⟩
    · obtain rfl := Option.some.inj heq
      exact Or.inr .lookup
    · exact Or.inl hu
  | ask =>
    rcases units_setUnit_cases hu with ⟨rfl, heq⟩ | ⟨-, hu⟩
    · obtain rfl := Option.some.inj heq
      exact Or.inr .ask
    · exact Or.inl hu
  | enter =>
    rcases units_setUnit_cases hu with ⟨rfl, heq⟩ | ⟨-, hu⟩
    · obtain rfl := Option.some.inj heq
      exact Or.inr .enter
    · exact Or.inl hu
  | create hunit hcreate =>
    rcases units_setUnit_cases hu with ⟨rfl, heq⟩ | ⟨-, hu⟩
    · obtain rfl := Option.some.inj heq
      exact Or.inr (.create hunit hcreate rfl)
    · exact Or.inl hu
  | write hunit =>
    rcases units_setUnit_cases hu with ⟨rfl, heq⟩ | ⟨-, hu⟩
    · obtain rfl := Option.some.inj heq
      exact Or.inr (.write hunit rfl)
    · exact Or.inl hu
  | commit =>
    rcases units_setUnit_cases hu with ⟨rfl, heq⟩ | ⟨-, hu⟩
    · exact absurd heq (by simp)
    · exact Or.inl hu
  | drop =>
    rcases units_setUnit_cases hu with ⟨rfl, heq⟩ | ⟨-, hu⟩
    · exact absurd heq (by simp)
    · exact Or.inl hu

end Traffic

end TopUp.Store
