import TopUp.Proofs.Store.Draft
import TopUp.Proofs.Store.Traffic

/-! # Orderly traffic

    As long as every unit of work makes transactions only under the key that it was
    opened with, whoever has a unit stands at the lock of its key, and whoever has
    opened one holds that lock; a unit has made one transaction at most, and the key of
    that transaction is not in use before the unit is committed (`Traffic.Orderly`).
    What the index knows of a key it knows for good (`Orderly.refs_step`).

    References are not protected by a lock. They stay apart if all units of work make
    different ones (`Traffic.Apart`); then the ledger stays coherent as well.
-/

namespace TopUp.Store.Traffic

variable {x x' : Traffic} {a : Action} {n m : Nat} {key key' : Uuid} {lock lock' : Nat}
  {d d' : Draft}

/-! ### Transactions made and committed -/

/-- The transaction that an action makes. -/
def created? (x : Traffic) : Action → Option Transaction
  | .create n new id now =>
    match x.units n with
    | some ⟨_, _, .opened d⟩ => (d.create x.ledger new id now).toOption.map Prod.fst
    | _ => none
  | _ => none

/-- The transactions that an action commits. -/
def committed (x : Traffic) : Action → List Transaction
  | .commit n =>
    match x.units n with
    | some ⟨_, _, .opened d⟩ => d.created
    | _ => []
  | _ => []

theorem committed_commit (hunit : x.units n = some ⟨key, lock, .opened d⟩) :
    x.committed (.commit n) = d.created := by
  simp [committed, hunit]

/-- What is committed was made by an open unit of work. -/
theorem opened_of_committed {t : Transaction} (ht : t ∈ x.committed a) :
    ∃ n key lock d, x.units n = some ⟨key, lock, .opened d⟩ ∧ x.committed a = d.created := by
  unfold committed at ht
  split at ht
  · next n =>
    split at ht
    · next key lock d hunit => exact ⟨n, key, lock, d, hunit, committed_commit hunit⟩
    · exact absurd ht List.not_mem_nil
  · exact absurd ht List.not_mem_nil

theorem committed_eq_nil (h : ∀ n, a ≠ .commit n) : x.committed a = [] := by
  cases a with
  | commit n => exact absurd rfl (h n)
  | _ => rfl

/-- An action puts in what it commits and lets all rows age. -/
theorem Step.ledger (hs : Step x a x') :
    ((x.committed a).foldl Ledger.put x.ledger).Ages x'.ledger := by
  by_cases hcommit : ∀ n, a ≠ .commit n
  · rw [committed_eq_nil hcommit]
    exact hs.ages hcommit
  · cases hs with
    | @commit n key lock d hunit =>
      rw [committed_commit hunit]
      exact d.commit_ages x.ledger
    | stay hno => exact absurd hno hcommit
    | store hno => exact absurd hno hcommit
    | _ => exact absurd (by simp) hcommit

/-! ### Locks and keys -/

/-- Units of work keep to their keys. -/
structure Orderly (x : Traffic) : Prop where
  /-- All locks have numbers that were given out. -/
  bounded : x.memory.locks.Bounded
  /-- Whoever has a unit of work stands at the lock of its key. -/
  stands : ∀ n u, x.units n = some u →
    x.memory.locks.Stands u.key u.lock n u.stage.standing
  /-- Every row is stored under its own reference. -/
  wellKeyed : x.ledger.WellKeyed
  /-- An open unit of work has made one transaction at most, of a key not yet in use. -/
  owns : ∀ n key lock d, x.units n = some ⟨key, lock, .opened d⟩ → d.Owns x.ledger key

theorem orderly_ofLedger {l : Ledger} (hl : l.WellKeyed) : (ofLedger l).Orderly :=
  ⟨KeyLocks.bounded_empty, fun _ _ h => by simp [ofLedger] at h, hl, fun _ _ _ _ h => by
    simp [ofLedger] at h⟩

/-- Two open units of work of one key are the same. -/
theorem Orderly.exclusive (h : x.Orderly) (hn : x.units n = some ⟨key, lock, .opened d⟩)
    (hm : x.units m = some ⟨key, lock', .opened d'⟩) : n = m := by
  have hholds := h.stands n _ hn
  have hholds' := h.stands m _ hm
  exact hholds.holding_unique hholds'

/-- An open unit of work of another owner is of another key. -/
theorem Orderly.key_ne (h : x.Orderly) (hne : m ≠ n)
    (hn : x.units n = some ⟨key, lock, .opened d⟩)
    (hm : x.units m = some ⟨key', lock', .opened d'⟩) : key' ≠ key := by
  rintro rfl
  exact hne (h.exclusive hm hn)

theorem bounded_step (h : x.Orderly) (hs : Step x a x') : x'.memory.locks.Bounded := by
  cases hs with
  | stay => exact h.bounded
  | lookup => exact h.bounded.lookup _ _
  | ask => exact h.bounded.change _ _
  | enter => exact h.bounded
  | create => exact h.bounded
  | write => exact h.bounded
  | commit => exact h.bounded.change _ _
  | drop => exact h.bounded.change _ _
  | store _ hlocks => exact hlocks ▸ h.bounded

/-- Nobody's standing is taken away by another one's action. -/
theorem stands_step (h : x.Orderly) (hs : Step x a x') (m : Nat) (u : UnitOfWork)
    (hu : x'.units m = some u) : x'.memory.locks.Stands u.key u.lock m u.stage.standing := by
  -- either the action is the owner's own, or the owner is not the one who asks or leaves
  cases hs with
  | stay => exact h.stands m u hu
  | @lookup n key hunit =>
    rcases units_setUnit_cases hu with ⟨rfl, heq⟩ | ⟨hm, hu⟩
    · obtain rfl := Option.some.inj heq
      exact KeyLocks.lookup_stands h.bounded key m
    · exact (h.stands m u hu).lookup key n
  | ask hunit =>
    rcases units_setUnit_cases hu with ⟨rfl, heq⟩ | ⟨hm, hu⟩
    · obtain rfl := Option.some.inj heq
      exact (h.stands m _ hunit).ask_self
    · exact (h.stands m u hu).ask hm _
  | enter hunit hholds =>
    rcases units_setUnit_cases hu with ⟨rfl, heq⟩ | ⟨hm, hu⟩
    · obtain rfl := Option.some.inj heq
      exact (h.stands m _ hunit).of_holds hholds
    · exact h.stands m u hu
  | create hunit _ =>
    rcases units_setUnit_cases hu with ⟨rfl, heq⟩ | ⟨hm, hu⟩
    · obtain rfl := Option.some.inj heq
      have hstands := h.stands m _ hunit
      exact hstands
    · exact h.stands m u hu
  | write hunit =>
    rcases units_setUnit_cases hu with ⟨rfl, heq⟩ | ⟨hm, hu⟩
    · obtain rfl := Option.some.inj heq
      have hstands := h.stands m _ hunit
      exact hstands
    · exact h.stands m u hu
  | commit hunit =>
    rcases units_setUnit_cases hu with ⟨rfl, heq⟩ | ⟨hm, hu⟩
    · exact absurd heq (by simp)
    · exact (h.stands m u hu).leave hm _
  | drop hunit =>
    rcases units_setUnit_cases hu with ⟨rfl, heq⟩ | ⟨hm, hu⟩
    · exact absurd heq (by simp)
    · exact (h.stands m u hu).leave hm _
  | store _ hlocks => exact hlocks ▸ h.stands m u hu

/-- An action lets the rows age; a commit may put a transaction of a new key in first. -/
theorem Orderly.ledger_step (h : x.Orderly) (hs : Step x a x') :
    (x.committed a = [] ∧ x.ledger.Ages x'.ledger) ∨
      ∃ t, x.committed a = [t] ∧ x.ledger.refs.find? t.key = none ∧
        (x.ledger.put t).Ages x'.ledger := by
  have hages := hs.ledger
  cases hc : x.committed a with
  | nil =>
    rw [hc] at hages
    exact Or.inl ⟨rfl, hages⟩
  | cons t rest =>
    -- an open unit of work has made one transaction at most
    have hmem : t ∈ x.committed a := by simp [hc]
    obtain ⟨n, key, lock, d, hunit, hcreated⟩ := opened_of_committed hmem
    obtain ⟨hd, hkey, href⟩ := (h.owns n key lock d hunit).singleton (hcreated ▸ hmem)
    rw [hcreated, hd] at hages hc
    obtain ⟨-, rfl⟩ := List.cons.inj hc
    exact Or.inr ⟨t, rfl, hkey ▸ href, hages⟩

theorem wellKeyed_step (h : x.Orderly) (hs : Step x a x') : x'.ledger.WellKeyed := by
  rcases h.ledger_step hs with ⟨-, hages⟩ | ⟨t, -, -, hages⟩
  · exact hages.wellKeyed h.wellKeyed
  · exact hages.wellKeyed (h.wellKeyed.put t)

/-- The key of an open unit of work comes into use by its own commit only. -/
theorem Orderly.refs_of_open (h : x.Orderly) (hs : Step x a x')
    (hold : x.units m = some ⟨key, lock, .opened d⟩)
    (hu : x'.units m = some ⟨key', lock', .opened d'⟩) :
    x'.ledger.refs.find? key = x.ledger.refs.find? key := by
  cases hs with
  | commit hunit =>
    rcases units_setUnit_cases hu with ⟨-, heq⟩ | ⟨hm, -⟩
    · exact absurd heq (by simp)
    · -- the units are of different keys, since each holds the lock of its own
      exact (h.owns _ _ _ _ hunit).refs_find?_commit (h.key_ne hm hunit hold)
  | store _ _ hages => rw [hages.refs]
  | _ => rfl

theorem owns_step (h : x.Orderly) (hs : Step x a x') (ha : a.OwnKey x) (m : Nat) (key : Uuid)
    (lock : Nat) (d : Draft) (hu : x'.units m = some ⟨key, lock, .opened d⟩) :
    d.Owns x'.ledger key := by
  rcases hs.units hu with hold | hnew
  · exact (h.owns m key lock d hold).of_refs (h.refs_of_open hs hold hu)
  · cases hnew with
    | enter => exact Draft.owns_empty _ _
    | create hunit hcreate hledger =>
      rw [hledger]
      exact (h.owns m _ _ _ hunit).create (ha _ hunit) hcreate
    | write hunit hledger =>
      rw [hledger]
      exact (h.owns m _ _ _ hunit).writeStatus _ _

/-- Traffic stays orderly. -/
theorem Orderly.step (h : x.Orderly) (hs : Step x a x') (ha : a.OwnKey x) : x'.Orderly :=
  ⟨bounded_step h hs, stands_step h hs, wellKeyed_step h hs, owns_step h hs ha⟩

/-- What the index knows of a key it knows for good. -/
theorem Orderly.refs_step (h : x.Orderly) (hs : Step x a x') {k : Uuid} {r : String}
    (hk : x.ledger.refs.find? k = some r) : x'.ledger.refs.find? k = some r := by
  rcases h.ledger_step hs with ⟨-, hages⟩ | ⟨t, -, href, hages⟩
  · rw [hages.refs, hk]
  · have hne : t.key ≠ k := by
      rintro rfl
      rw [href] at hk
      exact absurd hk (by simp)
    rw [hages.refs, Ledger.refs_find?_put, if_neg hne, hk]

/-! ### References -/

/-- An open unit of work has made a transaction of a reference. -/
def Makes (x : Traffic) (n : Nat) (r : String) : Prop :=
  ∃ key lock d, x.units n = some ⟨key, lock, .opened d⟩ ∧ ∃ t ∈ d.created, t.reference = r

/-- The references of open units of work are different, not yet in the ledger and among
    the ones that were used so far. -/
structure Apart (x : Traffic) (used : List String) : Prop where
  /-- None of them is in the ledger. -/
  absent : ∀ {n r}, x.Makes n r → x.ledger.find? r = none
  /-- No two units of work have the same. -/
  unique : ∀ {n m r}, x.Makes n r → x.Makes m r → n = m
  /-- They were all used. -/
  used : ∀ {n r}, x.Makes n r → r ∈ used

theorem apart_ofLedger (l : Ledger) : (ofLedger l).Apart [] := by
  have hnone : ∀ n r, ¬ (ofLedger l).Makes n r := by
    rintro n r ⟨key, lock, d, hunit, -⟩
    exact absurd hunit (by simp [ofLedger])
  exact ⟨fun h => absurd h (hnone _ _), fun h => absurd h (hnone _ _),
    fun h => absurd h (hnone _ _)⟩

/-- A unit of work that has made a transaction had made it before, or makes it now. -/
theorem makes_step (hs : Step x a x') {m : Nat} {r : String} (h : x'.Makes m r) :
    x.Makes m r ∨ ∃ new id now t, a = .create m new id now ∧ x.created? a = some t ∧
      t.reference = r ∧ x.ledger.find? r = none := by
  obtain ⟨key, lock, d, hu, t, ht, hr⟩ := h
  rcases hs.units hu with hold | hnew
  · exact Or.inl ⟨key, lock, d, hold, t, ht, hr⟩
  · cases hnew with
    | enter => exact absurd ht (by simp)
    | @create _ _ d₀ _ new id now t₁ hunit hcreate =>
      obtain ⟨ht₁, rfl, -, hfind, -, -⟩ := Draft.create_eq_ok hcreate
      rcases List.mem_append.mp ht with ht | ht
      · exact Or.inl ⟨_, _, d₀, hunit, t, ht, hr⟩
      · right
        rw [List.mem_singleton.mp ht] at hr
        refine ⟨new, id, now, t₁, rfl, by simp [created?, hunit, hcreate, Except.toOption], hr, ?_⟩
        rw [← hr, ht₁]
        exact hfind
    | write hunit =>
      -- a status write leaves the references as they are
      have hmem := List.mem_map_of_mem (f := Transaction.reference) ht
      rw [Draft.map_writeStatus _ (fun _ _ => rfl), hr] at hmem
      obtain ⟨t₀, ht₀, hr₀⟩ := List.mem_map.mp hmem
      exact Or.inl ⟨_, _, _, hunit, t₀, ht₀, hr₀⟩

/-- A reference comes into the ledger only when a transaction of it is committed. -/
theorem Step.find?_eq_none (hs : Step x a x') {r : String} (hr : x.ledger.find? r = none)
    (hc : ∀ t ∈ x.committed a, t.reference ≠ r) : x'.ledger.find? r = none := by
  apply hs.ledger.none
  rw [Ledger.find?_putAll_of_ne hc, hr]

/-- A committed transaction is one that its unit of work had made, and the unit is gone. -/
theorem makes_of_committed (hs : Step x a x') {t : Transaction} (ht : t ∈ x.committed a) :
    ∃ n, x.Makes n t.reference ∧ x'.units n = none := by
  cases hs with
  | @commit n key lock d hunit =>
    rw [committed_commit hunit] at ht
    exact ⟨n, ⟨key, lock, d, hunit, t, ht, rfl⟩, units_setUnit_self _ _ _⟩
  | stay hcommit => exact absurd ht (by simp [committed_eq_nil hcommit])
  | store hcommit => exact absurd ht (by simp [committed_eq_nil hcommit])
  | _ => exact absurd ht (by simp [committed])

/-- Units of work that make different references stay apart. -/
theorem Apart.step {used : List String} (h : x.Apart used) (hs : Step x a x')
    (hnew : ∀ t, x.created? a = some t → t.reference ∉ used) :
    x'.Apart (used ++ (x.created? a).toList.map Transaction.reference) := by
  refine ⟨fun {m r} hm => ?_, fun {m p r} hm hp => ?_, fun {m r} hm => ?_⟩
  · rcases makes_step hs hm with hold | ⟨new, id, now, t, rfl, -, -, hfind⟩
    · apply hs.find?_eq_none (h.absent hold)
      -- whoever commits a transaction of this reference has made it, and is gone
      intro t ht hr
      obtain ⟨n, hn, hgone⟩ := makes_of_committed hs ht
      obtain rfl : n = m := h.unique (hr ▸ hn) hold
      obtain ⟨_, _, _, hu, -⟩ := hm
      rw [hgone] at hu
      exact absurd hu (by simp)
    · -- a transaction is made under a reference that is free, and making commits nothing
      exact hs.find?_eq_none hfind (by simp [committed])
  · rcases makes_step hs hm with hm | ⟨_, _, _, t, ha, hmade, hr, -⟩
    · rcases makes_step hs hp with hp | ⟨_, _, _, t, -, hmade, hr, -⟩
      · exact h.unique hm hp
      · -- a reference that is new is not one that was used
        exact absurd (h.used hm) (hr ▸ hnew t hmade)
    · rcases makes_step hs hp with hp | ⟨_, _, _, _, ha', -⟩
      · exact absurd (h.used hp) (hr ▸ hnew t hmade)
      · rw [ha] at ha'
        exact (Action.create.inj ha').1
  · rcases makes_step hs hm with hm | ⟨_, _, _, t, -, hmade, hr, -⟩
    · exact List.mem_append_left _ (h.used hm)
    · exact List.mem_append_right _ (by simp [hmade, hr])

/-- Units of work that are apart commit nothing under a reference of the ledger. -/
theorem Apart.committed_absent {used : List String} (h : x.Apart used) (hs : Step x a x')
    {t : Transaction} (ht : t ∈ x.committed a) : x.ledger.find? t.reference = none := by
  obtain ⟨n, hn, -⟩ := makes_of_committed hs ht
  exact h.absent hn

/-! ### The ledger -/

/-- An action that commits nothing under a reference of the ledger only adds to it. -/
theorem Orderly.extends_step (h : x.Orderly) (hs : Step x a x')
    (hc : ∀ t ∈ x.committed a, x.ledger.find? t.reference = none) :
    x.ledger.Extends x'.ledger := by
  rcases h.ledger_step hs with ⟨-, hages⟩ | ⟨t, ht, href, hages⟩
  · exact hages.extends
  · have hput : x.ledger.Extends (x.ledger.put t) := Ledger.put_extends href (hc t (by simp [ht]))
    exact hput.trans hages.extends

theorem Orderly.coherent_step (h : x.Orderly) (hl : x.ledger.Coherent) (hs : Step x a x')
    (hc : ∀ t ∈ x.committed a, x.ledger.find? t.reference = none) : x'.ledger.Coherent := by
  rcases h.ledger_step hs with ⟨-, hages⟩ | ⟨t, ht, href, hages⟩
  · exact hages.coherent hl
  · exact hages.coherent (hl.put href (hc t (by simp [ht])))

end TopUp.Store.Traffic
