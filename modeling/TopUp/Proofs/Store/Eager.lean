import TopUp.Proofs.Store.Draft
import TopUp.Store.Basic

/-! # What a unit of work sees of itself

    A unit of work gathers its writes and applies them when it is committed. The same
    asks can be applied to the tables at once (`Ask.apply`). As long as nobody else
    writes, a commit leaves exactly the tables of that eager execution. The answers on
    the way are those of the eager execution too, with one exception: a write on a
    committed row is only queued, and neither a later read nor a later write of the same
    unit looks at the queue (`Blind`).
-/

namespace TopUp.Store

open TopUp.Data

variable {m : Memory} {d d' : Draft} {l : Ledger} {t : Transaction} {r : String} {s : Status}

/-! ### Asks -/

/-- What a unit of work may be asked before it is committed. -/
inductive Ask where
  /-- The transaction of a key. -/
  | read (key : Uuid)
  /-- To make a transaction, with the identity and the time it gets. -/
  | create (new : NewTransaction) (id : Uuid) (now : Int)
  /-- To write a status. -/
  | write (reference : String) (status : Status)

/-- What is answered to an ask. -/
inductive Ask.Answer where
  /-- What a read found. -/
  | found (t? : Option Transaction)
  /-- The transaction that was made, or why it was not. -/
  | made (outcome : Except Failure Transaction)
  /-- Whether a status was taken, or why it could not be written. -/
  | written (outcome : Except Failure Bool)

/-- Makes a transaction in the tables; its key and its reference must be new. -/
def Ledger.create (l : Ledger) (new : NewTransaction) (id : Uuid) (now : Int) :
    Except Failure (Transaction × Ledger) :=
  if l.refs.contains new.key then .error (.duplicate Draft.keyConstraint)
  else if l.rows.contains new.reference then .error (.duplicate Draft.referenceConstraint)
  else .ok (new.opened id now, l.put (new.opened id now))

namespace Ask

/-- What a unit of work answers, and what it has gathered then. -/
def stage (m : Memory) (d : Draft) : Ask → Answer × Draft
  | .read key => (.found (d.byKey? m.ledger key), d)
  | .create new id now =>
    match d.create m.ledger new id now with
    | .ok (t, d') => (.made (.ok t), d')
    | .error cause => (.made (.error cause), d)
  | .write reference status =>
    match m.updateDraft d reference status with
    | .ok (taken, d') => (.written (.ok taken), d')
    | .error cause => (.written (.error cause), d)

/-- What is answered if all is applied to the tables at once, and the tables then. -/
def apply (m : Memory) : Ask → Answer × Memory
  | .read key => (.found (m.ledger.byKey? key), m)
  | .create new id now =>
    match m.ledger.create new id now with
    | .ok (t, ledger) => (.made (.ok t), { m with ledger })
    | .error cause => (.made (.error cause), m)
  | .write reference status =>
    match m.update reference status with
    | .ok (taken, m') => (.written (.ok taken), m')
    | .error cause => (.written (.error cause), m)

/-- What a unit of work has gathered after some asks. -/
def stageAll (m : Memory) (asks : List Ask) (d : Draft := {}) : Draft :=
  asks.foldl (fun d a => (a.stage m d).2) d

/-- The tables after some asks that were applied at once. -/
def applyAll (m : Memory) (asks : List Ask) : Memory :=
  asks.foldl (fun m a => (a.apply m).2) m

end Ask

/-! ### Units of work that fit the tables -/

/-- The statuses queued for a reference, the first one first. -/
def Draft.queued (d : Draft) (r : String) : List Status :=
  (d.updates.filter fun u => u.1 = r).map Prod.snd

theorem Draft.mem_queued : s ∈ d.queued r ↔ (r, s) ∈ d.updates := by
  simp [queued]

/-- A unit of work made transactions under new keys and references only, and it queued
    only writes that the rows of the tables may take. -/
structure Draft.Fits (d : Draft) (l : Ledger) : Prop where
  /-- The keys of what it made are different. -/
  keys : (d.created.map Transaction.key).Nodup
  /-- The references of what it made are different. -/
  references : (d.created.map Transaction.reference).Nodup
  /-- The index does not know the keys of what it made. -/
  unindexed : ∀ t ∈ d.created, l.refs.find? t.key = none
  /-- The tables do not have the references of what it made. -/
  new : ∀ t ∈ d.created, l.find? t.reference = none
  /-- Every queued write was one that a committed row may take. -/
  queued : ∀ {r s}, (r, s) ∈ d.updates → l.mayTake r s = true

theorem Draft.fits_empty (l : Ledger) : ({} : Draft).Fits l := by
  refine ⟨List.nodup_nil, List.nodup_nil, ?_, ?_, ?_⟩
  · intro t ht
    exact absurd ht List.not_mem_nil
  · intro t ht
    exact absurd ht List.not_mem_nil
  · intro r s hu
    exact absurd hu List.not_mem_nil

theorem Draft.Fits.create (h : d.Fits l) {new : NewTransaction} {id : Uuid} {now : Int}
    (hc : d.create l new id now = .ok (t, d')) : d'.Fits l := by
  obtain ⟨rfl, rfl, hkey, href, hkeys, hrefs⟩ := create_eq_ok hc
  refine ⟨?_, ?_, ?_, ?_, h.queued⟩
  · simpa [List.nodup_append, h.keys, NewTransaction.opened] using hkeys
  · simpa [List.nodup_append, h.references, NewTransaction.opened] using hrefs
  · intro t ht
    rcases List.mem_append.mp ht with ht | ht
    · exact h.unindexed t ht
    · rw [List.mem_singleton.mp ht]
      exact hkey
  · intro t ht
    rcases List.mem_append.mp ht with ht | ht
    · exact h.new t ht
    · rw [List.mem_singleton.mp ht]
      exact href

/-- What was made is not committed, so a write that a committed row may take is queued. -/
theorem Draft.Fits.not_created (h : d.Fits l) (hmay : l.mayTake r s = true) :
    d.created.find? (fun t => t.reference = r) = none := by
  obtain ⟨t, ht, -⟩ := Ledger.mayTake_eq_true.mp hmay
  apply List.find?_eq_none.mpr
  intro t' ht' href
  rw [decide_eq_true_eq] at href
  rw [← href, h.new t' ht'] at ht
  exact absurd ht (by simp)

/-- A write is queued if a committed row may take it. -/
theorem Draft.Fits.updates_writeStatus (h : d.Fits l) (r : String) (s : Status) :
    (d.writeStatus l r s).2.updates =
      if l.mayTake r s = true then d.updates ++ [(r, s)] else d.updates := by
  by_cases hmay : l.mayTake r s = true
  · simp [Draft.writeStatus, h.not_created hmay, hmay]
  · rw [if_neg hmay]
    unfold Draft.writeStatus
    split
    · split <;> rfl
    · rw [if_neg hmay]

theorem Draft.Fits.writeStatus (h : d.Fits l) (r : String) (s : Status) :
    (d.writeStatus l r s).2.Fits l := by
  have hkeys := map_writeStatus Transaction.key (fun _ _ => rfl) d l r s
  have hrefs := map_writeStatus Transaction.reference (fun _ _ => rfl) d l r s
  refine ⟨hkeys ▸ h.keys, hrefs ▸ h.references, ?_, ?_, ?_⟩
  · -- the keys are the old ones, and so are the references
    intro t ht
    have hmem : t.key ∈ d.created.map Transaction.key := hkeys ▸ List.mem_map_of_mem ht
    obtain ⟨t', ht', hkey⟩ := List.mem_map.mp hmem
    rw [← hkey]
    exact h.unindexed t' ht'
  · intro t ht
    have hmem : t.reference ∈ d.created.map Transaction.reference :=
      hrefs ▸ List.mem_map_of_mem ht
    obtain ⟨t', ht', href⟩ := List.mem_map.mp hmem
    rw [← href]
    exact h.new t' ht'
  · intro r' s' hu
    rw [h.updates_writeStatus] at hu
    split at hu
    · next hmay =>
      rcases List.mem_append.mp hu with hu | hu
      · exact h.queued hu
      · obtain ⟨rfl, rfl⟩ := by simpa using hu
        exact hmay
    · exact h.queued hu

theorem Draft.Fits.stage (h : d.Fits m.ledger) (a : Ask) : (a.stage m d).2.Fits m.ledger := by
  cases a with
  | read key => exact h
  | create new id now =>
    cases hc : d.create m.ledger new id now with
    | ok made => simpa [Ask.stage, hc] using h.create hc
    | error cause => simpa [Ask.stage, hc] using h
  | write r s =>
    cases hoff : m.readOnly with
    | true => simpa [Ask.stage, Memory.updateDraft, hoff] using h
    | false => simpa [Ask.stage, Memory.updateDraft, hoff] using h.writeStatus r s

theorem Draft.Fits.stageAll (h : d.Fits m.ledger) (asks : List Ask) :
    (Ask.stageAll m asks d).Fits m.ledger := by
  induction asks generalizing d with
  | nil => exact h
  | cons a rest ih => exact ih (h.stage a)

/-! ### The tables of a commit -/

namespace Ledger

/-- A write on one reference leaves the others what they may take. -/
theorem mayTake_writeStatus {r' : String} (h : r ≠ r') (l : Ledger) (s s' : Status) :
    (l.writeStatus r s).2.mayTake r' s' = l.mayTake r' s' := by
  simp [mayTake, find?_writeStatus, h]

/-- Writes on different references may come in either order. -/
theorem writeStatus_comm {r r' : String} (h : r ≠ r') (l : Ledger) (s s' : Status) :
    ((l.writeStatus r s).2.writeStatus r' s').2 = ((l.writeStatus r' s').2.writeStatus r s).2 := by
  have hmay := mayTake_writeStatus h l s s'
  have hmay' := mayTake_writeStatus (Ne.symm h) l s' s
  cases htaken : l.mayTake r s with
  | false =>
    rw [writeStatus_of_refused htaken, writeStatus_of_refused (hmay'.trans htaken)]
  | true =>
    cases htaken' : l.mayTake r' s' with
    | false =>
      rw [writeStatus_of_refused htaken', writeStatus_of_refused (hmay.trans htaken')]
    | true =>
      -- both are taken: each replaces the value of a key that is there
      obtain ⟨t, ht, hcan⟩ := mayTake_eq_true.mp htaken
      obtain ⟨t', ht', hcan'⟩ := mayTake_eq_true.mp htaken'
      have hfind : (l.writeStatus r s).2.find? r' = some t' := by
        simp [find?_writeStatus, h, ht']
      have hfind' : (l.writeStatus r' s').2.find? r = some t := by
        simp [find?_writeStatus, Ne.symm h, ht]
      have hmem : l.rows.find? r ≠ none := by
        rw [show l.rows.find? r = some t from ht]
        simp
      rw [writeStatus_of_taken hfind hcan', writeStatus_of_taken hfind' hcan,
        writeStatus_of_taken ht hcan, writeStatus_of_taken ht' hcan']
      simp [Dict.insert_comm h _ _ hmem]

/-- A transaction may as well be put in after a write on another reference. -/
theorem writeStatus_put (h : t.reference ≠ r) (l : Ledger) (s : Status) :
    ((l.put t).writeStatus r s).2 = (l.writeStatus r s).2.put t := by
  have hfind : (l.put t).find? r = l.find? r := by rw [find?_put, if_neg h]
  cases htaken : l.mayTake r s with
  | false =>
    have htaken' : (l.put t).mayTake r s = false := by rw [← htaken, mayTake, hfind, mayTake]
    rw [writeStatus_of_refused htaken, writeStatus_of_refused htaken']
  | true =>
    obtain ⟨t', ht', hcan⟩ := mayTake_eq_true.mp htaken
    have hmem : l.rows.find? r ≠ none := by
      rw [show l.rows.find? r = some t' from ht']
      simp
    rw [writeStatus_of_taken ht' hcan, writeStatus_of_taken (hfind.trans ht') hcan]
    simp [put, Dict.insert_comm (Ne.symm h) _ _ hmem]

theorem writeStatus_putAll {ts : List Transaction} (h : ∀ t ∈ ts, t.reference ≠ r) (l : Ledger)
    (s : Status) :
    ((ts.foldl put l).writeStatus r s).2 = ts.foldl put (l.writeStatus r s).2 := by
  induction ts generalizing l with
  | nil => rfl
  | cons t rest ih =>
    rw [List.foldl_cons, ih fun t' ht' => h t' (List.mem_cons_of_mem _ ht'),
      writeStatus_put (h t List.mem_cons_self), List.foldl_cons]

/-- A write on a transaction that was just put in is as if it had had that status. -/
theorem writeStatus_put_self (h : t.status.canBecome s = true) (l : Ledger) :
    ((l.put t).writeStatus t.reference s).2 = l.put { t with status := s } := by
  rw [writeStatus_of_taken (find?_put_self l t) h]
  simp [put, Dict.insert_insert]

/-- A transaction with its status replaced is put in as if it was written then. -/
theorem putAll_restate {ts : List Transaction} (hts : (ts.map Transaction.reference).Nodup)
    (ht : ts.find? (fun t => t.reference = r) = some t) (hcan : t.status.canBecome s = true)
    (l : Ledger) :
    (Draft.restate r s ts).foldl put l = ((ts.foldl put l).writeStatus r s).2 := by
  induction ts generalizing l with
  | nil => exact absurd ht (by simp)
  | cons t' rest ih =>
    obtain ⟨hnew, hrest⟩ := List.nodup_cons.mp hts
    by_cases hr : t'.reference = r
    · obtain rfl : t' = t := by simpa [hr] using ht
      have hne : ∀ t ∈ rest, t.reference ≠ r := by
        intro u hu href
        exact hnew (List.mem_map.mpr ⟨u, hu, href.trans hr.symm⟩)
      rw [List.foldl_cons, writeStatus_putAll hne, ← hr, writeStatus_put_self hcan]
      simp [Draft.restate]
    · have ht' : rest.find? (fun t => t.reference = r) = some t := by simpa [hr] using ht
      simpa [Draft.restate, hr] using ih hrest ht' (l.put t')

/-- What is found once transactions are put in. -/
theorem find?_putAll {ts : List Transaction} (hts : (ts.map Transaction.reference).Nodup)
    (l : Ledger) (r : String) :
    (ts.foldl put l).find? r = (ts.find? fun t => t.reference = r).or (l.find? r) := by
  cases hfind : ts.find? fun t => t.reference = r with
  | none => rw [find?_putAll_of_ne (by simpa using hfind), Option.none_or]
  | some t =>
    obtain rfl : t.reference = r := by simpa using List.find?_some hfind
    rw [find?_putAll_of_mem hts (List.mem_of_find?_eq_some hfind), Option.some_or]

/-- What the index knows once transactions are put in. -/
theorem refs_find?_putAll {ts : List Transaction} (hts : (ts.map Transaction.key).Nodup)
    (l : Ledger) (key : Uuid) :
    (ts.foldl put l).refs.find? key =
      ((ts.find? fun t => t.key = key).map Transaction.reference).or (l.refs.find? key) := by
  induction ts generalizing l with
  | nil => simp
  | cons t rest ih =>
    obtain ⟨hnew, hrest⟩ := List.nodup_cons.mp hts
    rw [List.foldl_cons, ih hrest, refs_find?_put]
    by_cases hk : t.key = key
    · have hnone : rest.find? (fun t => t.key = key) = none := by
        apply List.find?_eq_none.mpr
        intro t' ht' hkey
        rw [decide_eq_true_eq] at hkey
        exact hnew (List.mem_map.mpr ⟨t', ht', hkey.trans hk.symm⟩)
      simp [hk, hnone]
    · simp [hk]

/-- A transaction may as well be put in after writes on other references. -/
theorem writeAll_put {us : List (String × Status)} (h : ∀ u ∈ us, t.reference ≠ u.1)
    (l : Ledger) :
    us.foldl (fun l u => (l.writeStatus u.1 u.2).2) (l.put t) =
      (us.foldl (fun l u => (l.writeStatus u.1 u.2).2) l).put t := by
  induction us generalizing l with
  | nil => rfl
  | cons u rest ih =>
    rw [List.foldl_cons, writeStatus_put (h u List.mem_cons_self),
      ih fun u' hu' => h u' (List.mem_cons_of_mem _ hu'), List.foldl_cons]

/-- A write may as well come after writes on other references. -/
theorem writeAll_writeStatus {us : List (String × Status)} (h : ∀ u ∈ us, r ≠ u.1) (l : Ledger)
    (s : Status) :
    us.foldl (fun l u => (l.writeStatus u.1 u.2).2) (l.writeStatus r s).2 =
      ((us.foldl (fun l u => (l.writeStatus u.1 u.2).2) l).writeStatus r s).2 := by
  induction us generalizing l with
  | nil => rfl
  | cons u rest ih =>
    rw [List.foldl_cons, writeStatus_comm (h u List.mem_cons_self),
      ih fun u' hu' => h u' (List.mem_cons_of_mem _ hu'), List.foldl_cons]

end Ledger

namespace Draft.Fits

/-- Nothing is queued for a reference that the tables do not have. -/
theorem queued_of_none (h : d.Fits l) (hr : l.find? r = none) {u : String × Status}
    (hu : u ∈ d.updates) : r ≠ u.1 := by
  rintro rfl
  obtain ⟨t, ht, -⟩ := Ledger.mayTake_eq_true.mp (h.queued hu)
  rw [hr] at ht
  exact absurd ht (by simp)

/-- What a reference leads to after a commit. -/
theorem find?_commit (h : d.Fits l) (r : String) :
    (d.commit l).find? r = (d.created.find? fun t => t.reference = r).or
      ((l.find? r).map fun t => { t with status := t.status.after (d.queued r) }) := by
  unfold commit
  rw [Ledger.find?_writeAll, Ledger.find?_putAll h.references]
  cases hfind : d.created.find? fun t => t.reference = r with
  | none => rw [Option.none_or, Option.none_or, Draft.queued]
  | some t =>
    obtain rfl : t.reference = r := by simpa using List.find?_some hfind
    have hnone : (d.updates.filter fun u => u.1 = t.reference) = [] := by
      apply List.filter_eq_nil_iff.mpr
      intro u hu heq
      exact h.queued_of_none (h.new t (List.mem_of_find?_eq_some hfind)) hu
        (of_decide_eq_true heq).symm
    simp [hnone]

/-- What the index knows after a commit. -/
theorem refs_find?_commit (h : d.Fits l) (key : Uuid) :
    (d.commit l).refs.find? key =
      ((d.created.find? fun t => t.key = key).map Transaction.reference).or
        (l.refs.find? key) := by
  -- the writes leave the index alone
  rw [(d.commit_ages l).refs, Ledger.refs_find?_putAll h.keys]

/-! ### Making a transaction -/

/-- A unit of work makes a transaction if the tables after its commit would, and the same
    one. -/
theorem create_commit (h : d.Fits l) (new : NewTransaction) (id : Uuid) (now : Int) :
    (d.commit l).create new id now =
      (d.create l new id now).map fun x => (x.1, x.2.commit l) := by
  have hkey : (d.commit l).refs.contains new.key =
      (l.refs.contains new.key || d.created.any fun t => t.key = new.key) := by
    rw [Bool.eq_iff_iff]
    simp [Dict.contains, h.refs_find?_commit, List.find?_isSome, or_comm]
  have href : (d.commit l).rows.contains new.reference =
      (l.rows.contains new.reference || d.created.any fun t => t.reference = new.reference) := by
    have hfind := h.find?_commit new.reference
    unfold Ledger.find? at hfind
    rw [Bool.eq_iff_iff]
    simp [Dict.contains, hfind, List.find?_isSome, or_comm]
  unfold Ledger.create Draft.create
  rw [hkey, href]
  split
  · rfl
  · split
    · rfl
    · next hused =>
      have hnew : l.find? new.reference = none := by
        simp only [Bool.or_eq_true, not_or, Dict.contains, Bool.not_eq_true,
          Option.isSome_eq_false_iff, Option.isNone_iff_eq_none] at hused
        exact hused.1
      -- nothing is queued for the new reference, so it may be put in before the writes
      have hne : ∀ u ∈ d.updates, (new.opened id now).reference ≠ u.1 := fun u hu =>
        h.queued_of_none hnew hu
      simp [Except.map, commit, Ledger.writeAll_put hne]

/-! ### Writing a status -/

/-- A transaction that was made may take what it may take in the unit of work. -/
theorem mayTake_commit_of_made (h : d.Fits l)
    (ht : d.created.find? (fun t => t.reference = r) = some t) (s : Status) :
    (d.commit l).mayTake r s = t.status.canBecome s := by
  simp [Ledger.mayTake, h.find?_commit, ht]

/-- A committed row may take a status after the commit if it may take it now and no
    terminal status is queued for it. -/
theorem mayTake_commit (h : d.Fits l)
    (hmade : d.created.find? (fun t => t.reference = r) = none) (s : Status) :
    (d.commit l).mayTake r s = true ↔
      l.mayTake r s = true ∧ ¬ ∃ s' ∈ d.queued r, s'.isTerminal = true := by
  have hrow := h.find?_commit r
  rw [hmade, Option.none_or] at hrow
  unfold Ledger.mayTake
  rw [hrow]
  cases l.find? r with
  | none => simp
  | some t =>
    cases hterm : t.status.isTerminal with
    | true => simp [Status.after_of_isTerminal hterm, Status.canBecome_eq_false_of_isTerminal hterm]
    | false =>
      rw [← Status.after_isTerminal hterm]
      simp [Status.canBecome_eq_true, hterm, and_comm]

/-- The tables after a commit are those that the writes make at once. -/
theorem commit_writeStatus (h : d.Fits l) (r : String) (s : Status) :
    (d.writeStatus l r s).2.commit l = ((d.commit l).writeStatus r s).2 := by
  cases hmade : d.created.find? fun t => t.reference = r with
  | some t =>
    -- the unit of work made the row and restates it; what is queued is about other rows
    have hmay := h.mayTake_commit_of_made hmade s
    obtain rfl : t.reference = r := by simpa using List.find?_some hmade
    have hne : ∀ u ∈ d.updates, t.reference ≠ u.1 := fun u hu =>
      h.queued_of_none (h.new t (List.mem_of_find?_eq_some hmade)) hu
    by_cases hcan : t.status.canBecome s = true
    · have hrestate := Ledger.putAll_restate h.references hmade hcan l
      simp only [Draft.writeStatus, hmade, hcan, if_true, commit, hrestate,
        Ledger.writeAll_writeStatus hne]
    · rw [Bool.not_eq_true] at hcan
      rw [Ledger.writeStatus_of_refused (hmay.trans hcan)]
      simp [Draft.writeStatus, hmade, hcan]
  | none =>
    cases hmay : l.mayTake r s with
    | true => simp [Draft.writeStatus, hmade, hmay, commit]
    | false =>
      -- what a row may not take now it may not take later either
      have hlater : (d.commit l).mayTake r s = false := by
        rw [← Bool.not_eq_true, h.mayTake_commit hmade, hmay]
        simp
      rw [Ledger.writeStatus_of_refused hlater]
      simp [Draft.writeStatus, hmade, hmay]

/-- A unit of work answers a write as the tables after its commit would, unless a terminal
    status is queued for a committed row that may take the new one. -/
theorem taken_iff (h : d.Fits l) (r : String) (s : Status) :
    (d.writeStatus l r s).1 = ((d.commit l).writeStatus r s).1 ↔
      ¬ (l.mayTake r s = true ∧ ∃ s' ∈ d.queued r, s'.isTerminal = true) := by
  rw [Ledger.writeStatus_fst]
  cases hmade : d.created.find? fun t => t.reference = r with
  | some t =>
    have hmay := h.mayTake_commit_of_made hmade s
    have hold : l.mayTake r s = false := by
      cases hold : l.mayTake r s with
      | false => rfl
      | true =>
        rw [h.not_created hold] at hmade
        exact absurd hmade (by simp)
    rw [hmay, hold]
    by_cases hcan : t.status.canBecome s = true <;> simp [Draft.writeStatus, hmade, hcan]
  | none =>
    have hlater := h.mayTake_commit hmade s
    have hnow : (d.writeStatus l r s).1 = l.mayTake r s := by
      by_cases hmay : l.mayTake r s = true <;> simp [Draft.writeStatus, hmade, hmay]
    rw [hnow, Bool.eq_iff_iff, hlater, iff_self_and, not_and]

/-! ### Reading -/

/-- Of what was made each is found under its reference after a commit. -/
theorem find?_commit_of_made (h : d.Fits l) (ht : t ∈ d.created) :
    (d.commit l).find? t.reference = some t := by
  have hfind := Ledger.find?_putAll_of_mem (l := {}) h.references ht
  rw [Ledger.find?_putAll h.references] at hfind
  have hempty : ({} : Ledger).find? t.reference = none := rfl
  rw [hempty, Option.or_none] at hfind
  rw [h.find?_commit, hfind, Option.some_or]

/-- A unit of work reads by key what the tables after its commit have, unless the index
    leads to a reference that leads elsewhere then. -/
theorem byKey?_commit (h : d.Fits l) (key : Uuid) :
    d.byKey? l key = (d.commit l).byKey? key ↔
      ∀ r, l.refs.find? key = some r → (d.commit l).find? r = l.find? r := by
  unfold Draft.byKey? Ledger.byKey?
  rw [h.refs_find?_commit]
  cases hmade : d.created.find? fun t => t.key = key with
  | some t =>
    -- the index does not know its key, so the condition is empty
    obtain rfl : t.key = key := by simpa using List.find?_some hmade
    have hmem := List.mem_of_find?_eq_some hmade
    simp [h.find?_commit_of_made hmem, h.unindexed t hmem]
  | none =>
    cases hrefs : l.refs.find? key with
    | none => simp
    | some r => simp [eq_comm]

/-- What a commit changes under a reference. -/
theorem find?_commit_ne (h : d.Fits l) (r : String) :
    (d.commit l).find? r ≠ l.find? r ↔
      (∃ t s, l.find? r = some t ∧ s ∈ d.queued r ∧ s ≠ t.status) ∨
        ∃ t ∈ d.created, t.reference = r := by
  cases hmade : d.created.find? fun t => t.reference = r with
  | some t =>
    have hmem := List.mem_of_find?_eq_some hmade
    obtain rfl : t.reference = r := by simpa using List.find?_some hmade
    have hne : (d.commit l).find? t.reference ≠ l.find? t.reference := by
      rw [h.find?_commit_of_made hmem, h.new t hmem]
      simp
    exact iff_of_true hne (Or.inr ⟨t, hmem, rfl⟩)
  | none =>
    have hnone : ¬ ∃ t ∈ d.created, t.reference = r := by simpa using hmade
    rw [h.find?_commit, hmade, Option.none_or, or_iff_left hnone]
    cases hrow : l.find? r with
    | none => simp
    | some t =>
      -- every queued status was one that the row may take
      have hcan : ∀ s ∈ d.queued r, t.status.canBecome s = true := by
        intro s hs
        simpa [Ledger.mayTake, hrow] using h.queued (mem_queued.mp hs)
      have hsame : some { t with status := t.status.after (d.queued r) } = some t ↔
          t.status.after (d.queued r) = t.status := by
        constructor
        · intro heq
          exact congrArg Transaction.status (Option.some.inj heq)
        · intro heq
          rw [heq]
      rw [Option.map_some, ne_eq, hsame, Status.after_eq_self hcan]
      simp

end Draft.Fits

/-! ### Units of work against eager execution -/

namespace Ask

/-- The tables of a commit follow the eager execution ask by ask. -/
theorem commit_stage (h : d.Fits m.ledger) (a : Ask) :
    m.commit (a.stage m d).2 = (a.apply (m.commit d)).2 := by
  cases a with
  | read key => rfl
  | create new id now =>
    have hcreate := h.create_commit new id now
    cases hc : d.create m.ledger new id now with
    | ok made => simp_all [stage, apply, Memory.commit, Except.map]
    | error cause => simp_all [stage, apply, Memory.commit, Except.map]
  | write r s =>
    have hwrite := h.commit_writeStatus r s
    cases hoff : m.readOnly with
    | true => simp [stage, apply, Memory.updateDraft, Memory.update, Memory.commit, hoff]
    | false => simp [stage, apply, Memory.updateDraft, Memory.update, Memory.commit, hoff, hwrite]

theorem commit_stageAll (h : d.Fits m.ledger) (asks : List Ask) :
    m.commit (stageAll m asks d) = applyAll (m.commit d) asks := by
  induction asks generalizing d with
  | nil => rfl
  | cons a rest ih =>
    show m.commit (stageAll m rest (a.stage m d).2) = applyAll (a.apply (m.commit d)).2 rest
    rw [ih (h.stage a), commit_stage h]

end Ask

/-- Whether a unit of work was told that a status will be written on a committed row. -/
def Queued (m : Memory) (asks : List Ask) (r : String) (s : Status) : Prop :=
  m.readOnly = false ∧ m.ledger.mayTake r s = true ∧ Ask.write r s ∈ asks

/-- Whether an ask comes too early: its answer depends on what the unit of work has
    gathered and does not look at. -/
def Blind (m : Memory) (asks : List Ask) : Ask → Prop
  | .read key =>
    -- the row of the key is to change, or the unit made a row that the index led nowhere for
    ∃ r, m.ledger.refs.find? key = some r ∧
      ((∃ t s, m.ledger.find? r = some t ∧ Queued m asks r s ∧ s ≠ t.status) ∨
        ∃ t ∈ (Ask.stageAll m asks).created, t.reference = r)
  | .create _ _ _ => False
  | .write r s =>
    -- the committed row may take the status, but is to be settled
    m.readOnly = false ∧ m.ledger.mayTake r s = true ∧
      ∃ s', Queued m asks r s' ∧ s'.isTerminal = true

/-- What one more ask puts into the queue. -/
theorem Ask.mem_updates_stage (h : d.Fits m.ledger) (a : Ask) :
    (r, s) ∈ (a.stage m d).2.updates ↔ (r, s) ∈ d.updates ∨ Queued m [a] r s := by
  cases a with
  | read key => simp [stage, Queued]
  | create new id now =>
    cases hc : d.create m.ledger new id now with
    | ok made =>
      obtain ⟨t, d'⟩ := made
      obtain ⟨-, rfl, -⟩ := Draft.create_eq_ok hc
      simp [stage, hc, Queued]
    | error cause => simp [stage, hc, Queued]
  | write r' s' =>
    cases hoff : m.readOnly with
    | true => simp [stage, Memory.updateDraft, hoff, Queued]
    | false =>
      have hupdates := h.updates_writeStatus r' s'
      by_cases hmay : m.ledger.mayTake r' s' = true
      · rw [if_pos hmay] at hupdates
        simp only [stage, Memory.updateDraft, hoff, Queued, Bool.false_eq_true, if_false, hupdates,
          List.mem_append, List.mem_singleton, Prod.mk.injEq, Ask.write.injEq, true_and]
        constructor
        · rintro (hold | ⟨rfl, rfl⟩)
          · exact Or.inl hold
          · exact Or.inr ⟨hmay, rfl, rfl⟩
        · rintro (hold | ⟨-, rfl, rfl⟩)
          · exact Or.inl hold
          · exact Or.inr ⟨rfl, rfl⟩
      · rw [if_neg hmay] at hupdates
        simp only [stage, Memory.updateDraft, hoff, Queued, Bool.false_eq_true, if_false, hupdates,
          List.mem_singleton, Ask.write.injEq, true_and]
        constructor
        · intro hold
          exact Or.inl hold
        · rintro (hold | ⟨hmay', rfl, rfl⟩)
          · exact hold
          · exact absurd hmay' hmay

/-- The queue of a unit of work holds the writes on committed rows that it said will be
    written. -/
theorem Ask.mem_updates_stageAll (h : d.Fits m.ledger) (asks : List Ask) :
    (r, s) ∈ (stageAll m asks d).updates ↔ (r, s) ∈ d.updates ∨ Queued m asks r s := by
  induction asks generalizing d with
  | nil => simp [stageAll, Queued]
  | cons a rest ih =>
    show (r, s) ∈ (stageAll m rest (a.stage m d).2).updates ↔ _
    rw [ih (h.stage a), mem_updates_stage h a, or_assoc]
    have hcons : Queued m [a] r s ∨ Queued m rest r s ↔ Queued m (a :: rest) r s := by
      unfold Queued
      rw [← and_or_left, ← and_or_left, List.mem_singleton, List.mem_cons]
    rw [hcons]

/-- A unit of work behaves as if every ask were applied to the tables at once, but for the
    asks that come too early: whatever it is asked and however often, its commit leaves the
    tables of the eager execution, its drop leaves the tables as they were, and an ask is
    answered as by those tables exactly if it is not blind. -/
theorem eager_unless_blind (m : Memory) (asks : List Ask) :
    m.commit (Ask.stageAll m asks) = Ask.applyAll m asks ∧
      (∀ (s : Store) (lock owner : Nat), s.memory = m →
        (s.leaveLock lock owner).memory.ledger = m.ledger) ∧
      ∀ a : Ask, (a.stage m (Ask.stageAll m asks)).1 = (a.apply (Ask.applyAll m asks)).1 ↔
        ¬ Blind m asks a := by
  have hfits : (Ask.stageAll m asks).Fits m.ledger := (Draft.fits_empty m.ledger).stageAll asks
  have hcommit : m.commit (Ask.stageAll m asks) = Ask.applyAll m asks :=
    Ask.commit_stageAll (Draft.fits_empty m.ledger) asks
  have hqueued : ∀ r s, s ∈ (Ask.stageAll m asks).queued r ↔ Queued m asks r s := by
    intro r s
    rw [Draft.mem_queued, Ask.mem_updates_stageAll (Draft.fits_empty m.ledger)]
    simp
  refine ⟨hcommit, ?_, ?_⟩
  · rintro s lock owner rfl
    rfl
  rw [← hcommit]
  intro a
  cases a with
  | read key =>
    have hread := hfits.byKey?_commit key
    simp only [Ask.stage, Ask.apply, Memory.commit, Ask.Answer.found.injEq, Blind, hread]
    simp only [← hqueued, ← hfits.find?_commit_ne]
    simp
  | create new id now =>
    have hcreate := hfits.create_commit new id now
    simp only [Ask.stage, Ask.apply, Memory.commit, hcreate, Blind, not_false_eq_true, iff_true]
    cases (Ask.stageAll m asks).create m.ledger new id now with
    | ok made => simp [Except.map]
    | error cause => simp [Except.map]
  | write r s =>
    have htaken := hfits.taken_iff r s
    cases hoff : m.readOnly with
    | true =>
      simp [Ask.stage, Ask.apply, Memory.updateDraft, Memory.update, Memory.commit, Blind, hoff]
    | false =>
      simp only [hqueued] at htaken
      simpa [Ask.stage, Ask.apply, Memory.updateDraft, Memory.update, Memory.commit, Blind, hoff]
        using htaken

/-- A pending wallet payment. -/
def waitingRow : Transaction :=
  { id := .ofNat 9
    user := .ofNat 7
    key := .ofNat 1
    billReference := "B1"
    reference := "T1"
    method := .wallet
    amount := 50000
    status := .pending
    polling := false
    createdAt := 0 }

/-- A unit of work that settles a committed row says that it will settle it again, and
    still reads it as pending. -/
theorem settled_row_still_open :
    let m : Memory := { ledger := ({} : Ledger).put waitingRow }
    let asks := [Ask.write "T1" .success]
    ((Ask.write "T1" .failed).stage m (Ask.stageAll m asks)).1 = .written (.ok true) ∧
      ((Ask.write "T1" .failed).apply (Ask.applyAll m asks)).1 = .written (.ok false) ∧
      ((Ask.read (.ofNat 1)).stage m (Ask.stageAll m asks)).1 = .found (some waitingRow) ∧
      ((Ask.read (.ofNat 1)).apply (Ask.applyAll m asks)).1 =
        .found (some { waitingRow with status := .success }) := by
  refine ⟨rfl, rfl, rfl, rfl⟩

end TopUp.Store
