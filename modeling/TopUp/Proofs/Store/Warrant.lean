import TopUp.Proofs.Store.Draft
import TopUp.Proofs.Store.Traffic

/-! # Warrants for statuses

    A warrant says which status a reference may have. If every status write of the
    traffic on a store has a warrant, and a transaction may be pending without one, then
    the statuses of all rows have a warrant, as have those that open units of work are
    to put in (`Traffic.Warranted.step`): a store makes no status up.
-/

namespace TopUp.Store

variable {P : String → Status → Prop}

/-- The statuses of all rows have a warrant. -/
def Ledger.Warranted (P : String → Status → Prop) (l : Ledger) : Prop :=
  ∀ r t, l.find? r = some t → P r t.status

/-- The statuses that a unit of work is to put in have a warrant. -/
structure Draft.Warranted (P : String → Status → Prop) (d : Draft) : Prop where
  /-- Those of the transactions that it made. -/
  created : ∀ t ∈ d.created, P t.reference t.status
  /-- Those that it is to write. -/
  updates : ∀ w ∈ d.updates, P w.1 w.2

namespace Ledger

variable {l : Ledger} {t : Transaction}

theorem Warranted.put (h : l.Warranted P) (ht : P t.reference t.status) :
    (l.put t).Warranted P := by
  intro r t' ht'
  rw [find?_put] at ht'
  split at ht'
  · next hr =>
    obtain rfl := Option.some.inj ht'
    exact hr ▸ ht
  · exact h r t' ht'

theorem Warranted.writeStatus (h : l.Warranted P) {r : String} {s : Status} (hs : P r s) :
    (l.writeStatus r s).2.Warranted P := by
  intro r' t ht
  rcases find?_writeStatus_cases ht with hold | ⟨rfl, rfl⟩
  · exact h r' t hold
  · exact hs

theorem Warranted.putAll {ts : List Transaction} (h : l.Warranted P)
    (hts : ∀ t ∈ ts, P t.reference t.status) : (ts.foldl Ledger.put l).Warranted P := by
  induction ts generalizing l with
  | nil => exact h
  | cons t rest ih => exact ih (h.put (hts t (by simp))) fun t' ht' => hts t' (by simp [ht'])

theorem Warranted.writeAll {ws : List (String × Status)} (h : l.Warranted P)
    (hws : ∀ w ∈ ws, P w.1 w.2) :
    (ws.foldl (fun l w => (l.writeStatus w.1 w.2).2) l).Warranted P := by
  induction ws generalizing l with
  | nil => exact h
  | cons w rest ih =>
    exact ih (h.writeStatus (hws w (by simp))) fun w' hw' => hws w' (by simp [hw'])

theorem Warranted.commit (h : l.Warranted P) {d : Draft} (hd : d.Warranted P) :
    (d.commit l).Warranted P :=
  (h.putAll hd.created).writeAll hd.updates

end Ledger

namespace Draft

variable {d d' : Draft} {l : Ledger} {t : Transaction}

theorem warranted_empty : ({} : Draft).Warranted P := ⟨by simp, by simp⟩

theorem warranted_restate {r : String} {s : Status} (hs : P r s) {ts : List Transaction}
    (h : ∀ t ∈ ts, P t.reference t.status) :
    ∀ t ∈ restate r s ts, P t.reference t.status := by
  induction ts with
  | nil => simp [restate]
  | cons t rest ih =>
    intro t' ht'
    unfold restate at ht'
    split at ht'
    · next hr =>
      rcases List.mem_cons.mp ht' with rfl | hrest
      · exact hr ▸ hs
      · exact h t' (by simp [hrest])
    · rcases List.mem_cons.mp ht' with rfl | hrest
      · exact h t' (by simp)
      · exact ih (fun t ht => h t (by simp [ht])) t' hrest

theorem Warranted.create (h : d.Warranted P) (hpending : ∀ r, P r .pending)
    {new : NewTransaction} {id : Uuid} {now : Int} (hc : d.create l new id now = .ok (t, d')) :
    d'.Warranted P := by
  obtain ⟨rfl, rfl, -⟩ := create_eq_ok hc
  refine ⟨fun t ht => ?_, h.updates⟩
  rcases List.mem_append.mp ht with ht | ht
  · exact h.created t ht
  · rw [List.mem_singleton.mp ht]
    exact hpending _

theorem Warranted.writeStatus (h : d.Warranted P) (l : Ledger) {r : String} {s : Status}
    (hs : P r s) : (d.writeStatus l r s).2.Warranted P := by
  unfold Draft.writeStatus
  split
  · split
    · exact ⟨warranted_restate hs h.created, h.updates⟩
    · exact h
  · split
    · refine ⟨h.created, fun w hw => ?_⟩
      rcases List.mem_append.mp hw with hw | hw
      · exact h.updates w hw
      · rw [List.mem_singleton.mp hw]
        exact hs
    · exact h

end Draft

namespace Traffic

variable {x x' : Traffic} {a : Action}

/-- The status write that an action asks for. -/
def Action.written? : Action → Option (String × Status)
  | .write _ r s | .update r s => some (r, s)
  | _ => none

/-- All statuses on a store have a warrant. -/
structure Warranted (P : String → Status → Prop) (x : Traffic) : Prop where
  /-- Those of the rows. -/
  ledger : x.ledger.Warranted P
  /-- Those that open units of work are to put in. -/
  drafts : ∀ n key lock d, x.units n = some ⟨key, lock, .opened d⟩ → d.Warranted P

theorem warranted_ofLedger (P : String → Status → Prop) : (ofLedger {}).Warranted P :=
  ⟨fun r t h => absurd h (by simp [ofLedger, Ledger.find?]),
    fun _ _ _ _ h => absurd h (by simp [ofLedger])⟩

theorem Warranted.mono {Q : String → Status → Prop} (h : x.Warranted P)
    (hPQ : ∀ r s, P r s → Q r s) : x.Warranted Q := by
  refine ⟨fun r t ht => hPQ _ _ (h.ledger r t ht), fun n key lock d hu => ?_⟩
  have hd := h.drafts n key lock d hu
  exact ⟨fun t ht => hPQ _ _ (hd.created t ht), fun w hw => hPQ _ _ (hd.updates w hw)⟩

/-- A store makes no status up. -/
theorem Warranted.step (h : x.Warranted P) (hpending : ∀ r, P r .pending)
    (hw : ∀ r s, a.written? = some (r, s) → P r s) (hs : Step x a x') : x'.Warranted P := by
  refine ⟨?_, fun m key lock d hu => ?_⟩
  · -- the rows change by commits and by writes on the store itself
    cases hs with
    | commit hunit => exact h.ledger.commit (h.drafts _ _ _ _ hunit)
    | store _ _ _ hstatus =>
      intro r t ht
      rcases hstatus r t ht with ⟨t', ht', hsame⟩ | rfl
      · exact hsame ▸ h.ledger r t' ht'
      · exact hw r t.status rfl
    | _ => exact h.ledger
  · rcases hs.units hu with hold | hnew
    · exact h.drafts m key lock d hold
    · cases hnew with
      | enter => exact Draft.warranted_empty
      | create hunit hcreate => exact (h.drafts m _ _ _ hunit).create hpending hcreate
      | write hunit => exact (h.drafts m _ _ _ hunit).writeStatus _ (hw _ _ rfl)

end Traffic

end TopUp.Store
