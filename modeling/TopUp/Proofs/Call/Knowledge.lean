import TopUp.Proofs.Call.Initiation

/-! # What an initiation knows

    In each of its phases an initiation knows something of the ledger and of its own
    unit of work (`Initiation.Phase.Knows`): which transaction the key has, what was
    made, what is to be written. The receipt that it is about to give out is that of the
    transaction of the key, and a terminal status on it is either stored already, or
    made with the transaction, or still to be written by the commit.

    A step of its own leads from one piece of knowledge to the next (`Move.knows`).
    Steps of others do not take it away, as long as the ledger only grows
    (`Knows.extends`).
-/

namespace TopUp

open TopUp.Gateway TopUp.Store

/-- A receipt is of a transaction. -/
structure Receipt.Of (r : Receipt) (t : Transaction) : Prop where
  /-- It has its identifier. -/
  id : r.id = t.id
  /-- It has its reference. -/
  reference : r.reference = t.reference
  /-- It has its amount. -/
  amount : r.amount = t.amount

/-- A terminal status of a receipt is that of a transaction. -/
def Receipt.Tells (r : Receipt) (t : Transaction) : Prop :=
  r.status.isTerminal = true → t.status = r.status

/-- A key has a transaction that was seen before. -/
def Store.Ledger.Shows (l : Ledger) (key : Uuid) (t : Transaction) : Prop :=
  ∃ t', l.byKey? key = some t' ∧ t.Becomes t'

/-- What is known of a unit of work that is to be committed and then reported by a receipt:
    it made the transaction, or wrote nothing, or is to write the status. -/
inductive Store.Draft.Backs (d : Draft) (l : Ledger) (key : Uuid) (r : Receipt) : Prop where
  /-- The transaction was made with the status. -/
  | made {t : Transaction} (hd : d = { created := [t] }) (hof : r.Of t) (htells : r.Tells t)
  /-- The transaction is stored with the status. -/
  | stored {t : Transaction} (hd : d = {}) (hkey : l.byKey? key = some t) (hof : r.Of t)
      (htells : r.Tells t)
  /-- The status is to be written. -/
  | staged {t : Transaction} (hd : d = { updates := [(r.reference, r.status)] })
      (hkey : l.byKey? key = some t) (hof : r.Of t) (hterm : r.status.isTerminal = true)

/-- What an initiation of a key knows in a phase. -/
def Initiation.Phase.Knows (l : Ledger) (key : Uuid) : Initiation.Phase → Prop
  | .opening | .entering _ | .queued _ | .declined _ _ | .done (.error _) => True
  | .reading w | .creating w => w.draft = {}
  | .inquiring w t => w.draft = {} ∧ l.Shows key t
  | .amending w t status _ => w.draft = {} ∧ l.Shows key t ∧ status.isTerminal = true
  | .rereading w t _ =>
    w.draft = {} ∧ ∃ t', l.byKey? key = some t' ∧ t.Becomes t' ∧ t'.status.isTerminal = true
  | .submitting w t request =>
    w.draft = { created := [t] } ∧ t.status = .pending ∧ request.reference = t.reference
  | .recording w t status _ =>
    w.draft = { created := [t] } ∧ t.status = .pending ∧ status ≠ .pending
  | .committing w r attend _ =>
    w.draft.Backs l key r ∧ (attend.isSome = true → r.status.isTerminal = false)
  | .attending r _ _ => r.status.isTerminal = false ∧ ∃ t, l.byKey? key = some t ∧ r.Of t
  | .done (.ok r) => ∃ t, l.byKey? key = some t ∧ r.Of t

namespace Initiation

variable {l l' : Ledger} {key : Uuid} {t t' : Transaction} {r : Receipt} {d : Draft}

/-! ### Receipts -/

theorem of_ofTransaction (t : Transaction) (status : Status) (message : String) :
    (Receipt.ofTransaction t status message).Of t := ⟨rfl, rfl, rfl⟩

theorem of_becomes (h : r.Of t) (hb : t.Becomes t') : r.Of t' :=
  ⟨h.id.trans hb.id.symm, h.reference.trans hb.reference.symm, h.amount.trans hb.amount.symm⟩

theorem tells_becomes (h : r.Tells t) (hb : t.Becomes t') : r.Tells t' := by
  intro hterm
  have hstatus : t.status = r.status := h hterm
  rw [hb.status_eq_of_isTerminal (by rw [hstatus, hterm]), hstatus]

/-- A receipt that shows an open status tells nothing. -/
theorem tells_of_open (h : r.status.isTerminal = false) : r.Tells t := by
  intro hterm
  rw [h] at hterm
  exact absurd hterm (by decide)

/-- A receipt with the status of a transaction tells it. -/
theorem tells_ofTransaction {status : Status} (message : String) (h : t'.status = status) :
    (Receipt.ofTransaction t status message).Tells t' := by
  intro hterm
  rw [Receipt.ofTransaction, Status.clientVisible_isTerminal] at hterm
  rw [h]
  exact (Status.clientVisible_of_isTerminal hterm).symm

theorem tells_settled (t : Transaction) : (Receipt.settled t).Tells t := tells_ofTransaction _ rfl

/-- The receipt of a settled transaction as it is stored. -/
theorem stored_of_isTerminal (message : String) (h : t.status.isTerminal = true) :
    Receipt.stored t message = .settled t := by
  simp [Receipt.stored, h]

/-! ### The steps of others -/

theorem Shows.extends (h : l.Shows key t) (hl : l.Extends l') : l'.Shows key t := by
  obtain ⟨t', hkey, hb⟩ := h
  obtain ⟨t'', hkey', hb'⟩ := hl.byKey? hkey
  exact ⟨t'', hkey', hb.trans hb'⟩

theorem Backs.extends (h : d.Backs l key r) (hl : l.Extends l') : d.Backs l' key r := by
  cases h with
  | made hd hof htells => exact .made hd hof htells
  | stored hd hkey hof htells =>
    obtain ⟨t', hkey', hb⟩ := hl.byKey? hkey
    exact .stored hd hkey' (of_becomes hof hb) (tells_becomes htells hb)
  | staged hd hkey hof hterm =>
    obtain ⟨t', hkey', hb⟩ := hl.byKey? hkey
    exact .staged hd hkey' (of_becomes hof hb) hterm

/-- What is known stays known while the ledger grows. -/
theorem Knows.extends {p : Phase} (h : p.Knows l key) (hl : l.Extends l') : p.Knows l' key := by
  have hreceipt : ∀ {r : Receipt}, (∃ t, l.byKey? key = some t ∧ r.Of t) →
      ∃ t, l'.byKey? key = some t ∧ r.Of t := by
    rintro r ⟨t, hkey, hof⟩
    obtain ⟨t', hkey', hb⟩ := hl.byKey? hkey
    exact ⟨t', hkey', of_becomes hof hb⟩
  cases p with
  | opening | entering | queued | declined => trivial
  | reading | creating | submitting | recording => exact h
  | inquiring w t => exact ⟨h.1, Shows.extends h.2 hl⟩
  | amending w t status message => exact ⟨h.1, Shows.extends h.2.1 hl, h.2.2⟩
  | rereading w t message =>
    obtain ⟨hd, t', hkey, hb, hterm⟩ := h
    obtain ⟨t'', hkey', hb'⟩ := hl.byKey? hkey
    exact ⟨hd, t'', hkey', hb.trans hb', by rw [hb'.status_eq_of_isTerminal hterm, hterm]⟩
  | committing w r attend paid => exact ⟨Backs.extends h.1 hl, h.2⟩
  | attending r reference start => exact ⟨h.1, hreceipt h.2⟩
  | done result =>
    cases result with
    | ok r => exact hreceipt h
    | error cause => trivial

/-! ### A step of its own -/

/-- What a commit leaves under the key of its unit of work. -/
theorem Backs.commit (h : d.Backs l key r) (hown : d.Owns l key) :
    ∃ t, (d.commit l).byKey? key = some t ∧ r.Of t := by
  cases h with
  | @made t hd hof htells =>
    obtain ⟨hcreated, hkey, -⟩ := hown.singleton (t := t) (by simp [hd])
    have hages := Draft.commit_ages_of_singleton hcreated l
    have hput : (l.put t).byKey? key = some t := by
      rw [Ledger.byKey?_eq_some]
      exact ⟨t.reference, by rw [Ledger.refs_find?_put, if_pos hkey], Ledger.find?_put_self l t⟩
    obtain ⟨t', hkey', hb⟩ := hages.extends.byKey? hput
    exact ⟨t', hkey', of_becomes hof hb⟩
  | stored hd hkey hof htells =>
    have hages := Draft.commit_ages_of_nil (d := d) (by rw [hd]) l
    obtain ⟨t', hkey', hb⟩ := hages.extends.byKey? hkey
    exact ⟨t', hkey', of_becomes hof hb⟩
  | staged hd hkey hof hterm =>
    have hages := Draft.commit_ages_of_nil (d := d) (by rw [hd]) l
    obtain ⟨t', hkey', hb⟩ := hages.extends.byKey? hkey
    exact ⟨t', hkey', of_becomes hof hb⟩

/-- A status that a unit of work without writes was allowed to write is its only write. -/
theorem staged_of_updateDraft {memory : Memory} {r : String} {status : Status}
    (h : memory.updateDraft {} r status = .ok (true, d)) : d = { updates := [(r, status)] } := by
  unfold Memory.updateDraft at h
  split at h
  · exact absurd h (by simp)
  · rw [Draft.writeStatus_of_nil rfl] at h
    split at h
    · simpa using h.symm
    · exact absurd h (by simp)

/-- A status that such a unit of work was refused would have replaced a terminal one. -/
theorem settled_of_refused {memory : Memory} {status : Status}
    (h : memory.updateDraft {} t.reference status = .ok (false, d))
    (hstatus : status.isTerminal = true) (hfind : memory.ledger.find? t.reference = some t') :
    d = {} ∧ t'.status.isTerminal = true := by
  unfold Memory.updateDraft at h
  split at h
  · exact absurd h (by simp)
  · rw [Draft.writeStatus_of_nil rfl] at h
    split at h
    · exact absurd h (by simp)
    · next hmay =>
      have hd : d = {} := by simpa using h.symm
      refine ⟨hd, Status.isTerminal_of_not_canBecome (Status.ne_pending_of_isTerminal hstatus) ?_⟩
      simpa [Ledger.mayTake, hfind] using hmay

/-- A status that is written on the one transaction a unit of work has made, still
    pending, is the status of that transaction. -/
theorem made_of_updateDraft {memory : Memory} {status : Status} {b : Bool}
    (h : memory.updateDraft { created := [t] } t.reference status = .ok (b, d))
    (ht : t.status = .pending) (hstatus : status ≠ .pending) :
    d = { created := [{ t with status }] } := by
  unfold Memory.updateDraft at h
  split at h
  · exact absurd h (by simp)
  · have hcan : t.status.canBecome status = true := by
      rw [ht]
      exact Status.canBecome_of_open rfl hstatus
    rw [Draft.writeStatus_of_singleton rfl, if_pos hcan] at h
    simp only [Except.ok.injEq, Prod.mk.injEq] at h
    exact h.2.symm

/-- The row of a transaction that the key was seen to have. -/
theorem Shows.row (h : l.Shows key t) (hl : l.Coherent) :
    ∃ t', l.byKey? key = some t' ∧ t.Becomes t' ∧ l.find? t.reference = some t' := by
  obtain ⟨t', hkey, hb⟩ := h
  refine ⟨t', hkey, hb, ?_⟩
  rw [← hb.reference]
  exact (hl.of_byKey? hkey).2

/-- What an initiation knows after a step of its own. -/
theorem Move.knows {c : CallSettings} {page : CardPage} {m : Moment} {me : Nat} {s s' : Scene}
    {i : Initiation} {e : Event} {a : Traffic.Action} {p : Phase}
    (h : Move c page m me s i e a s' p) (hl : s.store.memory.ledger.Coherent)
    (hown : ∀ w, i.phase.work? = some w → w.draft.Owns s.store.memory.ledger i.request.key)
    (hk : i.phase.Knows s.store.memory.ledger i.request.key) :
    p.Knows s'.store.memory.ledger i.request.key := by
  cases h with
  | lookup _ => trivial
  | ask _ => trivial
  | enter _ _ => exact rfl
  | settled hp hfind ht =>
    rw [hp] at hk
    rw [show _ = ({} : Draft) from hk] at hfind
    exact ⟨.stored hk hfind (of_ofTransaction _ _ _) (tells_settled _), by simp⟩
  | @inquire w t hp hfind ht =>
    rw [hp] at hk
    rw [show _ = ({} : Draft) from hk] at hfind
    exact ⟨hk, t, hfind, .refl t⟩
  | fresh hp _ =>
    rw [hp] at hk
    exact hk
  | @inquired w t o hp =>
    rw [hp] at hk
    obtain ⟨hd, hshows⟩ := hk
    -- terminal, too old, or still open: only the last one is reported at once
    unfold afterInquiry
    split
    · next hterm => exact ⟨hd, hshows, hterm⟩
    · split
      · exact ⟨hd, hshows, rfl⟩
      · obtain ⟨t', hkey, hb⟩ := hshows
        exact ⟨.stored hd hkey (of_becomes (of_ofTransaction _ _ _) hb) (tells_of_open rfl),
          fun _ => rfl⟩
  | @amended w t status message d hp hw =>
    -- the write was accepted, so it is staged and the commit is to carry it out
    rw [hp] at hk
    obtain ⟨hd, ⟨t', hkey, hb⟩, hterm⟩ := hk
    rw [hd] at hw
    have hvisible := Status.clientVisible_of_isTerminal hterm
    refine ⟨.staged ?_ hkey (of_becomes (of_ofTransaction _ _ _) hb) ?_, by simp⟩
    · rw [staged_of_updateDraft hw, Receipt.ofTransaction, hvisible]
    · rw [Receipt.ofTransaction, hvisible, hterm]
  | @refused w t status message d hp hw =>
    -- the write was refused, so the row has settled already
    rw [hp] at hk
    obtain ⟨hd, hshows, hterm⟩ := hk
    rw [hd] at hw
    obtain ⟨t', hkey, hb, hfind⟩ := Shows.row hshows hl
    obtain ⟨hd', hterm'⟩ := settled_of_refused hw hterm hfind
    exact ⟨hd', t', hkey, hb, hterm'⟩
  | @reread w t current message hp hfind =>
    rw [hp] at hk
    obtain ⟨hd, t', hkey, hb, hterm⟩ := hk
    -- the row of the reference is the transaction of the key
    obtain ⟨t'', hkey', hb', hfind'⟩ := Shows.row ⟨t', hkey, hb⟩ hl
    obtain rfl : t' = t'' := by simpa [hkey] using hkey'
    obtain rfl : current = t' := by simpa [hfind] using hfind'
    rw [stored_of_isTerminal message hterm]
    exact ⟨.stored hd hkey (of_ofTransaction _ _ _) (tells_settled _), by simp⟩
  | vanished _ _ => trivial
  | @create w t d hp hc =>
    rw [hp] at hk
    obtain ⟨ht, hd, -⟩ := Draft.create_eq_ok hc
    have hpending : t.status = .pending := by rw [ht]; rfl
    have hcreated : d = { created := [t] } := by
      rw [hd, show w.draft = {} from hk]
      rfl
    rcases afterCreation_cases c page m.wall i.wallet { w with draft := d } t with
      ⟨-, _, hreference, hnext⟩ | ⟨-, ⟨_, hnext⟩ | ⟨_, _, -, -, hnext⟩⟩
    · rw [hnext]
      exact ⟨hcreated, hpending, hreference⟩
    · rw [hnext]
      exact ⟨.made hcreated ⟨rfl, rfl, rfl⟩ (tells_of_open rfl), by simp⟩
    · rw [hnext]
      trivial
  | uncreated _ _ => trivial
  | declined _ => trivial
  | @debited w t r o hp ho =>
    rw [hp] at hk
    rw [ho]
    exact ⟨.made hk.1 (of_ofTransaction _ _ _) (tells_of_open rfl), fun _ => rfl⟩
  | @record w t r o hp ho =>
    rw [hp] at hk
    exact ⟨hk.1, hk.2.1, ho⟩
  | @recorded w t status message b d hp hw =>
    -- the transaction is the unit's own, so the status goes into the draft itself
    rw [hp] at hk
    obtain ⟨hd, hpending, hstatus⟩ := hk
    rw [hd] at hw
    refine ⟨.made (made_of_updateDraft hw hpending hstatus) ⟨rfl, rfl, rfl⟩
      (tells_ofTransaction message rfl), fun hattend => ?_⟩
    rw [Receipt.ofTransaction, Status.clientVisible_isTerminal]
    cases hterm : status.isTerminal with
    | false => rfl
    | true => exact absurd hattend (by simp [hterm])
  | unanswered _ => trivial
  | unwritten _ => trivial
  | @commit w r attend paid hp =>
    rw [hp] at hk
    have hrow := Backs.commit hk.1 (hown w (by rw [hp]; rfl))
    cases attend with
    | none => exact hrow
    | some reference => exact ⟨hk.2 rfl, hrow⟩
  | @attend r reference start start' supervisor store hp hs =>
    -- marking the row for its poll loop only lets it age
    rw [hp] at hk
    have hact := hs.act (u := fun _ => none)
    have hages : s.store.memory.ledger.Ages store.memory.ledger :=
      (Traffic.step_of_act hact).ages (by cases start <;> simp [Poll.Start.storeAction])
    exact Knows.extends (p := .attending r reference start') hk hages.extends
  | attended hp =>
    rw [hp] at hk
    exact hk.2

end Initiation

end TopUp
