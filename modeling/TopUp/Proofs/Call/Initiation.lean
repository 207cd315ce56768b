import TopUp.Call.Initiation
import TopUp.Proofs.Checks
import TopUp.Proofs.Poll.Steps
import TopUp.Proofs.Store.Orderly
import TopUp.Proofs.Store.Warrant

/-! # What an initiation can do

    An initiation has a unit of work from the moment it looks the lock of its key up
    until it is committed or dropped (`Initiation.unit?`). `Initiation.Move` lists once
    what one step of an initiation can do over a store without faults: what the step
    does on the store as an action of the store's traffic, the scene that it leaves and
    the phase that comes next.
-/

namespace TopUp

open TopUp.Gateway TopUp.Store

/-- Exactly a card payment is valid without a wallet. -/
theorem Request.validate_eq_ok {r : Request} {w : Option Wallet} (h : r.validate = .ok w) :
    w = none ↔ r.method = .card := by
  unfold validate at h
  obtain ⟨_, -, h⟩ := bind_eq_ok.mp h
  cases hm : r.method with
  | card =>
    simp only [hm] at h
    simp [← pure_eq_ok.mp h]
  | wallet =>
    simp only [hm] at h
    obtain ⟨known, -, h⟩ := bind_eq_ok.mp h
    simp [← pure_eq_ok.mp h]

namespace Initiation

/-- The unit of work that is open in a phase. -/
def Phase.work? : Phase → Option Work
  | .reading w | .inquiring w _ | .amending w _ _ _ | .rereading w _ _ | .creating w
  | .declined w _ | .submitting w _ _ | .recording w _ _ _ | .committing w _ _ _ => some w
  | .opening | .entering _ | .queued _ | .attending _ _ _ | .done _ => none

/-- The unit of work of an initiation, open or on its way. -/
def unit? (i : Initiation) : Option UnitOfWork :=
  match i.phase with
  | .entering lock => some ⟨i.request.key, lock, .entering⟩
  | .queued lock => some ⟨i.request.key, lock, .queued⟩
  | p => p.work?.map fun w => ⟨i.request.key, w.lock, .opened w.draft⟩

/-- The transaction that the next step makes and submits to the gateway: with that step
    the wallet debit begins or the card page is asked for a redirect. -/
def made? (c : CallSettings) (m : Moment) (s : Store) (i : Initiation) : Option Transaction :=
  match i.phase with
  | .creating w => (s.createDraft w.draft (newTransaction c m i) m.id m.wall).toOption.map Prod.fst
  | _ => none

/-- The transactions that the next step commits. -/
def committed (i : Initiation) : List Transaction :=
  match i.phase with
  | .committing w _ _ _ => w.draft.created
  | _ => []

/-- The status write that the next step asks for. -/
def written? (i : Initiation) : Option (String × Status) :=
  match i.phase with
  | .amending _ t status _ | .recording _ t status _ => some (t.reference, status)
  | _ => none

/-- The phase after a unit of work was committed. -/
def afterCommit (receipt : Receipt) : Option String → Phase
  | some reference => .attending receipt reference .checking
  | none => .done (.ok receipt)

/-- A scene with another store in memory. -/
def Scene.withMemory (s : Scene) (memory : Memory) : Scene :=
  { s with store := { s.store with memory } }

/-- What one step of the call of number `me` can do over a store without faults. -/
inductive Move (c : CallSettings) (page : CardPage) (m : Moment) (me : Nat) (s : Scene)
    (i : Initiation) : Event → Traffic.Action → Scene → Phase → Prop where
  /-- The lock of the key is looked up. -/
  | lookup (hp : i.phase = .opening) :
      Move c page m me s i .turn (.lookup me i.request.key)
        (s.withMemory { s.store.memory with
          locks := (s.store.memory.locks.lookup i.request.key me).2 })
        (.entering (s.store.memory.locks.lookup i.request.key me).1)
  /-- The lock is asked for. -/
  | ask {lock : Nat} (hp : i.phase = .entering lock) :
      Move c page m me s i .turn (.ask me)
        (s.withMemory { s.store.memory with locks := s.store.memory.locks.ask lock me })
        (.queued lock)
  /-- The lock was handed over. -/
  | enter {lock : Nat} (hp : i.phase = .queued lock)
      (hholds : s.store.memory.locks.holds lock me = true) :
      Move c page m me s i .turn (.enter me) s (.reading ⟨lock, {}⟩)
  /-- A settled transaction of the key was found. -/
  | settled {w : Work} {t : Transaction} (hp : i.phase = .reading w)
      (hfind : w.draft.byKey? s.store.memory.ledger i.request.key = some t)
      (ht : t.status.isTerminal = true) :
      Move c page m me s i .turn .read s (.committing w (.settled t) none none)
  /-- An open transaction of the key was found. -/
  | inquire {w : Work} {t : Transaction} (hp : i.phase = .reading w)
      (hfind : w.draft.byKey? s.store.memory.ledger i.request.key = some t)
      (ht : t.status.isTerminal = false) :
      Move c page m me s i .turn .read s (.inquiring w t)
  /-- No transaction of the key was found. -/
  | fresh {w : Work} (hp : i.phase = .reading w)
      (hfind : w.draft.byKey? s.store.memory.ledger i.request.key = none) :
      Move c page m me s i .turn .read s (.creating w)
  /-- The inquiry was answered. -/
  | inquired {w : Work} {t : Transaction} {o : Outcome} (hp : i.phase = .inquiring w t) :
      Move c page m me s i (.answer (.ok o)) .read s (afterInquiry c m.wall w t o)
  /-- The terminal status of an inquiry was accepted. -/
  | amended {w : Work} {t : Transaction} {status : Status} {message : String} {d : Draft}
      (hp : i.phase = .amending w t status message)
      (hw : s.store.memory.updateDraft w.draft t.reference status = .ok (true, d)) :
      Move c page m me s i .turn (.write me t.reference status) s
        (.committing { w with draft := d } (.ofTransaction t status message) none none)
  /-- It was refused. -/
  | refused {w : Work} {t : Transaction} {status : Status} {message : String} {d : Draft}
      (hp : i.phase = .amending w t status message)
      (hw : s.store.memory.updateDraft w.draft t.reference status = .ok (false, d)) :
      Move c page m me s i .turn (.write me t.reference status) s
        (.rereading { w with draft := d } t message)
  /-- The transaction was read again. -/
  | reread {w : Work} {t current : Transaction} {message : String}
      (hp : i.phase = .rereading w t message)
      (hfind : s.store.memory.ledger.find? t.reference = some current) :
      Move c page m me s i .turn .read s (.committing w (.stored current message) none none)
  /-- The transaction was not found again. -/
  | vanished {w : Work} {t : Transaction} {message : String} {cause : Call.Failure}
      (hp : i.phase = .rereading w t message)
      (hfind : s.store.memory.ledger.find? t.reference = none) :
      Move c page m me s i .turn (.drop me) (abandon me s w cause).1 (abandon me s w cause).2
  /-- A transaction was made and is submitted. -/
  | create {w : Work} {t : Transaction} {d : Draft} (hp : i.phase = .creating w)
      (hc : w.draft.create s.store.memory.ledger (newTransaction c m i) m.id m.wall = .ok (t, d)) :
      Move c page m me s i .turn (.create me (newTransaction c m i) m.id m.wall) s
        (afterCreation c page m.wall i.wallet { w with draft := d } t)
  /-- No transaction could be made. -/
  | uncreated {w : Work} {cause : Store.Failure} (hp : i.phase = .creating w)
      (hc : w.draft.create s.store.memory.ledger (newTransaction c m i) m.id m.wall =
        .error cause) :
      Move c page m me s i .turn (.drop me) (abandon me s w (.store cause)).1
        (abandon me s w (.store cause)).2
  /-- The payment was declined. -/
  | declined {w : Work} {cause : Gateway.Failure} (hp : i.phase = .declined w cause) :
      Move c page m me s i .turn (.drop me) (abandon me s w (.gateway cause)).1
        (abandon me s w (.gateway cause)).2
  /-- The debit was answered and its outcome needs no writing. -/
  | debited {w : Work} {t : Transaction} {r : WalletRequest} {o : Outcome}
      (hp : i.phase = .submitting w t r) (ho : o.status = .pending) :
      Move c page m me s i (.answer (.ok o)) .read s (afterDebit w t o.status o.message)
  /-- The debit was answered and its outcome is to be written. -/
  | record {w : Work} {t : Transaction} {r : WalletRequest} {o : Outcome}
      (hp : i.phase = .submitting w t r) (ho : o.status ≠ .pending) :
      Move c page m me s i (.answer (.ok o)) .read s (.recording w t o.status o.message)
  /-- The outcome of the debit was written. -/
  | recorded {w : Work} {t : Transaction} {status : Status} {message : String} {b : Bool}
      {d : Draft} (hp : i.phase = .recording w t status message)
      (hw : s.store.memory.updateDraft w.draft t.reference status = .ok (b, d)) :
      Move c page m me s i .turn (.write me t.reference status) s
        (afterDebit { w with draft := d } t status message)
  /-- The gateway failed. -/
  | unanswered {w : Work} {cause : Gateway.Failure}
      (hp : (∃ t, i.phase = .inquiring w t) ∨ ∃ t r, i.phase = .submitting w t r) :
      Move c page m me s i (.answer (.error cause)) (.drop me)
        (abandon me s w (.gateway cause)).1 (abandon me s w (.gateway cause)).2
  /-- A status could not be written. -/
  | unwritten {w : Work} {t : Transaction} {status : Status} {message : String}
      {cause : Call.Failure}
      (hp : i.phase = .amending w t status message ∨ i.phase = .recording w t status message) :
      Move c page m me s i .turn (.drop me) (abandon me s w cause).1 (abandon me s w cause).2
  /-- The unit of work was committed. -/
  | commit {w : Work} {receipt : Receipt} {attend paid : Option String}
      (hp : i.phase = .committing w receipt attend paid) :
      Move c page m me s i .turn (.commit me)
        (s.withMemory { s.store.memory.commit w.draft with
          locks := s.store.memory.locks.leave w.lock me })
        (afterCommit receipt attend)
  /-- The start of a poll loop took a step. -/
  | attend {receipt : Receipt} {r : String} {start start' : Poll.Start}
      {supervisor : Poll.Supervisor} {store : Store}
      (hp : i.phase = .attending receipt r start)
      (hs : Poll.Start.Move r s.supervisor s.store start supervisor store start') :
      Move c page m me s i .turn (start.storeAction r) ⟨store, supervisor⟩
        (.attending receipt r start')
  /-- The start of a poll loop is over. -/
  | attended {receipt : Receipt} {r : String} {started : Bool}
      (hp : i.phase = .attending receipt r (.done started)) :
      Move c page m me s i .turn .read s (.done (.ok receipt))

/-- Everything that a step does is in the list. -/
theorem move_of_step {c : CallSettings} {page : CardPage} {m : Moment} {me : Nat} {s s' : Scene}
    {i : Initiation} {e : Event} {p : Phase} (hf : s.store.faults = [])
    (h : i.step c page m me e s = some (s', p)) : ∃ a, Move c page m me s i e a s' p := by
  obtain ⟨user, request, wallet, phase⟩ := i
  -- a phase takes its turn or an answer, never both
  cases phase with
  | opening =>
    cases e with
    | turn =>
      simp only [step, lookupLock_of_faults hf, Option.some.injEq, Prod.mk.injEq] at h
      obtain ⟨rfl, rfl⟩ := h
      exact ⟨_, .lookup rfl⟩
    | _ => exact absurd h (by simp [step])
  | entering lock =>
    cases e with
    | turn =>
      simp only [step, Option.some.injEq, Prod.mk.injEq] at h
      obtain ⟨rfl, rfl⟩ := h
      exact ⟨_, .ask rfl⟩
    | _ => exact absurd h (by simp [step])
  | queued lock =>
    cases e with
    | turn =>
      simp only [step] at h
      split at h
      · next hholds =>
        simp only [Option.some.injEq, Prod.mk.injEq] at h
        obtain ⟨rfl, rfl⟩ := h
        exact ⟨_, .enter rfl hholds⟩
      · exact absurd h (by simp)
    | _ => exact absurd h (by simp [step])
  | reading w =>
    cases e with
    | turn =>
      simp only [step, readDraft_of_faults hf] at h
      cases hfind : w.draft.byKey? s.store.memory.ledger request.key with
      | none =>
        simp only [hfind, Option.some.injEq, Prod.mk.injEq] at h
        obtain ⟨rfl, rfl⟩ := h
        exact ⟨_, .fresh rfl hfind⟩
      | some t =>
        simp only [hfind] at h
        split at h
        · next ht =>
          simp only [Option.some.injEq, Prod.mk.injEq] at h
          obtain ⟨rfl, rfl⟩ := h
          exact ⟨_, .settled rfl hfind ht⟩
        · next ht =>
          simp only [Option.some.injEq, Prod.mk.injEq] at h
          obtain ⟨rfl, rfl⟩ := h
          exact ⟨_, .inquire rfl hfind (by simpa using ht)⟩
    | _ => exact absurd h (by simp [step])
  | inquiring w t =>
    cases e with
    | answer result =>
      cases result with
      | ok o =>
        simp only [step, Option.some.injEq, Prod.mk.injEq] at h
        obtain ⟨rfl, rfl⟩ := h
        exact ⟨_, .inquired rfl⟩
      | error cause =>
        simp only [step, Option.some.injEq] at h
        obtain ⟨rfl, rfl⟩ := Prod.mk.inj h
        exact ⟨_, .unanswered (Or.inl ⟨t, rfl⟩)⟩
    | _ => exact absurd h (by simp [step])
  | amending w t status message =>
    cases e with
    | turn =>
      simp only [step, updateDraft_of_faults hf] at h
      cases hw : s.store.memory.updateDraft w.draft t.reference status with
      | ok x =>
        obtain ⟨b, d⟩ := x
        cases b with
        | true =>
          simp only [hw, Option.some.injEq, Prod.mk.injEq] at h
          obtain ⟨rfl, rfl⟩ := h
          exact ⟨_, .amended rfl hw⟩
        | false =>
          simp only [hw, Option.some.injEq, Prod.mk.injEq] at h
          obtain ⟨rfl, rfl⟩ := h
          exact ⟨_, .refused rfl hw⟩
      | error cause =>
        simp only [hw, Option.some.injEq] at h
        obtain ⟨rfl, rfl⟩ := Prod.mk.inj h
        exact ⟨_, .unwritten (Or.inl rfl)⟩
    | _ => exact absurd h (by simp [step])
  | rereading w t message =>
    cases e with
    | turn =>
      simp only [step, get_of_faults hf] at h
      cases hfind : s.store.memory.ledger.find? t.reference with
      | some current =>
        simp only [hfind, Option.some.injEq, Prod.mk.injEq] at h
        obtain ⟨rfl, rfl⟩ := h
        exact ⟨_, .reread rfl hfind⟩
      | none =>
        simp only [hfind, Option.some.injEq] at h
        obtain ⟨rfl, rfl⟩ := Prod.mk.inj h
        exact ⟨_, .vanished rfl hfind⟩
    | _ => exact absurd h (by simp [step])
  | creating w =>
    cases e with
    | turn =>
      simp only [step, createDraft_of_faults hf] at h
      split at h
      · next hc =>
        simp only [Option.some.injEq, Prod.mk.injEq] at h
        obtain ⟨rfl, rfl⟩ := h
        exact ⟨_, .create rfl hc⟩
      · next hc =>
        simp only [Option.some.injEq] at h
        obtain ⟨rfl, rfl⟩ := Prod.mk.inj h
        exact ⟨_, .uncreated rfl hc⟩
    | _ => exact absurd h (by simp [step])
  | declined w cause =>
    cases e with
    | turn =>
      simp only [step, Option.some.injEq] at h
      obtain ⟨rfl, rfl⟩ := Prod.mk.inj h
      exact ⟨_, .declined rfl⟩
    | _ => exact absurd h (by simp [step])
  | submitting w t r =>
    cases e with
    | answer result =>
      cases result with
      | ok o =>
        simp only [step] at h
        split at h
        · next ho =>
          simp only [Option.some.injEq, Prod.mk.injEq] at h
          obtain ⟨rfl, rfl⟩ := h
          exact ⟨_, .debited rfl ho⟩
        · next ho =>
          simp only [Option.some.injEq, Prod.mk.injEq] at h
          obtain ⟨rfl, rfl⟩ := h
          exact ⟨_, .record rfl ho⟩
      | error cause =>
        simp only [step, Option.some.injEq] at h
        obtain ⟨rfl, rfl⟩ := Prod.mk.inj h
        exact ⟨_, .unanswered (Or.inr ⟨t, r, rfl⟩)⟩
    | _ => exact absurd h (by simp [step])
  | recording w t status message =>
    cases e with
    | turn =>
      simp only [step, updateDraft_of_faults hf] at h
      cases hw : s.store.memory.updateDraft w.draft t.reference status with
      | ok x =>
        simp only [hw, Option.some.injEq, Prod.mk.injEq] at h
        obtain ⟨rfl, rfl⟩ := h
        exact ⟨_, .recorded rfl hw⟩
      | error cause =>
        simp only [hw, Option.some.injEq] at h
        obtain ⟨rfl, rfl⟩ := Prod.mk.inj h
        exact ⟨_, .unwritten (Or.inr rfl)⟩
    | _ => exact absurd h (by simp [step])
  | committing w receipt attend paid =>
    cases e with
    | turn =>
      simp only [step, commitDraft_of_faults hf, Option.some.injEq, Prod.mk.injEq] at h
      obtain ⟨rfl, rfl⟩ := h
      have hp : (Initiation.mk user request wallet (.committing w receipt attend paid)).phase =
          .committing w receipt attend paid := rfl
      cases attend with
      | none => exact ⟨_, .commit hp⟩
      | some reference => exact ⟨_, .commit hp⟩
    | _ => exact absurd h (by simp [step])
  | attending receipt r start =>
    cases e with
    | turn =>
      cases start with
      | done started =>
        simp only [step, Option.some.injEq, Prod.mk.injEq] at h
        obtain ⟨rfl, rfl⟩ := h
        exact ⟨_, .attended rfl⟩
      | _ =>
        simp only [step] at h
        obtain ⟨⟨supervisor, store, start'⟩, hs, heq⟩ := Option.map_eq_some_iff.mp h
        obtain ⟨rfl, rfl⟩ := Prod.mk.inj heq
        exact ⟨_, .attend rfl (Poll.Start.move_of_step hf hs)⟩
    | _ => exact absurd h (by simp [step])
  | done result => exact absurd h (by cases e <;> simp [step])

/-! ### On the store -/

section

variable {c : CallSettings} {page : CardPage} {m : Moment} {me : Nat} {s s' : Scene}
  {i : Initiation} {e : Event} {a : Traffic.Action} {p : Phase} {w : Work} {t : Transaction}
  {x : Traffic}

theorem unit?_of_work (h : i.phase.work? = some w) :
    i.unit? = some ⟨i.request.key, w.lock, .opened w.draft⟩ := by
  cases hp : i.phase <;> simp_all [unit?, Phase.work?]

theorem unit?_of_work_next (i : Initiation) (h : p.work? = some w) :
    ({ i with phase := p } : Initiation).unit? =
      some ⟨i.request.key, w.lock, .opened w.draft⟩ :=
  unit?_of_work (i := { i with phase := p }) h

theorem work?_afterInquiry (wall : Int) (o : Outcome) :
    (afterInquiry c wall w t o).work? = some w := by
  unfold afterInquiry
  split
  · rfl
  · split <;> rfl

/-- A transaction that was made goes on to its debit, or it is ready for the card page unless
    that declines it. -/
theorem afterCreation_cases (c : CallSettings) (page : CardPage) (wall : Int)
    (wallet : Option Wallet) (w : Work) (t : Transaction) :
    (wallet ≠ none ∧ ∃ request, request.reference = t.reference ∧
      afterCreation c page wall wallet w t = .submitting w t request) ∨
    wallet = none ∧
      ((∃ redirect, afterCreation c page wall wallet w t =
        .committing w { Receipt.ofTransaction t .pending Receipt.goOnByCard with
          redirect := some redirect } none none) ∨
      ∃ card cause, card.amount = t.amount ∧ page card = .error cause ∧
        afterCreation c page wall wallet w t = .declined w cause) := by
  unfold afterCreation
  dsimp only
  split
  · exact .inl ⟨by simp, _, rfl, rfl⟩
  · split
    · exact .inr ⟨rfl, .inl ⟨_, rfl⟩⟩
    · next hpage => exact .inr ⟨rfl, .inr ⟨_, _, rfl, hpage, rfl⟩⟩

theorem work?_afterCreation (wall : Int) (wallet : Option Wallet) :
    (afterCreation c page wall wallet w t).work? = some w := by
  rcases afterCreation_cases c page wall wallet w t with
    ⟨-, _, -, hnext⟩ | ⟨-, ⟨_, hnext⟩ | ⟨_, _, -, -, hnext⟩⟩
  · rw [hnext]; rfl
  · rw [hnext]; rfl
  · rw [hnext]; rfl

/-- Only the card page declines a payment, and only one that is made by card. -/
theorem Move.page_of_declined {cause : Gateway.Failure} (h : Move c page m me s i e a s' p)
    (hp : p = .declined w cause) :
    i.wallet = none ∧ ∃ card, card.amount = i.request.amount ∧ page card = .error cause := by
  cases h with
  | inquired =>
    unfold afterInquiry at hp
    split at hp
    · exact absurd hp (by simp)
    · split at hp <;> exact absurd hp (by simp)
  | @create w' t d _ hc =>
    rcases afterCreation_cases c page m.wall i.wallet { w' with draft := d } t with
      ⟨-, _, -, hnext⟩ | ⟨hwallet, ⟨_, hnext⟩ | ⟨card, _, hamount, hpage, hnext⟩⟩
    · exact absurd (hnext.symm.trans hp) (by simp)
    · exact absurd (hnext.symm.trans hp) (by simp)
    · obtain ⟨-, rfl⟩ := Phase.declined.inj (hnext.symm.trans hp)
      obtain ⟨rfl, -⟩ := Draft.create_eq_ok hc
      exact ⟨hwallet, card, hamount, hpage⟩
  | @commit w' receipt attend paid => cases attend <;> exact absurd hp (by simp [afterCommit])
  | _ => exact absurd hp (by simp [abandon, afterDebit])

theorem unit?_afterCommit (receipt : Receipt) (attend : Option String) :
    ({ i with phase := afterCommit receipt attend } : Initiation).unit? = none := by
  cases attend <;> rfl

/-- A step that leaves the store alone keeps the unit of work as it is. -/
theorem read_act (hx : x.units me = i.unit?) (hw : i.phase.work? = some w)
    (hw' : p.work? = some w) :
    Traffic.act .read x = some (x.setUnit me ({ i with phase := p } : Initiation).unit?) := by
  have hunit : ({ i with phase := p } : Initiation).unit? = x.units me := by
    rw [hx, unit?_of_work hw, unit?_of_work_next i hw']
  rw [hunit, Traffic.setUnit_units]
  rfl

/-- Dropping an open unit of work gives its lock up. -/
theorem drop_act (cause : Call.Failure) (hm : x.memory = s.store.memory)
    (hx : x.units me = i.unit?) (hw : i.phase.work? = some w) :
    Traffic.act (.drop me) x =
      some (({ x with memory := (abandon me s w cause).1.store.memory }).setUnit me
        ({ i with phase := (abandon me s w cause).2 } : Initiation).unit?) := by
  rw [unit?_of_work hw] at hx
  simp [Traffic.act, hx, Traffic.setLocks, abandon, Store.leaveLock, hm, unit?, Phase.work?]

/-- A status write of an open unit of work that was accepted or refused. -/
theorem write_act {r : String} {status : Status} {b : Bool} {d : Draft}
    (hm : x.memory = s.store.memory) (hx : x.units me = i.unit?)
    (hw : i.phase.work? = some w) (hw' : p.work? = some { w with draft := d })
    (hwrite : s.store.memory.updateDraft w.draft r status = .ok (b, d)) :
    Traffic.act (.write me r status) x =
      some (x.setUnit me ({ i with phase := p } : Initiation).unit?) := by
  rw [unit?_of_work hw] at hx
  rw [unit?_of_work_next i hw']
  simp [Traffic.act, hx, hm, hwrite]

/-- A move is an action of the traffic on the store. -/
theorem Move.act (h : Move c page m me s i e a s' p) (hm : x.memory = s.store.memory)
    (hx : x.units me = i.unit?) :
    Traffic.act a x = some (({ x with memory := s'.store.memory }).setUnit me
      ({ i with phase := p } : Initiation).unit?) := by
  -- most moves change the unit of work only; `hsame` lets the memory drop out of them
  have hsame : ({ x with memory := s.store.memory } : Traffic) = x := by rw [← hm]
  cases h with
  | lookup hp =>
    have hunit : x.units me = none := by simp [hx, unit?, hp, Phase.work?]
    simp [Traffic.act, hunit, Traffic.setLocks, Scene.withMemory, hm, unit?]
  | ask hp =>
    have hunit := hx
    rw [unit?, hp] at hunit
    simp [Traffic.act, hunit, Traffic.setLocks, Scene.withMemory, hm, unit?]
  | enter hp hholds =>
    have hunit := hx
    rw [unit?, hp] at hunit
    rw [hsame]
    simp [Traffic.act, hunit, hm, hholds, unit?, Phase.work?]
  | settled hp _ _ =>
    rw [hsame]
    exact read_act hx (by rw [hp]; rfl) rfl
  | inquire hp _ _ =>
    rw [hsame]
    exact read_act hx (by rw [hp]; rfl) rfl
  | fresh hp _ =>
    rw [hsame]
    exact read_act hx (by rw [hp]; rfl) rfl
  | inquired hp =>
    rw [hsame]
    exact read_act hx (by rw [hp]; rfl) (work?_afterInquiry _ _)
  | amended hp hw =>
    rw [hsame]
    exact write_act hm hx (by rw [hp]; rfl) rfl hw
  | refused hp hw =>
    rw [hsame]
    exact write_act hm hx (by rw [hp]; rfl) rfl hw
  | reread hp _ =>
    rw [hsame]
    exact read_act hx (by rw [hp]; rfl) rfl
  | vanished hp _ => exact drop_act _ hm hx (by rw [hp]; rfl)
  | @create w t d hp hc =>
    have hunit := unit?_of_work (i := i) (w := w) (by rw [hp]; rfl)
    rw [← hx] at hunit
    rw [hsame, unit?_of_work_next i (work?_afterCreation _ _)]
    simp [Traffic.act, hunit, Traffic.ledger, hm, hc]
  | uncreated hp _ => exact drop_act _ hm hx (by rw [hp]; rfl)
  | declined hp => exact drop_act _ hm hx (by rw [hp]; rfl)
  | debited hp _ =>
    rw [hsame]
    exact read_act hx (by rw [hp]; rfl) rfl
  | record hp _ =>
    rw [hsame]
    exact read_act hx (by rw [hp]; rfl) rfl
  | recorded hp hw =>
    rw [hsame]
    exact write_act hm hx (by rw [hp]; rfl) rfl hw
  | unanswered hp =>
    refine drop_act _ hm hx ?_
    rcases hp with ⟨_, hp⟩ | ⟨_, _, hp⟩
    · rw [hp]; rfl
    · rw [hp]; rfl
  | unwritten hp =>
    refine drop_act _ hm hx ?_
    rcases hp with hp | hp
    · rw [hp]; rfl
    · rw [hp]; rfl
  | commit hp =>
    have hunit := unit?_of_work (i := i) (by rw [hp]; rfl)
    rw [← hx] at hunit
    rw [unit?_afterCommit]
    simp [Traffic.act, hunit, Traffic.setLocks, Scene.withMemory, hm]
  | @attend receipt r start start' supervisor store hp hs =>
    -- the unit of work is gone by now, so the step is the start's own action on the store
    have hunit : x.units me = none := by simp [hx, unit?, hp, Phase.work?]
    have hnone : ({ i with phase := .attending receipt r start' } : Initiation).unit? = none := rfl
    have hact := hs.act (u := x.units)
    rw [hnone, ← hunit]
    rw [← hm] at hact
    rw [hact]
    exact congrArg some (Traffic.setUnit_units ⟨store.memory, x.units⟩ me).symm
  | attended hp =>
    have hunit : x.units me = none := by simp [hx, unit?, hp, Phase.work?]
    rw [hsame, ← hunit.trans (rfl : none = ({ i with phase := _ } : Initiation).unit?)]
    exact congrArg some (Traffic.setUnit_units x me).symm

theorem Move.faults (h : Move c page m me s i e a s' p) (hf : s.store.faults = []) :
    s'.store.faults = [] := by
  cases h with
  | attend _ hs => exact hs.faults.trans hf
  | _ => exact hf

theorem Move.readOnly (h : Move c page m me s i e a s' p) :
    s'.store.memory.readOnly = s.store.memory.readOnly := by
  cases h with
  | attend _ hs => cases hs <;> rfl
  | _ => rfl

/-- An initiation makes transactions under the key of its request only. -/
theorem Move.ownKey (h : Move c page m me s i e a s' p) (hx : x.units me = i.unit?) :
    a.OwnKey x := by
  cases h with
  | create hp _ =>
    -- the key of the new transaction and that of the unit of work are both the request's
    intro u hu
    rw [Option.mem_def, hx, unit?_of_work (i := i) (by rw [hp]; rfl)] at hu
    obtain rfl := Option.some.inj hu
    rfl
  | @attend _ _ start _ _ _ _ _ => cases start <;> trivial
  | _ => trivial

/-- The transaction that a move makes on the store. -/
theorem Move.created? (h : Move c page m me s i e a s' p) (hf : s.store.faults = [])
    (hm : x.memory = s.store.memory) (hx : x.units me = i.unit?) :
    x.created? a = i.made? c m s.store := by
  cases h with
  | create hp _ =>
    have hunit := unit?_of_work (i := i) (by rw [hp]; rfl)
    rw [← hx] at hunit
    simp [Traffic.created?, hunit, made?, hp, createDraft_of_faults hf, Traffic.ledger, hm]
  | uncreated hp hc =>
    simp [Traffic.created?, made?, hp, createDraft_of_faults hf, hc, Except.toOption]
  | unanswered hp => rcases hp with ⟨_, hp⟩ | ⟨_, _, hp⟩ <;> simp [Traffic.created?, made?, hp]
  | unwritten hp => rcases hp with hp | hp <;> simp [Traffic.created?, made?, hp]
  | @attend _ _ start _ _ _ hp _ =>
    cases start <;> simp [Poll.Start.storeAction, Traffic.created?, made?, hp]
  | lookup hp | ask hp | enter hp | settled hp | inquire hp | fresh hp | inquired hp | amended hp
  | refused hp | reread hp | vanished hp | declined hp | debited hp | record hp | recorded hp
  | commit hp | attended hp => simp [Traffic.created?, made?, hp]

/-- The transactions that a move commits on the store. -/
theorem Move.committed (h : Move c page m me s i e a s' p) (hx : x.units me = i.unit?) :
    x.committed a = i.committed := by
  cases h with
  | commit hp =>
    have hunit := unit?_of_work (i := i) (by rw [hp]; rfl)
    rw [← hx] at hunit
    simp [Traffic.committed, hunit, Initiation.committed, hp]
  | unanswered hp =>
    rcases hp with ⟨_, hp⟩ | ⟨_, _, hp⟩ <;> simp [Traffic.committed, Initiation.committed, hp]
  | unwritten hp =>
    rcases hp with hp | hp <;> simp [Traffic.committed, Initiation.committed, hp]
  | @attend _ _ start _ _ _ hp _ =>
    cases start <;> simp [Poll.Start.storeAction, Traffic.committed, Initiation.committed, hp]
  | lookup hp | ask hp | enter hp | settled hp | inquire hp | fresh hp | inquired hp | amended hp
  | refused hp | reread hp | vanished hp | create hp | uncreated hp | declined hp | debited hp
  | record hp | recorded hp | attended hp => simp [Traffic.committed, Initiation.committed, hp]

/-- A status that a move writes on the store is the one that its phase names. -/
theorem Move.written? (h : Move c page m me s i e a s' p) {w : String × Status}
    (hw : a.written? = some w) : i.written? = some w := by
  cases h with
  | amended hp _ | refused hp _ | recorded hp _ =>
    rw [Initiation.written?, hp]
    exact hw
  | @attend _ _ start _ _ _ _ _ =>
    cases start <;> exact absurd hw (by simp [Poll.Start.storeAction, Traffic.Action.written?])
  | _ => exact absurd hw (by simp [Traffic.Action.written?])

/-- A call leaves the loops as they are, or starts one. -/
theorem Move.loops (h : Move c page m me s i e a s' p) {n : Nat} {x : Poll.Loop}
    (hx : s'.supervisor.loops.find? n = some x) :
    s.supervisor.loops.find? n = some x ∨ x.phase = .fresh := by
  cases h with
  | attend _ hs => exact hs.loops hx
  | _ => exact Or.inl hx

/-- What a call is about to write was said by the gateway, or is the end of a transaction
    that is too old. -/
inductive Heard (c : CallSettings) (wall : Int) (i : Initiation) :
    Event → String → Status → Prop where
  /-- An inquiry was answered. -/
  | inquiry {w : Work} {t : Transaction} {o : Outcome} (hp : i.phase = .inquiring w t) :
      Heard c wall i (.answer (.ok o)) t.reference o.status
  /-- A debit was answered. -/
  | debit {w : Work} {t : Transaction} {r : WalletRequest} {o : Outcome}
      (hp : i.phase = .submitting w t r) : Heard c wall i (.answer (.ok o)) t.reference o.status
  /-- An inquiry was answered, and the transaction is still open. -/
  | tooOld {w : Work} {t : Transaction} {o : Outcome} (hp : i.phase = .inquiring w t)
      (ho : o.status.isTerminal = false) (hold : isTooOld c wall t = true) :
      Heard c wall i (.answer (.ok o)) t.reference .failed

theorem Move.heard (h : Move c page m me s i e a s' p) {w : String × Status}
    (hw : ({ i with phase := p } : Initiation).written? = some w) :
    Heard c m.wall i e w.1 w.2 := by
  cases h with
  | @inquired _ t o hp =>
    unfold Initiation.written? afterInquiry at hw
    by_cases hterm : o.status.isTerminal = true
    · rw [if_pos hterm] at hw
      obtain rfl := Option.some.inj hw
      exact .inquiry hp
    · rw [if_neg hterm] at hw
      by_cases hold : isTooOld c m.wall t = true
      · rw [if_pos hold] at hw
        obtain rfl := Option.some.inj hw
        exact .tooOld hp (by simpa using hterm) hold
      · rw [if_neg hold] at hw
        exact absurd hw (by simp)
  | @create w t d hp hc =>
    rcases afterCreation_cases c page m.wall i.wallet { w with draft := d } t with
      ⟨-, _, -, hnext⟩ | ⟨-, ⟨_, hnext⟩ | ⟨_, _, -, -, hnext⟩⟩
    · exact absurd hw (by simp [Initiation.written?, hnext])
    · exact absurd hw (by simp [Initiation.written?, hnext])
    · exact absurd hw (by simp [Initiation.written?, hnext])
  | record hp ho =>
    obtain rfl := Option.some.inj hw
    exact .debit hp
  | @commit w receipt attend paid hp =>
    cases attend <;> exact absurd hw (by simp [Initiation.written?, afterCommit])
  | _ => exact absurd hw (by simp [Initiation.written?, abandon, afterDebit])

/-- A call makes, commits and writes in its own turn, not when the gateway answers. -/
theorem Move.quiet (h : Move c page m me s i e a s' p) (he : e ≠ .turn) :
    i.made? c m s.store = none ∧ i.committed = [] ∧ i.written? = none := by
  cases h with
  | inquired hp | debited hp | record hp =>
    simp [made?, Initiation.committed, Initiation.written?, hp]
  | unanswered hp =>
    rcases hp with ⟨_, hp⟩ | ⟨_, _, hp⟩
    · simp [made?, Initiation.committed, Initiation.written?, hp]
    · simp [made?, Initiation.committed, Initiation.written?, hp]
  | _ => exact absurd rfl he

end

end Initiation

end TopUp
