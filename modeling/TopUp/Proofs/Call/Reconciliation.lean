import TopUp.Proofs.Call.Alone

/-! # What becomes of a transaction that is found

    A call that finds a transaction under its key does not pay again. What it does about
    the transaction is settled by the stored status, by the one inquiry that it makes about
    an open one, and by the age of the transaction when the inquiry is answered: `Decision`
    lists the cases, and exactly one of them applies. `Leaves` says what a decision leaves
    of the scene. The decision is made in a unit of work and takes effect at its commit;
    `Phase.Stands` says of each phase how much of it is made, written and in effect.
-/

namespace TopUp

open TopUp.Data TopUp.Gateway TopUp.Store

namespace Initiation

/-! ### What a call asks for -/

/-- An inquiry that was answered. -/
structure Reply where
  /-- The reference that the inquiry was about. -/
  reference : String
  /-- The time of the answer, in microseconds since 1970. -/
  wall : Int
  /-- The answer. -/
  answer : Except Gateway.Failure Outcome

/-- The inquiry that a step answers. -/
def reply? (i : Initiation) (m : Moment) : Event → Option Reply
  | .answer answer =>
    match i.phase with
    | .inquiring _ t => some ⟨t.reference, m.wall, answer⟩
    | _ => none
  | _ => none

/-- The reference for which a step asks the supervisor to start a loop. -/
def asked? (i : Initiation) : Option String :=
  match i.phase with
  | .attending _ reference .checking => some reference
  | _ => none

/-- The inquiries of a call that were answered. -/
def replies (tr : List ((Scene × Initiation) × (Moment × Event))) : List Reply :=
  tr.filterMap fun x => x.1.2.reply? x.2.1 x.2.2

/-- The references for which a call asked the supervisor to start a loop. -/
def asked (tr : List ((Scene × Initiation) × (Moment × Event))) : List String :=
  tr.filterMap fun x => x.1.2.asked?

/-! ### The decision -/

/-- What a call does about a transaction that it finds: what it inquires, its result, the
    status that it stores if it stores one, and whether it asks for a poll loop. -/
inductive Decision (c : CallSettings) (t : Transaction) :
    List Reply → Except Call.Failure Receipt → Option Status → Bool → Prop where
  /-- The transaction is settled: nothing is inquired, and the receipt shows what is stored. -/
  | settled (ht : t.status.isTerminal = true) :
      Decision c t [] (.ok (.ofTransaction t t.status
        (if t.status = .success then Receipt.alreadyCompleted else Receipt.alreadyFailed)))
        none false
  /-- The inquiry failed, and so does the call. -/
  | failed {wall : Int} {cause : Gateway.Failure} (ht : t.status.isTerminal = false) :
      Decision c t [⟨t.reference, wall, .error cause⟩] (.error (.gateway cause)) none false
  /-- The gateway settled the transaction. -/
  | learned {wall : Int} {o : Outcome} (ht : t.status.isTerminal = false)
      (ho : o.status.isTerminal = true) :
      Decision c t [⟨t.reference, wall, .ok o⟩] (.ok (.ofTransaction t o.status o.message))
        (some o.status) false
  /-- The transaction is open, and has been for too long. -/
  | expired {wall : Int} {o : Outcome} (ht : t.status.isTerminal = false)
      (ho : o.status.isTerminal = false)
      (hage : c.reconcileSeconds * 1000000 < (wall - t.createdAt).toNat) :
      Decision c t [⟨t.reference, wall, .ok o⟩] (.ok (.ofTransaction t .failed Receipt.tooLate))
        (some .failed) false
  /-- The transaction stays open; a wallet payment is attended to. -/
  | waits {wall : Int} {o : Outcome} (ht : t.status.isTerminal = false)
      (ho : o.status.isTerminal = false)
      (hage : (wall - t.createdAt).toNat ≤ c.reconcileSeconds * 1000000) :
      Decision c t [⟨t.reference, wall, .ok o⟩] (.ok (.ofTransaction t .pending o.message))
        none (t.method = .wallet)

/-- Whether a poll loop that is asked for is started: no shutdown was asked for, no loop
    attends to the transaction, and it bears no mark of one. -/
def Scene.starts (s : Scene) (t : Transaction) : Bool :=
  !(s.supervisor.stopping || s.supervisor.attends t.reference || t.polling)

/-- What a decision leaves of the scene. Only the transaction changes: its status if one is
    stored, its mark if a loop is started. -/
structure Leaves (before : Scene) (t : Transaction) (stored? : Option Status) (loop : Bool)
    (now : Scene) : Prop where
  /-- The index is the same. -/
  refs : now.store.memory.ledger.refs = before.store.memory.ledger.refs
  /-- All other rows are the same. -/
  others : ∀ r, r ≠ t.reference →
    now.store.memory.ledger.find? r = before.store.memory.ledger.find? r
  /-- The row of the transaction. -/
  row : now.store.memory.ledger.find? t.reference =
    some { t with
      status := stored?.getD t.status
      polling := t.polling || (loop && before.starts t) }
  /-- If nothing is stored and no loop is started, nothing changes at all. -/
  unchanged : stored? = none → (loop && before.starts t) = false →
    now.store.memory.ledger = before.store.memory.ledger
  /-- The loops are the same, but for one that is started. -/
  supervisor : now.supervisor =
    if loop && before.starts t then before.supervisor.spawn t.reference else before.supervisor

variable {c : CallSettings} {page : CardPage} {m : Moment} {me : Nat} {before s s' : Scene}
  {i : Initiation} {e : Event} {a : Traffic.Action} {p : Phase} {t : Transaction}
  {request : Request} {user : Uuid} {wallet : Option Wallet} {replies' : List Reply}
  {result : Except Call.Failure Receipt} {stored? : Option Status} {loop : Bool}
  {tr : List ((Scene × Initiation) × (Moment × Event))}

namespace Decision

/-- What is stored settles an open transaction. -/
theorem settles {status : Status} (h : Decision c t replies' result (some status) loop) :
    t.status.isTerminal = false ∧ status.isTerminal = true ∧ loop = false := by
  cases h with
  | learned ht ho => exact ⟨ht, ho, rfl⟩
  | expired ht _ _ => exact ⟨ht, rfl, rfl⟩

/-- A loop is asked for only if nothing is stored. -/
theorem stored?_of_loop (h : Decision c t replies' result stored? true) : stored? = none := by
  generalize hloop : true = b at h
  cases h with
  | waits _ _ _ => rfl
  | settled _ => rfl
  | failed _ => rfl
  -- the two that store a status ask for no loop
  | learned _ _ => exact absurd hloop (by decide)
  | expired _ _ _ => exact absurd hloop (by decide)

end Decision

namespace Leaves

/-- Nothing was stored and no loop started. -/
theorem of_same (hrow : before.store.memory.ledger.find? t.reference = some t)
    (hledger : s.store.memory.ledger = before.store.memory.ledger)
    (hsupervisor : s.supervisor = before.supervisor) (hstart : (loop && before.starts t) = false) :
    Leaves before t none loop s := by
  refine ⟨?_, ?_, ?_, fun _ _ => hledger, ?_⟩
  · rw [hledger]
  · intro r _
    rw [hledger]
  · rw [hledger, hrow, hstart, Bool.or_false]
    rfl
  · rw [hsupervisor, hstart]
    rfl

/-- A status was stored. -/
theorem of_written {status : Status}
    (hrow : before.store.memory.ledger.find? t.reference = some t)
    (ht : t.status.isTerminal = false) (hstatus : status.isTerminal = true)
    (hledger : s.store.memory.ledger =
      (before.store.memory.ledger.writeStatus t.reference status).2)
    (hsupervisor : s.supervisor = before.supervisor) :
    Leaves before t (some status) false s := by
  have hcan := Status.canBecome_of_open ht (Status.ne_pending_of_isTerminal hstatus)
  have hmay : before.store.memory.ledger.mayTake t.reference status = true :=
    Ledger.mayTake_eq_true.mpr ⟨t, hrow, hcan⟩
  refine ⟨?_, ?_, ?_, by simp, by simpa using hsupervisor⟩
  · rw [hledger, (Ledger.writeStatus_ages _ _ _).refs]
  · intro r hr
    rw [hledger, Ledger.find?_writeStatus, if_neg fun h => hr h.1.symm]
  · rw [hledger, Ledger.find?_writeStatus, if_pos ⟨rfl, hmay⟩, hrow]
    simp

/-- A loop was started for a transaction that was marked first. -/
theorem of_started (hrow : before.store.memory.ledger.find? t.reference = some t)
    (hstarts : before.starts t = true)
    (hledger : s.store.memory.ledger = (before.store.memory.ledger.claim t.reference).2)
    (hsupervisor : s.supervisor = before.supervisor.spawn t.reference) :
    Leaves before t none true s := by
  have hpolling : t.polling = false := by
    have := hstarts
    simp only [Scene.starts, Bool.not_eq_true', Bool.or_eq_false_iff] at this
    exact this.2
  have hclaim : (before.store.memory.ledger.claim t.reference).2 =
      before.store.memory.ledger.change t.reference fun t => { t with polling := true } := by
    simp [Ledger.claim, hrow, hpolling]
  rw [hclaim] at hledger
  refine ⟨?_, ?_, ?_, by simp [hstarts], by simpa [hstarts] using hsupervisor⟩
  · rw [hledger, Ledger.refs_change]
  · intro r hr
    rw [hledger, Ledger.find?_change, if_neg (Ne.symm hr)]
  · rw [hledger, Ledger.find?_change, if_pos rfl, hrow]
    simp [hstarts]

end Leaves

/-! ### Where a call stands -/

/-- Where the start of a loop stands for the transaction. -/
def StartStands (before now : Scene) (t : Transaction) (asked' : List String) :
    Poll.Start → Prop
  | .checking =>
    asked' = [] ∧ now.store.memory.ledger = before.store.memory.ledger ∧
      now.supervisor = before.supervisor
  | .claiming =>
    asked' = [t.reference] ∧ now.store.memory.ledger = before.store.memory.ledger ∧
      now.supervisor = before.supervisor ∧ before.supervisor.stopping = false ∧
      before.supervisor.attends t.reference = false
  | .spawning =>
    asked' = [t.reference] ∧
      now.store.memory.ledger = (before.store.memory.ledger.claim t.reference).2 ∧
      now.supervisor = before.supervisor ∧ before.starts t = true
  | .done _ => asked' = [t.reference] ∧ Leaves before t none true now

/-- Where a call stands that finds a transaction: what it has inquired and asked for, and
    what it has decided. -/
def Phase.Stands (c : CallSettings) (t : Transaction) (before now : Scene)
    (replies' : List Reply) (asked' : List String) : Phase → Prop
  | .opening | .entering _ | .queued _ => replies' = [] ∧ asked' = []
  | .reading w => replies' = [] ∧ asked' = [] ∧ w.draft = {}
  | .inquiring w t' =>
    replies' = [] ∧ asked' = [] ∧ w.draft = {} ∧ t' = t ∧ t.status.isTerminal = false
  | .amending w t' status message =>
    asked' = [] ∧ w.draft = {} ∧ t' = t ∧
      Decision c t replies' (.ok (.ofTransaction t status message)) (some status) false
  | .committing w receipt attend _ =>
    asked' = [] ∧ ∃ stored? loop, Decision c t replies' (.ok receipt) stored? loop ∧
      w.draft = { updates := stored?.toList.map fun status => (t.reference, status) } ∧
      attend = if loop = true then some t.reference else none
  | .attending receipt reference start =>
    reference = t.reference ∧ Decision c t replies' (.ok receipt) none true ∧
      StartStands before now t asked' start
  | .done result =>
    ∃ stored? loop, Decision c t replies' result stored? loop ∧
      asked' = (if loop = true then [t.reference] else []) ∧ Leaves before t stored? loop now
  | .rereading _ _ _ | .creating _ | .declined _ _ | .submitting _ _ _ | .recording _ _ _ _ =>
    False

theorem replies_snoc (tr : List ((Scene × Initiation) × (Moment × Event))) :
    replies (tr ++ [((s, i), (m, e))]) = replies tr ++ (i.reply? m e).toList := by
  cases hreply : i.reply? m e <;> simp [replies, hreply]

theorem asked_snoc (tr : List ((Scene × Initiation) × (Moment × Event))) :
    asked (tr ++ [((s, i), (m, e))]) = asked tr ++ i.asked?.toList := by
  cases hasked : i.asked? <;> simp [asked, hasked]

theorem asked?_of_attending {receipt : Receipt} {r : String} {start : Poll.Start}
    (hp : i.phase = .attending receipt r start) :
    i.asked?.toList = if start = .checking then [r] else [] := by
  unfold asked?
  rw [hp]
  cases start <;> rfl

/-- A status write of a call is not refused with a failure while statuses can be written. -/
theorem not_unwritten {w : Work} {status : Status} {message : String}
    (hf : s.store.faults = []) (hwritable : s.store.memory.readOnly = false)
    (hp : i.phase = .amending w t status message) :
    i.step c page m me e s ≠ some (s', .done result) := by
  intro h
  cases e with
  | turn =>
    simp only [step, hp, updateDraft_of_faults hf, Memory.updateDraft, hwritable,
      Bool.false_eq_true, if_false] at h
    split at h
    · simp at h
    · simp at h
    · next hfailed => exact absurd hfailed (by simp)
  | _ => exact absurd h (by simp [step, hp])

/-- After the answer to the inquiry. -/
theorem stands_afterInquiry {w : Work} (hd : w.draft = {}) (ht : t.status.isTerminal = false)
    (wall : Int) (o : Outcome) :
    (afterInquiry c wall w t o).Stands c t before s [⟨t.reference, wall, .ok o⟩] [] := by
  unfold afterInquiry
  split
  · next ho => exact ⟨rfl, hd, rfl, .learned ht ho⟩
  · next ho =>
    rw [Bool.not_eq_true] at ho
    split
    · next hold => exact ⟨rfl, hd, rfl, .expired ht ho (of_decide_eq_true hold)⟩
    · next hold =>
      have hage : (wall - t.createdAt).toNat ≤ c.reconcileSeconds * 1000000 := by
        simpa [isTooOld] using hold
      exact ⟨rfl, none, _, .waits ht ho hage, hd, by simp⟩

/-- A unit of work that has gathered nothing finds the transaction, since nothing has changed. -/
theorem found_of_quiet {d : Draft} {key : Uuid} (hd : d = {})
    (hledger : s.store.memory.ledger = before.store.memory.ledger)
    (hfound : before.store.memory.ledger.byKey? key = some t) :
    d.byKey? s.store.memory.ledger key = some t := by
  rw [hd, hledger]
  simpa [Draft.byKey?] using hfound

/-- After the commit: what was decided is stored, and a loop is still to be asked for. -/
theorem stands_afterCommit {receipt : Receipt}
    (hdecision : Decision c t replies' (.ok receipt) stored? loop)
    (hrow : before.store.memory.ledger.find? t.reference = some t)
    (hledger : s.store.memory.ledger =
      ({ updates := stored?.toList.map fun status => (t.reference, status) } : Draft).commit
        before.store.memory.ledger)
    (hsupervisor : s.supervisor = before.supervisor) :
    (afterCommit receipt (if loop = true then some t.reference else none)).Stands c t before s
      replies' [] := by
  cases loop with
  | true =>
    obtain rfl := hdecision.stored?_of_loop
    exact ⟨rfl, hdecision, rfl, hledger, hsupervisor⟩
  | false =>
    refine ⟨stored?, false, hdecision, rfl, ?_⟩
    cases stored? with
    | none => exact .of_same hrow hledger hsupervisor rfl
    | some status =>
      obtain ⟨hopen, hstatus, -⟩ := hdecision.settles
      exact .of_written hrow hopen hstatus hledger hsupervisor

/-- The start of a loop goes on. -/
theorem StartStands.step {start start' : Poll.Start} {asked' : List String}
    {supervisor : Poll.Supervisor} {store : Store}
    (h : StartStands before s t asked' start)
    (hrow : before.store.memory.ledger.find? t.reference = some t)
    (hs : Poll.Start.Move t.reference s.supervisor s.store start supervisor store start') :
    StartStands before ⟨store, supervisor⟩ t
      (asked' ++ (if start = .checking then [t.reference] else [])) start' := by
  cases hs with
  | refuse hno =>
    obtain ⟨rfl, hledger, hsupervisor⟩ := h
    have hstarts : before.starts t = false := by
      rw [hsupervisor] at hno
      rcases hno with hno | hno <;> simp [Scene.starts, hno]
    exact ⟨rfl, .of_same hrow hledger hsupervisor (by simp [hstarts])⟩
  | pass hstop hattends =>
    obtain ⟨rfl, hledger, hsupervisor⟩ := h
    rw [hsupervisor] at hstop hattends
    exact ⟨rfl, hledger, hsupervisor, hstop, hattends⟩
  | claim hclaim =>
    obtain ⟨rfl, hledger, hsupervisor, hstop, hattends⟩ := h
    have hpolling : t.polling = false := by
      cases hpolling : t.polling with
      | false => rfl
      | true => simp [Memory.claim, Ledger.claim, hledger, hrow, hpolling] at hclaim
    refine ⟨rfl, ?_, hsupervisor, by simp [Scene.starts, hstop, hattends, hpolling]⟩
    show (s.store.memory.claim t.reference).2.ledger = _
    rw [← hledger]
    rfl
  | lose hclaim =>
    -- the row bore a mark already, so marking it again changes nothing
    obtain ⟨rfl, hledger, hsupervisor, -, -⟩ := h
    have hpolling : t.polling = true := by
      cases hpolling : t.polling with
      | true => rfl
      | false => simp [Memory.claim, Ledger.claim, hledger, hrow, hpolling] at hclaim
    refine ⟨rfl, .of_same hrow ?_ hsupervisor (by simp [Scene.starts, hpolling])⟩
    show (s.store.memory.claim t.reference).2.ledger = _
    simp [Memory.claim, Ledger.claim, hledger, hrow, hpolling]
  | spawn =>
    obtain ⟨rfl, hledger, hsupervisor, hstarts⟩ := h
    exact ⟨rfl, .of_started hrow hstarts hledger (by rw [hsupervisor])⟩

/-- A step of a call that nobody else gets in the way of keeps up what its phase says. -/
theorem Move.stands (h : Move c page m me s i e a s' p)
    (hfound : before.store.memory.ledger.byKey? i.request.key = some t)
    (hrow : before.store.memory.ledger.find? t.reference = some t)
    (hwritten : ∀ w t status message cause, i.phase = .amending w t status message →
      p ≠ .done (.error cause))
    (hq : i.phase.booked = false → s.store.memory.ledger = before.store.memory.ledger ∧
      s.supervisor = before.supervisor)
    {asked' : List String} (hk : i.phase.Stands c t before s replies' asked') :
    p.Stands c t before s' (replies' ++ (i.reply? m e).toList) (asked' ++ i.asked?.toList) := by
  cases h with
  | lookup hp | ask hp =>
    rw [hp] at hk
    obtain ⟨rfl, rfl⟩ := hk
    simp [Phase.Stands, reply?, asked?, hp]
  | enter hp _ =>
    rw [hp] at hk
    obtain ⟨rfl, rfl⟩ := hk
    simp [Phase.Stands, reply?, asked?, hp]
  | @settled w t' hp hfind ht =>
    rw [hp] at hk
    obtain ⟨rfl, rfl, hd⟩ := hk
    have hsame := found_of_quiet hd (hq (by rw [hp]; rfl)).1 hfound
    obtain rfl := Option.some.inj (hsame.symm.trans hfind)
    simp only [reply?, asked?, hp]
    exact ⟨rfl, none, false, .settled ht, hd, rfl⟩
  | @inquire w t' hp hfind ht =>
    rw [hp] at hk
    obtain ⟨rfl, rfl, hd⟩ := hk
    have hsame := found_of_quiet hd (hq (by rw [hp]; rfl)).1 hfound
    obtain rfl := Option.some.inj (hsame.symm.trans hfind)
    simp only [reply?, asked?, hp]
    exact ⟨rfl, rfl, hd, rfl, ht⟩
  | @fresh w hp hfind =>
    rw [hp] at hk
    obtain ⟨-, -, hd⟩ := hk
    have hsame := found_of_quiet hd (hq (by rw [hp]; rfl)).1 hfound
    exact absurd (hsame.symm.trans hfind) (by simp)
  | @inquired w t' o hp =>
    rw [hp] at hk
    obtain ⟨rfl, rfl, hd, rfl, ht⟩ := hk
    simp only [reply?, asked?, hp]
    exact stands_afterInquiry hd ht m.wall o
  | @amended w t' status message d hp hw =>
    rw [hp] at hk
    obtain ⟨rfl, hd, rfl, hdecision⟩ := hk
    rw [hd] at hw
    simp only [reply?, asked?, hp, List.append_nil, Option.toList_none]
    exact ⟨rfl, some status, false, hdecision, staged_of_updateDraft hw, rfl⟩
  | @refused w t' status message d hp hw =>
    -- the row is as it was found, and that was open
    rw [hp] at hk
    obtain ⟨rfl, hd, rfl, hdecision⟩ := hk
    obtain ⟨hopen, hstatus, -⟩ := hdecision.settles
    rw [hd] at hw
    have hfind : s.store.memory.ledger.find? t'.reference = some t' := by
      rw [(hq (by rw [hp]; rfl)).1]
      exact hrow
    have hsettled := (settled_of_refused hw hstatus hfind).2
    rw [hopen] at hsettled
    exact absurd hsettled (by decide)
  | unwritten hp =>
    rcases hp with hp | hp
    · exact absurd rfl (hwritten _ _ _ _ _ hp)
    · rw [hp] at hk
      exact hk.elim
  | @unanswered w cause hp =>
    rcases hp with ⟨t', hp⟩ | ⟨t', r, hp⟩
    · obtain ⟨hledger, hsupervisor⟩ := hq (by rw [hp]; rfl)
      rw [hp] at hk
      obtain ⟨rfl, rfl, -, rfl, ht⟩ := hk
      simp only [reply?, asked?, hp]
      exact ⟨none, false, .failed ht, rfl, .of_same hrow hledger hsupervisor rfl⟩
    · rw [hp] at hk
      exact hk.elim
  | @commit w receipt attend paid hp =>
    obtain ⟨hledger, hsupervisor⟩ := hq (by rw [hp]; rfl)
    rw [hp] at hk
    obtain ⟨rfl, stored?, loop, hdecision, hd, rfl⟩ := hk
    simp only [reply?, asked?, hp, List.append_nil, Option.toList_none]
    refine stands_afterCommit hdecision hrow ?_ hsupervisor
    show w.draft.commit s.store.memory.ledger = _
    rw [hd, hledger]
  | @attend receipt r start start' supervisor store hp hs =>
    rw [hp] at hk
    obtain ⟨rfl, hdecision, hstart⟩ := hk
    rw [asked?_of_attending hp]
    simp only [reply?, Option.toList_none, List.append_nil]
    exact ⟨rfl, hdecision, hstart.step hrow hs⟩
  | @attended receipt r started hp =>
    rw [hp] at hk
    obtain ⟨rfl, hdecision, rfl, hleaves⟩ := hk
    rw [asked?_of_attending hp]
    simp only [reply?, Option.toList_none, List.append_nil]
    exact ⟨none, true, hdecision, rfl, hleaves⟩
  | reread hp _ | vanished hp _ | create hp _ | uncreated hp _ | declined hp | debited hp _
  | record hp _ | recorded hp _ =>
    rw [hp] at hk
    exact hk.elim

/-! ### The whole call -/

/-- Nobody is in the way of a call for a key: the store has no faults and takes statuses, its
    rows and its locks are in order, and nobody has a handle to the lock of the key. -/
structure Scene.Undisturbed (s : Scene) (key : Uuid) : Prop where
  /-- The store has no faults. -/
  faults : s.store.faults = []
  /-- Statuses can be written. -/
  writable : s.store.memory.readOnly = false
  /-- Every row is stored under its own reference. -/
  wellKeyed : s.store.memory.ledger.WellKeyed
  /-- The tables of locks have one entry a key. -/
  distinct : s.store.memory.locks.Distinct
  /-- The lock of the key is free. -/
  free : s.store.memory.locks.Free key

/-- A call that finds a transaction and is undisturbed, since it began at a scene. -/
structure Reconciling (c : CallSettings) (t : Transaction) (request : Request) (me : Nat)
    (before : Scene) (tr : List ((Scene × Initiation) × (Moment × Event))) (s : Scene)
    (i : Initiation) : Prop where
  /-- The request is still the same. -/
  same : i.request = request
  /-- The store has no faults. -/
  faults : s.store.faults = []
  /-- Statuses can be written. -/
  writable : s.store.memory.readOnly = false
  /-- The tables of locks have one entry a key. -/
  distinct : s.store.memory.locks.Distinct
  /-- The lock of the key is free, or the call's alone. -/
  locked : i.phase.Locked s.store.memory.locks request.key me
  /-- Before the commit nothing has changed. -/
  quiet : i.phase.booked = false →
    s.store.memory.ledger = before.store.memory.ledger ∧ s.supervisor = before.supervisor
  /-- The call stands where it says. -/
  stands : i.phase.Stands c t before s (replies tr) (asked tr)
  /-- Nothing was made and nothing paid. -/
  unpaid : ∀ x ∈ tr, x.1.2.made? c x.2.1 x.1.1.store = none ∧ x.1.2.debits = false
  /-- There is a limit to the steps. -/
  bounded : tr.length + i.phase.left ≤ 12

/-- A call that stands as one that finds a transaction makes none and pays for none. -/
theorem Phase.Stands.unpaid {asked' : List String} (h : i.phase.Stands c t before s replies' asked')
    (m : Moment) (store : Store) : i.made? c m store = none ∧ i.debits = false := by
  cases hp : i.phase with
  | creating w | submitting w t' r =>
    rw [hp] at h
    exact h.elim
  | _ => simp [made?, debits, hp]

theorem reconciling_start (hs : before.Undisturbed request.key)
    (hvalid : request.validate = .ok wallet) :
    Reconciling c t request me before [] before (ofRequest user request) := by
  have hstart : ofRequest user request = { user, request, wallet, phase := .opening } := by
    simp [ofRequest, hvalid]
  rw [hstart]
  exact
    { same := rfl
      faults := hs.faults
      writable := hs.writable
      distinct := hs.distinct
      locked := hs.free
      quiet := fun _ => ⟨rfl, rfl⟩
      stands := ⟨rfl, rfl⟩
      unpaid := by simp
      bounded := by simp [Phase.left] }

theorem Reconciling.step (h : Reconciling c t request me before tr s i)
    (hfound : before.store.memory.ledger.byKey? request.key = some t)
    (hrow : before.store.memory.ledger.find? t.reference = some t)
    (hstep : i.step c page m me e s = some (s', p)) :
    Reconciling c t request me before (tr ++ [((s, i), (m, e))]) s' { i with phase := p } := by
  obtain ⟨a, hmove⟩ := move_of_step h.faults hstep
  refine
    { same := h.same
      faults := hmove.faults h.faults
      writable := hmove.readOnly.trans h.writable
      distinct := hmove.distinct h.distinct
      locked := hmove.locked h.distinct h.locked (congrArg Request.key h.same)
      quiet := hmove.unbooked h.quiet
      stands := ?_
      unpaid := ?_
      bounded := ?_ }
  · rw [replies_snoc, asked_snoc]
    refine hmove.stands (by rw [h.same]; exact hfound) hrow ?_ h.quiet h.stands
    rintro w t' status message cause hp rfl
    exact not_unwritten h.faults h.writable hp hstep
  · intro x hx
    rcases List.mem_append.mp hx with hx | hx
    · exact h.unpaid x hx
    · obtain rfl := List.mem_singleton.mp hx
      exact h.stands.unpaid m s.store
  · have hleft := hmove.left_lt
    have hbounded := h.bounded
    simp only [List.length_append, List.length_singleton]
    omega

theorem reconciling_of_run (hs : before.Undisturbed request.key)
    (hvalid : request.validate = .ok wallet)
    (hfound : before.store.memory.ledger.byKey? request.key = some t)
    (h : Run (alone c page me) (before, ofRequest user request) tr (s, i)) :
    Reconciling c t request me before tr s i := by
  have hrow : before.store.memory.ledger.find? t.reference = some t := by
    obtain ⟨r, -, ht⟩ := Ledger.byKey?_eq_some.mp hfound
    rw [hs.wellKeyed r t ht, ht]
  generalize hend : (s, i) = last at h
  induction h generalizing s i with
  | nil =>
    obtain ⟨rfl, rfl⟩ := Prod.mk.inj hend
    exact reconciling_start hs hvalid
  | @snoc tr found last action hrun hact ih =>
    obtain ⟨⟨s', p⟩, hstep, heq⟩ := Option.map_eq_some_iff.mp hact
    obtain ⟨rfl, rfl⟩ := Prod.mk.inj (heq.trans hend.symm)
    exact (ih rfl).step hfound hrow hstep

/-- What a valid call does that finds a transaction under its key, nobody else being in the
    way: it makes no transaction, debits no wallet and makes no card redirect; it is never
    stuck and is over after twelve steps at most; and its inquiries, its result, what it
    stores and whether it asks for a poll loop are those of the decision about the
    transaction. -/
theorem found_transaction_reconciled (hs : before.Undisturbed request.key)
    (hvalid : request.validate = .ok wallet)
    (hfound : before.store.memory.ledger.byKey? request.key = some t)
    (h : Run (alone c page me) (before, ofRequest user request) tr (s, i)) :
    (∀ x ∈ tr, x.1.2.made? c x.2.1 x.1.1.store = none ∧ x.1.2.debits = false) ∧
    (tr.length ≤ 12 ∧ (i.result? = none →
      (∀ m, (i.step c page m me .turn s).isSome = true) ∨
        ∀ m answer, (i.step c page m me (.answer answer) s).isSome = true)) ∧
    ∀ result, i.result? = some result → ∃ stored? loop,
      Decision c t (replies tr) result stored? loop ∧
        asked tr = (if loop = true then [t.reference] else []) ∧
        Leaves before t stored? loop s := by
  have hcall := reconciling_of_run hs hvalid hfound h
  have hbounded := hcall.bounded
  refine ⟨hcall.unpaid, ⟨by omega, proceeds hcall.locked⟩, ?_⟩
  intro result hresult
  have hstands := hcall.stands
  rw [result?_eq_some.mp hresult] at hstands
  exact hstands

/-- A pending wallet payment of the key that `fiveHundred` names. -/
def openRow : Transaction := { blankRow with reference := "T1" }

/-- A wallet payment that is found open, is said to wait for the customer and is young is
    shown as pending, and a loop is asked for and started. -/
theorem young_payment_attended :
    let before : Scene := ⟨{ memory := { ledger := ({} : Ledger).put openRow } }, {}⟩
    let run := Run.play (alone {} merchant.cardPage 0)
      (List.replicate 4 (noon, .turn) ++ (noon, .answer (.ok waiting)) ::
        List.replicate 5 (noon, .turn)) (before, ofRequest .nil fiveHundred)
    before.Undisturbed fiveHundred.key ∧ (∃ wallet, fiveHundred.validate = .ok wallet) ∧
      before.store.memory.ledger.byKey? fiveHundred.key = some openRow ∧
      run.2.2.result? = some (.ok (.ofTransaction openRow .pending "")) ∧
      ∃ stored? loop,
        Decision {} openRow (replies run.1) (.ok (.ofTransaction openRow .pending "")) stored? loop ∧
          asked run.1 = (if loop = true then [openRow.reference] else []) ∧
          Leaves before openRow stored? loop run.2.1 := by
  intro before run
  have hs : before.Undisturbed fiveHundred.key :=
    { faults := rfl
      writable := rfl
      wellKeyed := Ledger.coherent_empty.wellKeyed.put openRow
      distinct := KeyLocks.distinct_empty
      free := KeyLocks.free_empty _ }
  have hvalid : fiveHundred.validate = .ok (some ⟨"03001234567", "345678"⟩) := by decide +kernel
  have hfound : before.store.memory.ledger.byKey? fiveHundred.key = some openRow := by
    decide +kernel
  have hrun : Run (alone {} merchant.cardPage 0) (before, ofRequest .nil fiveHundred) run.1
      (run.2.1, run.2.2) := Run.of_play _ _
  have hresult : run.2.2.result? = some (.ok (.ofTransaction openRow .pending "")) := by rfl
  exact ⟨hs, ⟨_, hvalid⟩, hfound, hresult,
    (found_transaction_reconciled hs hvalid hfound hrun).2.2 _ hresult⟩

end Initiation

end TopUp
