import TopUp.Proofs.Call.Booked
import TopUp.Proofs.Call.Debit
import TopUp.Proofs.Run

/-! # A call on its own

    A call that nobody else gets in the way of either succeeds or leaves nothing behind.
    Up to its commit it keeps its writes to itself (`Alone.quiet`), and what it read at the
    start is still so when it commits (`Phase.Expects`); so its commit does what its receipt
    says (`Booked`), and whatever fails before it leaves the ledger and the supervisor as
    they were. In either case the lock of its key is free again (`Phase.Locked`).
-/

namespace TopUp

open TopUp.Data TopUp.Gateway TopUp.Store

namespace Initiation

/-- A step of a call that is alone. -/
def alone (c : CallSettings) (page : CardPage) (me : Nat) :
    Moment × Event → Scene × Initiation → Option (Scene × Initiation)
  | (m, e), (s, i) => (i.step c page m me e s).map fun x => (x.1, { i with phase := x.2 })

/-- Nothing stands in the way of a call for a key: the store has no faults and is in order,
    and nobody has a handle to the lock of the key. -/
structure Scene.Idle (s : Scene) (key : Uuid) : Prop where
  /-- The store has no faults. -/
  faults : s.store.faults = []
  /-- Rows and index fit together. -/
  coherent : s.store.memory.ledger.Coherent
  /-- The tables of locks have one entry a key. -/
  distinct : s.store.memory.locks.Distinct
  /-- The lock of the key is free. -/
  free : s.store.memory.locks.Free key

/-! ### The lock -/

/-- How the lock of the key is in a phase: free, or the call's alone. -/
def Phase.Locked (k : KeyLocks) (key : Uuid) (me : Nat) : Phase → Prop
  | .opening | .attending _ _ _ | .done _ => k.Free key
  | .entering n => k.Has key n { visitors := [me] }
  | .queued n => k.Has key n { holder := some me }
  | .reading w | .inquiring w _ | .amending w _ _ _ | .rereading w _ _ | .creating w
  | .declined w _ | .submitting w _ _ | .recording w _ _ _ | .committing w _ _ _ =>
    k.Has key w.lock { holder := some me }

variable {c : CallSettings} {page : CardPage} {m : Moment} {me : Nat} {s s' : Scene}
  {i : Initiation} {e : Event} {a : Traffic.Action} {p : Phase} {w : Work} {k : KeyLocks}
  {key : Uuid}

/-- An open unit of work holds the lock. -/
theorem Phase.locked_of_work (h : p.work? = some w) :
    p.Locked k key me ↔ k.Has key w.lock { holder := some me } := by
  cases p <;> simp_all [work?, Locked]

theorem locked_afterCommit {receipt : Receipt} {attend : Option String} (h : k.Free key) :
    (afterCommit receipt attend).Locked k key me := by
  cases attend <;> exact h

theorem Move.locked (h : Move c page m me s i e a s' p) (hd : s.store.memory.locks.Distinct)
    (hl : i.phase.Locked s.store.memory.locks key me) (hkey : i.request.key = key) :
    p.Locked s'.store.memory.locks key me := by
  subst hkey
  -- a unit of work that goes on keeps its lock, one that ends gives it up
  have hkeep : ∀ w d, i.phase.work? = some w → p.work? = some { w with draft := d } →
      p.Locked s.store.memory.locks i.request.key me := by
    intro w d hw hw'
    rw [Phase.locked_of_work hw']
    exact (Phase.locked_of_work hw).mp hl
  have hdrop : ∀ {w : Work}, i.phase.work? = some w →
      (s.store.memory.locks.leave w.lock me).Free i.request.key := by
    intro w hw
    exact ((Phase.locked_of_work hw).mp hl).leave
  cases h with
  | lookup hp =>
    rw [hp] at hl
    exact KeyLocks.Free.lookup hl hd me
  | ask hp =>
    rw [hp] at hl
    exact KeyLocks.Has.ask hl
  | enter hp _ =>
    rw [hp] at hl
    exact hl
  | @settled w t hp _ _ => exact hkeep w w.draft (by rw [hp]; rfl) rfl
  | @inquire w t hp _ _ => exact hkeep w w.draft (by rw [hp]; rfl) rfl
  | @fresh w hp _ => exact hkeep w w.draft (by rw [hp]; rfl) rfl
  | @inquired w t o hp => exact hkeep w w.draft (by rw [hp]; rfl) (work?_afterInquiry _ _)
  | @amended w t status message d hp _ => exact hkeep w d (by rw [hp]; rfl) rfl
  | @refused w t status message d hp _ => exact hkeep w d (by rw [hp]; rfl) rfl
  | @reread w t current message hp _ => exact hkeep w w.draft (by rw [hp]; rfl) rfl
  | vanished hp _ => exact hdrop (by rw [hp]; rfl)
  | @create w t d hp _ => exact hkeep w d (by rw [hp]; rfl) (work?_afterCreation _ _)
  | uncreated hp _ => exact hdrop (by rw [hp]; rfl)
  | declined hp => exact hdrop (by rw [hp]; rfl)
  | @debited w t r o hp _ => exact hkeep w w.draft (by rw [hp]; rfl) rfl
  | @record w t r o hp _ => exact hkeep w w.draft (by rw [hp]; rfl) rfl
  | @recorded w t status message b d hp _ => exact hkeep w d (by rw [hp]; rfl) rfl
  | unanswered hp =>
    rcases hp with ⟨_, hp⟩ | ⟨_, _, hp⟩
    · exact hdrop (by rw [hp]; rfl)
    · exact hdrop (by rw [hp]; rfl)
  | unwritten hp =>
    rcases hp with hp | hp
    · exact hdrop (by rw [hp]; rfl)
    · exact hdrop (by rw [hp]; rfl)
  | commit hp => exact locked_afterCommit (hdrop (by rw [hp]; rfl))
  | attend hp hs =>
    rw [hp] at hl
    cases hs <;> exact hl
  | attended hp =>
    rw [hp] at hl
    exact hl

theorem Move.distinct (h : Move c page m me s i e a s' p)
    (hd : s.store.memory.locks.Distinct) : s'.store.memory.locks.Distinct := by
  cases h with
  | lookup _ => exact hd.lookup _ _
  | ask _ => exact hd.change _ _
  | vanished _ _ => exact hd.change _ _
  | uncreated _ _ => exact hd.change _ _
  | declined _ => exact hd.change _ _
  | unanswered _ => exact hd.change _ _
  | unwritten _ => exact hd.change _ _
  | commit _ => exact hd.change _ _
  | attend _ hs => cases hs <;> exact hd
  | _ => exact hd

/-! ### The ledger -/

/-- Whether a call has committed. -/
def Phase.booked : Phase → Bool
  | .attending _ _ _ | .done (.ok _) => true
  | _ => false

/-- A unit of work has made one transaction, under a new key and a new reference. -/
structure Opened (l : Ledger) (key : Uuid) (d : Draft) (t : Transaction) : Prop where
  /-- It has made nothing else. -/
  draft : d = { created := [t] }
  /-- The transaction has the key. -/
  key : t.key = key
  /-- It is pending. -/
  status : t.status = .pending
  /-- The key is new. -/
  fresh : l.refs.find? t.key = none
  /-- The reference is new. -/
  unused : l.find? t.reference = none

/-- What a call expects of the ledger that it found, and of the ledger as it is now. -/
def Phase.Expects (before now : Ledger) (request : Request) : Phase → Prop
  | .opening | .entering _ | .queued _ | .declined _ _ | .done (.error _) => True
  | .reading w | .creating w => w.draft = {}
  | .inquiring w t =>
    w.draft = {} ∧ before.byKey? request.key = some t ∧ t.status.isTerminal = false
  | .amending w t status _ =>
    w.draft = {} ∧ before.byKey? request.key = some t ∧ t.status.isTerminal = false ∧
      status.isTerminal = true
  | .rereading _ _ _ => False
  | .submitting w t _ => Opened before request.key w.draft t ∧ request.method ≠ .card
  | .recording w t status _ =>
    Opened before request.key w.draft t ∧ request.method ≠ .card ∧ status ≠ .pending
  | .committing w r attend _ =>
    Booked before (w.draft.commit before) request r ∧
      ∀ reference, attend = some reference → reference = r.reference
  | .attending r reference _ => Booked before now request r ∧ reference = r.reference
  | .done (.ok r) => Booked before now request r

/-- Before its commit a call changes neither the ledger nor the supervisor. -/
theorem Move.unbooked {before : Ledger} {v : Poll.Supervisor} (h : Move c page m me s i e a s' p)
    (hq : i.phase.booked = false → s.store.memory.ledger = before ∧ s.supervisor = v)
    (hp' : p.booked = false) : s'.store.memory.ledger = before ∧ s'.supervisor = v := by
  cases h with
  | commit hp =>
    rename_i attend _
    cases attend <;> exact absurd hp' (by simp [afterCommit, Phase.booked])
  | attend _ _ => exact absurd hp' (by simp [Phase.booked])
  | attended _ => exact absurd hp' (by simp [Phase.booked])
  | unanswered hp =>
    rcases hp with ⟨_, hp⟩ | ⟨_, _, hp⟩
    · exact hq (by rw [hp]; rfl)
    · exact hq (by rw [hp]; rfl)
  | unwritten hp =>
    rcases hp with hp | hp
    · exact hq (by rw [hp]; rfl)
    · exact hq (by rw [hp]; rfl)
  | lookup hp | ask hp | enter hp | settled hp | inquire hp | fresh hp | inquired hp | amended hp
  | refused hp | reread hp | vanished hp | create hp | uncreated hp | declined hp | debited hp
  | record hp | recorded hp => exact hq (by rw [hp]; rfl)

section

variable {before now : Ledger} {request : Request} {t : Transaction} {d : Draft}

/-- A transaction that was made, with the status that the debit came to. -/
theorem Opened.booked (h : Opened before request.key d t) (hl : before.Coherent)
    (hmethod : request.method ≠ .card) (status : Status) (message : String) :
    Booked before (({ created := [{ t with status }] } : Draft).commit before) request
      (.ofTransaction t status message) :=
  Booked.of_made (t := { t with status }) hl h.key h.fresh h.unused ⟨rfl, rfl, rfl⟩ rfl
    (by simp [Receipt.ofTransaction, hmethod])

/-- After the answer to an inquiry. -/
theorem expects_afterInquiry (hl : before.Coherent) (hd : w.draft = {})
    (hkey : before.byKey? request.key = some t) (hopen : t.status.isTerminal = false)
    (wall : Int) (o : Outcome) : (afterInquiry c wall w t o).Expects before now request := by
  unfold afterInquiry
  split
  · next hterm => exact ⟨hd, hkey, hopen, hterm⟩
  · split
    · exact ⟨hd, hkey, hopen, rfl⟩
    · -- the transaction stays open, and is shown as pending whatever its status
      refine ⟨?_, ?_⟩
      · rw [hd]
        exact Booked.of_stored hl hkey (of_ofTransaction _ _ _)
          (Status.clientVisible_of_open hopen).symm rfl
      · intro reference hattend
        split at hattend
        · exact (Option.some.inj hattend).symm
        · exact absurd hattend (by simp)

/-- After a transaction was made. -/
theorem expects_afterCreation {wallet : Option Wallet} (hl : before.Coherent)
    (hopened : Opened before request.key w.draft t)
    (hwallet : wallet = none ↔ request.method = .card) (wall : Int) :
    (afterCreation c page wall wallet w t).Expects before now request := by
  rcases afterCreation_cases c page wall wallet w t with
    ⟨hknown, _, -, hnext⟩ | ⟨hnone, ⟨_, hnext⟩ | ⟨_, _, -, -, hnext⟩⟩
  · rw [hnext]
    exact ⟨hopened, fun hcard => hknown (hwallet.mpr hcard)⟩
  · rw [hnext]
    refine ⟨?_, by simp⟩
    rw [hopened.draft]
    exact Booked.of_made hl hopened.key hopened.fresh hopened.unused ⟨rfl, rfl, rfl⟩
      (by rw [hopened.status]; rfl) (by simp [hwallet.mp hnone])
  · rw [hnext]
    trivial

/-- After the outcome of a debit. -/
theorem expects_afterDebit {status : Status} {message : String}
    (hbooked : Booked before (w.draft.commit before) request (.ofTransaction t status message)) :
    (afterDebit w t status message).Expects before now request := by
  refine ⟨hbooked, ?_⟩
  intro reference hattend
  split at hattend
  · exact absurd hattend (by simp)
  · exact (Option.some.inj hattend).symm

/-- What a call expects after a step of its own, if nobody else takes one. -/
theorem Move.expects (h : Move c page m me s i e a s' p) (hl : before.Coherent)
    (hrequest : i.request = request) (hwallet : i.wallet = none ↔ request.method = .card)
    (hq : i.phase.booked = false → s.store.memory.ledger = before)
    (hk : i.phase.Expects before s.store.memory.ledger request) :
    p.Expects before s'.store.memory.ledger request := by
  subst hrequest
  cases h with
  | lookup _ => trivial
  | ask _ => trivial
  | enter _ _ => exact rfl
  | @settled w t hp hfind ht =>
    rw [hp] at hk
    have hd : w.draft = {} := hk
    rw [hd, hq (by rw [hp]; rfl)] at hfind
    refine ⟨?_, by simp⟩
    rw [hd]
    exact Booked.of_stored hl hfind (of_ofTransaction _ _ _) rfl rfl
  | @inquire w t hp hfind ht =>
    rw [hp] at hk
    have hd : w.draft = {} := hk
    rw [hd, hq (by rw [hp]; rfl)] at hfind
    exact ⟨hd, hfind, ht⟩
  | fresh hp _ =>
    rw [hp] at hk
    exact hk
  | inquired hp =>
    rw [hp] at hk
    obtain ⟨hd, hkey, hopen⟩ := hk
    exact expects_afterInquiry hl hd hkey hopen _ _
  | @amended w t status message d hp hw =>
    rw [hp] at hk
    obtain ⟨hd, hkey, hopen, hterm⟩ := hk
    rw [hd] at hw
    refine ⟨?_, by simp⟩
    rw [staged_of_updateDraft hw]
    exact Booked.of_written hl hkey hopen (Status.ne_pending_of_isTerminal hterm) message
  | @refused w t status message d hp hw =>
    -- the row is as it was read, and that was open
    rw [hp] at hk
    obtain ⟨hd, hkey, hopen, hterm⟩ := hk
    have hfind : s.store.memory.ledger.find? t.reference = some t := by
      rw [hq (by rw [hp]; rfl)]
      exact (hl.of_byKey? hkey).2
    rw [hd] at hw
    have hsettled := (settled_of_refused hw hterm hfind).2
    rw [hopen] at hsettled
    exact absurd hsettled (by simp)
  | reread hp _ =>
    -- a write is refused only to a row that somebody else has settled
    rw [hp] at hk
    exact hk.elim
  | vanished _ _ => trivial
  | @create w t d hp hc =>
    rw [hp] at hk
    have hd : w.draft = {} := hk
    rw [hq (by rw [hp]; rfl)] at hc
    obtain ⟨ht, hd', hfresh, hunused, -, -⟩ := Draft.create_eq_ok hc
    rw [hd] at hd'
    have hopened : Opened before i.request.key d t :=
      { draft := hd'
        key := by rw [ht]; rfl
        status := by rw [ht]; rfl
        fresh := by rw [ht]; exact hfresh
        unused := by rw [ht]; exact hunused }
    exact expects_afterCreation (w := { w with draft := d }) hl hopened hwallet _
  | uncreated _ _ => trivial
  | declined _ => trivial
  | @debited w t r o hp ho =>
    rw [hp] at hk
    obtain ⟨hopened, hmethod⟩ := hk
    apply expects_afterDebit
    -- the row was made pending and is not written again
    have hsame : ({ t with status := o.status } : Transaction) = t := by
      rw [ho, ← hopened.status]
    have hbooked := hopened.booked hl hmethod o.status o.message
    rw [hsame] at hbooked
    rwa [hopened.draft]
  | record hp ho =>
    rw [hp] at hk
    exact ⟨hk.1, hk.2, ho⟩
  | @recorded w t status message b d hp hw =>
    rw [hp] at hk
    obtain ⟨hopened, hmethod, hstatus⟩ := hk
    rw [hopened.draft] at hw
    apply expects_afterDebit
    show Booked before (d.commit before) i.request _
    rw [made_of_updateDraft hw hopened.status hstatus]
    exact hopened.booked hl hmethod status message
  | unanswered _ => trivial
  | unwritten _ => trivial
  | @commit w r attend paid hp =>
    rw [hp] at hk
    obtain ⟨hbooked, hattend⟩ := hk
    have hledger : s.store.memory.ledger = before := hq (by rw [hp]; rfl)
    have hafter : Booked before (w.draft.commit s.store.memory.ledger) i.request r := by
      rw [hledger]
      exact hbooked
    cases attend with
    | none => exact hafter
    | some reference => exact ⟨hafter, hattend reference rfl⟩
  | @attend r reference start start' supervisor store hp hs =>
    rw [hp] at hk
    obtain ⟨hbooked, rfl⟩ := hk
    cases hs with
    | claim _ => exact ⟨hbooked.claim, rfl⟩
    | lose _ => exact ⟨hbooked.claim, rfl⟩
    | _ => exact ⟨hbooked, rfl⟩
  | attended hp =>
    rw [hp] at hk
    exact hk.1

end

/-! ### The whole call -/

/-- A valid call that is alone, since it began at a scene. -/
structure Alone (start : Scene) (request : Request) (me : Nat) (s : Scene) (i : Initiation) :
    Prop where
  /-- The request is still the same. -/
  same : i.request = request
  /-- The call has a wallet unless it pays by card. -/
  fits : i.wallet = none ↔ request.method = .card
  /-- The store has no faults. -/
  faults : s.store.faults = []
  /-- The tables of locks have one entry a key. -/
  distinct : s.store.memory.locks.Distinct
  /-- The lock of the key is free, or the call's alone. -/
  locked : i.phase.Locked s.store.memory.locks request.key me
  /-- Before the commit nothing has changed. -/
  quiet : i.phase.booked = false →
    s.store.memory.ledger = start.store.memory.ledger ∧ s.supervisor = start.supervisor
  /-- The ledger is as the call expects it. -/
  expects : i.phase.Expects start.store.memory.ledger s.store.memory.ledger request

variable {start : Scene} {request : Request} {user : Uuid} {wallet : Option Wallet}
  {tr : List ((Scene × Initiation) × (Moment × Event))}

theorem alone_start (hidle : start.Idle request.key) (hvalid : request.validate = .ok wallet) :
    Alone start request me start (ofRequest user request) := by
  have hstart : ofRequest user request = { user, request, wallet, phase := .opening } := by
    simp [ofRequest, hvalid]
  rw [hstart]
  exact
    { same := rfl
      fits := Request.validate_eq_ok hvalid
      faults := hidle.faults
      distinct := hidle.distinct
      locked := hidle.free
      quiet := fun _ => ⟨rfl, rfl⟩
      expects := trivial }

theorem Alone.step (h : Alone start request me s i) (hl : start.store.memory.ledger.Coherent)
    (hstep : i.step c page m me e s = some (s', p)) :
    Alone start request me s' { i with phase := p } := by
  obtain ⟨a, hmove⟩ := move_of_step h.faults hstep
  exact
    { same := h.same
      fits := h.fits
      faults := hmove.faults h.faults
      distinct := hmove.distinct h.distinct
      locked := hmove.locked h.distinct h.locked (congrArg Request.key h.same)
      quiet := hmove.unbooked h.quiet
      expects := hmove.expects hl h.same h.fits (fun hp => (h.quiet hp).1) h.expects }

theorem alone_of_run (hidle : start.Idle request.key) (hvalid : request.validate = .ok wallet)
    (h : Run (alone c page me) (start, ofRequest user request) tr (s, i)) :
    Alone start request me s i := by
  generalize hend : (s, i) = last at h
  -- along the run; all that the next step asks of the last scene is in `Alone`
  induction h generalizing s i with
  | nil =>
    obtain ⟨rfl, rfl⟩ := Prod.mk.inj hend
    exact alone_start hidle hvalid
  | @snoc tr found last action hrun hact ih =>
    obtain ⟨⟨s', p⟩, hstep, heq⟩ := Option.map_eq_some_iff.mp hact
    obtain ⟨rfl, rfl⟩ := Prod.mk.inj (heq.trans hend.symm)
    exact (ih rfl).step hidle.coherent hstep

/-- A call whose lock is free or its own goes on until it is over, whatever the moment and
    the answer. -/
theorem proceeds (hlocked : i.phase.Locked s.store.memory.locks key me)
    (hover : i.result? = none) :
    (∀ m, (i.step c page m me .turn s).isSome = true) ∨
      ∀ m answer, (i.step c page m me (.answer answer) s).isSome = true := by
  cases hp : i.phase with
  | inquiring w t =>
    right
    intro m answer
    cases answer <;> simp [Initiation.step, hp]
  | submitting w t r =>
    right
    intro m answer
    cases answer with
    | ok o => by_cases ho : o.status = .pending <;> simp [Initiation.step, hp, ho]
    | error cause => simp [Initiation.step, hp]
  | done result => simp [result?, hp] at hover
  | queued n =>
    -- the lock was free, so it was given out when it was asked for
    left
    intro m
    rw [hp] at hlocked
    have hholds : s.store.holdsLock n me = true := by
      simp [Store.holdsLock, KeyLocks.holds, hlocked.lock]
    simp [Initiation.step, hp, hholds]
  | attending receipt reference start =>
    left
    intro m
    cases start with
    | checking =>
      by_cases hno : (s.supervisor.stopping || s.supervisor.attends reference) = true <;>
        simp [Initiation.step, hp, Poll.Start.step, hno]
    | claiming =>
      simp only [Initiation.step, hp, Poll.Start.step]
      rw [Option.isSome_map]
      split <;> rfl
    | _ => simp [Initiation.step, hp, Poll.Start.step]
  | entering n =>
    left
    intro m
    simp [Initiation.step, hp]
  | reading w =>
    left
    intro m
    simp only [Initiation.step, hp]
    split
    · split <;> rfl
    · rfl
    · rfl
  | declined w cause =>
    left
    intro m
    simp [Initiation.step, hp]
  | opening | amending | rereading | creating | recording | committing =>
    -- whatever the store says, the call goes on
    left
    intro m
    simp only [Initiation.step, hp]
    split <;> rfl

/-- How many steps a call may still take. -/
def Phase.left : Phase → Nat
  | .opening => 12
  | .entering _ => 11
  | .queued _ => 10
  | .reading _ => 9
  | .inquiring _ _ | .creating _ => 8
  | .amending _ _ _ _ | .submitting _ _ _ => 7
  | .rereading _ _ _ | .recording _ _ _ _ | .declined _ _ => 6
  | .committing _ _ _ _ => 5
  | .attending _ _ .checking => 4
  | .attending _ _ .claiming => 3
  | .attending _ _ .spawning => 2
  | .attending _ _ (.done _) => 1
  | .done _ => 0

/-- Each step brings a call closer to its end. -/
theorem Move.left_lt (h : Move c page m me s i e a s' p) : p.left < i.phase.left := by
  cases h with
  | inquired hp =>
    rw [hp]
    unfold afterInquiry
    split
    · simp [Phase.left]
    · split <;> simp [Phase.left]
  | @create w t d hp _ =>
    rcases afterCreation_cases c page m.wall i.wallet { w with draft := d } t with
      ⟨-, _, -, hnext⟩ | ⟨-, ⟨_, hnext⟩ | ⟨_, _, -, -, hnext⟩⟩
    · simp [hp, hnext, Phase.left]
    · simp [hp, hnext, Phase.left]
    · simp [hp, hnext, Phase.left]
  | unanswered hp => rcases hp with ⟨_, hp⟩ | ⟨_, _, hp⟩ <;> simp [hp, abandon, Phase.left]
  | unwritten hp => rcases hp with hp | hp <;> simp [hp, abandon, Phase.left]
  | @commit w receipt attend paid hp =>
    rw [hp]
    cases attend <;> simp [afterCommit, Phase.left]
  | attend hp hs =>
    rw [hp]
    cases hs <;> simp [Phase.left]
  | lookup hp | ask hp | enter hp _ | settled hp _ _ | inquire hp _ _ | fresh hp _ | amended hp _
  | refused hp _ | reread hp _ | vanished hp _ | uncreated hp _ | declined hp | debited hp _
  | record hp _ | recorded hp _ | attended hp => simp [hp, abandon, afterDebit, Phase.left]

theorem Alone.proceeds (h : Alone start request me s i) (hover : i.result? = none) :
    (∀ m, (i.step c page m me .turn s).isSome = true) ∨
      ∀ m answer, (i.step c page m me (.answer answer) s).isSome = true :=
  Initiation.proceeds h.locked hover

/-- An invalid request ends its call at once. -/
theorem ofRequest_of_invalid {cause : Gateway.Failure} (h : request.validate = .error cause) :
    ofRequest user request =
      { user, request, wallet := none, phase := .done (.error (.gateway cause)) } := by
  simp [ofRequest, h]

/-- A call that is over takes no step. -/
theorem run_of_done {i₀ : Initiation} {result : Except Call.Failure Receipt}
    (hover : i₀.phase = .done result)
    (h : Run (alone c page me) (start, i₀) tr (s, i)) : tr = [] ∧ s = start ∧ i = i₀ := by
  generalize hend : (s, i) = last at h
  induction h generalizing s i with
  | nil =>
    obtain ⟨rfl, rfl⟩ := Prod.mk.inj hend
    exact ⟨rfl, rfl, rfl⟩
  | @snoc tr found last action hrun hact ih =>
    obtain ⟨-, hs, hi⟩ := ih rfl
    obtain ⟨⟨s', p⟩, hstep, -⟩ := Option.map_eq_some_iff.mp hact
    rw [hi] at hstep
    exact absurd hstep (by simp [step, hover])

theorem afterInquiry_ne_done (wall : Int) (w : Work) (t : Transaction) (o : Outcome)
    (result : Except Call.Failure Receipt) : afterInquiry c wall w t o ≠ .done result := by
  unfold afterInquiry
  split
  · simp
  · split <;> simp

theorem afterCreation_ne_done (wall : Int) (wallet : Option Wallet) (w : Work) (t : Transaction)
    (result : Except Call.Failure Receipt) :
    afterCreation c page wall wallet w t ≠ .done result := by
  rcases afterCreation_cases c page wall wallet w t with
    ⟨-, _, -, hnext⟩ | ⟨-, ⟨_, hnext⟩ | ⟨_, _, -, -, hnext⟩⟩
  · simp [hnext]
  · simp [hnext]
  · simp [hnext]

/-- Only an answer of the gateway, or its card page, makes a call fail because of the gateway. -/
theorem answer_of_step {cause : Gateway.Failure}
    (hstep : i.step c page m me e s = some (s', .done (.error (.gateway cause)))) :
    e = .answer (.error cause) ∨ ∃ w, i.phase = .declined w cause := by
  cases e with
  | answer result =>
    left
    cases hp : i.phase with
    | inquiring w t =>
      simp only [step, hp] at hstep
      split at hstep
      · exact absurd (Prod.mk.inj (Option.some.inj hstep)).2 (afterInquiry_ne_done _ _ _ _ _)
      · obtain ⟨-, heq⟩ := Prod.mk.inj (Option.some.inj hstep)
        simpa using heq
    | submitting w t r =>
      simp only [step, hp] at hstep
      split at hstep
      · split at hstep <;> simp [afterDebit] at hstep
      · obtain ⟨-, heq⟩ := Prod.mk.inj (Option.some.inj hstep)
        simpa using heq
    | _ => simp [step, hp] at hstep
  | crash => cases hp : i.phase <;> simp [step, hp] at hstep
  | turn =>
    -- in its own turn a call only meets failures of the store, unless its payment was declined
    cases hp : i.phase with
    | declined w cause' =>
      simp only [step, hp, abandon] at hstep
      obtain ⟨-, heq⟩ := Prod.mk.inj (Option.some.inj hstep)
      obtain rfl : cause' = cause := by simpa using heq
      exact .inr ⟨w, rfl⟩
    | opening =>
      simp only [step, hp] at hstep
      split at hstep <;> simp at hstep
    | queued lock =>
      simp only [step, hp] at hstep
      split at hstep <;> simp at hstep
    | reading w =>
      simp only [step, hp] at hstep
      split at hstep
      · split at hstep <;> simp at hstep
      · simp at hstep
      · simp [abandon] at hstep
    | amending w t status message =>
      simp only [step, hp] at hstep
      split at hstep <;> simp [abandon] at hstep
    | rereading w t message =>
      simp only [step, hp] at hstep
      split at hstep <;> simp [abandon] at hstep
    | creating w =>
      simp only [step, hp] at hstep
      split at hstep
      · exact absurd (Prod.mk.inj (Option.some.inj hstep)).2 (afterCreation_ne_done _ _ _ _ _)
      · simp [abandon] at hstep
    | recording w t status message =>
      simp only [step, hp] at hstep
      split at hstep <;> simp [abandon, afterDebit] at hstep
    | committing w receipt attend paid =>
      simp only [step, hp] at hstep
      split at hstep
      · cases attend <;> simp at hstep
      · cases paid <;> simp [abandon] at hstep
    | attending receipt reference start =>
      simp only [step, hp] at hstep
      split at hstep <;> simp at hstep
    | _ => simp [step, hp] at hstep

/-- A payment that was declined is one by card that the card page has declined. -/
theorem page_of_run {cause : Gateway.Failure} (hidle : start.Idle request.key)
    (hvalid : request.validate = .ok wallet)
    (h : Run (alone c page me) (start, ofRequest user request) tr (s, i))
    (hp : i.phase = .declined w cause) : request.method = .card ∧
      ∃ card, card.amount = request.amount ∧ page card = .error cause := by
  generalize hend : (s, i) = last at h
  cases h with
  | nil =>
    obtain ⟨rfl, rfl⟩ := Prod.mk.inj hend
    exact absurd hp (by simp [ofRequest, hvalid])
  | @snoc tr found last action hrun hact =>
    obtain ⟨⟨s', p⟩, hstep, heq⟩ := Option.map_eq_some_iff.mp hact
    obtain ⟨rfl, rfl⟩ := Prod.mk.inj (heq.trans hend.symm)
    have halone := alone_of_run hidle hvalid hrun
    obtain ⟨a, hmove⟩ := move_of_step halone.faults hstep
    obtain ⟨hwallet, card, hamount, hpage⟩ := hmove.page_of_declined hp
    exact ⟨halone.fits.mp hwallet, card, hamount.trans (by rw [halone.same]), hpage⟩

/-- A valid call that fails because of the gateway had an answer from it, or it pays by card and
    the card page has declined that. -/
theorem answered_of_run {cause : Gateway.Failure} (hidle : start.Idle request.key)
    (hvalid : request.validate = .ok wallet)
    (h : Run (alone c page me) (start, ofRequest user request) tr (s, i))
    (hresult : i.result? = some (.error (.gateway cause))) :
    (∃ x ∈ tr, x.2.2 = .answer (.error cause)) ∨ request.method = .card ∧
      ∃ card, card.amount = request.amount ∧ page card = .error cause := by
  generalize hend : (s, i) = last at h
  cases h with
  | nil =>
    obtain ⟨rfl, rfl⟩ := Prod.mk.inj hend
    exact absurd hresult (by simp [ofRequest, hvalid, result?])
  | @snoc tr found last action hrun hact =>
    obtain ⟨⟨s', p⟩, hstep, heq⟩ := Option.map_eq_some_iff.mp hact
    obtain ⟨rfl, rfl⟩ := Prod.mk.inj (heq.trans hend.symm)
    have hp : p = .done (.error (.gateway cause)) := result?_eq_some.mp hresult
    subst hp
    rcases answer_of_step hstep with hanswer | ⟨w, hdeclined⟩
    · exact .inl ⟨_, List.mem_append_right _ List.mem_cons_self, hanswer⟩
    · exact .inr (page_of_run hidle hvalid hrun hdeclined)

/-- A call that is alone is all or nothing. If it fails, the ledger and the supervisor are as
    they were, and the lock of its key is free; what was refused as invalid was refused before
    the first step, by an answer of the gateway, or by the card page if it is paid by card. If it
    succeeds, it has booked what its receipt says. An invalid request is refused before the first
    step, and a valid one is never stuck. -/
theorem all_or_nothing (hidle : start.Idle request.key)
    (h : Run (alone c page me) (start, ofRequest user request) tr (s, i)) :
    (∀ cause, i.result? = some (.error cause) →
      s.store.memory.ledger = start.store.memory.ledger ∧ s.supervisor = start.supervisor ∧
        s.Idle request.key ∧
        ∀ text field, cause = .gateway (.invalid text field) →
          tr = [] ∨ (∃ x ∈ tr, x.2.2 = .answer (.error (.invalid text field))) ∨
            request.method = .card ∧ ∃ card, card.amount = request.amount ∧
              page card = .error (.invalid text field)) ∧
    (∀ r, i.result? = some (.ok r) →
      Booked start.store.memory.ledger s.store.memory.ledger request r ∧ r.status ≠ .unknown ∧
        s.Idle request.key) ∧
    (∀ cause, request.validate = .error cause →
      tr = [] ∧ i.result? = some (.error (.gateway cause))) ∧
    (i.result? = none →
      (∀ m, (i.step c page m me .turn s).isSome = true) ∨
        ∀ m answer, (i.step c page m me (.answer answer) s).isSome = true) := by
  cases hvalid : request.validate with
  | error cause =>
    obtain ⟨rfl, rfl, rfl⟩ := run_of_done (by rw [ofRequest_of_invalid hvalid]) h
    have hresult : (ofRequest user request).result? = some (.error (.gateway cause)) := by
      rw [ofRequest_of_invalid hvalid]
      rfl
    refine ⟨fun _ _ => ⟨rfl, rfl, hidle, fun _ _ _ => Or.inl rfl⟩, ?_, ?_, ?_⟩
    · intro r hr
      rw [hresult] at hr
      exact absurd hr (by simp)
    · intro cause' hcause
      obtain rfl := Except.error.inj hcause
      exact ⟨rfl, hresult⟩
    · intro hnone
      rw [hresult] at hnone
      exact absurd hnone (by simp)
  | ok wallet =>
    have halone := alone_of_run hidle hvalid h
    have hlocked := halone.locked
    have hexpects := halone.expects
    refine ⟨?_, ?_, by simp, halone.proceeds⟩
    · intro cause hresult
      have hp : i.phase = .done (.error cause) := result?_eq_some.mp hresult
      obtain ⟨hledger, hsupervisor⟩ := halone.quiet (by rw [hp]; rfl)
      rw [hp] at hlocked
      refine ⟨hledger, hsupervisor, ?_, ?_⟩
      · exact ⟨halone.faults, hledger ▸ hidle.coherent, halone.distinct, hlocked⟩
      · rintro text field rfl
        exact .inr (answered_of_run hidle hvalid h hresult)
    · intro r hresult
      have hp : i.phase = .done (.ok r) := result?_eq_some.mp hresult
      rw [hp] at hlocked hexpects
      have hbooked : Booked start.store.memory.ledger s.store.memory.ledger request r := hexpects
      obtain ⟨t, -, -, -, hstatus⟩ := hbooked.row
      refine ⟨hbooked, ?_, ⟨halone.faults, hbooked.coherent, halone.distinct, hlocked⟩⟩
      rw [hstatus]
      exact Status.clientVisible_ne_unknown _

/-- A merchant of whom only the salt is known. -/
def merchant : Client := ⟨{ salt := "salt" }, .standard "salt"⟩

/-- A moment, and what is drawn at it. -/
def noon : Moment :=
  { now := 0
    wall := 1735732800000000
    id := .ofNat 1
    billEnding := "AAA"
    referenceEnding := "BBB" }

/-- A request to pay by wallet. -/
def fiveHundred : Request :=
  { key := .ofNat 1
    amount := 50000
    method := .wallet
    phoneNumber := some "03001234567"
    nationalId := some "345678" }

/-- The outcome of a debit that waits for the customer. -/
def waiting : Outcome :=
  { status := .pending
    responseCode := "157"
    paymentCode := none
    retrievalReference := none
    message := ""
    raw := [] }

/-- A debit that waits for the customer is booked, on a store in which nothing was. -/
theorem waiting_debit_booked :
    let start : Scene := ⟨{}, {}⟩
    let run := Run.play (alone {} merchant.cardPage 0)
      (List.replicate 5 (noon, .turn) ++ (noon, .answer (.ok waiting)) ::
        List.replicate 5 (noon, .turn)) (start, ofRequest .nil fiveHundred)
    start.Idle fiveHundred.key ∧ ∃ r, run.2.2.result? = some (.ok r) ∧
      Booked start.store.memory.ledger run.2.1.store.memory.ledger fiveHundred r := by
  intro start run
  have hidle : start.Idle fiveHundred.key :=
    ⟨rfl, Ledger.coherent_empty, KeyLocks.distinct_empty, KeyLocks.free_empty _⟩
  have hrun : Run (alone {} merchant.cardPage 0) (start, ofRequest .nil fiveHundred) run.1
      (run.2.1, run.2.2) := Run.of_play _ _
  have hresult : (run.2.2.result?.bind Except.toOption).isSome = true := by decide +kernel
  obtain ⟨r, hr⟩ := Option.isSome_iff_exists.mp hresult
  obtain ⟨result, hresult, hok⟩ := Option.bind_eq_some_iff.mp hr
  cases result with
  | error cause => exact absurd hok (by simp [Except.toOption])
  | ok r => exact ⟨hidle, r, hresult, ((all_or_nothing hidle hrun).2.1 r hresult).1⟩

/-- A pending transaction under the key of the request, with a blank for a reference. -/
def blankRow : Transaction :=
  { id := .ofNat 2
    user := .nil
    key := fiveHundred.key
    billReference := "BILL1"
    reference := " "
    method := .wallet
    amount := 50000
    status := .pending
    polling := false
    createdAt := 1735732800000000 }

/-- What the client says to an inquiry about a blank reference. -/
def blankRefusal : Gateway.Failure :=
  .invalidField "txn_ref_no" "transaction reference is required"

/-- The client refuses to inquire about a blank reference, so a call that finds one fails with
    a refusal: with its unit of work open, after it has asked the gateway. -/
theorem blank_reference_refused_late :
    let start : Scene := ⟨{ memory := { ledger := ({} : Ledger).put blankRow } }, {}⟩
    let run := Run.play (alone {} merchant.cardPage 0)
      (List.replicate 4 (noon, .turn) ++ [(noon, .answer (.error blankRefusal))])
      (start, ofRequest .nil fiveHundred)
    start.Idle fiveHundred.key ∧ (∀ d, merchant.inquire blankRow.reference d = .error blankRefusal) ∧
      run.2.2.result? = some (.error (.gateway blankRefusal)) ∧
      ∃ x ∈ run.1, x.1.2.phase.work?.isSome = true ∧ x.2.2 = .answer (.error blankRefusal) := by
  intro start run
  have hidle : start.Idle fiveHundred.key :=
    ⟨rfl, Ledger.coherent_empty.put rfl rfl, KeyLocks.distinct_empty, KeyLocks.free_empty _⟩
  have hlen : run.1.length = 5 := by decide +kernel
  refine ⟨hidle, fun d => rfl, by rfl, run.1.get ⟨4, by omega⟩, List.get_mem _ _, by rfl, by rfl⟩

end Initiation

end TopUp
