import TopUp.Proofs.Poll.Marks

/-! # Loops that are to stop

    A loop looks for the sign to stop at the head of its cycle, and again whenever it waits.
    So a loop that finds the sign set before it has run takes three steps and no more: it
    begins, sees the sign, and takes its mark away (`late`, `Move.late`). It asks for no slot,
    let alone for a status.

    A loop that is cancelled has written nothing before either. The one step of a loop that
    may change a status leads to an end of another kind (`Move.status?`), and no end becomes
    another one (`Move.untouching`).
-/

namespace TopUp

/-! ### Stored statuses -/

namespace Store.Ledger

/-- The stored status of a reference. -/
def status? (l : Ledger) (r : String) : Option Status := (l.find? r).map Transaction.status

/-- A change that leaves the status alone changes no status. -/
theorem status?_change {f : Transaction → Transaction} (hf : ∀ t, (f t).status = t.status)
    (l : Ledger) (r r' : String) : (l.change r f).status? r' = l.status? r' := by
  unfold status?
  rw [find?_change]
  split
  · cases l.find? r' with
    | none => rfl
    | some t => exact congrArg some (hf t)
  · rfl

theorem status?_clear (l : Ledger) (r r' : String) : (l.clear r).status? r' = l.status? r' :=
  status?_change (f := fun t => { t with polling := false }) (fun _ => rfl) l r r'

end Store.Ledger

/-- A terminal status is written to an open row, and refused by one that has settled. -/
theorem Store.Memory.status?_update {m m' : Memory} {r : String} {s : Status} {written : Bool}
    (h : m.update r s = .ok (written, m')) (hs : s.isTerminal = true) :
    m'.ledger.status? r =
      (m.ledger.status? r).map fun old => if old.isTerminal then old else s := by
  rw [Memory.update_eq h]
  show (Ledger.find? _ r).map _ = ((m.ledger.find? r).map Transaction.status).map _
  rw [Ledger.find?_writeStatus]
  cases hfind : m.ledger.find? r with
  | none => simp
  | some t =>
    cases hterm : t.status.isTerminal with
    | true =>
      have hmay : m.ledger.mayTake r s = false := by
        simp [Ledger.mayTake, hfind, Status.canBecome_eq_false_of_isTerminal hterm]
      simp [hmay, hterm]
    | false =>
      have hmay : m.ledger.mayTake r s = true := Ledger.mayTake_eq_true.mpr
        ⟨t, hfind, Status.canBecome_of_open hterm (Status.ne_pending_of_isTerminal hs)⟩
      simp [hmay, hterm]

namespace Poll.Loop

variable {p : Pace} {stopping : Bool} {now id : Nat} {e : Event} {s s' : Store} {l l' : Limiter}
  {x x' : Loop} {t : Nat}

/-! ### Loops that were started too late -/

/-- What a loop does once the sign to stop is set, if it neither waits for anything nor has
    anything to write. -/
theorem Move.stopped (h : Move p true now id s l x e s' l' x') :
    match x.phase with
    | .fresh => x'.phase = .head ∨ (p.interval = 0 ∧ x'.phase = .killed)
    | .head => x'.phase = .clearing .cancelled
    | .clearing outcome => x'.phase = .ended outcome
    | .ended _ | .killed => False
    | _ => True := by
  cases h with
  | unpaced hp hpace =>
    rw [hp]
    exact Or.inr ⟨hpace, rfl⟩
  | begin hp =>
    rw [hp]
    exact Or.inl rfl
  | wait _ hstop => exact absurd hstop (by simp)
  | stop hp =>
    rcases hp with hp | ⟨hp, -⟩
    · rw [hp]
    · rw [hp]
      trivial
  | clear hp => rw [hp]
  | expire hp | tick hp | inquire hp | slotless hp | answered _ hp | unanswered hp | kill hp
  | giveBack hp | settle hp | unsettled hp | fail hp | unfailed hp =>
    rw [hp]
    trivial

/-- Where a loop stands after a number of steps if the sign to stop was set before it ran. -/
def late : Nat → Phase
  | 0 => .fresh
  | 1 => .head
  | 2 => .clearing .cancelled
  | _ => .ended .cancelled

/-- A loop that was started too late goes on as expected, or dies at once because there is no
    time between its ticks. -/
theorem Move.late (h : Move p true now id s l x e s' l' x') (hx : x.phase = late t) :
    x'.phase = Loop.late (t + 1) ∨ (p.interval = 0 ∧ x'.phase = .killed) := by
  have hstopped := h.stopped
  rw [hx] at hstopped
  match t with
  | 0 => exact hstopped
  | 1 => exact Or.inl hstopped
  | 2 => exact Or.inl hstopped
  | t + 3 => exact False.elim hstopped

/-- A loop that was started too late can always take its next step, until it has ended. -/
theorem isSome_step_of_late (hx : x.phase = late t) (ht : t < 3) :
    (x.step p true now id .turn s l).isSome = true := by
  match t, ht with
  | 0, _ =>
    have hp : x.phase = .fresh := hx
    simp only [step, hp]
    split <;> rfl
  | 1, _ =>
    have hp : x.phase = .head := hx
    simp [step, hp]
  | 2, _ =>
    have hp : x.phase = .clearing .cancelled := hx
    simp [step, hp]

/-- Whether a loop is over, or stands where one does that was started too late. -/
def isSubdued (x : Loop) : Bool :=
  match x.phase with
  | .fresh | .head | .clearing .cancelled | .ended _ | .killed => true
  | _ => false

theorem isSubdued_of_finished (h : x.isFinished = true) : x.isSubdued = true := by
  cases hp : x.phase <;> simp [isFinished, isSubdued, hp] at h ⊢

theorem isSubdued_of_late (h : x.phase = late t) : x.isSubdued = true := by
  match t with
  | 0 | 1 | 2 | t + 3 => simp [isSubdued, h, late]

theorem phase_ne_inquiring_of_subdued (h : x.isSubdued = true) : x.phase ≠ .inquiring := by
  intro hp
  simp [isSubdued, hp] at h

/-- Once the sign to stop is set, a subdued loop stays so. -/
theorem Move.subdued (h : Move p true now id s l x e s' l' x') (hx : x.isSubdued = true) :
    x'.isSubdued = true := by
  have hstopped := h.stopped
  cases hp : x.phase with
  | fresh =>
    rw [hp] at hstopped
    rcases hstopped with hp' | ⟨-, hp'⟩ <;> simp [isSubdued, hp']
  | head =>
    rw [hp] at hstopped
    simp [isSubdued, show x'.phase = _ from hstopped]
  | clearing outcome =>
    rw [hp] at hstopped
    simp [isSubdued, show x'.phase = _ from hstopped]
  | ended | killed =>
    rw [hp] at hstopped
    exact False.elim hstopped
  | waiting | slotWait | inquiring | returning | settling | expiring =>
    simp [isSubdued, hp] at hx

/-- A loop that takes a step is not over. -/
theorem Move.isFinished (h : Move p stopping now id s l x e s' l' x') : x.isFinished = false := by
  cases h with
  | stop hp => rcases hp with hp | ⟨hp, -⟩ <;> simp [Loop.isFinished, hp]
  | unpaced hp | begin hp | wait hp | expire hp | tick hp | inquire hp | slotless hp
  | answered _ hp | unanswered hp | kill hp | giveBack hp | settle hp | unsettled hp | fail hp
  | unfailed hp | clear hp => simp [Loop.isFinished, hp]

theorem endInquiry_ne_killed (l : Limiter) (x : Loop) (answer : Option Status) :
    (endInquiry l x answer).2.phase ≠ .killed := by
  rcases endInquiry_loop l x answer with h | h
  · simp [h]
  · cases answer <;> simp [h, afterInquiry]

/-- A loop is killed while it inquires, or dies because there is no time between its ticks. -/
theorem Move.killed (h : Move p stopping now id s l x e s' l' x') (hx' : x'.phase = .killed) :
    p.interval = 0 ∨ e = .crash := by
  cases h with
  | unpaced _ hpace => exact Or.inl hpace
  | kill => exact Or.inr rfl
  | answered | unanswered => exact absurd hx' (endInquiry_ne_killed _ _ _)
  | @giveBack answer => cases answer <;> simp [afterInquiry] at hx'
  | _ => simp at hx'

/-! ### Outcomes -/

/-- The outcome of a loop, from the moment on in which it is decided. -/
def outcome? (x : Loop) : Option Outcome :=
  match x.phase with
  | .clearing o | .ended o => some o
  | _ => none

@[simp] theorem outcome?_endInquiry (l : Limiter) (x : Loop) (answer : Option Status) :
    (endInquiry l x answer).2.outcome? = none := by
  rcases endInquiry_loop l x answer with h | h
  · rw [h]
    rfl
  · rw [h]
    cases answer <;> rfl

/-! ### Loops that have written nothing -/

/-- A loop that is not at an end that follows a status write. -/
def Untouching (x : Loop) : Prop :=
  ∀ o, x.phase = .clearing o ∨ x.phase = .ended o → o = .cancelled

theorem untouching_of_late (hx : x.phase = late t) : x.Untouching := by
  intro o ho
  rw [hx] at ho
  match t with
  | 0 | 1 => simp [late] at ho
  | 2 | t + 3 => simpa [late, eq_comm] using ho

/-- The step of a loop that may change a status leads to an end of its own kind; all others
    leave every status as it is. -/
theorem Move.status? (h : Move p stopping now id s l x e s' l' x') :
    (x.isSubdued = false ∧ ¬ x'.Untouching) ∨
      ∀ r, s'.memory.ledger.status? r = s.memory.ledger.status? r := by
  cases h with
  | @settle status _ _ hp =>
    refine Or.inl ⟨by simp [isSubdued, hp], fun hx' => ?_⟩
    exact absurd (hx' (.settled status) (Or.inl rfl)) (by simp)
  | fail hp =>
    refine Or.inl ⟨by simp [isSubdued, hp], fun hx' => ?_⟩
    exact absurd (hx' .timedOut (Or.inl rfl)) (by simp)
  | clear => exact Or.inr fun r => Store.Ledger.status?_clear _ _ _
  | _ => exact Or.inr fun _ => rfl

/-- A loop that has ended without a status write was never at another end. -/
theorem Move.untouching (h : Move p stopping now id s l x e s' l' x') (hx' : x'.Untouching) :
    x.Untouching := by
  rintro o (ho | ho)
  · -- the next step of a loop at an end is to end
    cases h with
    | clear hp =>
      obtain rfl := Phase.clearing.inj (hp.symm.trans ho)
      exact hx' _ (Or.inr rfl)
    | stop hp => rcases hp with hp | ⟨hp, -⟩ <;> simp [hp] at ho
    | unpaced hp | begin hp | wait hp | expire hp | tick hp | inquire hp | slotless hp
    | answered _ hp | unanswered hp | kill hp | giveBack hp | settle hp | unsettled hp | fail hp
    | unfailed hp => simp [hp] at ho
  · exact absurd ho ((holds?_eq_some h.holds?).2 o)

end Poll.Loop

end TopUp
