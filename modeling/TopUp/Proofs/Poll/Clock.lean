import TopUp.Proofs.Poll.Budget
import TopUp.Proofs.Poll.Stopping
import TopUp.Proofs.Run

/-! # A poll loop under a clock

    A loop that nobody asks to stop, in a world that does as it likes: between any two of
    its steps other tasks change the store and the gateway budget in whatever way, and the
    gateway answers when it wants to, or never. Only the clock keeps to a rule. It stands
    still while the loop can take its turn, and it does not pass the moment at which time
    alone lets the loop go on (`Watch.act`).

    Three guards look at the deadline: the wait for the next tick, the wait for a slot and
    the wait for an answer. So time never passes the deadline of a loop that is not over
    (`Timely`), and since every tick moves the next one on, a loop takes a bounded number of
    steps (`Watch.left`). Together: a loop ends by its deadline, whatever the world does
    (`loop_ends_by_deadline`).
-/

namespace TopUp.Poll

open TopUp.Store

/-! ### State and actions -/

/-- A loop, the clock, and what the loop shares with other tasks. -/
structure Watch where
  /-- The time. -/
  now : Nat
  /-- The store. -/
  memory : Memory
  /-- The gateway budget. -/
  limiter : Limiter
  /-- The loop. -/
  loop : Loop

namespace Watch

/-- What can happen to a loop and around it. -/
inductive Action where
  /-- The loop takes a step. -/
  | step (e : Event)
  /-- Time passes. -/
  | wait (time : Nat)
  /-- Other tasks change the store and the gateway budget. -/
  | world (memory : Memory) (limiter : Limiter)

/-- Whether an action is the doing of other tasks. -/
def Action.isWorld : Action → Bool
  | .world .. => true
  | .step _ | .wait _ => false

/-- A loop for a reference that has just been started. -/
def start (now : Nat) (memory : Memory) (limiter : Limiter) (reference : String) : Watch :=
  { now, memory, limiter, loop := { reference } }

section

variable (p : Pace) (id : Nat)

/-- One step of the loop, which has the given number. -/
def step? (e : Event) (w : Watch) : Option Watch :=
  (w.loop.step p false w.now id e ⟨w.memory, []⟩ w.limiter).map fun (s, limiter, loop) =>
    { w with memory := s.memory, limiter, loop }

/-- One action, if it is possible. -/
def act : Action → Watch → Option Watch
  | .step e, w => w.step? p id e
  | .wait time, w =>
    if w.now < time ∧ w.step? p id .turn = none ∧ ∀ due ∈ w.loop.due?, time ≤ due then
      some { w with now := time }
    else none
  | .world memory limiter, w => some { w with memory, limiter }

end

end Watch

/-! ### What a loop waits for -/

namespace Loop

variable {p : Pace} {stopping : Bool} {now id : Nat} {e : Event} {s s' : Store} {l l' : Limiter}
  {x x' : Loop}

/-- A loop that cannot take its turn. -/
inductive Waits (now id : Nat) (l : Limiter) (x : Loop) : Prop where
  /-- It is over. -/
  | finished (hx : x.isFinished = true)
  /-- Neither its next tick nor its deadline has come. -/
  | tick (hp : x.phase = .waiting) (hdue : now < x.deadline) (htick : now < x.nextTick)
  /-- It was not granted a slot, and its deadline has not come. -/
  | slot (hp : x.phase = .slotWait) (hgranted : l.isGranted id = false) (hdue : now < x.deadline)
  /-- It has not been answered, and its deadline has not come. -/
  | answer (hp : x.phase = .inquiring) (hdue : now < x.deadline)

theorem waits_of_step (h : x.step p stopping now id .turn s l = none) : Waits now id l x := by
  cases hp : x.phase with
  | fresh =>
    simp only [step, hp] at h
    split at h <;> exact absurd h (by simp)
  | waiting =>
    simp only [step, hp] at h
    split at h
    · exact absurd h (by simp)
    · next hdue =>
      split at h
      · exact absurd h (by simp)
      · split at h
        · exact absurd h (by simp)
        · next htick => exact .tick hp (Nat.lt_of_not_le hdue) (Nat.lt_of_not_le htick)
  | slotWait =>
    simp only [step, hp] at h
    split at h
    · exact absurd h (by simp)
    · next hgranted =>
      split at h
      · exact absurd h (by simp)
      · next hdue => exact .slot hp (by simpa using hgranted) (Nat.lt_of_not_le hdue)
  | inquiring =>
    simp only [step, hp] at h
    split at h
    · exact absurd h (by simp)
    · next hdue => exact .answer hp (Nat.lt_of_not_le hdue)
  | settling status =>
    simp only [step, hp] at h
    split at h <;> exact absurd h (by simp)
  | head | returning | expiring | clearing => exact absurd h (by simp [step, hp])
  | ended | killed => exact .finished (by simp [isFinished, hp])

/-- Whatever else a loop waits for, time alone lets it go on: at its deadline or before. -/
theorem Waits.due? (h : Waits now id l x) (hx : x.isFinished = false) :
    ∃ due, x.due? = some due ∧ now < due ∧ due ≤ x.deadline := by
  cases h with
  | finished hover => exact absurd (hover.symm.trans hx) (by simp)
  | tick hp hdue htick =>
    exact ⟨min x.deadline x.nextTick, by simp [Loop.due?, hp], by omega, by omega⟩
  | slot hp _ hdue => exact ⟨x.deadline, by simp [Loop.due?, hp], hdue, Nat.le_refl _⟩
  | answer hp hdue => exact ⟨x.deadline, by simp [Loop.due?, hp], hdue, Nat.le_refl _⟩

/-- A loop that waits has begun, is not about to give up and has been told nothing. -/
theorem Waits.unhurried (h : Waits now id l x) :
    x.phase ≠ .fresh ∧ x.phase ≠ .expiring ∧ x.told? = none := by
  cases h with
  | finished hx => cases hp : x.phase <;> simp [isFinished, told?, hp] at hx ⊢
  | tick hp | slot hp | answer hp => simp [told?, hp]

/-! ### Deadlines and outcomes -/

theorem endInquiry_deadline (l : Limiter) (x : Loop) (answer : Option Status) :
    (endInquiry l x answer).2.deadline = x.deadline := by
  rcases endInquiry_loop l x answer with h | h <;> rw [h]

theorem endInquiry_ne_fresh (l : Limiter) (x : Loop) (answer : Option Status) :
    (endInquiry l x answer).2.phase ≠ .fresh := by
  rcases endInquiry_loop l x answer with h | h
  · simp [h]
  · cases answer <;> simp [h, afterInquiry]

/-- A loop that has taken a step has begun. -/
theorem Move.ne_fresh (h : Move p stopping now id s l x e s' l' x') : x'.phase ≠ .fresh := by
  cases h with
  | answered | unanswered => exact endInquiry_ne_fresh _ _ _
  | @giveBack answer => cases answer <;> simp [afterInquiry]
  | _ => simp

/-- The deadline of a loop is set when it begins, and never moved. -/
theorem Move.deadline_eq (h : Move p stopping now id s l x e s' l' x') (hpace : 0 < p.interval) :
    x'.deadline = if x.phase = .fresh then now + p.deadline else x.deadline := by
  cases h with
  | unpaced _ hzero => exact absurd hzero (Nat.ne_of_gt hpace)
  | begin hp => rw [if_pos hp]
  | answered _ hp | unanswered hp => rw [endInquiry_deadline, if_neg (by simp [hp])]
  | stop hp =>
    rcases hp with hp | ⟨hp, -⟩
    · rw [if_neg (by simp [hp])]
    · rw [if_neg (by simp [hp])]
  | wait hp | expire hp | tick hp | inquire hp | slotless hp | kill hp | giveBack hp | settle hp
  | unsettled hp | fail hp | unfailed hp | clear hp => rw [if_neg (by simp [hp])]

/-- The outcome of a loop that is not asked to stop is decided when it has written what the
    gateway told it, or when it has given up. -/
theorem Move.outcome? (h : Move p false now id s l x e s' l' x') {o : Outcome}
    (ho : x'.outcome? = some o) : x.outcome? = some o ∨ x.outcome? = none ∧
      ((∃ status, o = .settled status ∧ x.told? = some status) ∨
        (o = .timedOut ∧ x.phase = .expiring)) := by
  cases h with
  | stop _ hstop => exact absurd hstop (by simp)
  | answered | unanswered => exact absurd ho (by simp)
  | @giveBack answer => cases answer <;> exact absurd ho (by simp [Loop.outcome?, afterInquiry])
  | @settle status _ _ hp =>
    obtain rfl : Outcome.settled status = o := by simpa [Loop.outcome?] using ho
    exact Or.inr ⟨by simp [Loop.outcome?, hp], Or.inl ⟨status, rfl, by simp [told?, hp]⟩⟩
  | fail hp | unfailed hp =>
    obtain rfl : Outcome.timedOut = o := by simpa [Loop.outcome?] using ho
    exact Or.inr ⟨by simp [Loop.outcome?, hp], Or.inr ⟨rfl, hp⟩⟩
  | clear hp => exact Or.inl (by simpa [Loop.outcome?, hp] using ho)
  | _ => exact absurd ho (by simp [Loop.outcome?])

theorem endInquiry_ne_ended (l : Limiter) (x : Loop) (answer : Option Status) (o : Outcome) :
    (endInquiry l x answer).2.phase ≠ .ended o := by
  intro hp
  have hnone := outcome?_endInquiry l x answer
  simp [Loop.outcome?, hp] at hnone

/-- A loop ends by taking its mark away. -/
theorem Move.ended (h : Move p stopping now id s l x e s' l' x') {o : Outcome}
    (hx : x'.phase = .ended o) :
    x.phase = .clearing o ∧ s'.memory.ledger = s.memory.ledger.clear x.reference := by
  cases h with
  | clear hp =>
    obtain rfl := Phase.ended.inj hx
    exact ⟨hp, rfl⟩
  | answered | unanswered => exact absurd hx (endInquiry_ne_ended _ _ _ _)
  | @giveBack answer => cases answer <;> simp [afterInquiry] at hx
  | _ => simp at hx

theorem isInquiring_endInquiry (l : Limiter) (x : Loop) (answer : Option Status) :
    (endInquiry l x answer).2.isInquiring = false := by
  rcases endInquiry_loop l x answer with h | h
  · rw [h]
    rfl
  · rw [h]
    cases answer <;> rfl

/-- A loop inquires from the step on in which it takes a slot that it was granted. -/
theorem Move.isInquiring (h : Move p stopping now id s l x e s' l' x') :
    x'.isInquiring = true ↔ e = .turn ∧ x.isQueuing = true ∧ l.isGranted id = true := by
  cases h with
  | inquire hp hgranted => simp [Loop.isInquiring, isQueuing, hp, hgranted]
  | slotless hp hgranted => simp [Loop.isInquiring, hgranted]
  | answered _ hp | unanswered hp => simp [isInquiring_endInquiry, isQueuing, hp]
  | @giveBack answer hp => cases answer <;> simp [Loop.isInquiring, isQueuing, afterInquiry, hp]
  | stop hp => rcases hp with hp | ⟨hp, -⟩ <;> simp [Loop.isInquiring, isQueuing, hp]
  | unpaced hp | begin hp | wait hp | expire hp | tick hp | kill hp | settle hp | unsettled hp
  | fail hp | unfailed hp | clear hp => simp [Loop.isInquiring, isQueuing, hp]

end Loop

/-! ### What is left to do -/

/-- The most steps that a loop still takes from a phase on if no tick comes any more. -/
def Phase.left : Phase → Nat
  | .slotWait => 8
  | .inquiring => 7
  | .returning _ => 6
  | .settling _ | .fresh => 5
  | .head => 4
  | .waiting => 3
  | .expiring => 2
  | .clearing _ => 1
  | .ended _ | .killed => 0

namespace Loop

variable {p : Pace} {now id : Nat} {e : Event} {s s' : Store} {l l' : Limiter} {x x' : Loop}

/-- A bound on what is left to do for a loop and its clock: the steps up to the next tick, those
    of the ticks that may come before the deadline, and the time until then. -/
def left (p : Pace) (now : Nat) (x : Loop) : Nat :=
  if x.phase = .fresh then 7 * p.deadline + 5
  else x.phase.left + 6 * (x.deadline - x.nextTick) + (x.deadline - now)

theorem left_lt_of_phase (hx : x.phase ≠ .fresh) (hx' : x'.phase ≠ .fresh)
    (hdeadline : x'.deadline = x.deadline) (htick : x'.nextTick = x.nextTick)
    (hlt : x'.phase.left < x.phase.left) : x'.left p now < x.left p now := by
  simp only [left, if_neg hx, if_neg hx', hdeadline, htick]
  omega

theorem left_endInquiry_lt (hp : x.phase = .inquiring) (l : Limiter) (answer : Option Status) :
    (endInquiry l x answer).2.left p now < x.left p now := by
  have hx : x.phase ≠ .fresh := by simp [hp]
  have hx' := endInquiry_ne_fresh l x answer
  rcases endInquiry_loop l x answer with h | h
  · rw [h] at hx' ⊢
    exact left_lt_of_phase hx hx' rfl rfl (by simp [hp, Phase.left])
  · rw [h] at hx' ⊢
    refine left_lt_of_phase hx hx' rfl rfl ?_
    cases answer <;> simp [hp, afterInquiry, Phase.left]

/-- A tick moves the next one on. -/
theorem lt_tickAfter (hpace : 0 < p.interval) {due : Nat} (hdue : due ≤ now) :
    due < tickAfter p.interval due now := by
  unfold tickAfter
  split <;> omega

/-- Every step of a loop that is not asked to stop leaves it less to do. -/
theorem Move.left_lt (h : Move p false now id s l x e s' l' x') (hpace : 0 < p.interval) :
    x'.left p now < x.left p now := by
  have hphase : ∀ {q : Phase}, x.phase ≠ .fresh → q ≠ .fresh → q.left < x.phase.left →
      ({ x with phase := q } : Loop).left p now < x.left p now := fun hx hq hlt =>
    left_lt_of_phase hx hq rfl rfl hlt
  cases h with
  | unpaced _ hzero => exact absurd hzero (Nat.ne_of_gt hpace)
  | begin hp =>
    simp only [left, hp, Phase.left]
    simp
    omega
  | stop _ hstop => exact absurd hstop (by simp)
  | tick hp hdue _ htick =>
    -- the phase has five steps more to go, for a tick that no longer lies ahead
    have hnext := lt_tickAfter hpace htick
    simp only [left, hp, Phase.left]
    simp
    omega
  | answered _ hp | unanswered hp => exact left_endInquiry_lt hp _ _
  | @giveBack answer hp =>
    refine hphase (by simp [hp]) ?_ ?_
    · cases answer <;> simp [afterInquiry]
    · cases answer <;> simp [hp, afterInquiry, Phase.left]
  | wait hp | expire hp | inquire hp | slotless hp | kill hp | settle hp | unsettled hp | fail hp
  | unfailed hp | clear hp => exact hphase (by simp [hp]) (by simp) (by simp [hp, Phase.left])

theorem left_le_of_time {time : Nat} (hle : now ≤ time) : x.left p time ≤ x.left p now := by
  unfold left
  split
  · exact Nat.le_refl _
  · omega

/-- Time that passes leaves less to do. -/
theorem left_lt_of_time {time : Nat} (hx : x.phase ≠ .fresh) (hlt : now < time)
    (hdue : time ≤ x.deadline) : x.left p time < x.left p now := by
  simp only [left, if_neg hx]
  omega

end Loop

/-! ### Steps and runs -/

namespace Watch

variable {p : Pace} {id started : Nat} {w w' : Watch} {a : Action} {tr : List (Watch × Action)}
  {m : Memory} {l : Limiter} {r : String}

/-- What an action can do. -/
inductive Step (p : Pace) (id : Nat) (w : Watch) : Action → Watch → Prop where
  /-- The loop makes one of its moves. -/
  | move {e : Event} {s : Store} {limiter : Limiter} {loop : Loop}
      (hmove : Loop.Move p false w.now id ⟨w.memory, []⟩ w.limiter w.loop e s limiter loop) :
      Step p id w (.step e) { w with memory := s.memory, limiter, loop }
  /-- Time passes, for the loop has to wait. -/
  | wait {time : Nat} (hlt : w.now < time) (hwaits : w.loop.Waits w.now id w.limiter)
      (hdue : ∀ due, w.loop.due? = some due → time ≤ due) :
      Step p id w (.wait time) { w with now := time }
  /-- Other tasks do as they like. -/
  | world (memory : Memory) (limiter : Limiter) :
      Step p id w (.world memory limiter) { w with memory, limiter }

theorem waits_of_turn (h : w.step? p id .turn = none) : w.loop.Waits w.now id w.limiter :=
  Loop.waits_of_step (Option.map_eq_none_iff.mp h)

/-- Everything that an action does is in the list. -/
theorem step_of_act (h : act p id a w = some w') : Step p id w a w' := by
  cases a with
  | step e =>
    obtain ⟨⟨s, limiter, loop⟩, hstep, rfl⟩ := Option.map_eq_some_iff.mp h
    exact .move (Loop.move_of_step rfl hstep)
  | wait time =>
    simp only [act] at h
    split at h
    · next hwait =>
      obtain rfl := Option.some.inj h
      exact .wait hwait.1 (waits_of_turn hwait.2.1) hwait.2.2
    · exact absurd h (by simp)
  | world memory limiter =>
    obtain rfl := Option.some.inj h
    exact .world memory limiter

/-- The loop can take its turn, or the clock can move on. -/
theorem exists_act (hx : w.loop.isFinished = false) :
    (act p id (.step .turn) w).isSome = true ∨ ∃ time, (act p id (.wait time) w).isSome = true := by
  cases hturn : w.step? p id .turn with
  | some w' => exact Or.inl (by simp [act, hturn])
  | none =>
    obtain ⟨due, hdue, hlt, -⟩ := (waits_of_turn hturn).due? hx
    exact Or.inr ⟨due, by simp [act, hturn, hdue, hlt]⟩

/-! ### Time -/

/-- The gateway answers an inquiry with a status. -/
def Answers (status : Status) (e : Watch × Action) : Prop :=
  e.1.loop.phase = .inquiring ∧ ∃ o, e.2 = .step (.answer (.ok o)) ∧ o.status = status

/-- What is known of a loop that was started at a moment, once what is in the trace has happened. -/
structure Timely (p : Pace) (started : Nat) (tr : List (Watch × Action)) (w : Watch) : Prop where
  /-- It begins at once. -/
  fresh : w.loop.phase = .fresh → w.now = started
  /-- Its lifetime runs from its beginning. -/
  deadline : w.loop.phase ≠ .fresh → w.loop.deadline = started + p.deadline
  /-- It is over before time passes its deadline. -/
  inTime : w.loop.isFinished = false → w.now ≤ started + p.deadline
  /-- It does not give up before its deadline. -/
  expiring : w.loop.phase = .expiring → w.now = started + p.deadline
  /-- What it was told, it was told just now. -/
  told : ∀ status, w.loop.told? = some status →
    status.isTerminal = true ∧ ∃ e ∈ tr, Answers status e ∧ e.1.now = w.now

theorem timely_start (p : Pace) (started : Nat) (m : Memory) (l : Limiter) (r : String) :
    Timely p started [] (start started m l r) where
  fresh _ := rfl
  deadline hx := absurd rfl hx
  inTime _ := Nat.le_add_right _ _
  expiring hx := absurd hx (by simp [start])
  told status ht := absurd ht (by simp [start, Loop.told?])

theorem Timely.step (h : Timely p started tr w) (hpace : 0 < p.interval) (hs : Step p id w a w') :
    Timely p started (tr ++ [(w, a)]) w' := by
  cases hs with
  | @move e s limiter loop hmove =>
    have hunfinished : w.loop.isFinished = false := hmove.isFinished
    refine ⟨fun hx => absurd hx hmove.ne_fresh, fun _ => ?_, fun _ => h.inTime hunfinished,
      fun hx => ?_, fun status ht => ?_⟩
    · rw [hmove.deadline_eq hpace]
      by_cases hp : w.loop.phase = .fresh
      · rw [if_pos hp, h.fresh hp]
      · rw [if_neg hp, h.deadline hp]
    · -- it gives up when its deadline has come, and time has not passed it
      obtain ⟨-, hp, hdue⟩ := hmove.expiring hx
      rw [h.deadline (by simp [hp])] at hdue
      exact Nat.le_antisymm (h.inTime hunfinished) hdue
    · rcases hmove.told ht with hold | ⟨hterm, hp, o, rfl, ho⟩
      · obtain ⟨hterm, e', he', hanswers⟩ := h.told status hold
        exact ⟨hterm, e', List.mem_append_left _ he', hanswers⟩
      · have hlast : (w, Action.step (.answer (.ok o))) ∈ tr ++ [(w, .step (.answer (.ok o)))] :=
          List.mem_concat_self
        exact ⟨hterm, _, hlast, ⟨hp, o, rfl, ho⟩, rfl⟩
  | @wait time hlt hwaits hdue =>
    obtain ⟨hfresh, hexpiring, htold⟩ := hwaits.unhurried
    refine ⟨fun hx => absurd hx hfresh, h.deadline, fun hx => ?_, fun hx => absurd hx hexpiring,
      fun status ht => absurd (htold.symm.trans ht) (by simp)⟩
    obtain ⟨due, hsome, -, hle⟩ := hwaits.due? hx
    rw [← h.deadline hfresh]
    exact Nat.le_trans (hdue due hsome) hle
  | world memory limiter =>
    refine ⟨h.fresh, h.deadline, h.inTime, h.expiring, fun status ht => ?_⟩
    obtain ⟨hterm, e', he', hanswers⟩ := h.told status ht
    exact ⟨hterm, e', List.mem_append_left _ he', hanswers⟩

theorem timely_of_run (hpace : 0 < p.interval) (h : Run (act p id) (start started m l r) tr w) :
    Timely p started tr w := by
  induction h with
  | nil => exact timely_start p started m l r
  | snoc _ hact ih => exact ih.step hpace (step_of_act hact)

/-- The loop stays with its transaction. -/
theorem reference_of_run (h : Run (act p id) (start started m l r) tr w) :
    w.loop.reference = r := by
  induction h with
  | nil => rfl
  | snoc _ hact ih =>
    cases step_of_act hact with
    | move hmove => exact hmove.reference_eq.trans ih
    | wait => exact ih
    | world => exact ih

/-! ### Steps that are left -/

/-- Whether an entry of a trace is a step of the loop, or time that passes for it before it is
    over. -/
def isSpent (e : Watch × Action) : Bool := !e.2.isWorld && !e.1.loop.isFinished

theorem Step.left_le (h : Step p id w a w') (hpace : 0 < p.interval) :
    w'.loop.left p w'.now + (isSpent (w, a)).toNat ≤ w.loop.left p w.now := by
  cases h with
  | @move e _ _ _ hmove =>
    have hlt := hmove.left_lt hpace
    have hone := Bool.toNat_le (isSpent (w, .step e))
    exact Nat.le_trans (Nat.add_le_add_left hone _) hlt
  | @wait time hlt hwaits hdue =>
    show Loop.left p time w.loop + _ ≤ _
    cases hx : w.loop.isFinished with
    | true => simpa [isSpent, hx] using Loop.left_le_of_time (Nat.le_of_lt hlt)
    | false =>
      obtain ⟨due, hsome, -, hle⟩ := hwaits.due? hx
      have hless := Loop.left_lt_of_time (p := p) hwaits.unhurried.1 hlt
        (Nat.le_trans (hdue due hsome) hle)
      have hone := Bool.toNat_le (isSpent (w, .wait time))
      omega
  | world => simp [isSpent, Action.isWorld]

/-- However the world interferes, a loop and its clock have little to do. -/
theorem spent_le (hpace : 0 < p.interval) (h : Run (act p id) (start started m l r) tr w) :
    tr.countP isSpent + w.loop.left p w.now ≤ 7 * p.deadline + 5 := by
  induction h with
  | nil => exact Nat.le_of_eq (Nat.zero_add _)
  | @snoc tr w w' a hrun hact ih =>
    have hle := (step_of_act hact).left_le hpace
    rw [countP_snoc]
    omega

/-! ### Inquiries -/

/-- An inquiry begins. -/
def inquires (id : Nat) : Watch × Action → Bool
  | (w, .step .turn) => w.loop.isQueuing && w.limiter.isGranted id
  | _ => false

/-- An inquiry is over: it was answered, cut off or killed. -/
def concludes : Watch × Action → Bool
  | (w, .step _) => w.loop.isInquiring
  | _ => false

theorem Step.inquiries (h : Step p id w a w') :
    w'.loop.isInquiring.toNat + (concludes (w, a)).toNat =
      w.loop.isInquiring.toNat + (inquires id (w, a)).toNat := by
  cases h with
  | @move e _ _ loop hmove =>
    have hbegins : loop.isInquiring = inquires id (w, .step e) := by
      rw [Bool.eq_iff_iff, hmove.isInquiring]
      cases e <;> simp [inquires]
    show loop.isInquiring.toNat + w.loop.isInquiring.toNat = _
    rw [hbegins, Nat.add_comm]
  | wait | world => rfl

/-- At any moment the inquiries that were begun are those that are over, and the one in flight, if
    there is one. -/
theorem inquiries_of_run (h : Run (act p id) (start started m l r) tr w) :
    tr.countP (inquires id) = tr.countP concludes + w.loop.isInquiring.toNat := by
  induction h with
  | nil => rfl
  | @snoc tr w w' a hrun hact ih =>
    have hstep := (step_of_act hact).inquiries
    rw [countP_snoc, countP_snoc]
    omega

/-- A loop that begins an inquiry waits for its slot, so it has no inquiry in flight. -/
theorem phase_of_inquires {e : Watch × Action} (h : inquires id e = true) :
    e.1.loop.phase = .slotWait := by
  obtain ⟨w, a⟩ := e
  cases a with
  | step e =>
    cases e with
    | turn => simpa [Loop.isQueuing] using (Bool.and_eq_true_iff.mp h).1
    | answer | crash => exact absurd h (by simp [inquires])
  | wait | world => exact absurd h (by simp [inquires])

theorem concludes_of_idle {e : Watch × Action} (h : e.1.loop.isInquiring = false) :
    concludes e = false := by
  obtain ⟨w, a⟩ := e
  cases a with
  | step => exact h
  | wait | world => rfl

/-- Between the beginnings of two inquiries the first one ends. -/
theorem concluded_between {tr₁ tr₂ : List (Watch × Action)} {b b' : Watch × Action}
    (h : Run (act p id) (start started m l r) (tr₁ ++ b :: tr₂) b'.1) (hb : inquires id b = true)
    (hb' : inquires id b' = true) : ∃ e ∈ tr₂, concludes e = true := by
  have hidle : ∀ {e : Watch × Action}, inquires id e = true → e.1.loop.isInquiring = false := by
    intro e he
    simp [Loop.isInquiring, phase_of_inquires he]
  -- nothing is in flight at either moment, so all that was begun before has ended before
  have hbefore := inquiries_of_run (h.split rfl).1
  have hafter := inquiries_of_run h
  rw [hidle hb] at hbefore
  rw [hidle hb', List.countP_append, List.countP_append, List.countP_cons_of_pos hb,
    List.countP_cons_of_neg (by simp [concludes_of_idle (hidle hb)])] at hafter
  have hpos : 0 < tr₂.countP concludes := by
    simp only [Bool.toNat_false] at hbefore hafter
    omega
  exact List.countP_pos_iff.mp hpos

/-! ### Outcomes -/

/-- The outcome of the loop is decided. -/
def Decides (p : Pace) (id : Nat) (o : Outcome) (e : Watch × Action) : Prop :=
  e.1.loop.outcome? = none ∧ ∃ w', act p id e.2 e.1 = some w' ∧ w'.loop.outcome? = some o

/-- The loop ends. -/
def Returns (p : Pace) (id : Nat) (o : Outcome) (e : Watch × Action) : Prop :=
  e.1.loop.isFinished = false ∧ ∃ w', act p id e.2 e.1 = some w' ∧ w'.loop.phase = .ended o

/-- The moment in which an outcome may be decided, after what is in the trace: the loop gives up
    at its deadline, and settles when it was told a terminal status. -/
def Due (p : Pace) (started : Nat) (tr : List (Watch × Action)) (now : Nat) : Outcome → Prop
  | .settled status => status.isTerminal = true ∧ ∃ e ∈ tr, Answers status e ∧ e.1.now = now
  | .timedOut => now = started + p.deadline
  | .cancelled => False

theorem Timely.decides (h : Timely p started tr w) {o : Outcome} (hd : Decides p id o (w, a)) :
    w.now ≤ started + p.deadline ∧ Due p started tr w.now o := by
  obtain ⟨hnone, w', hact, ho⟩ := hd
  cases step_of_act hact with
  | move hmove =>
    refine ⟨h.inTime hmove.isFinished, ?_⟩
    rcases hmove.outcome? ho with hold | ⟨-, ⟨status, rfl, htold⟩ | ⟨rfl, hp⟩⟩
    · exact absurd (hnone.symm.trans hold) (by simp)
    · exact h.told status htold
    · exact h.expiring hp
  | wait | world => exact absurd (hnone.symm.trans ho) (by simp)

/-- An outcome was decided at some moment. -/
theorem exists_decides (h : Run (act p id) (start started m l r) tr w) {o : Outcome}
    (ho : w.loop.outcome? = some o) : ∃ e ∈ tr, Decides p id o e := by
  obtain ⟨⟨w₀, a⟩, he, hold, w₁, hact, hnew⟩ :=
    h.exists_change (q := fun w => w.loop.outcome? = some o) (by simp [start, Loop.outcome?]) ho
  refine ⟨(w₀, a), he, ?_, w₁, hact, hnew⟩
  cases step_of_act hact with
  | move hmove => exact ((hmove.outcome? hnew).resolve_left hold).1
  | wait | world => exact absurd hnew hold

/-- A loop that has ended did so in one of its steps. -/
theorem exists_returns (h : Run (act p id) (start started m l r) tr w) {o : Outcome}
    (ho : w.loop.phase = .ended o) : ∃ e ∈ tr, Returns p id o e := by
  obtain ⟨⟨w₀, a⟩, he, hold, w₁, hact, hnew⟩ :=
    h.exists_change (q := fun w => w.loop.phase = .ended o) (by simp [start]) ho
  refine ⟨(w₀, a), he, ?_, w₁, hact, hnew⟩
  cases step_of_act hact with
  | move hmove => exact hmove.isFinished
  | wait | world => exact absurd hnew hold

/-- A loop is killed only while the gateway has its inquiry. -/
theorem exists_crash (hpace : 0 < p.interval) (h : Run (act p id) (start started m l r) tr w)
    (hp : w.loop.phase = .killed) : ∃ e ∈ tr, e.2 = .step .crash := by
  obtain ⟨⟨w₀, a⟩, he, hold, w₁, hact, hnew⟩ :=
    h.exists_change (q := fun w => w.loop.phase = .killed) (by simp [start]) hp
  refine ⟨(w₀, a), he, ?_⟩
  cases step_of_act hact with
  | move hmove =>
    obtain rfl := (hmove.killed hnew).resolve_left (Nat.ne_of_gt hpace)
    rfl
  | wait | world => exact absurd hnew hold

/-- The step in which a loop returns is the one that takes its mark away. -/
theorem Returns.clears {e : Watch × Action} {o : Outcome} (h : Returns p id o e) :
    e.1.loop.phase = .clearing o ∧ ∃ w', act p id e.2 e.1 = some w' ∧
      w'.memory.ledger = e.1.memory.ledger.clear e.1.loop.reference := by
  obtain ⟨w, a⟩ := e
  obtain ⟨hunfinished, w', hact, hended⟩ := h
  cases step_of_act hact with
  | move hmove =>
    obtain ⟨hp, hclear⟩ := hmove.ended hended
    exact ⟨hp, _, hact, hclear⟩
  | wait | world =>
    have hp : w.loop.phase = .ended o := hended
    exact absurd hunfinished (by simp [Loop.isFinished, hp])

/-- The mark of a loop is gone when it ends. -/
theorem unmarked_of_returns {e : Watch × Action} {o : Outcome} (hr : e.1.loop.reference = r)
    (h : Returns p id o e) :
    ∃ w', act p id e.2 e.1 = some w' ∧ w'.memory.ledger.marked r = false := by
  obtain ⟨-, w', hact, hclear⟩ := h.clears
  refine ⟨w', hact, ?_⟩
  rw [hclear, hr]
  simp [Ledger.marked_clear]

/-! ### The end of a loop -/

/-- Left to itself and the clock, a loop comes to its end. -/
theorem exists_end (hpace : 0 < p.interval) (w : Watch) :
    ∃ tr w', Run (act p id) w tr w' ∧ w'.loop.isFinished = true ∧
      ∀ e ∈ tr, e.2 = .step .turn ∨ ∃ time, e.2 = .wait time := by
  induction hleft : w.loop.left p w.now using Nat.strongRecOn generalizing w with
  | ind n ih =>
    cases hx : w.loop.isFinished with
    | true => exact ⟨[], w, .nil, hx, by simp⟩
    | false =>
      obtain ⟨a, hown, hsome⟩ : ∃ a : Action, (a = .step .turn ∨ ∃ time, a = .wait time) ∧
          (act p id a w).isSome = true := by
        rcases exists_act hx with hturn | ⟨time, hwait⟩
        · exact ⟨_, Or.inl rfl, hturn⟩
        · exact ⟨_, Or.inr ⟨time, rfl⟩, hwait⟩
      obtain ⟨w₁, hact⟩ := Option.isSome_iff_exists.mp hsome
      have hspent : isSpent (w, a) = true := by
        rcases hown with rfl | ⟨time, rfl⟩ <;> simp [isSpent, Action.isWorld, hx]
      -- whichever it is, less is left to do after it
      have hle := (step_of_act hact).left_le hpace
      rw [hspent, Bool.toNat_true, hleft] at hle
      obtain ⟨tr, w', hrun, hend, hothers⟩ := ih _ hle w₁ rfl
      exact ⟨(w, a) :: tr, w', .cons hact hrun, hend, List.forall_mem_cons.mpr ⟨hown, hothers⟩⟩

/-- A loop for a reference that was started at a moment keeps to its deadline, once what is in the
    trace has happened. -/
structure Punctual (p : Pace) (id started : Nat) (r : String) (tr : List (Watch × Action))
    (w : Watch) : Prop where
  /-- Until it is over, it and its clock have had few steps, whatever else has happened. -/
  spent : tr.countP isSpent ≤ 7 * p.deadline + 5
  /-- While it is not over, time has not passed its deadline, and it or its clock can go on. -/
  goesOn : w.loop.isFinished = false → w.now ≤ started + p.deadline ∧
    ((act p id (.step .turn) w).isSome = true ∨ ∃ time, (act p id (.wait time) w).isSome = true)
  /-- Left to itself and the clock, it comes to its end. -/
  ends : ∃ tr' w', Run (act p id) w tr' w' ∧ w'.loop.isFinished = true ∧
    ∀ e ∈ tr', e.2 = .step .turn ∨ ∃ time, e.2 = .wait time
  /-- When it is over, it has returned an outcome, unless it was killed while it inquired. -/
  finished : w.loop.isFinished = true →
    (∃ o, w.loop.phase = .ended o ∧ ∃ e ∈ tr, Returns p id o e) ∨ ∃ e ∈ tr, e.2 = .step .crash
  /-- An outcome was decided at some moment. -/
  decided : ∀ o, w.loop.outcome? = some o → ∃ e ∈ tr, Decides p id o e
  /-- Outcomes are decided by the deadline: at the deadline if it gives up, else in the moment in
      which an inquiry is answered with a terminal status. -/
  decides : ∀ tr₁ e tr₂ o, tr = tr₁ ++ e :: tr₂ → Decides p id o e →
    e.1.now ≤ started + p.deadline ∧ Due p started tr₁ e.1.now o
  /-- No inquiry begins after the deadline. -/
  inquires : ∀ e ∈ tr, inquires id e = true → e.1.now ≤ started + p.deadline
  /-- Of two inquiries, the first is over before the second begins. -/
  apart : ∀ tr₁ b tr₂ b' tr₃, tr = (tr₁ ++ b :: tr₂) ++ b' :: tr₃ → Watch.inquires id b = true →
    Watch.inquires id b' = true → ∃ e ∈ tr₂, concludes e = true
  /-- When it returns, its transaction is no longer marked. -/
  unmarked : ∀ e ∈ tr, ∀ o, Returns p id o e →
    ∃ w', act p id e.2 e.1 = some w' ∧ w'.memory.ledger.marked r = false

/-- Whatever other tasks do to the store and the gateway budget, and whenever the gateway answers
    or does not: a loop that is not asked to stop ends by its deadline. -/
theorem loop_ends_by_deadline (hpace : 0 < p.interval)
    (h : Run (act p id) (start started m l r) tr w) : Punctual p id started r tr w where
  spent := by
    have hle := spent_le hpace h
    omega
  goesOn hx := ⟨(timely_of_run hpace h).inTime hx, exists_act hx⟩
  ends := exists_end hpace w
  finished hx := by
    cases hp : w.loop.phase with
    | ended o => exact Or.inl ⟨o, rfl, exists_returns h hp⟩
    | killed => exact Or.inr (exists_crash hpace h hp)
    | _ => simp [Loop.isFinished, hp] at hx
  decided o ho := exists_decides h ho
  decides tr₁ e tr₂ o htr hd := (timely_of_run hpace (h.split htr).1).decides hd
  inquires e he hi := by
    obtain ⟨tr₁, tr₂, -, htr, hrun, -⟩ := h.of_mem he
    have hunfinished : e.1.loop.isFinished = false := by
      simp [Loop.isFinished, phase_of_inquires hi]
    exact (timely_of_run hpace hrun).inTime hunfinished
  apart tr₁ b tr₂ b' tr₃ htr hb hb' := concluded_between (h.split htr).1 hb hb'
  unmarked e he o hr := by
    obtain ⟨tr₁, tr₂, -, htr, hrun, -⟩ := h.of_mem he
    exact unmarked_of_returns (reference_of_run hrun) hr

/-- A store with one open payment that a loop attends to. -/
def attended (reference : String) : Memory :=
  let t := NewTransaction.opened
    { user := .nil, key := .ofNat 1, billReference := "B1", reference, method := .wallet,
      amount := 50000 } (.ofNat 1) 0
  { ledger := ({} : Ledger).put { t with polling := true } }

/-- A loop of four ticks. The first inquiry fails late. The second tick finds no slot free; the slot
    is granted at the deadline, so the second inquiry begins and is cut off at once. -/
def crowdedOut : List Action :=
  let busy : Limiter := { capacity := 1, permits := 0, inUse := 1 }
  [.step .turn, .step .turn, .wait 2, .step .turn, .step .turn, .wait 5,
    .step (.answer (.error (.timedOut 3))), .step .turn, .step .turn,
    .world (attended "T1") busy, .step .turn, .wait 8,
    .world (attended "T1") { busy with granted := [0] }, .step .turn, .step .turn, .step .turn,
    .step .turn, .step .turn, .step .turn, .step .turn]

/-- The loop gives up at its deadline all the same. -/
theorem crowdedOut_ends :
    let pace : Pace := { interval := 2, deadline := 8 }
    let run := Run.play (act pace 0) crowdedOut (start 0 (attended "T1") (.ofCapacity 1) "T1")
    0 < pace.interval ∧ run.2.loop.phase = .ended .timedOut ∧ run.2.now = 8 ∧
      (run.1.filter (inquires 0)).map (fun e => e.1.now) = [2, 8] ∧
      run.2.memory.ledger.marked "T1" = false ∧ Punctual pace 0 0 "T1" run.1 run.2 := by
  intro pace run
  have hrun : Run (act pace 0) _ run.1 run.2 := Run.of_play crowdedOut _
  exact ⟨by decide, by decide +kernel, by decide +kernel, by decide +kernel, by decide +kernel,
    loop_ends_by_deadline (by decide) hrun⟩

end Watch

end TopUp.Poll
