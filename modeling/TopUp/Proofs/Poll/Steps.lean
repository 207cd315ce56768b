import TopUp.Poll.Supervisor
import TopUp.Proofs.Store.Faultless
import TopUp.Proofs.Store.Traffic
import TopUp.Proofs.Store.Warrant

/-! # What poll loops do to a store

    Each step of a loop, and of the start of a loop, is one action of the traffic on
    the store: most of them leave the store alone. A loop writes a status only after
    the gateway has answered with it, or at its deadline.
-/

namespace TopUp.Poll

open TopUp.Data TopUp.Store

variable {s s' : Store} {u : Nat → Option UnitOfWork}

/-! ### Starting -/

/-- What the next step of a start does on the store. -/
def Start.storeAction (reference : String) : Start → Traffic.Action
  | .claiming => .claim reference
  | _ => .read

/-- What one step of a start can do over a store without faults. -/
inductive Start.Move (reference : String) (v : Supervisor) (s : Store) :
    Start → Supervisor → Store → Start → Prop where
  /-- The supervisor is shut down, or a loop of its own attends already. -/
  | refuse (h : v.stopping = true ∨ v.attends reference = true) :
      Move reference v s .checking v s (.done false)
  /-- Nothing is in the way of the start. -/
  | pass (hstop : v.stopping = false) (hattends : v.attends reference = false) :
      Move reference v s .checking v s .claiming
  /-- The transaction is marked. -/
  | claim (hclaim : (s.memory.claim reference).1 = true) :
      Move reference v s .claiming v { s with memory := (s.memory.claim reference).2 } .spawning
  /-- The transaction is marked already, or there is none. -/
  | lose (hclaim : (s.memory.claim reference).1 = false) :
      Move reference v s .claiming v { s with memory := (s.memory.claim reference).2 }
        (.done false)
  /-- The loop is started. -/
  | spawn : Move reference v s .spawning (v.spawn reference) s (.done true)

variable {v v' : Supervisor} {n : Nat} {x : Loop} {reference : String} {p p' : Start}

/-- Everything that a step of a start does is in the list. -/
theorem Start.move_of_step (hf : s.faults = [])
    (h : p.step reference v s = some (v', s', p')) : Start.Move reference v s p v' s' p' := by
  cases p with
  | checking =>
    simp only [Start.step] at h
    split at h
    · next hno =>
      obtain ⟨rfl, rfl, rfl⟩ := by simpa using h
      exact .refuse (by simpa using hno)
    · next hyes =>
      obtain ⟨rfl, rfl, rfl⟩ := by simpa using h
      have hyes : v.stopping = false ∧ v.attends reference = false := by simpa using hyes
      exact .pass hyes.1 hyes.2
  | claiming =>
    simp only [Start.step, claim_of_faults hf] at h
    cases hclaim : (s.memory.claim reference).1 with
    | true =>
      simp only [hclaim, Option.some.injEq, Prod.mk.injEq] at h
      obtain ⟨rfl, rfl, rfl⟩ := h
      exact .claim hclaim
    | false =>
      simp only [hclaim, Option.some.injEq, Prod.mk.injEq] at h
      obtain ⟨rfl, rfl, rfl⟩ := h
      exact .lose hclaim
  | spawning =>
    obtain ⟨rfl, rfl, rfl⟩ := by simpa [Start.step] using h
    exact .spawn
  | done started => exact absurd h (by simp [Start.step])

theorem Start.Move.faults (h : Start.Move reference v s p v' s' p') : s'.faults = s.faults := by
  cases h <;> rfl

/-- A step of a start is one action on the store. -/
theorem Start.Move.act (h : Start.Move reference v s p v' s' p') :
    Traffic.act (p.storeAction reference) ⟨s.memory, u⟩ = some ⟨s'.memory, u⟩ := by
  cases h <;> rfl

/-- A start leaves the loops as they are, or adds one that has not run. -/
theorem Start.Move.loops (h : Start.Move reference v s p v' s' p')
    (hx : v'.loops.find? n = some x) : v.loops.find? n = some x ∨ x.phase = .fresh := by
  cases h with
  | spawn =>
    rw [Supervisor.spawn, Dict.find?_insert] at hx
    by_cases hn : v.next = n
    · rw [if_pos hn] at hx
      obtain rfl := Option.some.inj hx
      exact Or.inr rfl
    · rw [if_neg hn] at hx
      exact Or.inl hx
  | _ => exact Or.inl hx

/-- A join changes nothing but the registry. -/
theorem Join.step_supervisor {p p' : Join} (h : p.step reference v = some (v', p')) :
    v' = { v with registry := v'.registry } := by
  cases p with
  | looking =>
    simp only [Join.step] at h
    split at h
    · obtain ⟨rfl, -⟩ := by simpa using h
      rfl
    · obtain ⟨rfl, -⟩ := by simpa using h
      rfl
  | awaiting loop =>
    simp only [Join.step] at h
    split at h
    · obtain ⟨rfl, -⟩ := by simpa using h
      rfl
    · obtain ⟨rfl, -⟩ := by simpa using h
      rfl
    · obtain ⟨rfl, -⟩ := by simpa using h
      rfl
    · exact absurd h (by simp)
  | done outcome => exact absurd h (by simp [Join.step])

/-- A shutdown changes nothing but the registry and the sign to stop. -/
theorem Shutdown.step_supervisor {p p' : Shutdown} (h : p.step v = some (v', p')) :
    v' = { v with registry := v'.registry, stopping := v'.stopping } := by
  cases p with
  | asking =>
    obtain ⟨rfl, -⟩ := by simpa [Shutdown.step] using h
    rfl
  | awaiting loops =>
    obtain ⟨-, rfl, -⟩ := by simpa [Shutdown.step] using h
    rfl
  | done => exact absurd h (by simp [Shutdown.step])

/-! ### Loops -/

/-- The status that a loop with this outcome has asked to be written. -/
def Outcome.status? : Outcome → Option Status
  | .settled status => some status
  | .timedOut => some .failed
  | .cancelled => none

namespace Loop

variable {p : Pace} {stopping : Bool} {now id : Nat} {e : Event} {l l' : Limiter} {x x' : Loop}

/-- What the next step of a loop does on the store. -/
def storeAction (x : Loop) : Traffic.Action :=
  match x.phase with
  | .settling status => .update x.reference status
  | .expiring => .update x.reference .failed
  | .clearing _ => .clear x.reference
  | _ => .read

/-- The terminal status that a loop has been told and not yet written. -/
def told? (x : Loop) : Option Status :=
  match x.phase with
  | .returning answer => answer
  | .settling status => some status
  | _ => none

/-- Once its inquiry is over, a loop first gives its slot back, if that was counted. -/
theorem endInquiry_loop (l : Limiter) (x : Loop) (answer : Option Status) :
    (endInquiry l x answer).2 = { x with phase := .returning answer } ∨
      (endInquiry l x answer).2 = { x with phase := afterInquiry answer } := by
  unfold endInquiry
  split
  · exact Or.inl rfl
  · exact Or.inr rfl

@[simp] theorem endInquiry_reference (l : Limiter) (x : Loop) (answer : Option Status) :
    (endInquiry l x answer).2.reference = x.reference := by
  rcases endInquiry_loop l x answer with h | h <;> rw [h]

@[simp] theorem endInquiry_told? (l : Limiter) (x : Loop) (answer : Option Status) :
    (endInquiry l x answer).2.told? = answer := by
  rcases endInquiry_loop l x answer with h | h
  · rw [h]
    rfl
  · rw [h]
    cases answer <;> rfl

theorem endInquiry_ne_expiring (l : Limiter) (x : Loop) (answer : Option Status) :
    (endInquiry l x answer).2.phase ≠ .expiring := by
  rcases endInquiry_loop l x answer with h | h
  · simp [h]
  · cases answer <;> simp [h, afterInquiry]

/-- What one step of the loop of number `id` can do over a store without faults. -/
inductive Move (p : Pace) (stopping : Bool) (now id : Nat) (s : Store) (l : Limiter) (x : Loop) :
    Event → Store → Limiter → Loop → Prop where
  /-- Without time between its ticks a loop dies at once. -/
  | unpaced (hp : x.phase = .fresh) (hpace : p.interval = 0) :
      Move p stopping now id s l x .turn s l { x with phase := .killed }
  /-- It begins: from now on its time runs. -/
  | begin (hp : x.phase = .fresh) (hpace : p.interval ≠ 0) :
      Move p stopping now id s l x .turn s l
        { x with phase := .head, deadline := now + p.deadline, nextTick := now + p.interval }
  /-- It goes to wait. -/
  | wait (hp : x.phase = .head) (hstop : stopping = false) :
      Move p stopping now id s l x .turn s l { x with phase := .waiting }
  /-- It sees that it is to stop. -/
  | stop (hp : x.phase = .head ∨ (x.phase = .waiting ∧ now < x.deadline))
      (hstop : stopping = true) :
      Move p stopping now id s l x .turn s l { x with phase := .clearing .cancelled }
  /-- Its deadline comes while it waits. -/
  | expire (hp : x.phase = .waiting) (hdue : x.deadline ≤ now) :
      Move p stopping now id s l x .turn s l { x with phase := .expiring }
  /-- A tick comes, and it asks for a slot. -/
  | tick (hp : x.phase = .waiting) (hdue : now < x.deadline) (hstop : stopping = false)
      (htick : x.nextTick ≤ now) :
      Move p stopping now id s l x .turn s (l.request id)
        { x with phase := .slotWait, nextTick := tickAfter p.interval x.nextTick now }
  /-- It gets a slot and inquires. -/
  | inquire (hp : x.phase = .slotWait) (hgranted : l.isGranted id = true) :
      Move p stopping now id s l x .turn s (l.count id) { x with phase := .inquiring }
  /-- Its deadline comes before a slot. -/
  | slotless (hp : x.phase = .slotWait) (hgranted : l.isGranted id = false)
      (hdue : x.deadline ≤ now) :
      Move p stopping now id s l x .turn s (l.cancel id) { x with phase := .head }
  /-- Its inquiry is answered. -/
  | answered (result : Except Gateway.Failure Gateway.Outcome) (hp : x.phase = .inquiring) :
      Move p stopping now id s l x (.answer result) s (endInquiry l x (terminal? result)).1
        (endInquiry l x (terminal? result)).2
  /-- Its deadline comes before an answer. -/
  | unanswered (hp : x.phase = .inquiring) (hdue : x.deadline ≤ now) :
      Move p stopping now id s l x .turn s (endInquiry l x none).1 (endInquiry l x none).2
  /-- It is killed while it inquires. -/
  | kill (hp : x.phase = .inquiring) :
      Move p stopping now id s l x .crash s l.release.2 { x with phase := .killed }
  /-- Its slot is given back. -/
  | giveBack {answer : Option Status} (hp : x.phase = .returning answer) :
      Move p stopping now id s l x .turn s l.giveBack { x with phase := afterInquiry answer }
  /-- It has asked for a terminal status to be written. -/
  | settle {status : Status} {written : Bool} {memory : Memory} (hp : x.phase = .settling status)
      (hw : s.memory.update x.reference status = .ok (written, memory)) :
      Move p stopping now id s l x .turn { s with memory } l
        { x with phase := .clearing (.settled status) }
  /-- The status could not be written; the next tick tries again. -/
  | unsettled {status : Status} {cause : Store.Failure} (hp : x.phase = .settling status)
      (hw : s.memory.update x.reference status = .error cause) :
      Move p stopping now id s l x .turn s l { x with phase := .head }
  /-- It has asked for its transaction to be marked as failed. -/
  | fail {written : Bool} {memory : Memory} (hp : x.phase = .expiring)
      (hw : s.memory.update x.reference .failed = .ok (written, memory)) :
      Move p stopping now id s l x .turn { s with memory } l { x with phase := .clearing .timedOut }
  /-- The failure could not be written; the loop ends all the same. -/
  | unfailed {cause : Store.Failure} (hp : x.phase = .expiring)
      (hw : s.memory.update x.reference .failed = .error cause) :
      Move p stopping now id s l x .turn s l { x with phase := .clearing .timedOut }
  /-- It takes its mark away and ends. -/
  | clear {outcome : Outcome} (hp : x.phase = .clearing outcome) :
      Move p stopping now id s l x .turn { s with memory := s.memory.clear x.reference } l
        { x with phase := .ended outcome }

/-- Everything that a step does is in the list. -/
theorem move_of_step (hf : s.faults = [])
    (h : x.step p stopping now id e s l = some (s', l', x')) :
    Move p stopping now id s l x e s' l' x' := by
  cases hp : x.phase with
  | fresh =>
    cases e with
    | turn =>
      simp only [step, hp] at h
      split at h
      · next hpace =>
        obtain ⟨rfl, rfl, rfl⟩ := by simpa using h
        exact .unpaced hp hpace
      · next hpace =>
        obtain ⟨rfl, rfl, rfl⟩ := by simpa using h
        exact .begin hp hpace
    | _ => exact absurd h (by simp [step, hp])
  | head =>
    cases e with
    | turn =>
      obtain ⟨rfl, rfl, rfl⟩ := by simpa [step, hp] using h
      cases stopping with
      | false => exact .wait hp rfl
      | true => exact .stop (Or.inl hp) rfl
    | _ => exact absurd h (by simp [step, hp])
  | waiting =>
    cases e with
    | turn =>
      -- the deadline is looked at before the shutdown and the tick
      simp only [step, hp] at h
      split at h
      · next hdue =>
        obtain ⟨rfl, rfl, rfl⟩ := by simpa using h
        exact .expire hp hdue
      · next hdue =>
        have hdue : now < x.deadline := Nat.lt_of_not_le hdue
        split at h
        · next hstop =>
          obtain ⟨rfl, rfl, rfl⟩ := by simpa using h
          exact .stop (Or.inr ⟨hp, hdue⟩) hstop
        · next hstop =>
          split at h
          · next htick =>
            obtain ⟨rfl, rfl, rfl⟩ := by simpa using h
            exact .tick hp hdue (by simpa using hstop) htick
          · exact absurd h (by simp)
    | _ => exact absurd h (by simp [step, hp])
  | slotWait =>
    cases e with
    | turn =>
      simp only [step, hp] at h
      split at h
      · next hgranted =>
        obtain ⟨rfl, rfl, rfl⟩ := by simpa using h
        exact .inquire hp hgranted
      · next hgranted =>
        split at h
        · next hdue =>
          obtain ⟨rfl, rfl, rfl⟩ := by simpa using h
          exact .slotless hp (by simpa using hgranted) hdue
        · exact absurd h (by simp)
    | _ => exact absurd h (by simp [step, hp])
  | inquiring =>
    cases e with
    | turn =>
      simp only [step, hp] at h
      split at h
      · next hdue =>
        simp only [Option.some.injEq, Prod.mk.injEq] at h
        obtain ⟨rfl, rfl, rfl⟩ := h
        exact .unanswered hp hdue
      · exact absurd h (by simp)
    | answer result =>
      simp only [step, hp, Option.some.injEq, Prod.mk.injEq] at h
      obtain ⟨rfl, rfl, rfl⟩ := h
      exact .answered result hp
    | crash =>
      obtain ⟨rfl, rfl, rfl⟩ := by simpa [step, hp] using h
      exact .kill hp
  | returning answer =>
    cases e with
    | turn =>
      obtain ⟨rfl, rfl, rfl⟩ := by simpa [step, hp] using h
      exact .giveBack hp
    | _ => exact absurd h (by simp [step, hp])
  | settling status =>
    cases e with
    | turn =>
      simp only [step, hp, update_of_faults hf] at h
      cases hw : s.memory.update x.reference status with
      | ok r =>
        simp only [hw, Except.map] at h
        obtain ⟨rfl, rfl, rfl⟩ := by simpa using h
        exact .settle hp hw
      | error cause =>
        simp only [hw, Except.map] at h
        obtain ⟨rfl, rfl, rfl⟩ := by simpa using h
        exact .unsettled hp hw
    | _ => exact absurd h (by simp [step, hp])
  | expiring =>
    cases e with
    | turn =>
      simp only [step, hp, update_of_faults hf] at h
      cases hw : s.memory.update x.reference .failed with
      | ok r =>
        simp only [hw, Except.map] at h
        obtain ⟨rfl, rfl, rfl⟩ := by simpa using h
        exact .fail hp hw
      | error cause =>
        simp only [hw, Except.map] at h
        obtain ⟨rfl, rfl, rfl⟩ := by simpa using h
        exact .unfailed hp hw
    | _ => exact absurd h (by simp [step, hp])
  | clearing outcome =>
    cases e with
    | turn =>
      simp only [step, hp, clear_of_faults hf] at h
      obtain ⟨rfl, rfl, rfl⟩ := by simpa using h
      exact .clear hp
    | _ => exact absurd h (by simp [step, hp])
  | ended outcome => exact absurd h (by cases e <;> simp [step, hp])
  | killed => exact absurd h (by cases e <;> simp [step, hp])

theorem Move.faults (h : Move p stopping now id s l x e s' l' x') : s'.faults = s.faults := by
  cases h <;> rfl

/-- A loop stays with its transaction. -/
theorem Move.reference_eq (h : Move p stopping now id s l x e s' l' x') :
    x'.reference = x.reference := by
  cases h with
  | answered | unanswered => exact endInquiry_reference _ _ _
  | _ => rfl

/-- A status that a loop is told comes from the answer to an inquiry, and is terminal. -/
theorem Move.told (h : Move p stopping now id s l x e s' l' x') {status : Status}
    (ht : x'.told? = some status) : x.told? = some status ∨
      status.isTerminal = true ∧ x.phase = .inquiring ∧
        ∃ o, e = .answer (.ok o) ∧ o.status = status := by
  cases h with
  | answered result hp =>
    rw [endInquiry_told?] at ht
    right
    cases result with
    | error cause => exact absurd ht (by simp [terminal?])
    | ok o =>
      obtain ⟨hterm, rfl⟩ := by simpa [terminal?] using ht
      exact ⟨hterm, hp, o, rfl, rfl⟩
  | unanswered =>
    rw [endInquiry_told?] at ht
    exact absurd ht (by simp)
  | @giveBack answer hp =>
    cases answer with
    | none => exact absurd ht (by simp [told?, afterInquiry])
    | some status' =>
      left
      simpa [told?, afterInquiry, hp] using ht
  | _ => exact absurd ht (by simp [told?])

/-- A loop gives its transaction up when it waits and its deadline has come. -/
theorem Move.expiring (h : Move p stopping now id s l x e s' l' x') (hx : x'.phase = .expiring) :
    e = .turn ∧ x.phase = .waiting ∧ x.deadline ≤ now := by
  cases h with
  | expire hp hdue => exact ⟨rfl, hp, hdue⟩
  | answered | unanswered => exact absurd hx (endInquiry_ne_expiring _ _ _)
  | @giveBack answer hp => cases answer <;> simp [afterInquiry] at hx
  | _ => exact absurd hx (by simp)

/-- Most steps of a loop leave the store alone; the others are one action on it. -/
theorem Move.act (h : Move p stopping now id s l x e s' l' x') :
    Traffic.act x.storeAction ⟨s.memory, u⟩ = some ⟨s'.memory, u⟩ := by
  cases h with
  | settle hp hw | unsettled hp hw | fail hp hw | unfailed hp hw =>
    simp [storeAction, hp, Traffic.act, hw]
  | stop hp =>
    rcases hp with hp | ⟨hp, -⟩
    · rw [storeAction, hp]
      rfl
    · rw [storeAction, hp]
      rfl
  | unpaced hp | begin hp | wait hp | expire hp | tick hp | inquire hp | slotless hp
  | answered _ hp | unanswered hp | kill hp | giveBack hp | clear hp =>
    rw [storeAction, hp]
    rfl

/-- A loop writes a status in its own turn, not when the gateway answers. -/
theorem Move.turn_of_written (h : Move p stopping now id s l x e s' l' x')
    {w : String × Status} (hw : x.storeAction.written? = some w) : e = .turn := by
  cases h with
  | answered _ hp | kill hp => exact absurd hw (by simp [storeAction, hp, Traffic.Action.written?])
  | _ => rfl

end Loop

end TopUp.Poll
