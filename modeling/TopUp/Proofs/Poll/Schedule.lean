import Mathlib.Data.Nat.Factorization.Basic
import TopUp.Proofs.Poll.Clock
import TopUp.Proofs.Store.Rows

/-! # The schedule of a poll loop

    With nobody in its way a loop is as regular as its clock: it inquires once per interval,
    and no tick is late. Its deadline goes before a tick that comes at the same moment, so
    it can inquire at the positive multiples of the interval that lie strictly before the
    deadline, and at no other time (`Pace.polls`).

    Where such a loop stands is fixed by the number of answers it has had (`Watch.Stands`).
    It takes the first terminal one if that comes in time, and gives up at its deadline
    otherwise (`polls_on_schedule`).
-/

namespace TopUp

open TopUp.Store

namespace Poll

/-! ### The ticks of a loop -/

/-- The number of ticks before the deadline: of the positive multiples of the interval that lie
    strictly below it. -/
def Pace.polls (p : Pace) : Nat :=
  ((Finset.Ioo 0 p.deadline).filter fun t => p.interval ∣ t).card

/-- The ticks are counted from zero. -/
theorem Pace.lt_polls_iff {p : Pace} (hpace : 0 < p.interval) {k : Nat} :
    k < p.polls ↔ (k + 1) * p.interval < p.deadline := by
  have hticks : Finset.Ioo 0 p.deadline = Finset.Ioc 0 (p.deadline - 1) := by
    ext t
    simp only [Finset.mem_Ioo, Finset.mem_Ioc]
    omega
  rw [polls, hticks, Nat.Ioc_filter_dvd_card_eq_div, Nat.lt_iff_add_one_le,
    Nat.le_div_iff_mul_le hpace]
  have hpos : 0 < (k + 1) * p.interval := Nat.mul_pos (Nat.succ_pos k) hpace
  omega

namespace Watch

variable {p : Pace} {id started : Nat} {w w' : Watch} {a : Action} {tr : List (Watch × Action)}
  {m : Memory} {l : Limiter} {r : String} {k : Nat}
  {replies : Nat → Except Gateway.Failure Gateway.Outcome}

/-! ### A world that is not in the way -/

/-- The gateway's answer that an action is. -/
def Action.answer? : Action → Option (Except Gateway.Failure Gateway.Outcome)
  | .step (.answer result) => some result
  | _ => none

/-- The answers that the gateway has given. -/
def answers (tr : List (Watch × Action)) : List (Except Gateway.Failure Gateway.Outcome) :=
  tr.filterMap fun e => e.2.answer?

/-- The moments in which inquiries began. -/
def inquiryTimes (id : Nat) (tr : List (Watch × Action)) : List Nat :=
  (tr.filter (inquires id)).map fun e => e.1.now

/-- The gateway gives the replies of a sequence, one after the other. -/
def Scripted (replies : Nat → Except Gateway.Failure Gateway.Outcome)
    (tr : List (Watch × Action)) : Prop :=
  ∀ k result, (answers tr)[k]? = some result → result = replies k

/-- An action of a world that is not in the way of the loop for a reference. -/
structure Smooth (id : Nat) (r : String) (e : Watch × Action) : Prop where
  /-- The gateway answers at once. -/
  prompt : e.1.loop.phase = .inquiring → e.2.isWorld = true ∨ e.2.answer?.isSome = true
  /-- A slot is free when the loop asks for one. -/
  room : e.2 = .step .turn → e.1.loop.phase = .waiting → 0 < e.1.limiter.permits
  /-- Other tasks do not write the status of the transaction, and leave status writes as they
      are. -/
  unwritten : ∀ m l, e.2 = .world m l →
    m.ledger.status? r = e.1.memory.ledger.status? r ∧ m.readOnly = e.1.memory.readOnly
  /-- Other tasks do not take a slot away that the loop was granted. -/
  granted : ∀ m l, e.2 = .world m l → e.1.limiter.isGranted id = true → l.isGranted id = true

/-! ### What a loop is to come to -/

/-- What the replies make of a loop: how many inquiries it makes, and its outcome. -/
inductive Prescribed (p : Pace) (replies : Nat → Except Gateway.Failure Gateway.Outcome) :
    Nat → Outcome → Prop where
  /-- The first terminal reply decides, if its tick comes before the deadline. -/
  | settled {k : Nat} {status : Status} (hlt : k < p.polls)
      (hpassed : ∀ j < k, Loop.terminal? (replies j) = none)
      (hterm : Loop.terminal? (replies k) = some status) :
      Prescribed p replies (k + 1) (.settled status)
  /-- Else the deadline does, after all ticks before it. -/
  | timedOut (hpassed : ∀ j < p.polls, Loop.terminal? (replies j) = none) :
      Prescribed p replies p.polls .timedOut

theorem exists_prescribed (p : Pace) (replies : Nat → Except Gateway.Failure Gateway.Outcome) :
    ∃ k o, Prescribed p replies k o := by
  by_cases hterm : ∃ k, k < p.polls ∧ Loop.terminal? (replies k) ≠ none
  · -- the first of the replies that are terminal and in time
    classical
    have hfirst := fun j => Nat.find_min hterm (m := j)
    obtain ⟨hlt, hne⟩ := Nat.find_spec hterm
    obtain ⟨status, hstatus⟩ := Option.ne_none_iff_exists'.mp hne
    refine ⟨_, _, .settled hlt (fun j hj => ?_) hstatus⟩
    by_contra hj'
    exact hfirst j hj ⟨Nat.lt_trans hj hlt, hj'⟩
  · refine ⟨_, _, .timedOut fun j hj => ?_⟩
    by_contra hj'
    exact hterm ⟨j, hj, hj'⟩

/-- The replies leave no choice. -/
theorem Prescribed.unique {k k' : Nat} {o o' : Outcome} (h : Prescribed p replies k o)
    (h' : Prescribed p replies k' o') : k = k' ∧ o = o' := by
  cases h with
  | @settled k status hlt hpassed hterm =>
    cases h' with
    | @settled k' status' hlt' hpassed' hterm' =>
      -- neither reply may come before the other one, which is the first
      rcases Nat.lt_trichotomy k k' with hk | rfl | hk
      · exact absurd ((hpassed' k hk).symm.trans hterm) (by simp)
      · obtain rfl := Option.some.inj (hterm.symm.trans hterm')
        exact ⟨rfl, rfl⟩
      · exact absurd ((hpassed k' hk).symm.trans hterm') (by simp)
    | timedOut hpassed' => exact absurd ((hpassed' k hlt).symm.trans hterm) (by simp)
  | timedOut hpassed =>
    cases h' with
    | @settled k' status' hlt' hpassed' hterm' =>
      exact absurd ((hpassed k' hlt').symm.trans hterm') (by simp)
    | timedOut => exact ⟨rfl, rfl⟩

/-- The moment of an outcome after a number of inquiries: that of the last one, or the deadline. -/
def moment (p : Pace) (started k : Nat) : Outcome → Nat
  | .settled _ => started + k * p.interval
  | .timedOut | .cancelled => started + p.deadline

/-! ### Where a loop stands -/

/-- The transaction is open, statuses can be written, and no answer was terminal so far. -/
structure Pending (replies : Nat → Except Gateway.Failure Gateway.Outcome) (r : String)
    (m : Memory) (k : Nat) : Prop where
  /-- The transaction is open. -/
  opened : ∃ status, m.ledger.status? r = some status ∧ status.isTerminal = false
  /-- Statuses can be written. -/
  writable : m.readOnly = false
  /-- None of the first answers was terminal. -/
  passed : ∀ j < k, Loop.terminal? (replies j) = none

theorem Pending.congr {m' : Memory} (h : Pending replies r m k)
    (hstatus : m'.ledger.status? r = m.ledger.status? r) (hreadOnly : m'.readOnly = m.readOnly) :
    Pending replies r m' k :=
  ⟨hstatus ▸ h.opened, hreadOnly ▸ h.writable, h.passed⟩

theorem Pending.update_ne_error (h : Pending replies r m k) (status : Status)
    (cause : Store.Failure) : m.update r status ≠ .error cause := by
  obtain ⟨written, m', hw, -⟩ := Memory.update_eq_ok h.writable r status
  simp [hw]

/-- A terminal status that is written to a pending transaction is stored. -/
theorem Pending.status?_update {m' : Memory} {status : Status} {written : Bool}
    (h : Pending replies r m k) (hw : m.update r status = .ok (written, m'))
    (hterm : status.isTerminal = true) : m'.ledger.status? r = some status := by
  obtain ⟨old, hold, hopen⟩ := h.opened
  rw [Memory.status?_update hw hterm, hold]
  simp [hopen]

/-- A loop has taken the tick after `k` answers just now. -/
structure Ticked (p : Pace) (started k now next : Nat) : Prop where
  /-- The tick came before the deadline. -/
  lt : k < p.polls
  /-- It was on time. -/
  now : now = started + (k + 1) * p.interval
  /-- The next one is, too. -/
  next : next = started + (k + 2) * p.interval

/-- Where a loop stands after `k` answers. -/
def Stands (p : Pace) (id started : Nat) (replies : Nat → Except Gateway.Failure Gateway.Outcome)
    (r : String) (w : Watch) (k : Nat) : Prop :=
  match w.loop.phase with
  | .fresh => Pending replies r w.memory k ∧ k = 0
  | .head | .waiting => Pending replies r w.memory k ∧ k ≤ p.polls ∧
      w.loop.nextTick = started + (k + 1) * p.interval ∧ w.now ≤ w.loop.nextTick
  | .slotWait => Pending replies r w.memory k ∧ Ticked p started k w.now w.loop.nextTick ∧
      w.limiter.isGranted id = true
  | .inquiring => Pending replies r w.memory k ∧ Ticked p started k w.now w.loop.nextTick
  -- the answer that was just given counts as one of the `k`
  | .returning answer => ∃ j, k = j + 1 ∧ Pending replies r w.memory j ∧
      Ticked p started j w.now w.loop.nextTick ∧ Loop.terminal? (replies j) = answer
  | .settling status => ∃ j, k = j + 1 ∧ Pending replies r w.memory j ∧
      Ticked p started j w.now w.loop.nextTick ∧ Loop.terminal? (replies j) = some status
  | .expiring => Pending replies r w.memory k ∧ k = p.polls
  | .clearing o => Prescribed p replies k o ∧ w.memory.ledger.status? r = o.status? ∧
      w.now = moment p started k o
  | .ended o => Prescribed p replies k o ∧ w.memory.ledger.status? r = o.status?
  | .killed => False

/-- An answer that is not terminal makes the loop wait for its next tick. -/
theorem stands_afterInquiry {j : Nat} (hpending : Pending replies r w.memory j)
    (hticked : Ticked p started j w.now w.loop.nextTick) (l : Limiter) :
    Stands p id started replies r
      { w with limiter := l, loop.phase := Loop.afterInquiry (Loop.terminal? (replies j)) }
      (j + 1) := by
  cases ht : Loop.terminal? (replies j) with
  | none =>
    refine ⟨⟨hpending.opened, hpending.writable, fun i hi => ?_⟩, hticked.lt, hticked.next, ?_⟩
    · rcases Nat.lt_succ_iff_lt_or_eq.mp hi with hi | rfl
      · exact hpending.passed i hi
      · exact ht
    · show w.now ≤ w.loop.nextTick
      rw [hticked.now, hticked.next]
      exact Nat.add_le_add_left (Nat.mul_le_mul_right _ (Nat.le_succ _)) _
  | some status => exact ⟨j, rfl, hpending, hticked, ht⟩

/-- An answer makes the loop go on to the next inquiry, or write a status. -/
theorem Stands.answered (h : Stands p id started replies r w k) (hp : w.loop.phase = .inquiring)
    (l : Limiter) :
    Stands p id started replies r
      { w with
        limiter := l, loop := (Loop.endInquiry w.limiter w.loop (Loop.terminal? (replies k))).2 }
      (k + 1) := by
  simp only [Stands, hp] at h
  obtain ⟨hpending, hticked⟩ := h
  rcases Loop.endInquiry_loop w.limiter w.loop (Loop.terminal? (replies k)) with hend | hend
  · rw [hend]
    exact ⟨k, rfl, hpending, hticked, rfl⟩
  · rw [hend]
    exact stands_afterInquiry hpending hticked _

/-- All other moves leave the number of answers as it is. -/
theorem Stands.move {e : Event} {s : Store} {limiter : Limiter} {loop : Loop}
    (h : Stands p id started replies r w k) (hpace : 0 < p.interval)
    (ht : Timely p started tr w) (hr : w.loop.reference = r)
    (hsmooth : Smooth id r (w, .step e)) (hquiet : (Action.step e).answer? = none)
    (hmove : Loop.Move p false w.now id ⟨w.memory, []⟩ w.limiter w.loop e s limiter loop) :
    Stands p id started replies r { w with memory := s.memory, limiter, loop } k := by
  obtain rfl := hr
  cases hmove with
  | unpaced _ hzero => exact absurd hzero (Nat.ne_of_gt hpace)
  | begin hp =>
    have hnow := ht.fresh hp
    simp only [Stands, hp] at h
    obtain ⟨hpending, rfl⟩ := h
    refine ⟨hpending, Nat.zero_le _, ?_, Nat.le_add_right _ _⟩
    simp [hnow]
  | wait hp =>
    simp only [Stands, hp] at h
    exact h
  | stop _ hstop => exact absurd hstop (by simp)
  | expire hp hdue =>
    rw [ht.deadline (by simp [hp])] at hdue
    simp only [Stands, hp] at h
    obtain ⟨hpending, hle, hnext, hnow⟩ := h
    refine ⟨hpending, Nat.le_antisymm hle (Nat.le_of_not_lt fun hlt => ?_)⟩
    -- before the last tick the deadline is not due
    rw [Pace.lt_polls_iff hpace] at hlt
    omega
  | tick hp hdue _ htick =>
    rw [ht.deadline (by simp [hp])] at hdue
    simp only [Stands, hp] at h
    obtain ⟨hpending, -, hnext, hnow⟩ := h
    -- the clock has not run past the tick, so the next one is an interval away
    have hnow : w.now = w.loop.nextTick := Nat.le_antisymm hnow htick
    refine ⟨hpending, ⟨(Pace.lt_polls_iff hpace).mpr (by omega), hnow.trans hnext, ?_⟩, ?_⟩
    · show Loop.tickAfter p.interval w.loop.nextTick w.now = _
      rw [hnow, Loop.tickAfter, if_pos (Nat.le_add_right _ _), hnext, Nat.add_assoc,
        ← Nat.add_one_mul]
    · simp [Limiter.request, Limiter.isGranted, hsmooth.room rfl hp]
  | inquire hp =>
    simp only [Stands, hp] at h
    exact ⟨h.1, h.2.1⟩
  | slotless hp hgranted =>
    simp only [Stands, hp] at h
    exact absurd (hgranted.symm.trans h.2.2) (by simp)
  | answered result => exact absurd hquiet (by simp [Action.answer?])
  | unanswered hp | kill hp =>
    rcases hsmooth.prompt hp with hworld | hanswer
    · exact absurd hworld (by simp [Action.isWorld])
    · exact absurd hanswer (by simp [hquiet])
  | giveBack hp =>
    simp only [Stands, hp] at h
    obtain ⟨j, rfl, hpending, hticked, rfl⟩ := h
    exact stands_afterInquiry hpending hticked _
  | @settle status _ _ hp hw =>
    have hterm := (ht.told status (by simp [Loop.told?, hp])).1
    simp only [Stands, hp] at h
    obtain ⟨j, rfl, hpending, hticked, hanswer⟩ := h
    exact ⟨.settled hticked.lt hpending.passed hanswer, hpending.status?_update hw hterm,
      hticked.now⟩
  | unsettled hp hw =>
    simp only [Stands, hp] at h
    obtain ⟨j, rfl, hpending, -⟩ := h
    exact absurd hw (hpending.update_ne_error _ _)
  | fail hp hw =>
    have hnow := ht.expiring hp
    simp only [Stands, hp] at h
    obtain ⟨hpending, rfl⟩ := h
    exact ⟨.timedOut hpending.passed, hpending.status?_update hw rfl, hnow⟩
  | unfailed hp hw =>
    simp only [Stands, hp] at h
    exact absurd hw (h.1.update_ne_error _ _)
  | clear hp =>
    simp only [Stands, hp] at h
    exact ⟨h.1, (Ledger.status?_clear _ _ _).trans h.2.1⟩

/-- Time that passes brings the loop to its next tick or to its deadline, not past them. -/
theorem Stands.wait {time : Nat} (h : Stands p id started replies r w k)
    (hsmooth : Smooth id r (w, .wait time)) (hwaits : w.loop.Waits w.now id w.limiter)
    (hdue : ∀ due, w.loop.due? = some due → time ≤ due) :
    Stands p id started replies r { w with now := time } k := by
  cases hwaits with
  | finished hx =>
    cases hp : w.loop.phase with
    | ended o =>
      simp only [Stands, hp] at h ⊢
      exact h
    | killed =>
      simp only [Stands, hp] at h
    | _ => simp [Loop.isFinished, hp] at hx
  | tick hp =>
    have hle := hdue (min w.loop.deadline w.loop.nextTick) (by simp [Loop.due?, hp])
    simp only [Stands, hp] at h ⊢
    obtain ⟨hpending, hpolls, hnext, -⟩ := h
    exact ⟨hpending, hpolls, hnext, Nat.le_trans hle (Nat.min_le_right _ _)⟩
  | slot hp hgranted =>
    simp only [Stands, hp] at h
    exact absurd (hgranted.symm.trans h.2.2) (by simp)
  | answer hp =>
    rcases hsmooth.prompt hp with hworld | hanswer
    · exact absurd hworld (by simp [Action.isWorld])
    · exact absurd hanswer (by simp [Action.answer?])

/-- Other tasks that are not in the way of the loop leave it where it stands. -/
theorem Stands.world {memory : Memory} {limiter : Limiter} (h : Stands p id started replies r w k)
    (hsmooth : Smooth id r (w, .world memory limiter)) :
    Stands p id started replies r { w with memory, limiter } k := by
  obtain ⟨hstatus, hreadOnly⟩ := hsmooth.unwritten memory limiter rfl
  have hpending : ∀ {j}, Pending replies r w.memory j → Pending replies r memory j :=
    fun hj => hj.congr hstatus hreadOnly
  cases hp : w.loop.phase with
  | fresh | head | waiting | inquiring | expiring =>
    simp only [Stands, hp] at h ⊢
    exact ⟨hpending h.1, h.2⟩
  | slotWait =>
    simp only [Stands, hp] at h ⊢
    exact ⟨hpending h.1, h.2.1, hsmooth.granted memory limiter rfl h.2.2⟩
  | returning | settling =>
    simp only [Stands, hp] at h ⊢
    obtain ⟨j, hj, hold, hrest⟩ := h
    exact ⟨j, hj, hpending hold, hrest⟩
  | clearing =>
    simp only [Stands, hp] at h ⊢
    exact ⟨h.1, hstatus.trans h.2.1, h.2.2⟩
  | ended =>
    simp only [Stands, hp] at h ⊢
    exact ⟨h.1, hstatus.trans h.2⟩
  | killed => simp only [Stands, hp] at h

/-- Every action takes a loop to where it is to stand next. -/
theorem Stands.step (h : Stands p id started replies r w k) (hpace : 0 < p.interval)
    (ht : Timely p started tr w) (hr : w.loop.reference = r) (hsmooth : Smooth id r (w, a))
    (hreply : ∀ result, a.answer? = some result → result = replies k) (hs : Step p id w a w') :
    Stands p id started replies r w' (k + a.answer?.toList.length) := by
  cases hs with
  | @move e s limiter loop hmove =>
    cases hanswer : (Action.step e).answer? with
    | none => exact h.move hpace ht hr hsmooth hanswer hmove
    | some result =>
      cases hmove with
      | answered result' hp =>
        obtain rfl := Option.some.inj hanswer
        obtain rfl := hreply _ rfl
        exact h.answered hp _
      | _ => exact absurd hanswer (by simp [Action.answer?])
  | wait hlt hwaits hdue => exact h.wait hsmooth hwaits hdue
  | world => exact h.world hsmooth

/-! ### Whole runs -/

theorem answers_snoc (tr : List (Watch × Action)) (e : Watch × Action) :
    answers (tr ++ [e]) = answers tr ++ e.2.answer?.toList := by
  cases he : e.2.answer? <;> simp [answers, he]

theorem Scripted.of_append {tr' : List (Watch × Action)} (h : Scripted replies (tr ++ tr')) :
    Scripted replies tr := by
  intro k result hk
  refine h k result ?_
  rw [answers, List.filterMap_append, ← answers]
  rwa [List.getElem?_append_left (List.getElem?_eq_some_iff.mp hk).1]

theorem scripted_snoc {e : Watch × Action} : Scripted replies (tr ++ [e]) ↔
    Scripted replies tr ∧
      ∀ result, e.2.answer? = some result → result = replies (answers tr).length := by
  constructor
  · intro h
    exact ⟨h.of_append, fun result he => h _ result (by simp [answers_snoc, he])⟩
  · rintro ⟨hold, hnew⟩ k result hk
    rw [answers_snoc] at hk
    rcases Nat.lt_or_ge k (answers tr).length with hlt | hge
    · exact hold k result (by rwa [List.getElem?_append_left hlt] at hk)
    · cases he : e.2.answer? with
      | none =>
        rw [List.getElem?_append_right hge, he] at hk
        exact absurd hk (by simp)
      | some result' =>
        rw [List.getElem?_append_right hge, he] at hk
        obtain ⟨hzero, rfl⟩ : k - (answers tr).length = 0 ∧ result' = result := by
          simpa [List.getElem?_singleton] using hk
        rw [hnew _ he, Nat.le_antisymm (Nat.le_of_sub_eq_zero hzero) hge]

theorem scripted_of_answers {n : Nat} (h : answers tr = (List.range n).map replies) :
    Scripted replies tr := by
  intro k result hk
  rw [h] at hk
  obtain ⟨hlt, rfl⟩ := List.getElem?_eq_some_iff.mp hk
  rw [List.getElem_map, List.getElem_range]

/-- In a world that is not in the way every inquiry ends with an answer. -/
theorem Smooth.concludes (h : Smooth id r (w, a)) (hs : Step p id w a w') :
    (concludes (w, a)).toNat = a.answer?.toList.length := by
  cases hs with
  | @move e s limiter loop hmove =>
    cases hanswer : (Action.step e).answer? with
    | none =>
      have hidle : w.loop.isInquiring = false := by
        by_contra hinquiring
        rcases h.prompt (by simpa [Loop.isInquiring] using hinquiring) with hworld | hsome
        · exact absurd hworld (by simp [Action.isWorld])
        · exact absurd hsome (by simp [hanswer])
      simp [Watch.concludes, hidle]
    | some result =>
      cases hmove with
      | answered _ hp => simp [Watch.concludes, Loop.isInquiring, hp]
      | _ => exact absurd hanswer (by simp [Action.answer?])
  | wait | world => rfl

/-- The moments of the first ticks. -/
def ticks (p : Pace) (started k : Nat) : List Nat :=
  (List.range k).map fun j => started + (j + 1) * p.interval

/-- Every inquiry begins at its tick. -/
theorem Stands.inquiryTimes (h : Stands p id started replies r w k)
    (hsmooth : Smooth id r (w, a)) (hs : Step p id w a w')
    (htimes : inquiryTimes id tr = ticks p started (k + w.loop.isInquiring.toNat)) :
    Watch.inquiryTimes id (tr ++ [(w, a)]) =
      ticks p started (k + a.answer?.toList.length + w'.loop.isInquiring.toNat) := by
  have hcount := hs.inquiries
  rw [hsmooth.concludes hs] at hcount
  rw [Watch.inquiryTimes, List.filter_append, List.map_append]
  cases hi : inquires id (w, a) with
  | false =>
    -- the answers and the inquiry in flight together stay as many
    rw [hi, Bool.toNat_false, Nat.add_zero] at hcount
    rw [Nat.add_assoc, Nat.add_comm _ w'.loop.isInquiring.toNat, hcount, ← htimes]
    simp [hi, Watch.inquiryTimes]
  | true =>
    have hp : w.loop.phase = .slotWait := phase_of_inquires hi
    have hidle : w.loop.isInquiring = false := by simp [Loop.isInquiring, hp]
    simp only [Stands, hp] at h
    rw [hi, hidle] at hcount
    rw [Nat.add_assoc, Nat.add_comm _ w'.loop.isInquiring.toNat, hcount]
    rw [hidle] at htimes
    simp only [Bool.toNat_false, Bool.toNat_true, Nat.add_zero, Nat.zero_add] at htimes ⊢
    rw [ticks, List.range_succ, List.map_append, ← ticks, ← htimes]
    simp [hi, Watch.inquiryTimes, h.2.1.now]

section

variable (hpace : 0 < p.interval)
  (hopen : ∃ status, m.ledger.status? r = some status ∧ status.isTerminal = false)
  (hwritable : m.readOnly = false)

include hpace hopen hwritable

/-- The number of answers tells where a loop stands, and when it has inquired. -/
theorem stands_of_run (h : Run (act p id) (start started m l r) tr w)
    (hsmooth : ∀ e ∈ tr, Smooth id r e) (hscripted : Scripted replies tr) :
    Stands p id started replies r w (answers tr).length ∧
      inquiryTimes id tr = ticks p started ((answers tr).length + w.loop.isInquiring.toNat) := by
  induction h with
  | nil => exact ⟨⟨⟨hopen, hwritable, by simp [answers]⟩, rfl⟩, rfl⟩
  | @snoc tr w w' a hrun hact ih =>
    obtain ⟨hscripted, hreply⟩ := scripted_snoc.mp hscripted
    obtain ⟨hsmooth, hlast⟩ := forall_mem_snoc.mp hsmooth
    obtain ⟨hstands, htimes⟩ := ih hsmooth hscripted
    have hstep := step_of_act hact
    rw [answers_snoc, List.length_append]
    exact ⟨hstands.step hpace (timely_of_run hpace hrun) (reference_of_run hrun) hlast hreply hstep,
      hstands.inquiryTimes hlast hstep htimes⟩

end

/-- An action of the loop or its clock is not in its way, if it does not keep an answer waiting and
    a slot is free. -/
theorem smooth_of_own (hown : a.isWorld = false)
    (hprompt : w.loop.phase = .inquiring → a.answer?.isSome = true)
    (hroom : 0 < w.limiter.permits) : Smooth id r (w, a) where
  prompt hp := Or.inr (hprompt hp)
  room _ _ := hroom
  unwritten m l ha := absurd hown (by simp [show a = _ from ha, Action.isWorld])
  granted m l ha := absurd hown (by simp [show a = _ from ha, Action.isWorld])

/-- What a loop does next if nobody is in its way. -/
inductive Own (replies : Nat → Except Gateway.Failure Gateway.Outcome)
    (tr : List (Watch × Action)) : Action → Prop where
  /-- It takes its turn. -/
  | turn : Own replies tr (.step .turn)
  /-- It waits. -/
  | wait (time : Nat) : Own replies tr (.wait time)
  /-- It gets the next reply. -/
  | answer : Own replies tr (.step (.answer (replies (answers tr).length)))

/-- While a slot is free, a loop with nobody in its way can go on until it is over. -/
theorem exists_own (p : Pace) (id : Nat) (r : String) (hx : w.loop.isFinished = false)
    (hroom : 0 < w.limiter.permits) (hscripted : Scripted replies tr) :
    ∃ a, Own replies tr a ∧ (act p id a w).isSome = true ∧ Smooth id r (w, a) ∧
      Scripted replies (tr ++ [(w, a)]) := by
  by_cases hp : w.loop.phase = .inquiring
  · refine ⟨_, .answer, by simp [act, step?, Loop.step, hp], smooth_of_own rfl ?_ hroom,
      scripted_snoc.mpr ⟨hscripted, fun result hresult => (Option.some.inj hresult).symm⟩⟩
    exact fun _ => rfl
  · have hquiet : ∀ result, (Action.step .turn).answer? = some result →
        result = replies (answers tr).length := by simp [Action.answer?]
    rcases exists_act hx with hturn | ⟨time, hwait⟩
    · exact ⟨_, .turn, hturn, smooth_of_own rfl (fun h => absurd h hp) hroom,
        scripted_snoc.mpr ⟨hscripted, hquiet⟩⟩
    · exact ⟨_, .wait time, hwait, smooth_of_own rfl (fun h => absurd h hp) hroom,
        scripted_snoc.mpr ⟨hscripted, hquiet⟩⟩

/-- The gateway budget with one more free slot. -/
def moreRoom (w : Watch) : Limiter := { w.limiter with permits := w.limiter.permits + 1 }

theorem smooth_moreRoom (w : Watch) (id : Nat) (r : String) :
    Smooth id r (w, .world w.memory w.moreRoom) where
  prompt _ := Or.inl rfl
  room h := absurd h (by simp)
  unwritten m l h := by
    obtain ⟨rfl, -⟩ := Action.world.inj h
    exact ⟨rfl, rfl⟩
  granted m l h hgranted := by
    obtain ⟨-, rfl⟩ := Action.world.inj h
    exact hgranted

/-- A loop with nobody in its way comes to its end. -/
theorem exists_smooth_end (hpace : 0 < p.interval) (w : Watch) (r : String)
    (hscripted : Scripted replies tr) :
    ∃ tr' w', Run (act p id) w tr' w' ∧ w'.loop.isFinished = true ∧ (∀ e ∈ tr', Smooth id r e) ∧
      Scripted replies (tr ++ tr') := by
  induction hleft : w.loop.left p w.now using Nat.strongRecOn generalizing w tr with
  | ind n ih =>
    cases hx : w.loop.isFinished with
    | true => exact ⟨[], w, .nil, hx, by simp, by simpa using hscripted⟩
    | false =>
      -- somebody gives a slot back, then the loop goes on
      let w₁ : Watch := { w with limiter := w.moreRoom }
      have hworld : act p id (.world w.memory w.moreRoom) w = some w₁ := rfl
      have hscripted₁ : Scripted replies (tr ++ [(w, .world w.memory w.moreRoom)]) :=
        scripted_snoc.mpr ⟨hscripted, by simp [Action.answer?]⟩
      obtain ⟨a, hown, hsome, hsmooth, hscripted'⟩ :=
        exists_own p id r (w := w₁) hx (Nat.succ_pos _) hscripted₁
      obtain ⟨w₂, hact⟩ := Option.isSome_iff_exists.mp hsome
      have hspent : isSpent (w₁, a) = true := by
        cases hown <;> simp [isSpent, Action.isWorld, w₁, hx]
      have hle := (step_of_act hact).left_le hpace
      rw [hspent, Bool.toNat_true] at hle
      have hlt : w₂.loop.left p w₂.now < n := hleft ▸ hle
      obtain ⟨tr', w', hrun, hend, hothers, hrest⟩ := ih _ hlt w₂ hscripted' rfl
      refine ⟨_, w', .cons hworld (.cons hact hrun), hend, ?_, by simpa using hrest⟩
      exact List.forall_mem_cons.mpr
        ⟨smooth_moreRoom w id r, List.forall_mem_cons.mpr ⟨hsmooth, hothers⟩⟩

/-- A loop for a reference with nobody in its way, once what is in the trace has happened, keeps to
    the schedule that the replies prescribe. -/
structure OnSchedule (p : Pace) (id started : Nat)
    (replies : Nat → Except Gateway.Failure Gateway.Outcome) (r : String)
    (tr : List (Watch × Action)) (w : Watch) : Prop where
  /-- Something is prescribed. -/
  prescribed : ∃ k o, Prescribed p replies k o
  /-- Until it is over, it and its clock have had few steps. -/
  spent : tr.countP isSpent ≤ 7 * p.deadline + 5
  /-- While it is not over and a slot is free, it can go on. -/
  goesOn : w.loop.isFinished = false → 0 < w.limiter.permits → ∃ a, Own replies tr a ∧
    (act p id a w).isSome = true ∧ Smooth id r (w, a) ∧ Scripted replies (tr ++ [(w, a)])
  /-- It comes to its end if others stay out of its way. -/
  ends : ∃ tr' w', Run (act p id) w tr' w' ∧ w'.loop.isFinished = true ∧
    (∀ e ∈ tr', Smooth id r e) ∧ Scripted replies (tr ++ tr')
  /-- When it is over, it has made the prescribed number of inquiries, the status of the prescribed
      outcome is stored, and it has returned that outcome at its moment. -/
  finished : w.loop.isFinished = true → ∀ k o, Prescribed p replies k o →
    inquiryTimes id tr = ticks p started k ∧ w.memory.ledger.status? r = o.status? ∧
      w.loop.phase = .ended o ∧ ∃ e ∈ tr, Returns p id o e ∧ e.1.now = moment p started k o

/-- The number of inquiries, their moments, the outcome of a loop, its moment and the stored status
    are fixed by the pace and the replies, if an open transaction has a loop that nobody is in the
    way of. -/
theorem polls_on_schedule (hpace : 0 < p.interval)
    (hopen : ∃ status, m.ledger.status? r = some status ∧ status.isTerminal = false)
    (hwritable : m.readOnly = false) (h : Run (act p id) (start started m l r) tr w)
    (hsmooth : ∀ e ∈ tr, Smooth id r e) (hscripted : Scripted replies tr) :
    OnSchedule p id started replies r tr w where
  prescribed := exists_prescribed p replies
  spent := by
    have hle := spent_le hpace h
    omega
  goesOn hx hroom := exists_own p id r hx hroom hscripted
  ends := exists_smooth_end hpace w r hscripted
  finished hx k o hk := by
    obtain ⟨hstands, htimes⟩ := stands_of_run hpace hopen hwritable h hsmooth hscripted
    cases hp : w.loop.phase with
    | ended o' =>
      have hidle : w.loop.isInquiring = false := by simp [Loop.isInquiring, hp]
      simp only [Stands, hp] at hstands
      obtain ⟨hprescribed, hstatus⟩ := hstands
      obtain ⟨hcount, rfl⟩ := hk.unique hprescribed
      rw [hidle, ← hcount] at htimes
      refine ⟨htimes, hstatus, rfl, ?_⟩
      -- it stood before its last step where it was to stand then
      obtain ⟨e, he, hreturns⟩ := exists_returns h hp
      obtain ⟨tr₁, tr₂, -, rfl, hrun, -⟩ := h.of_mem he
      obtain ⟨hbefore, -⟩ := stands_of_run hpace hopen hwritable hrun
        (fun e' he' => hsmooth e' (List.mem_append_left _ he')) hscripted.of_append
      simp only [Stands, hreturns.clears.1] at hbefore
      obtain ⟨hprescribed', -, hnow⟩ := hbefore
      rw [← (hk.unique hprescribed').1] at hnow
      exact ⟨e, he, hreturns, hnow⟩
    | killed => simp only [Stands, hp] at hstands
    | _ => simp [Loop.isFinished, hp] at hx

/-- A gateway that fails, then does not know, then reports a success. -/
def lateSuccess : Nat → Except Gateway.Failure Gateway.Outcome
  | 0 => .error (.timedOut 3)
  | 1 => reported .unknown
  | _ => reported .success
where
  /-- An answer with a status. -/
  reported (status : Status) : Except Gateway.Failure Gateway.Outcome :=
    .ok { status, responseCode := "0", paymentCode := none, retrievalReference := none,
          message := "", raw := [] }

/-- What a loop does from the head of its cycle on, up to the end of an inquiry. -/
def cycle (time : Nat) (reply : Except Gateway.Failure Gateway.Outcome) : List Action :=
  [.step .turn, .wait time, .step .turn, .step .turn, .step (.answer reply), .step .turn]

/-- Three cycles, and the steps to an end. -/
def threeCycles : List Action :=
  .step .turn :: (cycle 2 (lateSuccess 0) ++ cycle 4 (lateSuccess 1) ++ cycle 6 (lateSuccess 2)) ++
    [.step .turn, .step .turn]

/-- The third reply comes in time for a deadline of eight, not for one of six: the tick at the
    deadline is lost. -/
theorem threeCycles_on_schedule :
    let run (deadline : Nat) := Run.play (act { interval := 2, deadline } 0) threeCycles
      (start 0 (attended "T1") (.ofCapacity 2) "T1")
    let onSchedule (deadline : Nat) := OnSchedule { interval := 2, deadline } 0 0 lateSuccess "T1"
      (run deadline).1 (run deadline).2
    ((run 8).2.loop.phase = .ended (.settled .success) ∧ inquiryTimes 0 (run 8).1 = [2, 4, 6] ∧
      (run 8).2.memory.ledger.status? "T1" = some .success ∧ onSchedule 8) ∧
    ((run 6).2.loop.phase = .ended .timedOut ∧ inquiryTimes 0 (run 6).1 = [2, 4] ∧
      (run 6).2.memory.ledger.status? "T1" = some .failed ∧ onSchedule 6) := by
  intro run onSchedule
  have hsmooth : ∀ deadline ∈ [6, 8], ∀ e ∈ (run deadline).1, e.2.isWorld = false ∧
      (e.1.loop.phase = .inquiring → e.2.answer?.isSome = true) ∧ 0 < e.1.limiter.permits := by
    decide +kernel
  have honSchedule : ∀ deadline ∈ [6, 8], ∀ n,
      answers (run deadline).1 = (List.range n).map lateSuccess → onSchedule deadline := by
    intro deadline hmem n hanswers
    refine polls_on_schedule Nat.two_pos ⟨.pending, by decide, rfl⟩ rfl (Run.of_play _ _) ?_ ?_
    · intro e he
      obtain ⟨hown, hprompt, hroom⟩ := hsmooth deadline hmem e he
      exact smooth_of_own hown hprompt hroom
    · exact scripted_of_answers hanswers
  exact ⟨⟨by decide +kernel, by decide +kernel, by decide +kernel,
      honSchedule 8 (by decide) 3 rfl⟩,
    by decide +kernel, by decide +kernel, by decide +kernel, honSchedule 6 (by decide) 2 rfl⟩

end Watch

end Poll

end TopUp
