import TopUp.Proofs.Poll.Steps
import TopUp.Proofs.Store.Marks

/-! # Who holds a mark

    A mark belongs to somebody: it is taken by the start of a loop, passed on to the
    loop and given back by the loop when it ends (`Passes`). As long as everybody keeps
    to that, a row is marked exactly while somebody holds its mark, and nobody ever
    shares a mark with another one (`Held`).
-/

namespace TopUp.Poll

open TopUp.Store

/-! ### Holders in general -/

section

variable {κ κ' : Type} {l l' : Ledger} {holds holds' : κ → Option String}
  {held held' : κ' → Option String} {r : String}

/-- The marks of a ledger are those that are held, each by one holder. -/
structure Held (l : Ledger) (holds : κ → Option String) : Prop where
  /-- No two holders share a mark. -/
  unique : ∀ {k k' r}, holds k = some r → holds k' = some r → k = k'
  /-- A mark is set exactly if somebody holds it. -/
  marked : ∀ r, l.marked r = true ↔ ∃ k, holds k = some r

/-- What a step may do to marks and to those who hold them. -/
inductive Passes (l l' : Ledger) (holds holds' : κ → Option String) : Prop where
  /-- Nothing. -/
  | keep (hl : ∀ r, l'.marked r = l.marked r) (hh : ∀ k, holds' k = holds k)
  /-- A mark that was clear is set, for somebody who holds none. -/
  | take {k : κ} {r : String} (hfree : l.marked r = false)
      (hl : ∀ r', l'.marked r' = if r = r' then true else l.marked r') (hk : holds k = none)
      (hk' : holds' k = some r) (hh : ∀ j, j ≠ k → holds' j = holds j)
  /-- A mark is passed on to somebody who holds none. -/
  | pass {k j : κ} {r : String} (hl : ∀ r, l'.marked r = l.marked r) (hne : k ≠ j)
      (hk : holds k = some r) (hj : holds j = none) (hk' : holds' k = none)
      (hj' : holds' j = some r) (hh : ∀ i, i ≠ k → i ≠ j → holds' i = holds i)
  /-- A mark is given back. -/
  | give {k : κ} {r : String} (hl : ∀ r', l'.marked r' = if r = r' then false else l.marked r')
      (hk : holds k = some r) (hk' : holds' k = none) (hh : ∀ j, j ≠ k → holds' j = holds j)

theorem held_of_unmarked (hl : ∀ r, l.marked r = false) (hh : ∀ k, holds k = none) :
    Held l holds := by
  refine ⟨fun {k} _ _ hk => absurd hk (by simp [hh k]), fun r => ?_⟩
  simp [hl, hh]

/-- Who holds a mark after a change at one holder is that one, or held it before. -/
theorem holds_cases {k j : κ} (hh : ∀ j, j ≠ k → holds' j = holds j) (hj : holds' j = some r) :
    j = k ∧ holds' k = some r ∨ j ≠ k ∧ holds j = some r := by
  by_cases hjk : j = k
  · subst hjk
    exact Or.inl ⟨rfl, hj⟩
  · exact Or.inr ⟨hjk, (hh j hjk).symm.trans hj⟩

theorem Held.take {k : κ} (h : Held l holds) (hfree : l.marked r = false)
    (hl : ∀ r', l'.marked r' = if r = r' then true else l.marked r') (hk : holds k = none)
    (hk' : holds' k = some r) (hh : ∀ j, j ≠ k → holds' j = holds j) : Held l' holds' := by
  -- the mark was clear, so nobody held it
  have hnobody : ∀ j, holds j ≠ some r := by
    intro j hj
    rw [(h.marked r).mpr ⟨j, hj⟩] at hfree
    exact absurd hfree (by simp)
  refine ⟨fun {i j r'} hi hj => ?_, fun r' => ?_⟩
  · rcases holds_cases hh hi with ⟨rfl, hr⟩ | ⟨-, hi⟩
    · obtain rfl := Option.some.inj (hk'.symm.trans hr)
      rcases holds_cases hh hj with ⟨rfl, -⟩ | ⟨-, hj⟩
      · rfl
      · exact absurd hj (hnobody j)
    · rcases holds_cases hh hj with ⟨rfl, hr⟩ | ⟨-, hj⟩
      · obtain rfl := Option.some.inj (hk'.symm.trans hr)
        exact absurd hi (hnobody i)
      · exact h.unique hi hj
  · rw [hl]
    by_cases hr : r = r'
    · subst hr
      exact iff_of_true (by simp) ⟨k, hk'⟩
    · rw [if_neg hr, h.marked]
      constructor
      · rintro ⟨j, hj⟩
        have hjk : j ≠ k := by
          rintro rfl
          rw [hk] at hj
          exact absurd hj (by simp)
        exact ⟨j, (hh j hjk).trans hj⟩
      · rintro ⟨j, hj⟩
        rcases holds_cases hh hj with ⟨-, hr'⟩ | ⟨-, hj⟩
        · exact absurd (Option.some.inj (hk'.symm.trans hr')) hr
        · exact ⟨j, hj⟩

theorem Held.give {k : κ} (h : Held l holds)
    (hl : ∀ r', l'.marked r' = if r = r' then false else l.marked r') (hk : holds k = some r)
    (hk' : holds' k = none) (hh : ∀ j, j ≠ k → holds' j = holds j) : Held l' holds' := by
  have hback : ∀ {j r'}, holds' j = some r' → j ≠ k ∧ holds j = some r' := by
    intro j r' hj
    rcases holds_cases hh hj with ⟨-, hr'⟩ | hold
    · rw [hk'] at hr'
      exact absurd hr' (by simp)
    · exact hold
  refine ⟨fun hi hj => h.unique (hback hi).2 (hback hj).2, fun r' => ?_⟩
  rw [hl]
  by_cases hr : r = r'
  · -- nobody else held the mark that is given back
    subst hr
    refine iff_of_false (by simp) ?_
    rintro ⟨j, hj⟩
    obtain ⟨hjk, hj⟩ := hback hj
    exact hjk (h.unique hj hk)
  · rw [if_neg hr, h.marked]
    constructor
    · rintro ⟨j, hj⟩
      have hjk : j ≠ k := by
        rintro rfl
        exact hr (Option.some.inj (hk.symm.trans hj))
      exact ⟨j, (hh j hjk).trans hj⟩
    · rintro ⟨j, hj⟩
      exact ⟨j, (hback hj).2⟩

/-- To pass a mark on is to give it back and to take it. -/
theorem Held.pass {k j : κ} (h : Held l holds) (hl : ∀ r, l'.marked r = l.marked r) (hne : k ≠ j)
    (hk : holds k = some r) (hj : holds j = none) (hk' : holds' k = none)
    (hj' : holds' j = some r) (hh : ∀ i, i ≠ k → i ≠ j → holds' i = holds i) :
    Held l' holds' := by
  classical
  have hset : l.marked r = true := (h.marked r).mpr ⟨k, hk⟩
  have hgiven : Held (l.clear r) fun i => if i = k then none else holds i :=
    h.give (fun r' => Ledger.marked_clear ..) hk (if_pos rfl) fun i hi => if_neg hi
  refine hgiven.take (k := j) ?_ (fun r' => ?_) ?_ hj' fun i hij => ?_
  · rw [Ledger.marked_clear, if_pos rfl]
  · rw [hl, Ledger.marked_clear]
    by_cases hr : r = r'
    · rw [if_pos hr, ← hr, hset]
    · rw [if_neg hr, if_neg hr]
  · rw [if_neg hne.symm, hj]
  · by_cases hik : i = k
    · rw [if_pos hik, hik, hk']
    · rw [if_neg hik, hh i hik hij]

theorem Held.step (h : Held l holds) (hp : Passes l l' holds holds') : Held l' holds' := by
  cases hp with
  | keep hl hh =>
    refine ⟨fun {k k' r} hk hk' => ?_, fun r => ?_⟩
    · rw [hh] at hk hk'
      exact h.unique hk hk'
    · simp only [hl, hh]
      exact h.marked r
  | take hfree hl hk hk' hh => exact h.take hfree hl hk hk' hh
  | pass hl hne hk hj hk' hj' hh => exact h.pass hl hne hk hj hk' hj' hh
  | give hl hk hk' hh => exact h.give hl hk hk' hh

/-- What a step does among some holders it does among all, if it leaves the others alone. -/
theorem Passes.embed (h : Passes l l' holds holds') {f : κ → κ'} (hf : Function.Injective f)
    (hheld : ∀ k, held (f k) = holds k) (hheld' : ∀ k, held' (f k) = holds' k)
    (hothers : ∀ j, (∀ k, j ≠ f k) → held' j = held j) : Passes l l' held held' := by
  have hcases : ∀ {P : κ' → Prop}, (∀ k, P (f k)) → (∀ j, (∀ k, j ≠ f k) → P j) → ∀ j, P j := by
    intro P hin hout j
    by_cases hj : ∃ k, j = f k
    · obtain ⟨k, rfl⟩ := hj
      exact hin k
    · exact hout j fun k hk => hj ⟨k, hk⟩
  cases h with
  | keep hl hh =>
    refine .keep hl (hcases (fun k => ?_) hothers)
    rw [hheld, hheld', hh]
  | @take k r hfree hl hk hk' hh =>
    refine .take (k := f k) hfree hl (by rw [hheld, hk]) (by rw [hheld', hk']) ?_
    refine hcases (fun j hj => ?_) fun j hj _ => hothers j hj
    rw [hheld, hheld', hh j fun heq => hj (heq ▸ rfl)]
  | @pass k j r hl hne hk hj hk' hj' hh =>
    refine .pass (k := f k) (j := f j) hl (fun heq => hne (hf heq)) (by rw [hheld, hk])
      (by rw [hheld, hj]) (by rw [hheld', hk']) (by rw [hheld', hj']) ?_
    refine hcases (fun i hik hij => ?_) fun i hi _ _ => hothers i hi
    rw [hheld, hheld', hh i (fun heq => hik (heq ▸ rfl)) fun heq => hij (heq ▸ rfl)]
  | @give k r hl hk hk' hh =>
    refine .give (k := f k) hl (by rw [hheld, hk]) (by rw [hheld', hk']) ?_
    refine hcases (fun j hj => ?_) fun j hj _ => hothers j hj
    rw [hheld, hheld', hh j fun heq => hj (heq ▸ rfl)]

end

/-! ### Starts and loops -/

/-- The mark that a start holds: it has taken it and not yet passed it on to the loop. -/
def Start.holds? (reference : String) : Start → Option String
  | .spawning => some reference
  | .checking | .claiming | .done _ => none

/-- The mark that a loop holds until it has taken it away. One that was killed never
    does. -/
def Loop.holds? (x : Loop) : Option String :=
  match x.phase with
  | .ended _ => none
  | _ => some x.reference

namespace Loop

variable {x x' : Loop} {p : Pace} {stopping : Bool} {now id : Nat} {e : Event} {s s' : Store}
  {l l' : Limiter}

theorem holds?_of_ne (h : ∀ o, x.phase ≠ .ended o) : x.holds? = some x.reference := by
  unfold holds?
  split
  · next o ho => exact absurd ho (h o)
  · rfl

theorem holds?_of_not_finished (h : x.isFinished = false) : x.holds? = some x.reference := by
  apply holds?_of_ne
  intro o ho
  simp [isFinished, ho] at h

theorem holds?_eq_some {r : String} (h : x.holds? = some r) :
    x.reference = r ∧ ∀ o, x.phase ≠ .ended o := by
  unfold holds? at h
  split at h
  · exact absurd h (by simp)
  · next hne => exact ⟨Option.some.inj h, hne⟩

/-- A loop that takes a step has not ended. -/
theorem Move.holds? (h : Move p stopping now id s l x e s' l' x') :
    x.holds? = some x.reference := by
  apply holds?_of_ne
  intro o ho
  cases h with
  | stop hp => rcases hp with hp | ⟨hp, -⟩ <;> simp [hp] at ho
  | unpaced hp | begin hp | wait hp | expire hp | tick hp | inquire hp | slotless hp
  | answered _ hp | unanswered hp | kill hp | giveBack hp | settle hp | unsettled hp | fail hp
  | unfailed hp | clear hp => simp [hp] at ho

theorem holds?_endInquiry (l : Limiter) (x : Loop) (answer : Option Status) :
    (endInquiry l x answer).2.holds? = some x.reference := by
  rcases endInquiry_loop l x answer with h | h
  · rw [h]
    rfl
  · rw [h]
    cases answer <;> rfl

/-- A loop takes its mark away when it ends; in all other steps it keeps it and leaves the
    marks as they are. -/
theorem Move.marks (h : Move p stopping now id s l x e s' l' x') :
    (∃ o, x.phase = .clearing o ∧ x' = { x with phase := .ended o } ∧
      s'.memory.ledger = s.memory.ledger.clear x.reference) ∨
    x'.holds? = some x.reference ∧
      ∀ r, s'.memory.ledger.marked r = s.memory.ledger.marked r := by
  cases h with
  | clear hp => exact Or.inl ⟨_, hp, rfl, rfl⟩
  | settle hp hw | fail hp hw => exact Or.inr ⟨rfl, Memory.marked_update hw⟩
  | answered | unanswered => exact Or.inr ⟨holds?_endInquiry _ _ _, fun _ => rfl⟩
  | @giveBack answer => cases answer <;> exact Or.inr ⟨rfl, fun _ => rfl⟩
  | _ => exact Or.inr ⟨rfl, fun _ => rfl⟩

end Loop

end TopUp.Poll
