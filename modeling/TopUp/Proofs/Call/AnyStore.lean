import TopUp.Proofs.Call.Alone

/-! # An initiation over a store that may fail

    Two things hold of an initiation whatever its store does. What it puts into the
    ledger is in the name of its own user; apart from that rows only age
    (`Phase.Owned.step`). And once the gateway has told it an outcome it goes on by
    itself and ends with a receipt, unless the store fails (`Phase.Told.turn`).
-/

namespace TopUp

open TopUp.Gateway TopUp.Store

/-- A call failed because of the store. -/
def Call.Failure.IsOfStore : Call.Failure → Prop
  | .store _ | .unrecorded _ _ => True
  | .gateway _ => False

/-- Such a failure is reported as a fault of the service. -/
theorem Call.Failure.IsOfStore.httpStatus {f : Call.Failure} (h : f.IsOfStore) :
    f.problem.httpStatus = 500 := by
  cases f with
  | gateway cause => exact absurd h id
  | store cause => rfl
  | unrecorded reference cause => rfl

namespace Store

variable {s s' : Store} {d d' : Draft} {t : Transaction} {r : String} {status : Status}
  {b : Bool}

/-! ### What becomes of units of work -/

theorem create_of_createDraft {new : NewTransaction} {id : Uuid} {now : Int}
    (h : s.createDraft d new id now = .ok (t, d')) :
    t = new.opened id now ∧ d' = { d with created := d.created ++ [t] } := by
  unfold createDraft at h
  split at h
  · exact absurd h (by simp)
  · obtain ⟨ht, hd, -⟩ := Draft.create_eq_ok h
    exact ⟨ht, hd⟩

/-- A status write changes nothing but statuses of what a unit of work has made. -/
theorem users_of_updateDraft (h : s.updateDraft d r status = .ok (b, d')) :
    d'.created.map Transaction.user = d.created.map Transaction.user := by
  unfold updateDraft at h
  split at h
  · exact absurd h (by simp)
  · split at h
    · obtain ⟨-, rfl⟩ := Prod.mk.inj (Except.ok.inj h)
      rfl
    · unfold Memory.updateDraft at h
      split at h
      · exact absurd h (by simp)
      · have hd : (d.writeStatus s.memory.ledger r status).2 = d' :=
          congrArg Prod.snd (Except.ok.inj h)
        rw [← hd]
        exact Draft.map_writeStatus Transaction.user (fun _ _ => rfl) d s.memory.ledger r status

theorem ledger_of_commitDraft (h : s.commitDraft d = .ok s') :
    s'.memory.ledger = d.commit s.memory.ledger := by
  unfold commitDraft at h
  split at h
  · exact absurd h (by simp)
  · rw [← Except.ok.inj h]
    rfl

theorem ledger_of_lookupLock {key : Uuid} {owner lock : Nat}
    (h : s.lookupLock key owner = .ok (lock, s')) : s'.memory.ledger = s.memory.ledger := by
  unfold lookupLock at h
  split at h
  · exact absurd h (by simp)
  · obtain ⟨-, rfl⟩ := Prod.mk.inj (Except.ok.inj h)
    rfl

theorem ages_of_claim (h : s.claim r = .ok (b, s')) :
    s.memory.ledger.Ages s'.memory.ledger := by
  unfold claim at h
  split at h
  · exact absurd h (by simp)
  · obtain ⟨-, rfl⟩ := Prod.mk.inj (Except.ok.inj h)
    exact Ledger.claim_ages s.memory.ledger r

/-- The start of a poll loop at most marks a row. -/
theorem ages_of_start {v v' : Poll.Supervisor} {p p' : Poll.Start}
    (h : p.step r v s = some (v', s', p')) : s.memory.ledger.Ages s'.memory.ledger := by
  cases p with
  | checking =>
    simp only [Poll.Start.step] at h
    split at h
    · obtain ⟨-, rfl, -⟩ := by simpa using h
      exact .refl _
    · obtain ⟨-, rfl, -⟩ := by simpa using h
      exact .refl _
  | claiming =>
    -- the only phase that writes
    simp only [Poll.Start.step] at h
    split at h
    · next hclaim =>
      obtain ⟨-, rfl, -⟩ := by simpa using h
      exact ages_of_claim hclaim
    · next hclaim =>
      obtain ⟨-, rfl, -⟩ := by simpa using h
      exact ages_of_claim hclaim
    · obtain ⟨-, rfl, -⟩ := by simpa using h
      exact .refl _
  | spawning =>
    obtain ⟨-, rfl, -⟩ := by simpa [Poll.Start.step] using h
    exact .refl _
  | done started => exact absurd h (by simp [Poll.Start.step])

/-! ### Rows of a user -/

/-- A ledger at a later time: a row of it is one of the earlier ledger at a later time, or it
    belongs to the user. -/
def Ledger.Adds (user : Uuid) (l l' : Ledger) : Prop :=
  ∀ r t, l'.find? r = some t → t.user = user ∨ ∃ t₀, l.find? r = some t₀ ∧ t₀.Becomes t

namespace Ledger

variable {l l' l'' : Ledger} {user : Uuid}

theorem Ages.adds (h : l.Ages l') (user : Uuid) : l.Adds user l' := fun _ _ ht => Or.inr (h.back ht)

theorem adds_of_eq (h : l' = l) : l.Adds user l' := by
  rw [h]
  exact (Ages.refl l).adds user

theorem Adds.trans (h : l.Adds user l') (h' : l'.Adds user l'') : l.Adds user l'' := by
  intro r t ht
  rcases h' r t ht with huser | ⟨t', ht', hb⟩
  · exact Or.inl huser
  · rcases h r t' ht' with huser | ⟨t₀, ht₀, hb₀⟩
    · exact Or.inl (hb.user.trans huser)
    · exact Or.inr ⟨t₀, ht₀, hb₀.trans hb⟩

theorem adds_put {t : Transaction} (ht : t.user = user) : l.Adds user (l.put t) := by
  intro r t' ht'
  rw [find?_put] at ht'
  split at ht'
  · exact Or.inl (Option.some.inj ht' ▸ ht)
  · exact Or.inr ⟨t', ht', .refl t'⟩

theorem adds_putAll {ts : List Transaction} (hts : ∀ t ∈ ts, t.user = user) :
    l.Adds user (ts.foldl put l) := by
  induction ts generalizing l with
  | nil => exact adds_of_eq rfl
  | cons t rest ih =>
    have hrest := ih (l := l.put t) fun t' ht' => hts t' (List.mem_cons_of_mem _ ht')
    exact (adds_put (hts t List.mem_cons_self)).trans hrest

theorem adds_commit {d : Draft} (h : ∀ t ∈ d.created, t.user = user) (l : Ledger) :
    l.Adds user (d.commit l) :=
  (adds_putAll h).trans ((d.commit_ages l).adds user)

end Ledger

end Store

namespace Initiation

variable {c : CallSettings} {page : CardPage} {m : Moment} {me : Nat} {s s' : Scene}
  {i : Initiation} {e : Event} {p p' : Phase} {w w' : Work} {user : Uuid}

/-! ### What a step does to the ledger -/

/-- What a step can do to the ledger and to what its unit of work has made, whatever the
    store does. -/
inductive Footprint (i : Initiation) (s : Scene) : Scene → Phase → Prop where
  /-- There is no unit of work from here on; at most a row is marked. -/
  | rest {s' : Scene} {p : Phase} (hwork' : p.work? = none)
      (hages : s.store.memory.ledger.Ages s'.store.memory.ledger) : Footprint i s s' p
  /-- A unit of work is begun. -/
  | begin {p : Phase} {w' : Work} (hwork' : p.work? = some w') (hmade : w'.draft.created = []) :
      Footprint i s s p
  /-- It goes on; of what it has made at most a status is written. -/
  | goOn {p : Phase} {w w' : Work} (hwork : i.phase.work? = some w) (hwork' : p.work? = some w')
      (husers : w'.draft.created.map Transaction.user = w.draft.created.map Transaction.user) :
      Footprint i s s p
  /-- It makes a transaction for the user of the call. -/
  | create {p : Phase} {w w' : Work} {t : Transaction} (hwork : i.phase.work? = some w)
      (hwork' : p.work? = some w') (hmade : w'.draft.created = w.draft.created ++ [t])
      (huser : t.user = i.user) : Footprint i s s p
  /-- It is committed. -/
  | commit {s' : Scene} {p : Phase} {w : Work} (hwork : i.phase.work? = some w)
      (hwork' : p.work? = none)
      (hledger : s'.store.memory.ledger = w.draft.commit s.store.memory.ledger) : Footprint i s s' p

/-- A unit of work that is dropped leaves the ledger alone. -/
theorem footprint_of_abandon {cause : Call.Failure}
    (h : some (abandon me s w cause) = some (s', p)) : Footprint i s s' p := by
  obtain ⟨rfl, rfl⟩ := Prod.mk.inj (Option.some.inj h)
  exact .rest rfl (.refl _)

/-- A step of a call without a unit of work. -/
theorem footprint_of_workless (hwork : i.phase.work? = none)
    (hstep : i.step c page m me e s = some (s', p)) : Footprint i s s' p := by
  cases hp : i.phase with
  | opening =>
    cases e with
    | turn =>
      simp only [step, hp] at hstep
      split at hstep
      · next hlock =>
        obtain ⟨rfl, rfl⟩ := Prod.mk.inj (Option.some.inj hstep)
        refine .rest rfl ?_
        rw [ledger_of_lookupLock hlock]
        exact .refl _
      · obtain ⟨rfl, rfl⟩ := Prod.mk.inj (Option.some.inj hstep)
        exact .rest rfl (.refl _)
    | _ => exact absurd hstep (by simp [step, hp])
  | entering lock =>
    cases e with
    | turn =>
      simp only [step, hp] at hstep
      obtain ⟨rfl, rfl⟩ := Prod.mk.inj (Option.some.inj hstep)
      exact .rest rfl (.refl _)
    | _ => exact absurd hstep (by simp [step, hp])
  | queued lock =>
    cases e with
    | turn =>
      simp only [step, hp] at hstep
      split at hstep
      · obtain ⟨rfl, rfl⟩ := Prod.mk.inj (Option.some.inj hstep)
        exact .begin rfl rfl
      · exact absurd hstep (by simp)
    | _ => exact absurd hstep (by simp [step, hp])
  | attending receipt reference start =>
    cases e with
    | turn =>
      simp only [step, hp] at hstep
      split at hstep
      · obtain ⟨rfl, rfl⟩ := Prod.mk.inj (Option.some.inj hstep)
        exact .rest rfl (.refl _)
      · obtain ⟨⟨v, store, start'⟩, hstart, heq⟩ := Option.map_eq_some_iff.mp hstep
        obtain ⟨rfl, rfl⟩ := Prod.mk.inj heq
        exact .rest rfl (ages_of_start hstart)
    | _ => exact absurd hstep (by simp [step, hp])
  | done result => exact absurd hstep (by simp [step, hp])
  | _ => exact absurd hwork (by simp [hp, Phase.work?])

/-- A step of a call with a unit of work. -/
theorem footprint_of_work (hwork : i.phase.work? = some w)
    (hstep : i.step c page m me e s = some (s', p)) : Footprint i s s' p := by
  cases hp : i.phase with
  | reading w₀ =>
    obtain rfl : w₀ = w := by simpa [hp, Phase.work?] using hwork
    cases e with
    | turn =>
      simp only [step, hp] at hstep
      split at hstep
      · split at hstep
        · obtain ⟨rfl, rfl⟩ := Prod.mk.inj (Option.some.inj hstep)
          exact .goOn hwork rfl rfl
        · obtain ⟨rfl, rfl⟩ := Prod.mk.inj (Option.some.inj hstep)
          exact .goOn hwork rfl rfl
      · obtain ⟨rfl, rfl⟩ := Prod.mk.inj (Option.some.inj hstep)
        exact .goOn hwork rfl rfl
      · exact footprint_of_abandon hstep
    | _ => exact absurd hstep (by simp [step, hp])
  | inquiring w₀ t =>
    obtain rfl : w₀ = w := by simpa [hp, Phase.work?] using hwork
    cases e with
    | answer result =>
      simp only [step, hp] at hstep
      split at hstep
      · obtain ⟨rfl, rfl⟩ := Prod.mk.inj (Option.some.inj hstep)
        exact .goOn hwork (work?_afterInquiry _ _) rfl
      · exact footprint_of_abandon hstep
    | _ => exact absurd hstep (by simp [step, hp])
  | amending w₀ t status message =>
    obtain rfl : w₀ = w := by simpa [hp, Phase.work?] using hwork
    cases e with
    | turn =>
      simp only [step, hp] at hstep
      split at hstep
      · next hwrite =>
        obtain ⟨rfl, rfl⟩ := Prod.mk.inj (Option.some.inj hstep)
        exact .goOn hwork rfl (users_of_updateDraft hwrite)
      · next hwrite =>
        obtain ⟨rfl, rfl⟩ := Prod.mk.inj (Option.some.inj hstep)
        exact .goOn hwork rfl (users_of_updateDraft hwrite)
      · exact footprint_of_abandon hstep
    | _ => exact absurd hstep (by simp [step, hp])
  | rereading w₀ t message =>
    obtain rfl : w₀ = w := by simpa [hp, Phase.work?] using hwork
    cases e with
    | turn =>
      simp only [step, hp] at hstep
      split at hstep
      · obtain ⟨rfl, rfl⟩ := Prod.mk.inj (Option.some.inj hstep)
        exact .goOn hwork rfl rfl
      · exact footprint_of_abandon hstep
      · exact footprint_of_abandon hstep
    | _ => exact absurd hstep (by simp [step, hp])
  | creating w₀ =>
    obtain rfl : w₀ = w := by simpa [hp, Phase.work?] using hwork
    cases e with
    | turn =>
      simp only [step, hp] at hstep
      split at hstep
      · next hcreate =>
        obtain ⟨rfl, rfl⟩ := Prod.mk.inj (Option.some.inj hstep)
        obtain ⟨rfl, rfl⟩ := create_of_createDraft hcreate
        exact .create hwork (work?_afterCreation _ _) rfl rfl
      · exact footprint_of_abandon hstep
    | _ => exact absurd hstep (by simp [step, hp])
  | declined w₀ cause =>
    cases e with
    | turn =>
      simp only [step, hp] at hstep
      exact footprint_of_abandon hstep
    | _ => exact absurd hstep (by simp [step, hp])
  | submitting w₀ t r =>
    obtain rfl : w₀ = w := by simpa [hp, Phase.work?] using hwork
    cases e with
    | answer result =>
      simp only [step, hp] at hstep
      split at hstep
      · split at hstep
        · obtain ⟨rfl, rfl⟩ := Prod.mk.inj (Option.some.inj hstep)
          exact .goOn hwork rfl rfl
        · obtain ⟨rfl, rfl⟩ := Prod.mk.inj (Option.some.inj hstep)
          exact .goOn hwork rfl rfl
      · exact footprint_of_abandon hstep
    | _ => exact absurd hstep (by simp [step, hp])
  | recording w₀ t status message =>
    obtain rfl : w₀ = w := by simpa [hp, Phase.work?] using hwork
    cases e with
    | turn =>
      simp only [step, hp] at hstep
      split at hstep
      · next hwrite =>
        obtain ⟨rfl, rfl⟩ := Prod.mk.inj (Option.some.inj hstep)
        exact .goOn hwork rfl (users_of_updateDraft hwrite)
      · exact footprint_of_abandon hstep
    | _ => exact absurd hstep (by simp [step, hp])
  | committing w₀ receipt attend paid =>
    obtain rfl : w₀ = w := by simpa [hp, Phase.work?] using hwork
    cases e with
    | turn =>
      simp only [step, hp] at hstep
      split at hstep
      · next hcommit =>
        obtain ⟨rfl, rfl⟩ := Prod.mk.inj (Option.some.inj hstep)
        -- the lock is given up too, which is no matter of the ledger
        have hledger := ledger_of_commitDraft hcommit
        exact .commit hwork (by split <;> rfl) hledger
      · exact footprint_of_abandon hstep
    | _ => exact absurd hstep (by simp [step, hp])
  | _ => exact absurd hwork (by simp [hp, Phase.work?])

/-! ### In whose name -/

/-- What the unit of work of a phase has made belongs to the user. -/
def Phase.Owned (user : Uuid) (p : Phase) : Prop :=
  ∀ w, p.work? = some w → ∀ t ∈ w.draft.created, t.user = user

theorem Phase.owned_of_workless (h : p.work? = none) : p.Owned user := by
  intro w hw
  rw [h] at hw
  exact absurd hw (by simp)

theorem owned_ofRequest (user : Uuid) (q : Request) : (ofRequest user q).phase.Owned user := by
  refine Phase.owned_of_workless ?_
  unfold ofRequest
  split <;> rfl

theorem user_ofRequest (user : Uuid) (q : Request) : (ofRequest user q).user = user := by
  unfold ofRequest
  split <;> rfl

/-- The users of what was made are those of an earlier phase. -/
theorem Phase.Owned.of_users (h : p.Owned user) (hw : p.work? = some w) (hw' : p'.work? = some w')
    (husers : w'.draft.created.map Transaction.user = w.draft.created.map Transaction.user) :
    p'.Owned user := by
  intro w₁ hw₁ t ht
  obtain rfl := Option.some.inj (hw'.symm.trans hw₁)
  have hmem : t.user ∈ w.draft.created.map Transaction.user := by
    rw [← husers]
    exact List.mem_map_of_mem ht
  obtain ⟨t₀, ht₀, huser⟩ := List.mem_map.mp hmem
  rw [← huser]
  exact h w hw t₀ ht₀

/-- Whatever the store does, a call puts in transactions of its own user only. -/
theorem Phase.Owned.step (h : i.phase.Owned i.user)
    (hstep : i.step c page m me e s = some (s', p)) :
    p.Owned i.user ∧ s.store.memory.ledger.Adds i.user s'.store.memory.ledger := by
  have hprint : Footprint i s s' p := by
    cases hwork : i.phase.work? with
    | none => exact footprint_of_workless hwork hstep
    | some w => exact footprint_of_work hwork hstep
  cases hprint with
  | rest hwork' hages => exact ⟨owned_of_workless hwork', hages.adds i.user⟩
  | begin hwork' hmade =>
    refine ⟨?_, Ledger.adds_of_eq rfl⟩
    intro w hw t ht
    obtain rfl := Option.some.inj (hwork'.symm.trans hw)
    rw [hmade] at ht
    exact absurd ht List.not_mem_nil
  | goOn hwork hwork' husers => exact ⟨h.of_users hwork hwork' husers, Ledger.adds_of_eq rfl⟩
  | create hwork hwork' hmade huser =>
    refine ⟨?_, Ledger.adds_of_eq rfl⟩
    intro w hw t ht
    obtain rfl := Option.some.inj (hwork'.symm.trans hw)
    rw [hmade] at ht
    rcases List.mem_append.mp ht with hold | hnew
    · exact h _ hwork t hold
    · rwa [List.mem_singleton.mp hnew]
  | commit hwork hwork' hledger =>
    refine ⟨owned_of_workless hwork', ?_⟩
    rw [hledger]
    exact Ledger.adds_commit (h _ hwork) s.store.memory.ledger

/-! ### What becomes of an outcome -/

/-- Where a call can stand once the gateway has told it an outcome. -/
def Phase.Told : Phase → Prop
  | .amending _ _ _ _ | .rereading _ _ _ | .recording _ _ _ _ | .committing _ _ _ _
  | .attending _ _ _ | .done (.ok _) => True
  | .done (.error failure) => failure.IsOfStore
  | _ => False

/-- The gateway tells a call an outcome. -/
theorem Phase.told_of_answer {o : Outcome}
    (hstep : i.step c page m me (.answer (.ok o)) s = some (s', p)) : p.Told := by
  -- only two phases wait for an answer
  cases hp : i.phase with
  | inquiring w t =>
    simp only [step, hp] at hstep
    obtain ⟨-, rfl⟩ := Prod.mk.inj (Option.some.inj hstep)
    unfold afterInquiry
    split
    · trivial
    · split <;> trivial
  | submitting w t r =>
    simp only [step, hp] at hstep
    split at hstep
    · obtain ⟨-, rfl⟩ := Prod.mk.inj (Option.some.inj hstep)
      trivial
    · obtain ⟨-, rfl⟩ := Prod.mk.inj (Option.some.inj hstep)
      trivial
  | _ => exact absurd hstep (by simp [step, hp])

/-- From then on the call goes on by itself, and each of its turns brings it closer to its
    end, whatever the store does. -/
theorem Phase.Told.turn (h : i.phase.Told) (c : CallSettings) (page : CardPage) (m : Moment)
    (me : Nat) (s : Scene) : (∃ result, i.phase = .done result) ∨
      ∃ s' p, i.step c page m me .turn s = some (s', p) ∧ p.Told ∧ p.left < i.phase.left := by
  cases hp : i.phase with
  | done result => exact Or.inl ⟨result, rfl⟩
  | amending w t status message =>
    right
    simp only [step, hp]
    split <;> exact ⟨_, _, rfl, trivial, by simp [Phase.left]⟩
  | rereading w t message =>
    right
    simp only [step, hp]
    split <;> exact ⟨_, _, rfl, trivial, by simp [Phase.left]⟩
  | recording w t status message =>
    right
    simp only [step, hp]
    split
    · exact ⟨_, _, rfl, trivial, by simp [Phase.left, afterDebit]⟩
    · exact ⟨_, _, rfl, trivial, by simp [Phase.left]⟩
  | committing w receipt attend paid =>
    right
    simp only [step, hp]
    split
    · cases attend with
      | none => exact ⟨_, _, rfl, trivial, by simp [Phase.left]⟩
      | some reference => exact ⟨_, _, rfl, trivial, by simp [Phase.left]⟩
    · cases paid with
      | none => exact ⟨_, _, rfl, trivial, by simp [Phase.left]⟩
      | some reference => exact ⟨_, _, rfl, trivial, by simp [Phase.left]⟩
  | attending receipt reference start =>
    -- the start of a loop cannot fail: at worst no loop is started
    right
    cases start with
    | done started =>
      refine ⟨s, .done (.ok receipt), ?_, trivial, by simp [Phase.left]⟩
      simp only [step, hp]
    | checking =>
      simp only [step, hp, Poll.Start.step]
      split <;> exact ⟨_, _, rfl, trivial, by simp [Phase.left]⟩
    | claiming =>
      simp only [step, hp, Poll.Start.step]
      split <;> exact ⟨_, _, rfl, trivial, by simp [Phase.left]⟩
    | spawning =>
      simp only [step, hp, Poll.Start.step]
      exact ⟨_, _, rfl, trivial, by simp [Phase.left]⟩
  | _ => exact absurd h (by simp [hp, Phase.Told])

/-- What was told is not forgotten. -/
theorem Phase.Told.step (h : i.phase.Told) (hstep : i.step c page m me e s = some (s', p)) :
    p.Told := by
  cases e with
  | turn =>
    rcases h.turn c page m me s with ⟨result, hp⟩ | ⟨s₁, p₁, hstep₁, hp₁, -⟩
    · exact absurd hstep (by simp [Initiation.step, hp])
    · obtain ⟨-, rfl⟩ := Prod.mk.inj (Option.some.inj (hstep₁.symm.trans hstep))
      exact hp₁
  | answer result =>
    cases hp : i.phase with
    | inquiring | submitting => exact absurd h (by simp [hp, Phase.Told])
    | _ => exact absurd hstep (by simp [Initiation.step, hp])
  | crash => cases hp : i.phase <;> exact absurd hstep (by simp [Initiation.step, hp])

end Initiation

end TopUp
