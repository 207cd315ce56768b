import Mathlib.Logic.ExistsUnique
import TopUp.Proofs.Service.Marks
import TopUp.Proofs.Service.Sound

/-! # Services over one store

    Several services may share a store, each with a supervisor and calls of its own
    (`Fleet`). What keeps them from attending to one transaction twice is the mark in
    its row alone: a service knows nothing of the loops of another one, and forgets its
    own when somebody waits for them.

    That is enough: the mark is set exactly while one start or loop of one service
    holds it, and a start that is over has started a loop exactly if it has set the mark
    (`one_loop_per_reference`).
-/

namespace TopUp

open TopUp.Data TopUp.Store

/-- Services by number, over one store. The stores of the services themselves are not
    used. -/
structure Fleet where
  /-- The store. -/
  store : Store
  /-- The services. -/
  members : Nat → Service

namespace Fleet

variable {ρ : Type} {u : Nat → Setup} {g : Nat → Reader ρ} {l : Ledger} {f f' : Fleet}
  {k n : Nat} {r : String}

/-! ### State and actions -/

/-- A service of a fleet, with the store that all of them share. -/
def member (f : Fleet) (k : Nat) : Service := { f.members k with store := f.store }

/-- The fleet after one of its services has become another one. -/
def put (f : Fleet) (k : Nat) (s : Service) : Fleet :=
  { store := s.store, members := fun j => if j = k then s else f.members j }

/-- The stored transactions. -/
abbrev ledger (f : Fleet) : Ledger := f.store.memory.ledger

/-- Services at rest over the given transactions. -/
def ofLedger (u : Nat → Setup) (l : Ledger) : Fleet :=
  { store := { memory := { ledger := l } }, members := fun k => Service.atRest (u k) }

@[simp] theorem members_put_self (f : Fleet) (k : Nat) (s : Service) :
    (f.put k s).members k = s := by
  simp [put]

@[simp] theorem members_put_ne (f : Fleet) {j k : Nat} (s : Service) (h : j ≠ k) :
    (f.put k s).members j = f.members j := by
  simp [put, h]

/-- What can happen to services over one store. -/
inductive Action (ρ : Type) where
  /-- Something happens to one of them. -/
  | member (k : Nat) (a : Service.Action ρ)
  /-- Somebody else writes a status. -/
  | write (reference : String) (status : Status)

/-- One action, if it is possible. -/
def act (u : Nat → Setup) (g : Nat → Reader ρ) : Action ρ → Fleet → Option Fleet
  | .member k a, f => (Service.act (u k) (g k) a (f.member k)).map (f.put k)
  | .write reference status, f =>
    match f.store.update reference status with
    | .ok (_, store) => some { f with store }
    | .error _ => some f

/-- An action that makes no transactions, and takes no caller away in the moment in which
    its call holds a mark. -/
def Action.Plain (f : Fleet) : Action ρ → Prop
  | .member _ (.arrive (.topUp _ _)) => False
  | .member k (.leave n) => (f.member k).holds? (.call n) = none
  | _ => True

instance (f : Fleet) (a : Action ρ) : Decidable (a.Plain f) := by
  unfold Action.Plain
  split <;> infer_instance

/-- The mark that a task of a service holds: a start holds it from its claim on and hands it
    to its loop, which holds it until it has taken it away. -/
def holds? (f : Fleet) (h : Nat × Task) : Option String := (f.members h.1).holds? h.2

/-! ### Soundness -/

/-- Services that share a store and its marks. -/
structure Sound (f : Fleet) : Prop where
  /-- The store has no faults. -/
  faults : f.store.faults = []
  /-- The number of a call was given out. -/
  numbers : ∀ k n c, (f.members k).calls.find? n = some c → n < (f.members k).next
  /-- The number of a loop was given out. -/
  numbered : ∀ k, (f.members k).supervisor.Numbered
  /-- No call makes transactions. -/
  plain : ∀ k n i, (f.members k).calls.find? n ≠ some (.initiate i)
  /-- The marks are those that are held. -/
  held : Poll.Held f.ledger f.holds?

theorem sound_ofLedger (u : Nat → Setup) (hl : ∀ r, l.marked r = false) :
    (ofLedger u l).Sound := by
  refine ⟨rfl, fun k n c h => ?_, fun k n x h => ?_, fun k n i h => ?_,
    Poll.held_of_unmarked hl ?_⟩
  · exact absurd h (by simp [ofLedger, Service.atRest])
  · exact absurd h (by simp [ofLedger, Service.atRest])
  · exact absurd h (by simp [ofLedger, Service.atRest])
  · rintro ⟨k, t⟩
    cases t <;> simp [holds?, Service.holds?, ofLedger, Service.atRest]

theorem Sound.regular (h : f.Sound) (k : Nat) : (f.member k).Regular := ⟨h.faults, h.numbers k⟩

/-- An action of a service is a step of it over the common store. -/
theorem Sound.step_of_act (h : f.Sound) {a : Service.Action ρ}
    (ha : act u g (.member k a) f = some f') :
    ∃ s, Service.Step (u k) (g k) (f.member k) a s ∧ f' = f.put k s := by
  obtain ⟨s, hs, rfl⟩ := Option.map_eq_some_iff.mp ha
  exact ⟨s, Service.step_of_act h.faults hs, rfl⟩

/-- What is known of each service is known after a step of one of them. -/
theorem members_cases {s : Service} {P : Nat → Service → Prop} (hk : P k s)
    (hothers : ∀ j, j ≠ k → P j (f.members j)) (j : Nat) : P j ((f.put k s).members j) := by
  by_cases hj : j = k
  · subst hj
    rw [members_put_self]
    exact hk
  · rw [members_put_ne f s hj]
    exact hothers j hj

/-- A call that initiates a top-up comes in as such. -/
theorem plain_step {s s' : Service} {a : Service.Action ρ} (hs : Service.Step (u k) (g k) s a s')
    (ha : (Action.member k a).Plain f) (hplain : ∀ n i, s.calls.find? n ≠ some (.initiate i))
    (n : Nat) (i : Initiation) : s'.calls.find? n ≠ some (.initiate i) := by
  intro hn
  rcases hs.initiations hn with hold | ⟨user, request, rfl, -⟩ |
    ⟨m, e, i₀, ta, scene, -, hcall, -, -, -⟩
  · exact hplain n i hold
  · exact ha
  · exact hplain n i₀ hcall

/-- A step of one service passes the marks of all on as it should. -/
theorem Sound.passes (h : f.Sound) {a : Service.Action ρ} {s : Service}
    (hs : Service.Step (u k) (g k) (f.member k) a s) (ha : (Action.member k a).Plain f) :
    Poll.Passes f.ledger (f.put k s).ledger f.holds? (f.put k s).holds? := by
  have hnone : (f.member k).committed a = [] := Service.committed_eq_nil (h.plain k) a
  have hpasses := hs.passes (h.regular k) (h.numbered k)
    (fun t ht => absurd ht (by simp [hnone])) (by rintro n rfl; exact ha)
  refine hpasses.embed (f := fun t => (k, t)) (fun t t' heq => (Prod.mk.inj heq).2)
    (fun t => ?_) (fun t => ?_) fun j hj => ?_
  · cases t <;> rfl
  · simp [holds?]
  · have hne : j.1 ≠ k := by
      rintro rfl
      exact hj j.2 rfl
    simp [holds?, hne]

theorem Sound.step (h : f.Sound) {a : Action ρ} (ha : act u g a f = some f')
    (hplain : a.Plain f) : f'.Sound := by
  cases a with
  | member k a =>
    obtain ⟨s, hs, rfl⟩ := h.step_of_act ha
    have hregular := (h.regular k).step hs
    refine ⟨hregular.faults, ?_, ?_, ?_, h.held.step (h.passes hs hplain)⟩
    · exact members_cases (P := fun _ s => ∀ n c, s.calls.find? n = some c → n < s.next)
        hregular.numbers fun j _ => h.numbers j
    · exact members_cases (P := fun _ s => s.supervisor.Numbered) (hs.numbered (h.numbered k))
        fun j _ => h.numbered j
    · exact members_cases (P := fun _ s => ∀ n i, s.calls.find? n ≠ some (.initiate i))
        (plain_step hs hplain (h.plain k)) fun j _ => h.plain j
  | write reference status =>
    simp only [act, update_of_faults h.faults] at ha
    cases hw : f.store.memory.update reference status with
    | ok x =>
      simp only [hw, Except.map] at ha
      obtain rfl := Option.some.inj ha
      exact ⟨h.faults, h.numbers, h.numbered, h.plain,
        h.held.step (.keep (Memory.marked_update hw) fun _ => rfl)⟩
    | error cause =>
      simp only [hw, Except.map] at ha
      obtain rfl := Option.some.inj ha
      exact h

theorem sound_of_run {tr : List (Fleet × Action ρ)} (hl : ∀ r, l.marked r = false)
    (h : Run (act u g) (ofLedger u l) tr f) (hplain : ∀ e ∈ tr, e.2.Plain e.1) : f.Sound := by
  induction h with
  | nil => exact sound_ofLedger u hl
  | @snoc tr f f' a _ hact ih =>
    have hf : f.Sound := ih fun e he => hplain e (List.mem_append_left _ he)
    exact hf.step hact (hplain (f, a) (by simp))

/-! ### What starts report -/

/-- The step in which the start of a call sets the mark. -/
def Claims (k n : Nat) (r : String) (e : Fleet × Action ρ) : Prop :=
  ∃ m, e.2 = .member k (.turn m (.call n)) ∧
    (e.1.members k).calls.find? n = some (.start r .claiming) ∧ (e.1.ledger.claim r).1 = true

/-- The step in which the start of a call starts the loop. -/
def Spawns (k n : Nat) (r : String) (e : Fleet × Action ρ) : Prop :=
  ∃ m, e.2 = .member k (.turn m (.call n)) ∧
    (e.1.members k).calls.find? n = some (.start r .spawning)

/-- What the phases of starts tell of a trace. -/
structure Chronicle (tr : List (Fleet × Action ρ)) (f : Fleet) : Prop where
  /-- A start that is about to start its loop, or has done so, has set the mark. -/
  claims : ∀ k n r p, (f.members k).calls.find? n = some (.start r p) →
    ((∃ e ∈ tr, Claims k n r e) ↔ p = .spawning ∨ p = .done true)
  /-- A start that reports a loop has started it. -/
  spawns : ∀ k n r p, (f.members k).calls.find? n = some (.start r p) →
    ((∃ e ∈ tr, Spawns k n r e) ↔ p = .done true)
  /-- Every loop that was started is there, about its transaction. -/
  loops : ∀ k n r, ∀ e ∈ tr, Spawns k n r e →
    ∃ x, (f.members k).supervisor.loops.find? (e.1.members k).supervisor.next = some x ∧
      x.reference = r
  /-- Only calls that were made have had their turns. -/
  past : ∀ e ∈ tr, ∀ k n m, e.2 = .member k (.turn m (.call n)) → n < (f.members k).next

variable {tr : List (Fleet × Action ρ)} {a : Action ρ}

theorem chronicle_ofLedger (u : Nat → Setup) (l : Ledger) :
    Chronicle ([] : List (Fleet × Action ρ)) (ofLedger u l) := by
  refine ⟨fun k n r p h => ?_, fun k n r p h => ?_, by simp, by simp⟩
  · exact absurd h (by simp [ofLedger, Service.atRest])
  · exact absurd h (by simp [ofLedger, Service.atRest])

/-- Nothing is noted of a call that has not been made yet. -/
theorem Chronicle.unknown (h : Chronicle tr f) :
    (¬ ∃ e ∈ tr, Claims k (f.members k).next r e) ∧
      ¬ ∃ e ∈ tr, Spawns k (f.members k).next r e := by
  constructor
  · rintro ⟨e, he, m, hturn, -⟩
    exact absurd (h.past e he k _ m hturn) (Nat.lt_irrefl _)
  · rintro ⟨e, he, m, hturn, -⟩
    exact absurd (h.past e he k _ m hturn) (Nat.lt_irrefl _)

theorem Chronicle.claims_step (h : Chronicle tr f) {a : Service.Action ρ} {s : Service}
    (hs : Service.Step (u k) (g k) (f.member k) a s) {p : Poll.Start}
    (hn : s.calls.find? n = some (.start r p)) :
    ((∃ e ∈ tr ++ [(f, .member k a)], Claims k n r e) ↔ p = .spawning ∨ p = .done true) ∧
    ((∃ e ∈ tr ++ [(f, .member k a)], Spawns k n r e) ↔ p = .done true) := by
  rw [exists_mem_snoc, exists_mem_snoc]
  rcases hs.start_cases hn with ⟨hold, hturn⟩ | ⟨rfl, rfl, hturn⟩ | ⟨m, p₀, rfl, hcall, hmove⟩
  · -- the start has not moved
    have hno : ¬ Claims k n r (f, Action.member k a) ∧ ¬ Spawns k n r (f, Action.member k a) := by
      constructor
      · rintro ⟨m, heq, -⟩
        exact hturn m (Action.member.inj heq).2
      · rintro ⟨m, heq, -⟩
        exact hturn m (Action.member.inj heq).2
    rw [h.claims k n r p hold, h.spawns k n r p hold]
    exact ⟨or_iff_left hno.1, or_iff_left hno.2⟩
  · -- the start has just come in
    obtain ⟨hclaims, hspawns⟩ := h.unknown (k := k) (r := r)
    refine ⟨iff_of_false ?_ (by simp), iff_of_false ?_ (by simp)⟩
    · rintro (hold | ⟨m, heq, -⟩)
      · exact hclaims hold
      · exact hturn m (Action.member.inj heq).2
    · rintro (hold | ⟨m, heq, -⟩)
      · exact hspawns hold
      · exact hturn m (Action.member.inj heq).2
  · -- the start has moved, and what it did is what is to be noted
    have hcall : (f.members k).calls.find? n = some (.start r p₀) := hcall
    have hc : Claims k n r (f, (Action.member k (.turn m (.call n)) : Action ρ)) ↔
        p₀ = .claiming ∧ (f.ledger.claim r).1 = true := by
      simp [Claims, hcall]
    have hsp : Spawns k n r (f, (Action.member k (.turn m (.call n)) : Action ρ)) ↔
        p₀ = .spawning := by
      simp [Spawns, hcall]
    rw [h.claims k n r p₀ hcall, h.spawns k n r p₀ hcall, hc, hsp]
    generalize s.supervisor = v, s.store = store at hmove
    cases hmove with
    | refuse | pass | spawn => simp
    | claim hclaim => exact ⟨by simp [show (f.ledger.claim r).1 = true from hclaim], by simp⟩
    | lose hclaim => exact ⟨by simp [show (f.ledger.claim r).1 = false from hclaim], by simp⟩

/-- A loop that was started stays, and one that has just been started is there. -/
theorem Chronicle.loops_step (h : Chronicle tr f) (hf : f.Sound) {a : Service.Action ρ}
    {s : Service} (hs : Service.Step (u k) (g k) (f.member k) a s) {e : Fleet × Action ρ}
    (he : e ∈ tr ++ [(f, .member k a)]) (hsp : Spawns k n r e) :
    ∃ x, s.supervisor.loops.find? (e.1.members k).supervisor.next = some x ∧
      x.reference = r := by
  rcases List.mem_append.mp he with he | he
  · obtain ⟨x, hx, hr⟩ := h.loops k n r e he hsp
    obtain ⟨x', hx', hr'⟩ := hs.loop_persists (hf.numbered k) hx
    exact ⟨x', hx', hr'.trans hr⟩
  · rw [List.mem_singleton.mp he] at hsp ⊢
    obtain ⟨m, heq, hcall⟩ := hsp
    obtain ⟨-, rfl⟩ := Action.member.inj heq
    obtain ⟨c, hc, hstep⟩ := hs.call_of_turn
    exact hstep.spawned hcall

/-- A call that has its turn was made before. -/
theorem Chronicle.past_step (h : Chronicle tr f) (hf : f.Sound) {a : Service.Action ρ}
    {s : Service} (hs : Service.Step (u k) (g k) (f.member k) a s) {e : Fleet × Action ρ}
    (he : e ∈ tr ++ [(f, .member k a)]) {m : Moment} (heq : e.2 = .member k (.turn m (.call n))) :
    n < s.next := by
  rcases List.mem_append.mp he with he | he
  · exact Nat.lt_of_lt_of_le (h.past e he k n m heq) hs.next_le
  · rw [List.mem_singleton.mp he] at heq
    obtain ⟨-, rfl⟩ := Action.member.inj heq
    obtain ⟨c, hc, -⟩ := hs.call_of_turn
    exact (hf.regular k |>.step hs).numbers n c hc

/-- An action that is none of the service of a number leaves what is noted of it. -/
structure Skips (k : Nat) (f : Fleet) (a : Action ρ) (f' : Fleet) : Prop where
  /-- The service is as it was. -/
  member : f'.members k = f.members k
  /-- It does not do anything. -/
  idle : ∀ b, a ≠ .member k b

theorem Skips.mem (h : Skips k f a f') {e : Fleet × Action ρ} (he : e ∈ tr ++ [(f, a)])
    {b : Service.Action ρ} (hb : e.2 = .member k b) : e ∈ tr := by
  rcases List.mem_append.mp he with he | he
  · exact he
  · rw [List.mem_singleton.mp he] at hb
    exact absurd hb (h.idle b)

theorem Skips.claims (h : Skips k f a f') :
    (∃ e ∈ tr ++ [(f, a)], Claims k n r e) ↔ ∃ e ∈ tr, Claims k n r e := by
  rw [exists_mem_snoc, or_iff_left]
  rintro ⟨m, heq, -⟩
  exact h.idle _ heq

theorem Skips.spawns (h : Skips k f a f') :
    (∃ e ∈ tr ++ [(f, a)], Spawns k n r e) ↔ ∃ e ∈ tr, Spawns k n r e := by
  rw [exists_mem_snoc, or_iff_left]
  rintro ⟨m, heq, -⟩
  exact h.idle _ heq

/-- An action is a step of the service of a number or leaves it alone. -/
theorem step_or_skips (hf : f.Sound) {a : Action ρ} (ha : act u g a f = some f') (k : Nat) :
    (∃ b s, a = .member k b ∧ Service.Step (u k) (g k) (f.member k) b s ∧ f' = f.put k s) ∨
      Skips k f a f' := by
  cases a with
  | write reference status =>
    right
    refine ⟨?_, by simp⟩
    simp only [act] at ha
    split at ha
    · obtain rfl := Option.some.inj ha
      rfl
    · obtain rfl := Option.some.inj ha
      rfl
  | member j b =>
    obtain ⟨s, hs, rfl⟩ := hf.step_of_act ha
    by_cases hk : k = j
    · subst hk
      exact Or.inl ⟨b, s, rfl, hs, rfl⟩
    · exact Or.inr ⟨members_put_ne f s hk, fun c heq => hk (Action.member.inj heq).1.symm⟩

theorem Chronicle.step (h : Chronicle tr f) (hf : f.Sound) {a : Action ρ}
    (ha : act u g a f = some f') : Chronicle (tr ++ [(f, a)]) f' := by
  refine ⟨fun k n r p hn => ?_, fun k n r p hn => ?_, fun k n r e he hsp => ?_,
    fun e he k n m heq => ?_⟩
  · rcases step_or_skips hf ha k with ⟨b, s, rfl, hs, rfl⟩ | hskip
    · rw [members_put_self] at hn
      exact (h.claims_step hs hn).1
    · rw [hskip.claims]
      exact h.claims k n r p (hskip.member ▸ hn)
  · rcases step_or_skips hf ha k with ⟨b, s, rfl, hs, rfl⟩ | hskip
    · rw [members_put_self] at hn
      exact (h.claims_step hs hn).2
    · rw [hskip.spawns]
      exact h.spawns k n r p (hskip.member ▸ hn)
  · rcases step_or_skips hf ha k with ⟨b, s, rfl, hs, rfl⟩ | hskip
    · rw [members_put_self]
      exact h.loops_step hf hs he hsp
    · rw [hskip.member]
      exact h.loops k n r e (hskip.mem he hsp.choose_spec.1) hsp
  · rcases step_or_skips hf ha k with ⟨b, s, rfl, hs, rfl⟩ | hskip
    · rw [members_put_self]
      exact h.past_step hf hs he heq
    · rw [hskip.member]
      exact h.past e (hskip.mem he heq) k n m heq

theorem chronicle_of_run (hl : ∀ r, l.marked r = false)
    (h : Run (act u g) (ofLedger u l) tr f) (hplain : ∀ e ∈ tr, e.2.Plain e.1) :
    Chronicle tr f := by
  induction h with
  | nil => exact chronicle_ofLedger u l
  | snoc hrun hact ih =>
    have hpre := fun e he => hplain e (List.mem_append_left _ he)
    exact (ih hpre).step (sound_of_run hl hrun hpre) hact

/-! ### One loop for a reference -/

/-- However the starts, joins, shutdowns and loops of services over one store are
    interleaved: a row is marked exactly if one start or loop holds its mark, from the
    claim on until the mark is taken away; no two ever hold the same; and a start that is
    over reports a loop exactly if it has set the mark, and exactly if it has started a
    loop. -/
theorem one_loop_per_reference (hl : ∀ r t, l.find? r = some t → t.polling = false)
    (h : Run (act u g) (ofLedger u l) tr f) (hplain : ∀ e ∈ tr, e.2.Plain e.1) :
    (∀ r, (∃ t, f.ledger.find? r = some t ∧ t.polling = true) ↔ ∃! h, f.holds? h = some r) ∧
    (∀ r h h', f.holds? h = some r → f.holds? h' = some r → h = h') ∧
    (∀ k n r started, (f.members k).calls.find? n = some (.start r (.done started)) →
      (started = true ↔ ∃ e ∈ tr, Claims k n r e) ∧
      (started = true ↔ ∃ e ∈ tr, Spawns k n r e)) ∧
    ∀ k n r, ∀ e ∈ tr, Spawns k n r e →
      ∃ x, (f.members k).supervisor.loops.find? (e.1.members k).supervisor.next = some x ∧
        x.reference = r := by
  have hunmarked : ∀ r, l.marked r = false := by
    intro r
    cases hr : l.find? r with
    | none => simp [Ledger.marked, hr]
    | some t => rw [Ledger.marked_of_find? hr, hl r t hr]
  have hheld := (sound_of_run hunmarked h hplain).held
  have hchronicle := chronicle_of_run hunmarked h hplain
  refine ⟨fun r => ?_, fun r h h' => hheld.unique, fun k n r started hn => ?_, hchronicle.loops⟩
  · rw [← Ledger.marked_eq_true, hheld.marked]
    constructor
    · rintro ⟨h, hh⟩
      exact ⟨h, hh, fun h' hh' => hheld.unique hh' hh⟩
    · exact ExistsUnique.exists
  · rw [hchronicle.claims k n r _ hn, hchronicle.spawns k n r _ hn]
    simp

/-- Two services are asked to attend to one transaction; both look before either sets the
    mark. Then somebody waits for the loop of the first, which makes that service forget
    it, and asks for another one. -/
def rivals : List (Action (Except Gateway.Failure Gateway.Outcome)) :=
  let turn (k : Nat) (t : Task) := Action.member k (.turn (Service.moment 0) t)
  [.member 0 (.arrive (.attend "T1")), .member 1 (.arrive (.attend "T1")), turn 0 (.call 0),
    turn 1 (.call 0), turn 0 (.call 0), turn 1 (.call 0), turn 0 (.call 0), turn 0 (.loop 0),
    .member 0 (.arrive (.join "T1")), turn 0 (.call 1), .member 0 (.arrive (.attend "T1")),
    turn 0 (.call 2), turn 0 (.call 2)]

/-- A transaction that nobody attends to. -/
def unattended : Transaction :=
  NewTransaction.opened
    { user := .nil, key := .ofNat 1, billReference := "B1", reference := "T1", method := .wallet,
      amount := 50000 } (.ofNat 2) 0

/-- Of the rivals one has a loop, and the others have set no mark. -/
theorem rivals_one_loop :
    let run := Run.play (act (fun _ => Service.plain) fun _ => Service.literally) rivals
      (ofLedger (fun _ => Service.plain) (({} : Ledger).put unattended))
    (∃! h, run.2.holds? h = some "T1") ∧ (∃ e ∈ run.1, Claims 0 0 "T1" e) ∧
      (¬ ∃ e ∈ run.1, Claims 1 0 "T1" e) ∧ ¬ ∃ e ∈ run.1, Claims 0 2 "T1" e := by
  have hunmarked : ∀ r t, (({} : Ledger).put unattended).find? r = some t → t.polling = false := by
    intro r t ht
    rw [Ledger.find?_put] at ht
    split at ht
    · obtain rfl := Option.some.inj ht
      rfl
    · exact absurd ht (by simp [Ledger.find?])
  obtain ⟨hmark, -, hstart, -⟩ := one_loop_per_reference (u := fun _ => Service.plain)
    (g := fun _ => Service.literally) hunmarked (Run.of_play rivals _) (by decide +kernel)
  refine ⟨(hmark "T1").mp ?_, ?_, ?_, ?_⟩
  · exact ⟨{ unattended with polling := true }, by decide +kernel, rfl⟩
  · exact (hstart 0 0 "T1" true rfl).1.mp rfl
  · rw [← (hstart 1 0 "T1" false rfl).1]
    decide
  · rw [← (hstart 0 2 "T1" false rfl).1]
    decide

end Fleet

end TopUp
