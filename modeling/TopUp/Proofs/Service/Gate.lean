import TopUp.Proofs.Call.AnyStore
import TopUp.Proofs.Http.Router
import TopUp.Proofs.Service.Retries
import TopUp.Proofs.Service.Tasks

/-! # The gate of a service

    A top-up that is asked for over HTTP gets a call of its own, and nothing is done for
    it but by that call (`Action.Concerns`). The call takes part in nothing if the request
    fails its check; otherwise it puts rows of the caller only into the ledger. Once the
    gateway has told it an outcome it ends with a receipt by its own turns, unless the
    store fails (`top_up_gated`).

    Nothing is assumed of the store: it may fail at any operation. What else happens to
    the service meanwhile is left open as well, and so is what the body of a request is
    read as.
-/

namespace TopUp

open TopUp.Data TopUp.Gateway TopUp.Store

namespace Service

variable {ρ : Type} {u : Setup} {g : Reader ρ} {s s' : Service} {a : Action ρ}
  {tr : List (Service × Action ρ)} {n : Nat} {c : Call} {i : Initiation}

/-! ### One call in the course of a run -/

/-- How a call whose number was given out has come to be as it is. -/
theorem Change.call_cases (h : Change u g s a s') (hnum : n < s.next)
    (hn : s'.calls.find? n = some c) : s.calls.find? n = some c ∨
      ∃ m e c₀, s.calls.find? n = some c₀ ∧ Advance u m n e ⟨s.store, s.supervisor⟩ c₀ c := by
  cases h with
  | arrive d =>
    rw [begin, Dict.find?_insert_ne _ _ (Nat.ne_of_gt hnum)] at hn
    exact Or.inl hn
  | @advance _ _ m k e c₀ c' _ hcall hadvance hcalls =>
    rw [hcalls, Dict.find?_insert] at hn
    split at hn
    · next heq =>
      subst heq
      obtain rfl := Option.some.inj hn
      exact Or.inr ⟨m, e, c₀, hcall, hadvance⟩
    · exact Or.inl hn
  | leave _ _ hcalls =>
    rw [hcalls, Dict.find?_erase] at hn
    split at hn
    · exact absurd hn (by simp)
    · exact Or.inl hn
  | other _ hcalls =>
    rw [hcalls] at hn
    exact Or.inl hn

/-- A call of a number, if it is there, initiates a top-up and has a property. -/
def Initiates (s : Service) (n : Nat) (P : Initiation → Prop) : Prop :=
  ∀ c, s.calls.find? n = some c → ∃ i, c = .initiate i ∧ P i

/-- What every step of an initiation keeps, whatever its store does, holds along a run. -/
theorem initiates_of_run {P : Initiation → Prop}
    (hP : ∀ {i m e scene scene' p}, P i →
      i.step u.calls u.page m n e scene = some (scene', p) → P { i with phase := p })
    (h : Run (act u g) s tr s') (hnum : n < s.next) (hn : s.Initiates n P) :
    n < s'.next ∧ s'.Initiates n P := by
  induction h with
  | nil => exact ⟨hnum, hn⟩
  | snoc _ hact ih =>
    obtain ⟨hnum', hn'⟩ := ih
    have hchange := change_of_act hact
    refine ⟨Nat.lt_of_lt_of_le hnum' hchange.numbers.1, fun c hc => ?_⟩
    -- the call was there before, as it is or a step of its own ago
    rcases hchange.call_cases hnum' hc with hold | ⟨m, e, c₀, hc₀, hadvance⟩
    · exact hn' c hold
    · obtain ⟨i, rfl, hi⟩ := hn' c₀ hc₀
      cases hadvance with
      | initiate hstep => exact ⟨_, rfl, hP hi hstep⟩
      | other hother => exact absurd rfl (hother i)

/-- A call that has just begun. -/
theorem initiates_begin {P : Initiation → Prop} (hi : P i) :
    (s.begin (.initiate i)).2.Initiates s.next P := by
  intro c hc
  rw [begin, Dict.find?_insert_self] at hc
  exact ⟨i, (Option.some.inj hc).symm, hi⟩

/-- In a run that begins with a top-up, what the unit of work of its call has made belongs to
    the user. -/
theorem owned_of_run {user : Uuid} {q : Request}
    (h : Run (act u g) (s.begin (.initiate (.ofRequest user q))).2 tr s') :
    s'.Initiates s.next fun i => i.user = user ∧ i.phase.Owned user := by
  refine (initiates_of_run ?_ h (Nat.lt_succ_self s.next) (initiates_begin ?_)).2
  · rintro i m e scene scene' p ⟨rfl, howned⟩ hstep
    exact ⟨rfl, (howned.step hstep).1⟩
  · exact ⟨Initiation.user_ofRequest user q, Initiation.owned_ofRequest user q⟩

/-- A request that fails its check has a call that is over from the beginning. -/
theorem over_of_invalid {user : Uuid} {q : Request} {cause : Gateway.Failure}
    (hcheck : q.validate = .error cause)
    (h : Run (act u g) (s.begin (.initiate (.ofRequest user q))).2 tr s') :
    s'.calls.find? s.next = some (.initiate (.ofRequest user q)) ∧
      (Initiation.ofRequest user q).phase = .done (.error (.gateway cause)) := by
  have hphase : (Initiation.ofRequest user q).phase = .done (.error (.gateway cause)) := by
    rw [Initiation.ofRequest_of_invalid hcheck]
  have hbegun : (s.begin (.initiate (.ofRequest user q))).2.calls.find? s.next =
      some (.initiate (.ofRequest user q)) := Dict.find?_insert_self _ _ _
  exact ⟨(over_of_run h (Nat.lt_succ_self s.next) hbegun hphase).2, hphase⟩

/-! ### What a call takes part in -/

/-- A call takes part in an action: it takes a step, or its caller goes away. -/
def Action.Concerns (n : Nat) (a : Action ρ) : Prop := a.task? = some (.call n) ∨ a = .leave n

theorem stepCall_of_task (h : act u g a s = some s') (ha : a.task? = some (.call n)) :
    ∃ m e, s.stepCall u m n e = some s' := by
  cases a with
  | arrive | leave | readOnly => exact absurd ha (by simp [Action.task?])
  | turn m t | crash m t =>
    obtain rfl := Option.some.inj ha
    exact ⟨m, _, h⟩
  | reply m t r =>
    obtain rfl := Option.some.inj ha
    obtain ⟨x, -, h⟩ := Option.bind_eq_some_iff.mp h
    exact ⟨m, _, h⟩

/-- The step of an initiation. -/
theorem stepCall_of_initiate (hn : s.calls.find? n = some (.initiate i)) (m : Moment) (e : Event) :
    s.stepCall u m n e =
      (i.step u.calls u.page m n e ⟨s.store, s.supervisor⟩).map fun x =>
        { s with store := x.1.store, supervisor := x.1.supervisor }.put n
          (.initiate { i with phase := x.2 }) := by
  simp only [stepCall, hn, Option.bind_eq_bind, Option.bind_some]
  cases i.step u.calls u.page m n e ⟨s.store, s.supervisor⟩ <;> rfl

/-- A call that is over takes part in nothing. -/
theorem not_concerns_of_over (hn : s.calls.find? n = some (.initiate i)) {result}
    (hover : i.phase = .done result) (h : act u g a s = some s') : ¬ a.Concerns n := by
  rintro (ha | rfl)
  · obtain ⟨m, e, hstep⟩ := stepCall_of_task h ha
    rw [stepCall_of_initiate hn] at hstep
    exact absurd hstep (by simp [Initiation.step, hover])
  · exact absurd h (by simp [act, leave, hn, Call.isOver, Initiation.result?, hover])

/-- An action that a call takes part in adds rows of its user only. -/
theorem adds_of_concerns {user : Uuid}
    (hn : s.Initiates n fun i => i.user = user ∧ i.phase.Owned user) (h : act u g a s = some s')
    (ha : a.Concerns n) : s.ledger.Adds user s'.ledger := by
  rcases ha with ha | rfl
  · obtain ⟨m, e, hstep⟩ := stepCall_of_task h ha
    cases hc : s.calls.find? n with
    | none => exact absurd hstep (by simp [stepCall, hc])
    | some c =>
      obtain ⟨i, rfl, rfl, howned⟩ := hn c hc
      rw [stepCall_of_initiate hc] at hstep
      obtain ⟨⟨scene, p⟩, hmove, rfl⟩ := Option.map_eq_some_iff.mp hstep
      exact (howned.step hmove).2
  · -- only the lock is given up
    simp only [act, leave] at h
    split at h
    · split at h
      · exact absurd h (by simp)
      · obtain rfl := Option.some.inj h
        refine Ledger.adds_of_eq ?_
        split <;> rfl
    · exact absurd h (by simp)

/-! ### Outcomes -/

/-- The result of a call that initiates a top-up and is over. -/
def result? (s : Service) (n : Nat) : Option (Except Call.Failure Receipt) :=
  match s.calls.find? n with
  | some (.initiate i) => i.result?
  | _ => none

theorem result?_eq_some {result : Except Call.Failure Receipt} :
    s.result? n = some result ↔
      ∃ i, s.calls.find? n = some (.initiate i) ∧ i.phase = .done result := by
  unfold result?
  split
  · next i hn => simp [hn, Initiation.result?_eq_some]
  · next hn => simpa using fun i hi => absurd hi (hn i)

/-- The outcome that the gateway tells a call in an action. -/
def outcome? (g : Reader ρ) (s : Service) (n : Nat) : Action ρ → Option Outcome
  | .reply _ (.call k) d =>
    if k = n then (s.exchange? (.call n)).bind fun x => (g x d).toOption else none
  | _ => none

theorem outcome?_eq_some {o : Outcome} (h : outcome? g s n a = some o) :
    ∃ m d x, a = .reply m (.call n) d ∧ s.exchange? (.call n) = some x ∧ g x d = .ok o := by
  unfold outcome? at h
  split at h
  · next m k d =>
    split at h
    · next hk =>
      obtain ⟨x, hx, ho⟩ := Option.bind_eq_some_iff.mp h
      refine ⟨m, d, x, by rw [hk], hx, ?_⟩
      cases hread : g x d with
      | error cause => exact absurd ho (by simp [hread, Except.toOption])
      | ok told => rw [hread] at ho; exact congrArg Except.ok (Option.some.inj ho)
    · exact absurd h (by simp)
  · exact absurd h (by simp)

/-- The gateway told a call an outcome of a status in the course of a trace. -/
def Informed (g : Reader ρ) (tr : List (Service × Action ρ)) (n : Nat) (status : Status) : Prop :=
  ∃ e ∈ tr, (outcome? g e.1 n e.2).map Outcome.status = some status

instance (status : Status) : Decidable (Informed g tr n status) := by
  unfold Informed
  infer_instance

/-- The action in which the outcome was told. -/
theorem Informed.exists_reply {status : Status} (h : Informed g tr n status) :
    ∃ s m d x o, (s, .reply m (.call n) d) ∈ tr ∧ s.exchange? (.call n) = some x ∧
      g x d = .ok o := by
  obtain ⟨⟨s, a⟩, he, hstatus⟩ := h
  obtain ⟨o, htells, -⟩ := Option.map_eq_some_iff.mp hstatus
  obtain ⟨m, d, x, rfl, hx, ho⟩ := outcome?_eq_some htells
  exact ⟨s, m, d, x, o, he, hx, ho⟩

/-- A call that was told an outcome stands where one can. -/
theorem told_of_informed (h : Run (act u g) s tr s') (hnum : n < s.next)
    (hn : s.Initiates n fun _ => True) {status : Status} (hinformed : Informed g tr n status) :
    s'.Initiates n fun i => i.phase.Told := by
  obtain ⟨s₀, m, d, x, o, he, hx, ho⟩ := hinformed.exists_reply
  obtain ⟨tr₁, tr₂, s₁, rfl, hpre, hact, hpost⟩ := h.of_mem he
  obtain ⟨hnum₀, hn₀⟩ := initiates_of_run (fun _ _ => trivial) hpre hnum hn
  -- the step in which the outcome is told
  obtain ⟨x', hx', hstep⟩ := Option.bind_eq_some_iff.mp hact
  obtain rfl := Option.some.inj (hx.symm.trans hx')
  rw [ho] at hstep
  have hstep : s₀.stepCall u m n (.answer (.ok o)) = some s₁ := hstep
  obtain ⟨c, hc⟩ : ∃ c, s₀.calls.find? n = some c := by
    cases hc : s₀.calls.find? n with
    | none => exact absurd hstep (by simp [stepCall, hc])
    | some c => exact ⟨c, rfl⟩
  obtain ⟨i, rfl, -⟩ := hn₀ c hc
  rw [stepCall_of_initiate hc] at hstep
  obtain ⟨⟨scene, p⟩, hmove, rfl⟩ := Option.map_eq_some_iff.mp hstep
  have htold : p.Told := Initiation.Phase.told_of_answer hmove
  -- and the rest of the run
  refine (initiates_of_run (fun htold h' => htold.step h') hpost hnum₀ fun c hc' => ?_).2
  rw [put, Dict.find?_insert_self] at hc'
  exact ⟨_, (Option.some.inj hc').symm, htold⟩

/-- A call that was told an outcome gets to its end by its own turns. -/
theorem exists_over_of_told (htold : i.phase.Told) (hn : s.calls.find? n = some (.initiate i))
    (m : Moment) : ∃ turns last result, Run (act u g) s turns last ∧
      (∀ e ∈ turns, e.2 = .turn m (.call n)) ∧ last.result? n = some result := by
  -- each turn leaves fewer for the call to take
  induction hleft : i.phase.left using Nat.strong_induction_on generalizing s i with
  | _ k ih =>
    rcases htold.turn u.calls u.page m n ⟨s.store, s.supervisor⟩ with
      ⟨result, hover⟩ | ⟨scene, p, hstep, htold', hlt⟩
    · exact ⟨[], s, result, .nil, fun e he => absurd he List.not_mem_nil,
        result?_eq_some.mpr ⟨i, hn, hover⟩⟩
    · let moved : Initiation := { i with phase := p }
      let s₁ := { s with store := scene.store, supervisor := scene.supervisor }.put n
        (.initiate moved)
      have hact : act u g (.turn m (.call n)) s = some s₁ := by
        show s.stepCall u m n .turn = some s₁
        rw [stepCall_of_initiate hn, hstep]
        rfl
      have hmoved : s₁.calls.find? n = some (.initiate moved) := Dict.find?_insert_self _ _ _
      obtain ⟨turns, last, result, hrun, hturns, hover⟩ :=
        ih moved.phase.left (hleft ▸ hlt) htold' hmoved rfl
      refine ⟨_, last, result, Run.cons hact hrun, ?_, hover⟩
      intro e he
      rcases List.mem_cons.mp he with rfl | he
      · rfl
      · exact hturns e he

/-- A request for a top-up is let in exactly if it names a user and its body was read, and its
    call does nothing unless the request passes its check. Otherwise it is refused: with status
    401 if it names nobody, whatever its body is, with status 400 if its body was not read or
    fails the check. Rows that its call adds to the ledger are rows of the user. A call that was
    told an outcome gets to its end by its own turns, and is answered with status 200 unless the
    store failed, which is answered with status 500. Every answer but those with status 200
    carries the identifier of the request. -/
theorem top_up_gated {ρ : Type} (u : Setup) (g : Reader ρ) {r : Http.Request}
    (hmethod : r.method = "POST") (hpath : r.path = Http.topUpPath) (fresh timestamp : String) :
    let answer := Http.ofResult r fresh timestamp
    Http.plan r fresh timestamp = Http.planTopUp r fresh timestamp (Http.topUpRequest r) ∧
    ∀ body : Except Http.Refusal Request,
      let plan := Http.planTopUp r fresh timestamp body
      ((∀ user, ¬ r.Names user) → r.Refused 401 plan) ∧
      (∀ user refusal, r.Names user → body = .error refusal → r.Refused 400 plan) ∧
      (∀ user q, plan = .topUp user q ↔ r.Names user ∧ body = .ok q) ∧
      ∀ user q, plan = .topUp user q → ∀ (s s' : Service) (tr : List (Service × Action ρ)),
        Run (act u g) (s.begin ((Demand.topUp user q).call u.client)).2 tr s' →
        (∀ e ∈ tr, e.2.Concerns s.next → (∃ wallet, q.validate = .ok wallet) ∧
          ∀ after, act u g e.2 e.1 = some after → e.1.ledger.Adds user after.ledger) ∧
        (∀ cause, q.validate = .error cause → s'.result? s.next = some (.error (.gateway cause)) ∧
          (answer (.error (.gateway cause))).status = 400) ∧
        (∀ status, Informed g tr s.next status →
          (∀ i m, s'.calls.find? s.next = some (.initiate i) → ∃ turns last result,
            Run (act u g) s' turns last ∧ (∀ e ∈ turns, e.2 = .turn m (.call s.next)) ∧
            last.result? s.next = some result) ∧
          ∀ result, s'.result? s.next = some result → (answer result).status = 200 ∨
            (answer result).status = 500 ∧ ∃ f, result = .error f ∧ f.IsOfStore) ∧
        ∀ result, s'.result? s.next = some result →
          ((answer result).status = 200 ↔ ∃ receipt, result = .ok receipt) ∧
          ((answer result).status ≠ 200 → r.Marks (answer result)) := by
  refine ⟨Http.plan_of_path hpath, fun body => ?_⟩
  intro plan
  refine ⟨Http.refused_of_nameless hmethod, ?_, fun _ _ => Http.planTopUp_eq_topUp hmethod, ?_⟩
  · rintro user refusal hnames rfl
    exact Http.refused_of_body hmethod hnames refusal
  rintro user q - s s' tr hrun
  have hnum : s.next < (s.begin ((Demand.topUp user q).call u.client)).2.next :=
    Nat.lt_succ_self s.next
  refine ⟨?_, ?_, ?_, ?_⟩
  · intro e he hconcerns
    obtain ⟨tr₁, tr₂, s₁, -, hpre, hact, -⟩ := hrun.of_mem he
    constructor
    · cases hcheck : q.validate with
      | ok wallet => exact ⟨wallet, rfl⟩
      | error cause =>
        -- such a call takes part in nothing
        obtain ⟨hcall, hphase⟩ := over_of_invalid hcheck hpre
        exact absurd hconcerns (not_concerns_of_over hcall hphase hact)
    · intro after hafter
      exact adds_of_concerns (owned_of_run hpre) hafter hconcerns
  · intro cause hcheck
    obtain ⟨hcall, hphase⟩ := over_of_invalid hcheck hrun
    exact ⟨result?_eq_some.mpr ⟨_, hcall, hphase⟩, Http.status_ofResult_of_invalid hcheck⟩
  · intro status hinformed
    have htold := told_of_informed hrun hnum (initiates_begin trivial) hinformed
    constructor
    · intro i m hcall
      obtain ⟨_, hi, hi'⟩ := htold _ hcall
      obtain rfl := Call.initiate.inj hi
      exact exists_over_of_told hi' hcall m
    · intro result hresult
      obtain ⟨i, hcall, hphase⟩ := result?_eq_some.mp hresult
      obtain ⟨_, hi, hi'⟩ := htold _ hcall
      obtain rfl := Call.initiate.inj hi
      rw [hphase] at hi'
      cases result with
      | ok receipt => exact Or.inl rfl
      | error f =>
        -- where it stands leaves no other failure than one of the store
        have hf : f.IsOfStore := hi'
        exact Or.inr ⟨hf.httpStatus, f, rfl, hf⟩
  · intro result _
    refine ⟨Http.status_ofResult result, fun hstatus => ?_⟩
    cases result with
    | ok receipt => exact absurd rfl hstatus
    | error cause => exact Http.marks_ofResult cause

/-- Somebody asks over HTTP to pay by wallet. The user is named twice; the first name counts. -/
def walletPost : Http.Request :=
  { method := "POST"
    target := "/api/payments/topup?from=app"
    headers :=
      [("Content-Type", "application/json"), ("X-Request-Id", "req-123"),
       ("X-User-Id", " 00000000-0000-0000-0000-000000000032 "), ("x-user-id", "nobody")]
    body :=
      "\x7b\"idempotency_key\": \"00000000-0000-0000-0000-000000000001\", \"amount\": 50000, " ++
      "\"method\": \"MWALLET\", \"phone_number\": \"03001234567\", \"cnic_last6\": \"345678\"\x7d" }

/-- The top-up that is asked for so. -/
def walletTopUp : Request :=
  { key := .ofNat 1
    amount := 50000
    method := .wallet
    phoneNumber := some "03001234567"
    nationalId := some "345678" }

theorem plan_walletPost :
    Http.plan walletPost "fresh" "now" = .topUp (.ofNat 0x32) walletTopUp := by
  have hnames : walletPost.Names (.ofNat 0x32) :=
    ⟨" 00000000-0000-0000-0000-000000000032 ", by decide +kernel, by decide +kernel,
      by decide +kernel⟩
  have hbody : Http.topUpRequest walletPost = .ok walletTopUp := by
    have hread : (Http.topUpRequest walletPost).toOption = some walletTopUp := by decide +kernel
    cases hrequest : Http.topUpRequest walletPost with
    | error refusal => exact absurd hread (by simp [hrequest, Except.toOption])
    | ok q => rw [hrequest] at hread; exact congrArg Except.ok (Option.some.inj hread)
  rw [Http.plan_of_path (by decide +kernel)]
  exact (Http.planTopUp_eq_topUp rfl).mpr ⟨hnames, hbody⟩

/-- The gateway says that the debit of a call has failed. -/
def failing : List (Action (Except Gateway.Failure Gateway.Outcome)) :=
  List.replicate 5 (.turn (moment 7) (.call 0)) ++
    .reply (moment 7) (.call 0) (.ok (outcome .failed)) ::
      List.replicate 2 (.turn (moment 7) (.call 0))

/-- A request is let in, passes its check and is answered with status 200 after the gateway has
    said that its debit failed. -/
theorem failed_debit_answered :
    let start := ((atRest plain).begin
      ((Demand.topUp (.ofNat 0x32) walletTopUp).call plain.client)).2
    let run := Run.play (act plain literally) failing start
    walletPost.method = "POST" ∧ walletPost.path = Http.topUpPath ∧
      Http.plan walletPost "fresh" "now" = .topUp (.ofNat 0x32) walletTopUp ∧
      (∃ wallet, walletTopUp.validate = .ok wallet) ∧
      Informed literally run.1 0 .failed ∧
      ∃ receipt, run.2.result? 0 = some (.ok receipt) ∧ receipt.status = .failed ∧
        (Http.ofResult walletPost "fresh" "now" (.ok receipt)).status = 200 := by
  intro start run
  have hpath : walletPost.path = Http.topUpPath := by decide +kernel
  obtain ⟨hplan, hgate⟩ := top_up_gated plain literally (r := walletPost) rfl hpath "fresh" "now"
  obtain ⟨-, -, -, hcalls⟩ := hgate (Http.topUpRequest walletPost)
  rw [← hplan] at hcalls
  obtain ⟨hconcerns, -, -, hanswered⟩ :=
    hcalls _ _ plan_walletPost (atRest plain) run.2 run.1 (Run.of_play failing start)
  have hinformed : Informed literally run.1 0 .failed := by decide +kernel
  obtain ⟨receipt, hresult, hstatus⟩ : ∃ receipt, run.2.result? 0 = some (.ok receipt) ∧
      receipt.status = .failed := by
    have hfailed : ((run.2.result? 0).bind Except.toOption).map Receipt.status = some .failed := by
      decide +kernel
    obtain ⟨receipt, hbind, hstatus⟩ := Option.map_eq_some_iff.mp hfailed
    obtain ⟨result, hresult, hok⟩ := Option.bind_eq_some_iff.mp hbind
    cases result with
    | error f => exact absurd hok (by simp [Except.toOption])
    | ok told => exact ⟨receipt, by rw [hresult, Option.some.inj hok], hstatus⟩
  refine ⟨rfl, hpath, plan_walletPost, ?_, hinformed, receipt, hresult, hstatus, ?_⟩
  · obtain ⟨s, m, d, x, o, hmem, -, -⟩ := hinformed.exists_reply
    exact (hconcerns _ hmem (Or.inl rfl)).1
  · exact ((hanswered _ hresult).1).mpr ⟨receipt, rfl⟩

/-- If the store takes no status writes then, the answer has status 500: what the gateway has
    said is classified, and not recorded. -/
theorem failed_debit_unrecorded :
    let start := (({ atRest plain with store.memory.readOnly := true } : Service).begin
      ((Demand.topUp (.ofNat 0x32) walletTopUp).call plain.client)).2
    let run := Run.play (act plain literally) failing start
    Http.plan walletPost "fresh" "now" = .topUp (.ofNat 0x32) walletTopUp ∧
      Informed literally run.1 0 .failed ∧
      (run.2.result? 0).map (fun result => (Http.ofResult walletPost "fresh" "now" result).status) =
        some 500 := by
  intro start run
  exact ⟨plan_walletPost, by decide +kernel, by decide +kernel⟩

end Service

end TopUp
