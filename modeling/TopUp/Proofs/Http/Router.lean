import TopUp.Http.Router
import TopUp.Proofs.Checks

/-! # What a request for a top-up comes to

    A request for a top-up passes a gate: it has to name a user (`Request.Names`) and its
    body has to be read. Otherwise it is refused at once, with a status that tells which of
    the two was missing; the body makes no difference to a request that names nobody.
    What is read of a body is left open here.

    Every problem is reported by an envelope that carries the identifier of the request,
    where the request has brought one that can be read (`Request.Marks`).
-/

namespace TopUp

open TopUp.Text

/-! ### Requests that fail their check -/

/-- A failure is about what was asked for. -/
def Gateway.Failure.IsInvalid (f : Gateway.Failure) : Prop :=
  ∃ message field, f = .invalid message field

theorem Gateway.Failure.IsInvalid.httpStatus {f : Gateway.Failure} (h : f.IsInvalid) :
    f.problem.httpStatus = 400 := by
  obtain ⟨message, field, rfl⟩ := h
  unfold Failure.problem
  split <;> simp_all [Problem.Kind.httpStatus]

namespace Identity

variable {s : String} {f : Gateway.Failure}

theorem isInvalid_of_mobileNumber (h : mobileNumber s = .error f) : f.IsInvalid := by
  simp only [mobileNumber] at h
  split at h
  · exact ⟨_, _, (Except.error.inj h).symm⟩
  · split at h
    · exact absurd h (by simp)
    · exact ⟨_, _, (Except.error.inj h).symm⟩

theorem isInvalid_of_nationalId (h : nationalId s = .error f) : f.IsInvalid := by
  simp only [nationalId] at h
  split at h
  · exact ⟨_, _, (Except.error.inj h).symm⟩
  · split at h
    · exact ⟨_, _, (Except.error.inj h).symm⟩
    · exact absurd h (by simp)

theorem isInvalid_of_checkAmount {amount : Int64} (h : checkAmount amount = .error f) :
    f.IsInvalid := by
  unfold checkAmount at h
  split at h
  · exact ⟨_, _, (Except.error.inj h).symm⟩
  · exact absurd h (by simp)

end Identity

namespace Request

variable {q : Request} {f : Gateway.Failure}

theorem isInvalid_of_wallet (h : q.wallet = .error f) : f.IsInvalid := by
  unfold wallet at h
  -- both numbers have to be there before either is looked at
  cases hphone : q.phoneNumber with
  | none =>
    simp only [hphone, bind_eq_error, Except.error.injEq] at h
    rcases h with rfl | ⟨_, h, -⟩
    · exact ⟨_, _, rfl⟩
    · exact absurd h (by simp)
  | some phone =>
    cases hnational : q.nationalId with
    | none =>
      simp only [hphone, hnational, bind_eq_error, Except.error.injEq] at h
      rcases h with h | ⟨_, -, rfl | ⟨_, h, -⟩⟩
      · exact absurd h (by simp)
      · exact ⟨_, _, rfl⟩
      · exact absurd h (by simp)
    | some identity =>
      simp only [hphone, hnational, bind_eq_error, Except.ok.injEq] at h
      rcases h with h | ⟨_, rfl, h | ⟨_, rfl, h | ⟨number, -, h | ⟨digits, -, h⟩⟩⟩⟩
      · exact absurd h (by simp)
      · exact absurd h (by simp)
      · exact Identity.isInvalid_of_mobileNumber h
      · exact Identity.isInvalid_of_nationalId h
      · exact absurd h (by simp [pure, Except.pure])

/-- A request that fails its check is refused for what it asks. -/
theorem isInvalid_of_validate (h : q.validate = .error f) : f.IsInvalid := by
  unfold validate at h
  rcases bind_eq_error.mp h with h | ⟨_, -, h⟩
  · exact Identity.isInvalid_of_checkAmount h
  cases hmethod : q.method with
  | card => exact absurd h (by simp [hmethod, pure, Except.pure])
  | wallet =>
    simp only [hmethod] at h
    rcases bind_eq_error.mp h with h | ⟨known, -, h⟩
    · exact isInvalid_of_wallet h
    · exact absurd h (by simp [pure, Except.pure])

end Request

namespace Problem

/-- No problem is reported with the status of success. -/
theorem Kind.httpStatus_ne_ok (k : Kind) : k.httpStatus ≠ 200 := by
  cases k <;> simp [httpStatus]

theorem Envelope.member?_requestId (e : Envelope) :
    e.toJson.member? "request_id" = some (.ofText? e.requestId) := rfl

theorem answer_requestId (p : Problem) (timestamp : String) :
    (p.answer timestamp).requestId = p.requestId := by
  unfold answer
  split <;> rfl

end Problem

namespace Http

variable {r : Request} {fresh timestamp : String} {body : Except Refusal TopUp.Request}
  {user : Uuid} {id : String}

/-! ### Envelopes -/

/-- The member of a given name in the body of a response. -/
def Response.member? (name : String) (response : Response) : Option Json :=
  match response.body with
  | .json v => v.member? name
  | _ => none

/-- A response carries the identifier that a request has brought, if it can be read. -/
def Request.Marks (r : Request) (response : Response) : Prop :=
  ∀ id, r.header? requestHeader = some id → readable? id = some id →
    response.member? "request_id" = some (.string id)

/-- A request is refused at once, with a status and its own identifier. -/
def Request.Refused (r : Request) (status : Nat) (p : Plan) : Prop :=
  ∃ response, p = .respond response ∧ response.status = status ∧ r.Marks response

@[simp] theorem status_ofProblem (k : Problem.Kind) :
    (ofProblem r fresh timestamp k).status = k.httpStatus := rfl

/-- Whatever the problem, its envelope carries the identifier of the request. -/
theorem marks_ofProblem (k : Problem.Kind) : r.Marks (ofProblem r fresh timestamp k) := by
  intro id hid hreadable
  have hown : readable? (requestId r fresh) = some id := by
    rw [requestId, hid, Option.getD_some, hreadable]
  show (Problem.Envelope.toJson _).member? "request_id" = _
  rw [Problem.Envelope.member?_requestId, Problem.answer_requestId, Problem.ofKind, hown]
  rfl

/-! ### The gate -/

/-- A request names a user: its first user header can be read and holds the identifier. -/
def Request.Names (r : Request) (user : Uuid) : Prop :=
  ∃ value, r.header? userHeader = some value ∧ readable? value = some value ∧
    Uuid.parse? (trim value) = some user

theorem readable?_eq_some {value text : String} (h : readable? value = some text) :
    text = value := by
  unfold readable? at h
  split at h
  · exact (Option.some.inj h).symm
  · exact absurd h (by simp)

theorem caller_eq_some : caller r = .ok (some user) ↔ r.Names user := by
  unfold caller Request.Names
  cases hheader : r.header? userHeader with
  | none => simp
  | some value =>
    cases hreadable : readable? value with
    | none => simp [hreadable]
    | some text =>
      obtain rfl := readable?_eq_some hreadable
      cases hparse : Uuid.parse? (trim text) <;> simp [hparse, hreadable]

/-- A header that names nobody is a problem of the caller's identity. -/
theorem caller_eq_error {k : Problem.Kind} (h : caller r = .error k) : k.httpStatus = 401 := by
  unfold caller at h
  split at h
  · exact absurd h (by simp)
  · split at h
    · rw [← Except.error.inj h]
      rfl
    · split at h
      · exact absurd h (by simp)
      · rw [← Except.error.inj h]
        rfl

/-- A request that names nobody is refused, whatever its body is. -/
theorem refused_of_nameless (hmethod : r.method = "POST") (h : ∀ user, ¬ r.Names user) :
    r.Refused 401 (planTopUp r fresh timestamp body) := by
  unfold planTopUp
  cases hcaller : caller r with
  | error k =>
    refine ⟨ofProblem r fresh timestamp k, ?_, caller_eq_error hcaller, marks_ofProblem k⟩
    simp [hmethod]
  | ok user? =>
    cases user? with
    | none =>
      refine ⟨ofProblem r fresh timestamp .missingIdentity, ?_, rfl, marks_ofProblem _⟩
      simp [hmethod]
    | some user => exact absurd (caller_eq_some.mp hcaller) (h user)

/-- A request that names a user is refused if its body is. -/
theorem refused_of_body (hmethod : r.method = "POST") (h : r.Names user) (refusal : Refusal) :
    r.Refused 400 (planTopUp r fresh timestamp (.error refusal)) := by
  refine ⟨ofProblem r fresh timestamp (.invalidField "body" refusal.message), ?_, rfl,
    marks_ofProblem _⟩
  simp [planTopUp, caller_eq_some.mpr h, hmethod]

/-- Otherwise, and only then, a top-up is asked for, in the name of the user. -/
theorem planTopUp_eq_topUp (hmethod : r.method = "POST") {q : TopUp.Request} :
    planTopUp r fresh timestamp body = .topUp user q ↔ r.Names user ∧ body = .ok q := by
  constructor
  · intro hplan
    by_cases hnames : ∃ user, r.Names user
    · obtain ⟨named, hnamed⟩ := hnames
      cases body with
      | error refusal =>
        obtain ⟨response, hrespond, -⟩ := refused_of_body hmethod hnamed refusal
        exact absurd (hplan.symm.trans hrespond) (by simp)
      | ok read =>
        have hread : planTopUp r fresh timestamp (.ok read) = .topUp named read := by
          simp [planTopUp, caller_eq_some.mpr hnamed, hmethod]
        obtain ⟨rfl, rfl⟩ := Plan.topUp.inj (hplan.symm.trans hread)
        exact ⟨hnamed, rfl⟩
    · obtain ⟨response, hrespond, -⟩ :=
        refused_of_nameless hmethod fun named hnamed => hnames ⟨named, hnamed⟩
      exact absurd (hplan.symm.trans hrespond) (by simp)
  · rintro ⟨hnames, rfl⟩
    simp [planTopUp, caller_eq_some.mpr hnames, hmethod]

theorem plan_of_path (hpath : r.path = topUpPath) :
    plan r fresh timestamp = planTopUp r fresh timestamp (topUpRequest r) := by
  simp [plan, hpath]

/-! ### Answers -/

/-- A call that is over is answered with the status of success exactly if it has a receipt. -/
theorem status_ofResult (result : Except Call.Failure Receipt) :
    (ofResult r fresh timestamp result).status = 200 ↔ ∃ receipt, result = .ok receipt := by
  cases result with
  | ok receipt => simp [ofResult, Response.ofJson]
  | error cause => simp [ofResult, cause.problem.httpStatus_ne_ok]

/-- Any other answer carries the identifier of the request. -/
theorem marks_ofResult (cause : Call.Failure) :
    r.Marks (ofResult r fresh timestamp (.error cause)) :=
  marks_ofProblem cause.problem

/-- A request that fails its check is answered so. -/
theorem status_ofResult_of_invalid {q : TopUp.Request} {cause : Gateway.Failure}
    (h : q.validate = .error cause) :
    (ofResult r fresh timestamp (.error (.gateway cause))).status = 400 :=
  (TopUp.Request.isInvalid_of_validate h).httpStatus

end Http

end TopUp
