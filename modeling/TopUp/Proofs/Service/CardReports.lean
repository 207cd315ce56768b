import TopUp.Proofs.Call.Unsigned
import TopUp.Proofs.Service.Tasks

/-! # Reports of the card page, one after another and among other calls

    A report that is dealt with from its start to its end does one of six things, listed by
    `Handled`: three of them are refusals that leave the store alone, and only one writes.
    So a sequence of reports acts on a row as the statuses of the verified reports about it
    do, written one after another: the first terminal one stays.

    Among other calls a row may be settled while a report is between its read and its
    write. The write is refused then and the row is read again, so the report still answers
    with the status that is stored.
-/

namespace TopUp

open TopUp.Data TopUp.Gateway TopUp.Store

namespace CardCallback

variable {c : Client} {s s' : Store} {posted : FieldMap} {posts : List FieldMap}
  {result : Except Call.Failure Receipt} {p : Phase} {r : String} {t : Transaction}

/-! ### A report on its own -/

/-- The store after a report was dealt with, and where the report stands then; a report takes
    three steps at most. -/
def handle (c : Client) (s : Store) (posted : FieldMap) : Store × Phase :=
  (Run.play act (List.replicate 3 .turn) (s, ofPosted c posted)).2

/-- The status that a report has for a row: the report is verified and names the row. -/
def verdict? (c : Client) (r : String) (posted : FieldMap) : Option Status :=
  match c.cardReturn posted with
  | .ok report => if report.reference = r then some report.status else none
  | .error _ => none

/-- What dealing with a report can do to a store in memory, and its answer. -/
inductive Handled (c : Client) (s : Store) (posted : FieldMap) :
    Store → Except Call.Failure Receipt → Prop where
  /-- The report cannot be trusted. -/
  | distrusted {cause : Gateway.Failure} (h : c.cardReturn posted = .error cause) :
      Handled c s posted s (.error (.gateway cause))
  /-- It names no row. -/
  | unknown {report : CardReturn} (h : c.cardReturn posted = .ok report)
      (hfind : s.memory.ledger.find? report.reference = none) :
      Handled c s posted s (.error (unknownReference report.reference))
  /-- The row is settled already. -/
  | settled {report : CardReturn} {t : Transaction} (h : c.cardReturn posted = .ok report)
      (hfind : s.memory.ledger.find? report.reference = some t)
      (ht : t.status.isTerminal = true) : Handled c s posted s (.ok (.settled t))
  /-- The payment goes on. -/
  | waiting {report : CardReturn} {t : Transaction} (h : c.cardReturn posted = .ok report)
      (hfind : s.memory.ledger.find? report.reference = some t)
      (ht : t.status.isTerminal = false) (hstatus : report.status = .pending) :
      Handled c s posted s (.ok (.ofTransaction t report.status (message report)))
  /-- The status cannot be written. -/
  | unwritten {report : CardReturn} {t : Transaction} (h : c.cardReturn posted = .ok report)
      (hfind : s.memory.ledger.find? report.reference = some t)
      (ht : t.status.isTerminal = false) (hstatus : report.status ≠ .pending)
      (hoff : s.memory.readOnly = true) :
      Handled c s posted s (.error (.store Memory.writesDisabled))
  /-- The status is written. -/
  | recorded {report : CardReturn} {t : Transaction} (h : c.cardReturn posted = .ok report)
      (hfind : s.memory.ledger.find? report.reference = some t)
      (ht : t.status.isTerminal = false) (hstatus : report.status ≠ .pending)
      (hon : s.memory.readOnly = false) :
      Handled c s posted
        { s with memory.ledger :=
          (s.memory.ledger.writeStatus report.reference report.status).2 }
        (.ok (.ofTransaction t report.status (message report)))

/-- A report that is over has no more turns. -/
theorem play_done (n : Nat) :
    (Run.play act (List.replicate n .turn) (s, .done result)).2 = (s, .done result) := by
  induction n with
  | zero => rfl
  | succ n ih => simpa [List.replicate_succ, Run.play, act, step] using ih

/-- A report that takes a turn. -/
theorem play_turn (n : Nat) {p' : Phase} (h : step s p = some (s', p')) :
    (Run.play act (List.replicate (n + 1) .turn) (s, p)).2 =
      (Run.play act (List.replicate n .turn) (s', p')).2 := by
  simp [List.replicate_succ, Run.play, act, h]

/-- A report is dealt with in one of the ways that `Handled` lists. -/
theorem handle_spec (c : Client) (hf : s.faults = []) (hl : s.memory.ledger.WellKeyed)
    (posted : FieldMap) :
    ∃ result, (handle c s posted).2 = .done result ∧
      Handled c s posted (handle c s posted).1 result := by
  -- once it is over after some of its turns, a report stands where it ended
  have hover : ∀ {s' result}, handle c s posted = (s', .done result) →
      Handled c s posted s' result →
      ∃ result, (handle c s posted).2 = .done result ∧
        Handled c s posted (handle c s posted).1 result := by
    intro s' result heq h
    exact ⟨result, by rw [heq], by rwa [heq]⟩
  unfold handle at hover ⊢
  cases hreturn : c.cardReturn posted with
  | error cause =>
    have hstart : ofPosted c posted = .done (.error (.gateway cause)) := by
      simp [ofPosted, hreturn]
    rw [hstart] at hover ⊢
    exact hover (play_done 3) (.distrusted hreturn)
  | ok report =>
    have hstart : ofPosted c posted = .reading report := by simp [ofPosted, hreturn]
    rw [hstart] at hover ⊢
    cases hfind : s.memory.ledger.find? report.reference with
    | none =>
      have hstep : step s (.reading report) =
          some (s, .done (.error (unknownReference report.reference))) := by
        simp [step, get_of_faults hf, hfind]
      exact hover ((play_turn 2 hstep).trans (play_done 2)) (.unknown hreturn hfind)
    | some t =>
      cases hterm : t.status.isTerminal with
      | true =>
        have hstep : step s (.reading report) = some (s, .done (.ok (.settled t))) := by
          simp [step, get_of_faults hf, hfind, hterm]
        exact hover ((play_turn 2 hstep).trans (play_done 2)) (.settled hreturn hfind hterm)
      | false =>
        by_cases hstatus : report.status = .pending
        · have hstep : step s (.reading report) =
              some (s, .done (.ok (.ofTransaction t report.status (message report)))) := by
            simp [step, get_of_faults hf, hfind, hterm, hstatus]
          exact hover ((play_turn 2 hstep).trans (play_done 2))
            (.waiting hreturn hfind hterm hstatus)
        · have hstep : step s (.reading report) =
              some (s, .writing t report.status (message report)) := by
            simp [step, get_of_faults hf, hfind, hterm, hstatus]
          have href : t.reference = report.reference := hl _ _ hfind
          have hmay : s.memory.ledger.mayTake report.reference report.status = true :=
            Ledger.mayTake_eq_true.mpr ⟨t, hfind, Status.canBecome_of_open hterm hstatus⟩
          cases hoff : s.memory.readOnly with
          | true =>
            have hwrite : step s (.writing t report.status (message report)) =
                some (s, .done (.error (.store Memory.writesDisabled))) := by
              simp [step, update_of_faults hf, Memory.update, hoff, Except.map]
            exact hover ((play_turn 2 hstep).trans ((play_turn 1 hwrite).trans (play_done 1)))
              (.unwritten hreturn hfind hterm hstatus hoff)
          | false =>
            have hwrite : step s (.writing t report.status (message report)) =
                some ({ s with memory.ledger :=
                    (s.memory.ledger.writeStatus report.reference report.status).2 },
                  .done (.ok (.ofTransaction t report.status (message report)))) := by
              simp [step, update_of_faults hf, Memory.update, hoff, Except.map, href,
                Ledger.writeStatus, hmay]
            exact hover ((play_turn 2 hstep).trans ((play_turn 1 hwrite).trans (play_done 1)))
              (.recorded hreturn hfind hterm hstatus hoff)

namespace Handled

/-- A report fails if it cannot be trusted, names no row, or has a status to write that cannot
    be written. -/
theorem error_iff (h : Handled c s posted s' result) :
    (∃ cause, result = .error cause) ↔
      (∃ cause, c.cardReturn posted = .error cause) ∨ ∃ report, c.cardReturn posted = .ok report ∧
        (s.memory.ledger.find? report.reference = none ∨
          ∃ t, s.memory.ledger.find? report.reference = some t ∧ t.status.isTerminal = false ∧
            report.status ≠ .pending ∧ s.memory.readOnly = true) := by
  cases h with
  | distrusted h => simp [h]
  | unknown h hfind => simp [h, hfind]
  | settled h hfind ht => simp [h, hfind, ht]
  | waiting h hfind ht hstatus => simp [h, hfind, hstatus]
  | unwritten h hfind ht hstatus hoff => simp [h, hfind, ht, hstatus, hoff]
  | recorded h hfind ht hstatus hon => simp [h, hfind, hon]

/-- The same, told of what was posted. -/
theorem error_iff_posted (h : Handled c s posted s' result) :
    (∃ cause, result = .error cause) ↔
      (¬ ∃ given, posted.get? hashField = some given ∧ given ≠ "" ∧
        given = c.signer.sign posted) ∨
      postedText "pp_TxnRefNo" posted = "" ∨
      s.memory.ledger.find? (postedText "pp_TxnRefNo" posted) = none ∨
      ∃ t, s.memory.ledger.find? (postedText "pp_TxnRefNo" posted) = some t ∧
        t.status.isTerminal = false ∧
        ResponseCode.classify (postedText "pp_ResponseCode" posted) ≠ .pending ∧
        s.memory.readOnly = true := by
  rw [h.error_iff, ← Signer.verifyFields_eq_ok, ← or_assoc, ← ne_eq,
    ← Client.cardReturn_eq_error]
  apply or_congr_right'
  intro htrusted
  obtain ⟨report, hreport⟩ : ∃ report, c.cardReturn posted = .ok report := by
    cases hreturn : c.cardReturn posted with
    | error cause => exact absurd ⟨cause, hreturn⟩ htrusted
    | ok report => exact ⟨report, rfl⟩
  obtain ⟨-, href, hstatus⟩ := Client.cardReturn_eq_ok hreport
  rw [← href, ← hstatus]
  simp [hreport]

/-- A report that fails leaves the store alone. -/
theorem same_of_error {cause : Call.Failure} (h : Handled c s posted s' (.error cause)) :
    s' = s := by
  cases h <;> rfl

theorem faults (h : Handled c s posted s' result) : s'.faults = s.faults := by
  cases h <;> rfl

theorem readOnly (h : Handled c s posted s' result) :
    s'.memory.readOnly = s.memory.readOnly := by
  cases h <;> rfl

theorem ages (h : Handled c s posted s' result) : s.memory.ledger.Ages s'.memory.ledger := by
  cases h with
  | recorded => exact Ledger.writeStatus_ages _ _ _
  | _ => exact .refl _

/-- A row that a report has no verdict for is not touched. -/
theorem find?_of_no_verdict (h : Handled c s posted s' result)
    (hnone : verdict? c r posted = none) :
    s'.memory.ledger.find? r = s.memory.ledger.find? r := by
  cases h with
  | @recorded report t h hfind ht hstatus hon =>
    have hne : report.reference ≠ r := by
      intro heq
      simp [verdict?, h, heq] at hnone
    show (s.memory.ledger.writeStatus report.reference report.status).2.find? r = _
    rw [Ledger.find?_writeStatus, if_neg fun hr => hne hr.1]
  | _ => rfl

/-- While statuses can be written, a report does to a row what writing its verdict does. -/
theorem find? (h : Handled c s posted s' result) (hon : s.memory.readOnly = false) (r : String) :
    s'.memory.ledger.find? r = (s.memory.ledger.find? r).map fun t =>
      { t with status := t.status.after (verdict? c r posted).toList } := by
  cases hverdict : verdict? c r posted with
  | none =>
    rw [h.find?_of_no_verdict hverdict]
    simp
  | some status =>
    -- the report is about this row
    obtain ⟨report, hreport, rfl, rfl⟩ : ∃ report, c.cardReturn posted = .ok report ∧
        report.reference = r ∧ report.status = status := by
      unfold verdict? at hverdict
      split at hverdict
      · next report hreport =>
        obtain ⟨hr, hs⟩ : report.reference = r ∧ report.status = status := by
          simpa using hverdict
        exact ⟨report, hreport, hr, hs⟩
      · exact absurd hverdict (by simp)
    cases h with
    | distrusted h => simp [hreport] at h
    | unknown h hfind =>
      obtain rfl := Except.ok.inj (hreport.symm.trans h)
      simp [hfind]
    | settled h hfind ht =>
      obtain rfl := Except.ok.inj (hreport.symm.trans h)
      simp [hfind, Status.canBecome_eq_false_of_isTerminal ht]
    | waiting h hfind ht hstatus =>
      obtain rfl := Except.ok.inj (hreport.symm.trans h)
      simp [hfind, hstatus]
    | unwritten h hfind ht hstatus hoff =>
      rw [hon] at hoff
      exact absurd hoff (by decide)
    | @recorded report' t h hfind ht hstatus hon =>
      obtain rfl := Except.ok.inj (hreport.symm.trans h)
      have hcan := Status.canBecome_of_open ht hstatus
      have hmay : s.memory.ledger.mayTake report.reference report.status = true :=
        Ledger.mayTake_eq_true.mpr ⟨t, hfind, hcan⟩
      show (s.memory.ledger.writeStatus report.reference report.status).2.find?
        report.reference = _
      rw [Ledger.find?_writeStatus, if_pos ⟨rfl, hmay⟩, hfind]
      simp [hcan]

end Handled

/-- A settled row is reported as it is stored. -/
theorem handle_of_settled (hf : s.faults = []) (hfind : s.memory.ledger.find? r = some t)
    (ht : t.status.isTerminal = true) {status : Status}
    (hverdict : verdict? c r posted = some status) :
    handle c s posted = (s, .done (.ok (.settled t))) := by
  unfold verdict? at hverdict
  split at hverdict
  · next report hreport =>
    obtain ⟨rfl, -⟩ : report.reference = r ∧ report.status = status := by simpa using hverdict
    have hstep : step s (.reading report) = some (s, .done (.ok (.settled t))) := by
      simp [step, get_of_faults hf, hfind, ht]
    unfold handle
    rw [show ofPosted c posted = .reading report by simp [ofPosted, hreport]]
    exact (play_turn 2 hstep).trans (play_done 2)
  · exact absurd hverdict (by simp)

/-! ### Reports one after another -/

/-- The store after reports were dealt with one after another. -/
def handleAll (c : Client) (s : Store) (posts : List FieldMap) : Store :=
  posts.foldl (fun s posted => (handle c s posted).1) s

theorem handleAll_keeps (hf : s.faults = []) (hl : s.memory.ledger.WellKeyed) :
    (handleAll c s posts).faults = [] ∧ (handleAll c s posts).memory.ledger.WellKeyed ∧
      (handleAll c s posts).memory.readOnly = s.memory.readOnly := by
  induction posts generalizing s with
  | nil => exact ⟨hf, hl, rfl⟩
  | cons posted rest ih =>
    obtain ⟨result, -, h⟩ := handle_spec c hf hl posted
    obtain ⟨hf', hl', hon⟩ := ih (h.faults.trans hf) (h.ages.wellKeyed hl)
    exact ⟨hf', hl', hon.trans h.readOnly⟩

/-- A row that no report has a verdict for is not touched. -/
theorem find?_handleAll_of_no_verdict (hf : s.faults = []) (hl : s.memory.ledger.WellKeyed)
    (hnone : ∀ posted ∈ posts, verdict? c r posted = none) :
    (handleAll c s posts).memory.ledger.find? r = s.memory.ledger.find? r := by
  induction posts generalizing s with
  | nil => rfl
  | cons posted rest ih =>
    obtain ⟨result, -, h⟩ := handle_spec c hf hl posted
    have hrest := ih (h.faults.trans hf) (h.ages.wellKeyed hl) fun posted' hmem =>
      hnone posted' (List.mem_cons_of_mem _ hmem)
    exact hrest.trans (h.find?_of_no_verdict (hnone posted List.mem_cons_self))

/-- Reports do to a row what writing their verdicts does, one after another. -/
theorem find?_handleAll (hf : s.faults = []) (hl : s.memory.ledger.WellKeyed)
    (hon : s.memory.readOnly = false) (r : String) :
    (handleAll c s posts).memory.ledger.find? r = (s.memory.ledger.find? r).map fun t =>
      { t with status := t.status.after (posts.filterMap (verdict? c r)) } := by
  induction posts generalizing s with
  | nil => simp [handleAll]
  | cons posted rest ih =>
    obtain ⟨result, -, h⟩ := handle_spec c hf hl posted
    have hrest := ih (h.faults.trans hf) (h.ages.wellKeyed hl) (h.readOnly.trans hon)
    show (handleAll c (handle c s posted).1 rest).memory.ledger.find? r = _
    rw [hrest, h.find? hon, Option.map_map]
    cases hverdict : verdict? c r posted with
    | none => simp [hverdict, Function.comp_def]
    | some status => simp [hverdict, Function.comp_def]

/-! ### A report among other calls -/

/-- The receipt of a stored row, if it is terminal, shows what is stored. -/
theorem stored_of_receipt {l : Ledger} {receipt : Receipt} (hl : l.WellKeyed)
    (hfind : l.find? r = some t) (href : receipt.reference = t.reference)
    (hstatus : receipt.status = t.status.clientVisible)
    (hterm : receipt.status.isTerminal = true) :
    ∃ t, l.find? receipt.reference = some t ∧ t.status = receipt.status := by
  have hopen : t.status.isTerminal = true := by
    rwa [hstatus, Status.clientVisible_isTerminal] at hterm
  refine ⟨t, ?_, ?_⟩
  · rw [href, hl r t hfind, hfind]
  · rw [hstatus, Status.clientVisible_of_isTerminal hopen]

/-- Whatever happened before, a terminal status that a report answers with is the one that is
    stored at that time: what it read or wrote last is the row itself. -/
theorem stored_of_step {receipt : Receipt} (hf : s.faults = []) (hl : s.memory.ledger.WellKeyed)
    (hstep : step s p = some (s', .done (.ok receipt)))
    (hterm : receipt.status.isTerminal = true) :
    ∃ t, s'.memory.ledger.find? receipt.reference = some t ∧ t.status = receipt.status := by
  cases p with
  | reading report =>
    simp only [step, get_of_faults hf] at hstep
    cases hfind : s.memory.ledger.find? report.reference with
    | none => simp [hfind] at hstep
    | some t =>
      simp only [hfind] at hstep
      split at hstep
      · obtain ⟨rfl, rfl⟩ := by simpa using hstep
        exact stored_of_receipt hl hfind rfl rfl hterm
      · split at hstep
        · next hpending =>
          -- a payment that goes on has no terminal status to show
          obtain ⟨rfl, rfl⟩ := by simpa using hstep
          rw [Receipt.ofTransaction, hpending] at hterm
          have hopen : Status.pending.isTerminal = true := hterm
          exact absurd hopen (by decide)
        · exact absurd hstep (by simp)
  | writing t status message =>
    simp only [step, update_of_faults hf] at hstep
    cases hu : s.memory.update t.reference status with
    | error cause => simp [hu, Except.map] at hstep
    | ok x =>
      obtain ⟨written, memory⟩ := x
      cases written with
      | false => simp [hu, Except.map] at hstep
      | true =>
        obtain ⟨rfl, rfl⟩ := by simpa [hu, Except.map] using hstep
        -- the write was taken, so the row has the status now
        have hledger := Memory.update_eq hu
        have hmay : s.memory.ledger.mayTake t.reference status = true := by
          unfold Memory.update at hu
          split at hu
          · exact absurd hu (by simp)
          · rw [← Ledger.writeStatus_fst]
            exact congrArg Prod.fst (Except.ok.inj hu)
        obtain ⟨t', ht', -⟩ := Ledger.mayTake_eq_true.mp hmay
        have hvisible : status.isTerminal = true := by
          rwa [Receipt.ofTransaction, Status.clientVisible_isTerminal] at hterm
        refine ⟨{ t' with status }, ?_, (Status.clientVisible_of_isTerminal hvisible).symm⟩
        show memory.ledger.find? t.reference = _
        rw [hledger, Ledger.find?_writeStatus, if_pos ⟨rfl, hmay⟩, ht']
        rfl
  | rereading reference message =>
    simp only [step, get_of_faults hf] at hstep
    cases hfind : s.memory.ledger.find? reference with
    | none => simp [hfind] at hstep
    | some t =>
      obtain ⟨rfl, rfl⟩ := by simpa [hfind] using hstep
      unfold Receipt.stored at hterm ⊢
      split at hterm
      · next ht =>
        rw [if_pos ht]
        exact stored_of_receipt hl hfind rfl rfl hterm
      · next ht =>
        rw [if_neg ht]
        exact stored_of_receipt hl hfind rfl rfl hterm
  | done result => exact absurd hstep (by simp [step])

end CardCallback

/-- Whether a report is about to read its row again. -/
def Call.rereads : Call → Bool
  | .cardReport (.rereading _ _) => true
  | _ => false

/-- The receipt that a report has answered with. -/
def Call.reported? : Call → Option Receipt
  | .cardReport (.done (.ok receipt)) => some receipt
  | _ => none

theorem Call.rereads_eq_true {c : Call} :
    c.rereads = true ↔ ∃ reference text, c = .cardReport (.rereading reference text) := by
  unfold Call.rereads
  split
  · simp
  · next hno => simpa using fun reference text => hno reference text

theorem Call.reported?_eq_some {c : Call} {receipt : Receipt} :
    c.reported? = some receipt ↔ c = .cardReport (.done (.ok receipt)) := by
  unfold Call.reported?
  split
  · simp
  · next hno => simpa using hno receipt

namespace Service

open CardCallback

/-- A report that is over is so by the action in which it came to be, and it answers then with
    what is stored. -/
theorem stored_of_act {ρ : Type} {u : Setup} {g : Reader ρ} {l : Ledger}
    {tr : List (Service × Action ρ)} {s s' : Service} {a : Action ρ} {n : Nat} {p : Phase}
    {receipt : Receipt} (hl : l.WellKeyed) (hrun : Run (act u g) (ofLedger u l) tr s)
    (hact : act u g a s = some s') (hcall : s.calls.find? n = some (.cardReport p))
    (hgoing : ∀ result, p ≠ .done result)
    (hdone : s'.calls.find? n = some (.cardReport (.done (.ok receipt))))
    (hterm : receipt.status.isTerminal = true) :
    ∃ t, s'.ledger.find? receipt.reference = some t ∧ t.status = receipt.status := by
  have hacc := accounted_of_run hl hrun
  have hfaults := hacc.regular.faults
  have hstep := step_of_act hfaults hact
  by_cases ha : a.task? = some (.call n)
  · obtain ⟨p', hreport, hcall'⟩ := hstep.report_moves hcall ha
    obtain rfl : p' = .done (.ok receipt) := by simpa [hdone] using hcall'.symm
    exact stored_of_step hfaults hacc.accounts.orderly.wellKeyed hreport hterm
  · -- the report would have to be over already
    have hleave : a ≠ .leave n := by
      rintro rfl
      rw [hstep.left] at hdone
      exact absurd hdone (by simp)
    have hstays := hstep.call_stays hacc.regular hcall hleave ha
    rw [hdone] at hstays
    exact absurd (Call.cardReport.inj (Option.some.inj hstays)).symm (hgoing _)

/-- The first verified terminal report about a row stays. Over a store in memory every report
    is dealt with, and after any sequence of reports: one more fails exactly if it is not
    signed, names no transaction, names one that is not stored, or has a status to write
    while statuses cannot be written, and then it leaves the store alone; rows that no
    verified report named are as they were; while statuses can be written, an open row has
    the first terminal status that was reported for it, or else is unknown if that was
    reported; and a settled row is reported as it is stored. Among other calls too, whatever
    they do between the read and the write of a report, a terminal status that it answers
    with is stored at that time. -/
theorem first_terminal_report_stays {ρ : Type} (u : Setup) (g : Reader ρ) {store : Store}
    (hf : store.faults = []) (hl : store.memory.ledger.WellKeyed) (posts : List FieldMap) :
    let after := handleAll u.client store posts
    (∀ posted, ∃ result, (handle u.client after posted).2 = .done result ∧
      ((∃ cause, result = .error cause) ↔
        (¬ ∃ given, posted.get? hashField = some given ∧ given ≠ "" ∧
          given = u.client.signer.sign posted) ∨
        postedText "pp_TxnRefNo" posted = "" ∨
        after.memory.ledger.find? (postedText "pp_TxnRefNo" posted) = none ∨
        ∃ t, after.memory.ledger.find? (postedText "pp_TxnRefNo" posted) = some t ∧
          t.status.isTerminal = false ∧
          ResponseCode.classify (postedText "pp_ResponseCode" posted) ≠ .pending ∧
          store.memory.readOnly = true) ∧
      ((∃ cause, result = .error cause) → (handle u.client after posted).1 = after)) ∧
    (∀ r, (∀ posted ∈ posts, verdict? u.client r posted = none) →
      after.memory.ledger.find? r = store.memory.ledger.find? r) ∧
    (store.memory.readOnly = false → ∀ r t, store.memory.ledger.find? r = some t →
      t.status.isTerminal = false →
      after.memory.ledger.find? r = some { t with
        status := ((posts.filterMap (verdict? u.client r)).find? Status.isTerminal).getD
          (if .unknown ∈ posts.filterMap (verdict? u.client r) then .unknown else t.status) }) ∧
    (∀ r t posted status, after.memory.ledger.find? r = some t → t.status.isTerminal = true →
      verdict? u.client r posted = some status →
      handle u.client after posted = (after, .done (.ok (.settled t)))) ∧
    ∀ tr s a s' n p receipt, Run (act u g) (ofLedger u store.memory.ledger) tr s →
      act u g a s = some s' → s.calls.find? n = some (.cardReport p) →
      (∀ result, p ≠ .done result) →
      s'.calls.find? n = some (.cardReport (.done (.ok receipt))) →
      receipt.status.isTerminal = true →
      ∃ t, s'.ledger.find? receipt.reference = some t ∧ t.status = receipt.status := by
  intro after
  obtain ⟨hf', hl', hon'⟩ : after.faults = [] ∧ after.memory.ledger.WellKeyed ∧
      after.memory.readOnly = store.memory.readOnly := handleAll_keeps hf hl
  refine ⟨?_, ?_, ?_, ?_, ?_⟩
  · intro posted
    obtain ⟨result, hdone, h⟩ := handle_spec u.client hf' hl' posted
    refine ⟨result, hdone, ?_, ?_⟩
    · rw [← hon']
      exact h.error_iff_posted
    · rintro ⟨cause, rfl⟩
      exact h.same_of_error
  · intro r hnone
    exact find?_handleAll_of_no_verdict hf hl hnone
  · intro hon r t hfind hopen
    rw [find?_handleAll hf hl hon, hfind, Option.map_some, Status.after_of_open hopen]
  · intro r t posted status hfind ht hverdict
    exact handle_of_settled hf' hfind ht hverdict
  · intro tr s a s' n p receipt hrun hact hcall hgoing hdone hterm
    exact stored_of_act hl hrun hact hcall hgoing hdone hterm

/-- A card payment that is not settled. -/
def unpaidCard : Transaction :=
  { id := .ofNat 2
    user := .nil
    key := .ofNat 1
    billReference := "BILL1"
    reference := "C1"
    method := .card
    amount := 50000
    status := .pending
    polling := false
    createdAt := 1735689600000000 }

/-- What the card page reports of that payment, before it is signed. -/
def reportedFields (code : String) : Payload :=
  .ofList [("pp_ResponseCode", code), ("pp_TxnRefNo", "C1")]

/-- The signed report of a code. -/
def signedReport (code : String) : FieldMap := plain.client.signer.outbound (reportedFields code)

/-- What a signed report is read as. -/
def readReport (code : String) : CardReturn :=
  { reference := "C1"
    status := ResponseCode.classify (Text.trim code)
    responseCode := Text.trim code
    responseMessage := ""
    retrievalReference := none
    fields := signedReport code }

theorem cardReturn_signedReport {code : String} (hcode : code ≠ "") :
    plain.client.cardReturn (signedReport code) = .ok (readReport code) := by
  have hverify : plain.client.signer.verifyFields (signedReport code) = .ok () :=
    Signer.verifyFields_outbound _ (Signer.sign_standard_ne_empty _ _)
  have hread : ∀ name, name ≠ hashField → postedText name (signedReport code) =
      Text.trim (((reportedFields code).fields.get? name).getD "") := by
    intro name hname
    rw [postedText, signedReport, Signer.outbound, Payload.get?_withHash hname]
  have hreference : postedText "pp_TxnRefNo" (signedReport code) = "C1" := by
    rw [hread _ (by decide)]
    simp [reportedFields, Payload.ofList, Payload.get?_insert, hashField]
    decide
  have hresponse : postedText "pp_ResponseCode" (signedReport code) = Text.trim code := by
    rw [hread _ (by decide)]
    simp [reportedFields, Payload.ofList, Payload.get?_insert, hashField, hcode]
  have hmessage : postedText "pp_ResponseMessage" (signedReport code) = "" := by
    rw [hread _ (by decide)]
    simp [reportedFields, Payload.ofList, Payload.get?_insert, hashField]
    decide
  have hretrieval : postedText "pp_RetreivalReferenceNo" (signedReport code) = "" := by
    rw [hread _ (by decide)]
    simp [reportedFields, Payload.ofList, Payload.get?_insert, hashField]
    decide
  simp [Client.cardReturn, readCardReturn, readReport, hverify, hreference, hresponse, hmessage,
    hretrieval]

theorem verdicts_signedReport {codes : List String} (hcodes : ∀ code ∈ codes, code ≠ "") :
    (codes.map signedReport).filterMap (verdict? plain.client "C1") =
      codes.map fun code => ResponseCode.classify (Text.trim code) := by
  induction codes with
  | nil => rfl
  | cons code rest ih =>
    have hverdict : verdict? plain.client "C1" (signedReport code) =
        some (ResponseCode.classify (Text.trim code)) := by
      simp [verdict?, cardReturn_signedReport (hcodes code List.mem_cons_self), readReport]
    rw [List.map_cons, List.filterMap_cons, hverdict,
      ih fun code' hmem => hcodes code' (List.mem_cons_of_mem _ hmem), List.map_cons]

/-- The poll loop of the payment is started and fails it, while its report is under way. -/
def overtaking : List (Action (Except Gateway.Failure Gateway.Outcome)) :=
  .turn (moment 7) (.call 0) :: .arrive (.attend "C1") ::
    List.replicate 3 (.turn (moment 7) (.call 1)) ++ List.replicate 2 (.turn (moment 7) (.loop 0)) ++
    List.replicate 2 (.turn (moment 200000) (.loop 0)) ++ [.turn (moment 200000) (.call 0)]

/-- Of an unsigned report, one that the payment goes on, one that it was paid and one that it
    was not, the third counts. A report that it was paid, overtaken by a poll loop that fails
    the payment, answers that it has failed. -/
theorem paid_report_stays :
    let ledger := ({} : Ledger).put unpaidCard
    let store : Store := { memory.ledger := ledger }
    let posts := (reportedFields "999").fields :: ["157", "000", "999"].map signedReport
    store.faults = [] ∧ ledger.WellKeyed ∧
      (handleAll plain.client store posts).memory.ledger.find? "C1" =
        some { unpaidCard with status := .success } ∧
      ∃ tr s receipt, Run (act plain literally) (ofLedger plain ledger) tr s ∧
        s.calls.find? 0 = some (.cardReport (.done (.ok receipt))) ∧ receipt.status = .failed ∧
        ∃ t, s.ledger.find? receipt.reference = some t ∧ t.status = receipt.status := by
  intro ledger store posts
  have hl : ledger.WellKeyed := Ledger.coherent_empty.wellKeyed.put unpaidCard
  have hlaw := first_terminal_report_stays plain literally (rfl : store.faults = []) hl
  refine ⟨rfl, hl, ?_, ?_⟩
  · have hunsigned : verdict? plain.client "C1" (reportedFields "999").fields = none := by
      decide +kernel
    have hverdicts : posts.filterMap (verdict? plain.client "C1") =
        [.pending, .success, .failed] := by
      rw [List.filterMap_cons, hunsigned, verdicts_signedReport (by decide)]
      decide
    have hrow := (hlaw posts).2.2.1 rfl "C1" unpaidCard (by decide) rfl
    rw [hverdicts] at hrow
    exact hrow
  · have hstart : ofPosted plain.client (signedReport "000") = .reading (readReport "000") := by
      rw [ofPosted, cardReturn_signedReport (by decide)]
    -- the report comes in; what was posted is not looked at from then on
    let arrived := ((ofLedger plain ledger).begin (.cardReport (.reading (readReport "000")))).2
    have hcome : act plain literally (.arrive (.cardReport (signedReport "000")))
        (ofLedger plain ledger) = some arrived := by
      show some ((ofLedger plain ledger).begin (.cardReport (ofPosted _ _))).2 = _
      rw [hstart]
    let run := Run.play (act plain literally) overtaking arrived
    have hrun := Run.cons hcome (Run.of_play overtaking arrived)
    have hgoing : (run.2.calls.find? 0).any Call.rereads = true := by decide +kernel
    obtain ⟨c, hc, hrereads⟩ := (Option.any_eq_true _ _).mp hgoing
    obtain ⟨reference, text, rfl⟩ := Call.rereads_eq_true.mp hrereads
    have hanswer : ((act plain literally (.turn (moment 200000) (.call 0)) run.2).bind fun s =>
        (s.calls.find? 0).bind Call.reported?).map Receipt.status = some .failed := by
      decide +kernel
    obtain ⟨receipt, hbind, hstatus⟩ := Option.map_eq_some_iff.mp hanswer
    obtain ⟨last, hact, hbind⟩ := Option.bind_eq_some_iff.mp hbind
    obtain ⟨c, hdone, hreported⟩ := Option.bind_eq_some_iff.mp hbind
    obtain rfl := Call.reported?_eq_some.mp hreported
    exact ⟨_, last, receipt, hrun.snoc hact, hdone, hstatus,
      (hlaw []).2.2.2.2 _ _ _ _ _ _ _ hrun hact hc (by simp) hdone (by rw [hstatus]; rfl)⟩

end Service

end TopUp
