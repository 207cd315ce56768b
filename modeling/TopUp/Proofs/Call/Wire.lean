import TopUp.Call.Wire
import TopUp.Proofs.Json.Telling
import TopUp.Proofs.Uuid

/-! # Requests and receipts survive the wire

    What is written of a request, a receipt or a card redirect reads back as the same
    value, and so does every text that tells it: with its members in any order, among
    members of other names, and spelled in any way that the grammar of JSON text has
    (`Survives`).

    Each of the three is a record. Its drafts are known by the names that were put into
    them (`Request.draft` and so on), and each of its members is read into its place.
-/

namespace TopUp

open TopUp.Data TopUp.Gateway TopUp.Json TopUp.Text

/-- Values read back from what is printed of them, and from all that tells the same. -/
def Survives {α : Type} (reader : Reader α) (toJson : α → Json) (room : Room) : Prop :=
  ∀ a, Reader.run reader (toJson a).render = .ok a ∧
    ∀ v text, Tells room v (toJson a) → v.HasText text → Reader.run reader text = .ok a

/-- It is enough that whatever tells a value is read as it. -/
theorem survives_of_reads {α : Type} {reader : Reader α} {toJson : α → Json} {room : Room}
    (hprint : ∀ a, Printable (toJson a))
    (hread : ∀ a v, Tells room v (toJson a) → Reads reader v a) : Survives reader toJson room := by
  intro a
  have htold : ∀ v text, Tells room v (toJson a) → v.HasText text →
      Reader.run reader text = .ok a := fun v text hv htext => (hread a v hv).run_eq_ok htext
  obtain ⟨v, hv, htext⟩ := (hprint a).hasText room
  exact ⟨htold v _ hv htext, htold⟩

/-- What is left out reads as absent. -/
theorem getD_if {α : Type} {o : Option α} {name : String} {seen : List String}
    (h : ∀ a, o = some a → name ∈ seen) :
    (if name ∈ seen then some o else none).getD none = o := by
  cases o with
  | none => split <;> rfl
  | some a => rw [if_pos (h a rfl), Option.getD_some]

/-! ### Requests -/

namespace Request

/-- The names that may not be added to a request. -/
def room : Room := .record (members.map Reader.Member.name) fun _ => .closed

/-- The draft of a request with the members of some names. -/
def draft (r : Request) (seen : List String) : Partial where
  key := if "idempotency_key" ∈ seen then some r.key else none
  amount := if "amount" ∈ seen then some r.amount else none
  method := if "method" ∈ seen then some r.method else none
  phoneNumber := if "phone_number" ∈ seen then some r.phoneNumber else none
  nationalId := if "cnic_last6" ∈ seen then some r.nationalId else none

theorem drafted (r : Request) : Reader.Drafted members r.draft where
  given m hm seen := by
    simp only [members, List.mem_cons, List.not_mem_nil, or_false] at hm
    rcases hm with rfl | rfl | rfl | rfl | rfl <;> simp [draft] <;> split <;> simp [*]
  skip name hname seen := by
    simp [members] at hname
    simp [draft, hname, eq_comm]

/-- Whatever tells a request is read as it. -/
theorem reads_of_tells (r : Request) {v : Raw} (h : Tells room v r.toJson) :
    Reads reader v r := by
  refine Reader.reads_record_of_tells h r.drafted rfl (by decide) (.refl _) ?_ ?_
  · intro m hm v j hj ht
    simp only [members, List.mem_cons, List.not_mem_nil, or_false] at hm
    rcases hm with rfl | rfl | rfl | rfl | rfl
    · obtain rfl : j = .string r.key.toText := by simpa using hj
      have hread := Reader.reads_textAs_of_tells (Uuid.parse?_toText r.key) ht
      exact ⟨_, Reader.reads_map _ hread, fun seen => by simp [draft]⟩
    · obtain rfl : j = .ofInt r.amount.toInt := by simpa using hj
      exact ⟨_, Reader.reads_map _ (Reader.reads_int64_of_tells ht), fun seen => by simp [draft]⟩
    · obtain rfl : j = .string r.method.wire := by simpa using hj
      have hread := Reader.reads_oneOf_of_tells (Method.ofWire?_wire r.method) ht
      exact ⟨_, Reader.reads_map _ hread, fun seen => by simp [draft]⟩
    · obtain rfl : j = .ofText? r.phoneNumber := by simpa using hj
      exact ⟨_, Reader.reads_map _ (Reader.reads_text?_of_tells ht), fun seen => by simp [draft]⟩
    · obtain rfl : j = .ofText? r.nationalId := by simpa using hj
      exact ⟨_, Reader.reads_map _ (Reader.reads_text?_of_tells ht), fun seen => by simp [draft]⟩
  · intro seen hseen
    simp only [List.forall_mem_cons] at hseen
    obtain ⟨hkey, hamount, hmethod, hphone, hnational, -⟩ := hseen
    simp [ofPartial, draft, hkey, hamount, hmethod, hphone, hnational]

theorem printable_toJson (r : Request) : Printable r.toJson := by
  refine printable_object ?_
  simp only [List.forall_mem_cons]
  exact ⟨printable_string _, printable_int64 _, printable_string _, printable_text? _,
    printable_text? _, by simp⟩

end Request

/-! ### Card redirects -/

namespace Gateway.CardRedirect

/-- The names that may not be added to a redirect. -/
def room : Room := .record (members.map Reader.Member.name) fun _ => .closed

/-- The draft of a redirect with the members of some names. -/
def draft (r : CardRedirect) (seen : List String) : Partial where
  postUrl := if "post_url" ∈ seen then some r.postUrl else none
  fields := if "fields" ∈ seen then some r.fields else none
  returnUrl := if "return_url" ∈ seen then some r.returnUrl else none

theorem drafted (r : CardRedirect) : Reader.Drafted members r.draft where
  given m hm seen := by
    simp only [members, List.mem_cons, List.not_mem_nil, or_false] at hm
    rcases hm with rfl | rfl | rfl <;> simp [draft] <;> split <;> simp [*]
  skip name hname seen := by
    simp [members] at hname
    simp [draft, hname, eq_comm]

/-- Whatever tells a redirect is read as it. -/
theorem reads_of_tells (r : CardRedirect) {v : Raw} (h : Tells room v r.toJson) :
    Reads reader v r := by
  refine Reader.reads_record_of_tells h r.drafted rfl (by decide) ?_ ?_ ?_
  · cases r.returnUrl with
    | none =>
      show ["post_url", "fields"].Sublist ["post_url", "fields", "return_url"]
      decide
    | some u => exact .refl _
  · intro m hm v j hj ht
    simp only [members, List.mem_cons, List.not_mem_nil, or_false] at hm
    rcases hm with rfl | rfl | rfl
    · obtain rfl : j = .string r.postUrl := by simpa using hj
      exact ⟨_, Reader.reads_map _ (Reader.reads_text_of_tells ht), fun seen => by simp [draft]⟩
    · obtain rfl : j = .ofFields r.fields := by simpa using hj
      exact ⟨_, Reader.reads_map _ (Reader.reads_fields_of_tells ht), fun seen => by simp [draft]⟩
    · obtain rfl : j = .ofText? r.returnUrl := by
        obtain ⟨u, hu, hj⟩ : ∃ u, r.returnUrl = some u ∧ .string u = j := by simpa using hj
        rw [hu, ← hj]
        rfl
      exact ⟨_, Reader.reads_map _ (Reader.reads_text?_of_tells ht), fun seen => by simp [draft]⟩
  · intro seen hseen
    simp only [List.forall_mem_append, List.forall_mem_cons] at hseen
    obtain ⟨⟨hpost, hfields, -⟩, hreturn⟩ := hseen
    have hurl : ∀ u, r.returnUrl = some u → "return_url" ∈ seen := fun u hu =>
      hreturn ("return_url", .string u) (by simp [hu])
    simp [ofPartial, draft, hpost, hfields, getD_if hurl]

theorem printable_toJson (r : CardRedirect) : Printable r.toJson := by
  refine printable_object ?_
  simp only [List.forall_mem_append, List.forall_mem_cons]
  refine ⟨⟨printable_string _, printable_fields _, by simp⟩, fun f hf => ?_⟩
  obtain ⟨u, -, rfl⟩ : ∃ u, r.returnUrl = some u ∧ ("return_url", .string u) = f := by
    simpa using hf
  exact printable_string u

end Gateway.CardRedirect

/-! ### Receipts -/

namespace Receipt

/-- The names that may not be added to a receipt, and those of its redirect. -/
def room : Room :=
  .record (members.map Reader.Member.name) fun name =>
    if name = "redirect" then CardRedirect.room else .closed

/-- The draft of a receipt with the members of some names. -/
def draft (r : Receipt) (seen : List String) : Partial where
  id := if "id" ∈ seen then some r.id else none
  reference := if "txn_ref_no" ∈ seen then some r.reference else none
  status := if "status" ∈ seen then some r.status else none
  message := if "message" ∈ seen then some r.message else none
  redirect := if "redirect" ∈ seen then some r.redirect else none
  amount := if "amount" ∈ seen then some r.amount else none

theorem drafted (r : Receipt) : Reader.Drafted members r.draft where
  given m hm seen := by
    simp only [members, List.mem_cons, List.not_mem_nil, or_false] at hm
    rcases hm with rfl | rfl | rfl | rfl | rfl | rfl <;> simp [draft] <;> split <;> simp [*]
  skip name hname seen := by
    simp [members] at hname
    simp [draft, hname, eq_comm]

/-- Whatever tells a receipt is read as it. -/
theorem reads_of_tells (r : Receipt) {v : Raw} (h : Tells room v r.toJson) :
    Reads reader v r := by
  refine Reader.reads_record_of_tells h r.drafted rfl (by decide) ?_ ?_ ?_
  · cases r.redirect with
    | none =>
      show ["id", "txn_ref_no", "status", "message", "amount"].Sublist
        ["id", "txn_ref_no", "status", "message", "redirect", "amount"]
      decide
    | some d => exact .refl _
  · intro m hm v j hj ht
    simp only [members, List.mem_cons, List.not_mem_nil, or_false] at hm
    rcases hm with rfl | rfl | rfl | rfl | rfl | rfl
    · obtain rfl : j = .string r.id.toText := by simpa using hj
      have hread := Reader.reads_textAs_of_tells (Uuid.parse?_toText r.id) ht
      exact ⟨_, Reader.reads_map _ hread, fun seen => by simp [draft]⟩
    · obtain rfl : j = .string r.reference := by simpa using hj
      exact ⟨_, Reader.reads_map _ (Reader.reads_text_of_tells ht), fun seen => by simp [draft]⟩
    · obtain rfl : j = .string r.status.wire := by simpa using hj
      have hread := Reader.reads_oneOf_of_tells (Status.ofWire?_wire r.status) ht
      exact ⟨_, Reader.reads_map _ hread, fun seen => by simp [draft]⟩
    · obtain rfl : j = .string r.message := by simpa using hj
      exact ⟨_, Reader.reads_map _ (Reader.reads_text_of_tells ht), fun seen => by simp [draft]⟩
    · obtain ⟨d, hd, rfl⟩ : ∃ d, r.redirect = some d ∧ d.toJson = j := by simpa using hj
      have hread := CardRedirect.reads_of_tells d ht
      have hnull : v ≠ .null := by
        rintro rfl
        cases ht
      refine ⟨_, Reader.reads_map _ (Reader.reads_optional_some hread hnull), fun seen => ?_⟩
      simp [draft, hd]
    · obtain rfl : j = .ofInt r.amount.toInt := by simpa using hj
      exact ⟨_, Reader.reads_map _ (Reader.reads_int64_of_tells ht), fun seen => by simp [draft]⟩
  · intro seen hseen
    simp only [List.forall_mem_append, List.forall_mem_cons] at hseen
    obtain ⟨⟨⟨hid, hreference, hstatus, hmessage, -⟩, hredirect⟩, hamount, -⟩ := hseen
    have hpage : ∀ d, r.redirect = some d → "redirect" ∈ seen := fun d hd =>
      hredirect ("redirect", d.toJson) (by simp [hd])
    simp [ofPartial, draft, hid, hreference, hstatus, hmessage, hamount, getD_if hpage]

theorem printable_toJson (r : Receipt) : Printable r.toJson := by
  refine printable_object ?_
  simp only [List.forall_mem_append, List.forall_mem_cons]
  refine ⟨⟨⟨printable_string _, printable_string _, printable_string _, printable_string _,
    by simp⟩, fun f hf => ?_⟩, printable_int64 _, by simp⟩
  obtain ⟨d, -, rfl⟩ : ∃ d, r.redirect = some d ∧ ("redirect", d.toJson) = f := by
    simpa using hf
  exact CardRedirect.printable_toJson d

end Receipt

/-! ### All of them -/

/-- Every request, receipt and redirect reads back from its text, and from every text that
    has the same members in any order among members of other names. -/
theorem requests_and_receipts_survive :
    Survives Request.reader Request.toJson Request.room ∧
      Survives Receipt.reader Receipt.toJson Receipt.room ∧
      Survives CardRedirect.reader CardRedirect.toJson CardRedirect.room :=
  ⟨survives_of_reads Request.printable_toJson fun r _ => r.reads_of_tells,
    survives_of_reads Receipt.printable_toJson fun r _ => r.reads_of_tells,
    survives_of_reads CardRedirect.printable_toJson fun r _ => r.reads_of_tells⟩

/-- A redirect as someone else may write it: with its members in another order, and one more
    member, in which there is a number that no reader can keep. -/
def foreignRedirect : Raw :=
  .object
    [("note", .array [.number "1e999".toList, .object []]),
      ("fields", .object [("a", .string "1")]), ("post_url", .string "P")]

theorem foreignRedirect_tells :
    Tells CardRedirect.room foreignRedirect
      (CardRedirect.toJson ⟨"P", .ofList [("a", "1")], none⟩) := by
  have hfields : Tells .closed (.object [("a", .string "1")]) (.object [("a", .string "1")]) := by
    refine @Tells.object _ [("a", .string "1")] [] _ _ rfl ?_ (by simp) (.refl _)
    intro e f hef
    obtain ⟨rfl, rfl⟩ := by simpa using hef
    exact .string
  refine @Tells.object _ [("post_url", .string "P"), ("fields", .object [("a", .string "1")])]
    [("note", .array [.number "1e999".toList, .object []])] _ _ rfl ?_ ?_ (List.reverse_perm _).symm
  · intro e f hef
    rcases List.mem_cons.mp hef with heq | hef
    · obtain ⟨rfl, rfl⟩ := Prod.mk.inj heq
      exact .string
    · obtain ⟨rfl, rfl⟩ := by simpa using hef
      exact hfields
  · intro e he
    obtain rfl := List.mem_singleton.mp he
    show "note" ∉ ["post_url", "fields", "return_url"]
    decide

theorem foreignRedirect_text :
    foreignRedirect.HasText
      "\x7b\"note\":[1e999, \x7b\x7d], \"fields\":\x7b\"a\":\"1\"\x7d,\"post_url\":\"P\"\x7d" := by
  have hblank : Blank [' '] := by simp [Blank, Reader.isSpace]
  have hnote : Writes (.array [.number "1e999".toList, .object []]) "[1e999, \x7b\x7d]".toList :=
    .array (.cons (.first blank_nil) (.number rfl)
      (.cons (.comma blank_nil hblank) (.object (.close blank_nil)) (.close blank_nil)))
  have hfields : Writes (.object [("a", .string "1")]) "\x7b\"a\":\"1\"\x7d".toList :=
    .object (.cons (.first blank_nil) (spells_printed _) blank_nil blank_nil (writes_quoted _)
      (.close blank_nil))
  exact ⟨[], _, [], blank_nil,
    .object (.cons (.first blank_nil) (spells_printed _) blank_nil blank_nil hnote
      (.cons (.comma blank_nil hblank) (spells_printed _) blank_nil blank_nil hfields
        (.cons (.comma blank_nil blank_nil) (spells_printed _) blank_nil blank_nil
          (writes_quoted _) (.close blank_nil)))), blank_nil, by decide⟩

/-- It is read as the redirect that it tells. -/
theorem foreignRedirect_read :
    Reader.run CardRedirect.reader
      "\x7b\"note\":[1e999, \x7b\x7d], \"fields\":\x7b\"a\":\"1\"\x7d,\"post_url\":\"P\"\x7d" =
        .ok ⟨"P", .ofList [("a", "1")], none⟩ :=
  (requests_and_receipts_survive.2.2 _).2 foreignRedirect _ foreignRedirect_tells
    foreignRedirect_text

end TopUp
