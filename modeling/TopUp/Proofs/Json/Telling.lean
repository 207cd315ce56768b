import TopUp.Proofs.Json.Records

/-! # Texts that tell a value

    A value as it is written tells a value to be printed (`Tells`) if it is the same up to
    the order of members; some objects may have more members than those that are told, as
    long as their names are none of those that the object is known to have (`Room`). The
    printed text of a value tells it (`Printable`), and a record is read from whatever
    tells its members (`Reader.reads_record_of_tells`).
-/

namespace TopUp.Json

open TopUp.Data TopUp.Text

/-- Which objects of a value may have more members than those that are told. -/
inductive Room where
  /-- None. -/
  | closed
  /-- The outermost one, if the names are not among the given ones, and objects within
      its members. -/
  | record (names : List String) (inner : String → Room)

namespace Room

/-- A member of this name may be added to the outermost object. -/
def Admits : Room → String → Prop
  | closed, _ => False
  | record names _, name => name ∉ names

/-- What may be added within a member. -/
def inner : Room → String → Room
  | closed, _ => closed
  | record _ inner, name => inner name

end Room

/-- The text that a value is, if it is one. -/
def Raw.text : Raw → String
  | .string s => s
  | _ => ""

/-- The values of which requests and receipts are made, as they may be written. -/
inductive Tells : Room → Raw → Json → Prop where
  | null {room : Room} : Tells room .null .null
  | integer {room : Room} {t : List Char} {l : Literal} {i : Int}
      (hscan : Literal.scan t = some (l, [])) (hvalue : l.value? = some (.integer i)) :
      Tells room (.number t) (.ofInt i)
  | string {room : Room} {s : String} : Tells room (.string s) (.string s)
  | object {room : Room} {told extra members : List (String × Raw)}
      {fields : List (String × Json)} (hnames : told.map Prod.fst = fields.map Prod.fst)
      (htold : ∀ e f, (e, f) ∈ told.zip fields → Tells (room.inner f.1) e.2 f.2)
      (hextra : ∀ e ∈ extra, room.Admits e.1) (hperm : members.Perm (told ++ extra)) :
      Tells room (.object members) (.object fields)

/-- The printed text of the value tells it. -/
def Printable (j : Json) : Prop := ∀ room, ∃ v, Tells room v j ∧ Writes v j.toChars

variable {room : Room} {v : Raw} {s : String} {fields : List (String × Json)}

/-! ### Printed values -/

theorem printable_null : Printable .null := fun _ => ⟨.null, .null, .null⟩

theorem printable_string (s : String) : Printable (.string s) :=
  fun _ => ⟨.string s, .string, writes_quoted s⟩

theorem printable_text? (s : Option String) : Printable (.ofText? s) := by
  cases s with
  | none => exact printable_null
  | some s => exact printable_string s

/-- An integer of 64 bits is printable. -/
theorem printable_int64 (i : Int64) : Printable (.ofInt i.toInt) := by
  intro room
  have hlow := i.minValue_le_toInt
  have hhigh := i.toInt_lt
  have hcapacity : i.toInt ≤ Literal.capacity := by
    have hsize : Literal.capacity = 18446744073709551615 := by decide
    omega
  have hvalue := Literal.value_decimalInt i.toInt (by simpa using hlow) hcapacity
  exact ⟨.number _, .integer (Literal.scan_decimalInt _) hvalue,
    .number (Literal.scan_decimalInt _)⟩

/-- Printable members are told by members that are printed like them. -/
theorem exists_told (h : ∀ f ∈ fields, Printable f.2) (room : Room) :
    ∃ told : List (String × Raw), told.map Prod.fst = fields.map Prod.fst ∧
      (∀ e f, (e, f) ∈ told.zip fields → Tells (room.inner f.1) e.2 f.2) ∧
      List.Forall₂ Prints told fields := by
  induction fields with
  | nil => exact ⟨[], rfl, by simp, .nil⟩
  | cons f fields ih =>
    obtain ⟨v, hv, htext⟩ := h _ List.mem_cons_self (room.inner f.1)
    obtain ⟨told, hnames, htold, htexts⟩ := ih fun f hf => h f (List.mem_cons_of_mem _ hf)
    refine ⟨(f.1, v) :: told, by simp [hnames], ?_, .cons ⟨rfl, htext⟩ htexts⟩
    intro e g heg
    rcases List.mem_cons.mp heg with heq | heg
    · obtain ⟨rfl, rfl⟩ := Prod.mk.inj heq
      exact hv
    · exact htold e g heg

/-- An object is printable if its members are. -/
theorem printable_object (h : ∀ f ∈ fields, Printable f.2) : Printable (.object fields) := by
  intro room
  obtain ⟨told, hnames, htold, htexts⟩ := exists_told h room
  have hextra : ∀ e ∈ ([] : List (String × Raw)), room.Admits e.1 := by simp
  exact ⟨.object told, .object hnames htold hextra (by simp), writes_object htexts⟩

theorem printable_fields (m : FieldMap) : Printable (.ofFields m) := by
  refine printable_object fun f hf => ?_
  obtain ⟨e, -, rfl⟩ := List.mem_map.mp hf
  exact printable_string e.2

/-- A printable value is told by its text. -/
theorem Printable.hasText {j : Json} (h : Printable j) (room : Room) :
    ∃ v, Tells room v j ∧ v.HasText j.render := by
  obtain ⟨v, hv, htext⟩ := h room
  exact ⟨v, hv, [], _, [], blank_nil, htext, blank_nil, by simp [render]⟩

/-! ### Reading what is told -/

namespace Reader

variable {α σ : Type} {j : Json} {a : α}

theorem eq_of_tells_string (h : Tells room v (.string s)) : v = .string s := by
  cases h
  rfl

theorem reads_textAs_of_tells {f : String → Option α} (hf : f s = some a)
    (h : Tells room v (.string s)) : Reads (textAs f) v a :=
  eq_of_tells_string h ▸ reads_textAs hf

theorem reads_oneOf_of_tells {f : String → Option α} (hf : f s = some a)
    (h : Tells room v (.string s)) : Reads (oneOf f) v a :=
  eq_of_tells_string h ▸ reads_oneOf hf

theorem reads_text_of_tells (h : Tells room v (.string s)) : Reads text v s :=
  eq_of_tells_string h ▸ reads_text s

theorem reads_int64_of_tells {i : Int64} (h : Tells room v (.ofInt i.toInt)) :
    Reads int64 v i := by
  cases h with
  | integer hscan hvalue => exact reads_int64 hscan hvalue

theorem reads_text?_of_tells {s : Option String} (h : Tells room v (.ofText? s)) :
    Reads (optional text) v s := by
  cases s with
  | none =>
    cases h
    exact reads_optional_null text
  | some s =>
    obtain rfl := eq_of_tells_string h
    exact reads_optional_some (reads_text s) (by simp)

/-- Texts are told by texts. -/
theorem told_texts {texts : List (String × String)} {told : List (String × Raw)}
    (hnames : told.map Prod.fst = (texts.map fun e => (e.1, Json.string e.2)).map Prod.fst)
    (htold : ∀ e f, (e, f) ∈ told.zip (texts.map fun e => (e.1, Json.string e.2)) →
      Tells (room.inner f.1) e.2 f.2) :
    told = texts.map fun e => (e.1, Raw.string e.2) := by
  induction texts generalizing told with
  | nil => simpa using hnames
  | cons e texts ih =>
    cases told with
    | nil => exact absurd hnames (by simp)
    | cons e' told =>
      obtain ⟨name, v⟩ := e'
      obtain ⟨rfl, hrest⟩ := List.cons.inj hnames
      have hv : v = .string e.2 := eq_of_tells_string (htold _ _ List.mem_cons_self)
      rw [ih hrest fun e f hef => htold e f (List.mem_cons_of_mem _ hef), hv]
      rfl

/-- What is an object of texts in another order is one. -/
theorem exists_texts {texts : List (String × String)} {members : List (String × Raw)}
    (h : members.Perm (texts.map fun e => (e.1, Raw.string e.2))) :
    ∃ texts' : List (String × String), texts'.Perm texts ∧
      members = texts'.map fun e => (e.1, Raw.string e.2) := by
  refine ⟨members.map fun e => (e.1, e.2.text), ?_, ?_⟩
  · have hback := h.map fun e => (e.1, e.2.text)
    rw [List.map_map] at hback
    exact hback.trans (.of_eq (List.map_id'' (fun _ => rfl) texts))
  · rw [List.map_map]
    refine (List.map_id' _).symm.trans (List.map_congr_left fun e he => ?_)
    obtain ⟨f, -, rfl⟩ := List.mem_map.mp (h.mem_iff.mp he)
    rfl

/-- The members of an object of texts may come in any order. -/
theorem reads_fields_of_tells {m : FieldMap} (h : Tells .closed v (.ofFields m)) :
    Reads Reader.fields v m := by
  cases h with
  | @object _ told extra members _ hnames htold hextra hperm =>
    obtain rfl : extra = [] := List.eq_nil_iff_forall_not_mem.mpr hextra
    rw [List.append_nil, told_texts hnames htold] at hperm
    obtain ⟨texts, htexts, rfl⟩ := exists_texts hperm
    have hdistinct : (m.toList.map Prod.fst).Nodup :=
      (Fields.ascending_iff.mp m.ascending).imp String.ne_of_lt
    have hm : FieldMap.ofList texts = m := by
      rw [← FieldMap.ofList_perm htexts.symm hdistinct]
      exact FieldMap.ext (FieldMap.toList_ofList m.ascending)
    exact hm ▸ reads_fields texts

/-! ### Records -/

variable {known : List (Member σ)} {inner : String → Room} {blank : σ} {finish : σ → Option α}
  {draft : List String → σ}

/-- A member that is told is one of the fields. -/
theorem exists_field {told : List (String × Raw)} {room : Room}
    (hnames : told.map Prod.fst = fields.map Prod.fst)
    (htold : ∀ e f, (e, f) ∈ told.zip fields → Tells (room.inner f.1) e.2 f.2) {name : String}
    (he : (name, v) ∈ told) : ∃ j, (name, j) ∈ fields ∧ Tells (room.inner name) v j := by
  induction told generalizing fields with
  | nil => exact absurd he List.not_mem_nil
  | cons e told ih =>
    cases fields with
    | nil => exact absurd hnames (by simp)
    | cons f fields =>
      obtain ⟨name', j⟩ := f
      obtain ⟨hname, hrest⟩ := List.cons.inj hnames
      rcases List.mem_cons.mp he with rfl | he
      · obtain rfl : name = name' := hname
        exact ⟨j, List.mem_cons_self, htold _ _ List.mem_cons_self⟩
      · obtain ⟨j, hj, ht⟩ :=
          ih hrest (fun e f hef => htold e f (List.mem_cons_of_mem _ hef)) he
        exact ⟨j, List.mem_cons_of_mem _ hj, ht⟩

/-- Among members of other names, the known ones are those that are told. -/
theorem filter_known {told extra : List (String × Raw)}
    (hnames : told.map Prod.fst = fields.map Prod.fst)
    (hknown : ∀ f ∈ fields, f.1 ∈ known.map Member.name)
    (hextra : ∀ e ∈ extra, e.1 ∉ known.map Member.name) :
    (told ++ extra).filter (fun e => isKnown known e.1) = told := by
  have htold : told.filter (fun e => isKnown known e.1) = told := by
    rw [List.filter_eq_self]
    intro e he
    have hmem : e.1 ∈ fields.map Prod.fst := hnames ▸ List.mem_map_of_mem he
    obtain ⟨f, hf, hname⟩ := List.mem_map.mp hmem
    exact isKnown_iff.mpr (hname ▸ hknown f hf)
  have hnone : extra.filter (fun e => isKnown known e.1) = [] := by
    rw [List.filter_eq_nil_iff]
    intro e he
    rw [isKnown_iff]
    exact hextra e he
  rw [List.filter_append, htold, hnone, List.append_nil]

/-- A record is read from whatever tells its members, in any order and among members of
    other names, if each member that a field tells is read into its place. -/
theorem reads_record_of_tells (h : Tells (.record (known.map Member.name) inner) v (.object fields))
    (hdraft : Drafted known draft) (hblank : draft [] = blank)
    (hdistinct : (known.map Member.name).Nodup)
    (hfields : (fields.map Prod.fst).Sublist (known.map Member.name))
    (hput : ∀ m ∈ known, ∀ v j, (m.name, j) ∈ fields → Tells (inner m.name) v j →
      ∃ put, Reads m.read v put ∧ ∀ seen, put (draft seen) = draft (m.name :: seen))
    (hfinish : ∀ seen, (∀ f ∈ fields, f.1 ∈ seen) → finish (draft seen) = some a) :
    Reads (record known blank finish) v a := by
  cases h with
  | @object _ told extra members _ hnames htold hextra hperm =>
    have hputs : Puts known draft members := by
      intro m hm v hv
      rcases List.mem_append.mp (hperm.mem_iff.mp hv) with ht | he
      · obtain ⟨j, hj, ht⟩ := exists_field hnames htold ht
        exact hput m hm v j hj ht
      · exact absurd (List.mem_map_of_mem hm) (hextra _ he)
    have hnodup : ((members.filter fun e => isKnown known e.1).map Prod.fst).Nodup := by
      have hsame := (hperm.filter fun e => isKnown known e.1).map Prod.fst
      have hknown : ∀ f ∈ fields, f.1 ∈ known.map Member.name := fun f hf =>
        hfields.subset (List.mem_map_of_mem hf)
      rw [filter_known hnames hknown hextra, hnames] at hsame
      exact hsame.nodup_iff.mpr (hfields.nodup hdistinct)
    have hfills := fills_of_puts hdraft hputs hnodup fun _ _ _ => List.not_mem_nil
    rw [hblank] at hfills
    refine reads_record hfills (hfinish _ fun f hf => ?_)
    -- each field is told by some member
    have hmem : f.1 ∈ told.map Prod.fst := hnames ▸ List.mem_map_of_mem hf
    obtain ⟨e, he, hname⟩ := List.mem_map.mp hmem
    have hin : e ∈ members := hperm.mem_iff.mpr (List.mem_append_left _ he)
    rw [List.append_nil, List.mem_reverse, ← hname]
    exact List.mem_map_of_mem hin

end Reader

end TopUp.Json
