import Mathlib.Data.List.Induction
import TopUp.Data.FieldMap

/-! # Ascending fields

    In ascending fields a name occurs once, so a lookup says what the list holds:
    fields with the same lookups are the same (`Fields.ext_get?`), a filter is seen name by
    name (`Fields.get?_filter`), and putting ascending fields into a map one after the
    other gives them back (`FieldMap.toList_ofList`). Whatever is put in, the last value of
    a name is the one that is found (`Fields.get?_foldl_insert`).
-/

namespace TopUp.Data

namespace Fields

variable {α β : Type} {name : String} {value : α} {l l' : List (String × α)}

@[simp] theorem ascending_nil : Ascending ([] : List (String × α)) := List.Pairwise.nil

theorem ascending_iff : Ascending l ↔ (l.map Prod.fst).Pairwise (· < ·) :=
  List.pairwise_map.symm

theorem Ascending.tail {e : String × α} (h : Ascending (e :: l)) : Ascending l :=
  (List.pairwise_cons.mp h).2

theorem Ascending.head_lt {e : String × α} (h : Ascending (e :: l)) :
    ∀ e' ∈ l, e.1 < e'.1 :=
  (List.pairwise_cons.mp h).1

/-- A function of the values leaves the names in order. -/
theorem Ascending.map (f : α → β) (h : Ascending l) :
    Ascending (l.map fun e => (e.1, f e.2)) :=
  List.Pairwise.map _ (fun _ _ hlt => hlt) h

theorem get?_map (f : α → β) (name : String) (l : List (String × α)) :
    get? name (l.map fun e => (e.1, f e.2)) = (get? name l).map f := by
  induction l with
  | nil => simp [get?]
  | cons e rest ih =>
    by_cases hname : e.1 = name
    · simp [get?, hname]
    · simp [get?, hname, ih]

/-! ### Lookups and members -/

theorem mem_of_get? (h : get? name l = some value) : (name, value) ∈ l := by
  induction l with
  | nil => simp [get?] at h
  | cons e rest ih =>
    simp only [get?] at h
    split at h
    · next hname =>
      obtain rfl := Option.some.inj h
      simp [← hname]
    · exact List.mem_cons_of_mem _ (ih h)

theorem get?_of_mem (hasc : Ascending l) (h : (name, value) ∈ l) :
    get? name l = some value := by
  induction l with
  | nil => simp at h
  | cons e rest ih =>
    rcases List.mem_cons.mp h with rfl | h
    · simp [get?]
    · have hne : e.1 ≠ name := Std.ne_of_lt (hasc.head_lt _ h)
      simp [get?, hne, ih hasc.tail h]

theorem get?_eq_some (hasc : Ascending l) :
    get? name l = some value ↔ (name, value) ∈ l :=
  ⟨mem_of_get?, get?_of_mem hasc⟩

/-- The names of ascending fields are distinct, so each field is there once. -/
theorem Ascending.nodup (h : Ascending l) : l.Nodup := by
  refine List.Pairwise.imp ?_ h
  rintro e e' hlt rfl
  exact String.lt_irrefl _ hlt

/-- Ascending fields with the same lookups are the same. -/
theorem ext_get? (hl : Ascending l) (hl' : Ascending l')
    (h : ∀ name, get? name l = get? name l') : l = l' := by
  have hmem : ∀ e, e ∈ l ↔ e ∈ l' := by
    intro e
    rw [← get?_eq_some hl, ← get?_eq_some hl', h]
  have hperm : l.Perm l' := (List.perm_ext_iff_of_nodup hl.nodup hl'.nodup).mpr hmem
  exact hperm.eq_of_pairwise (fun _ _ _ _ hab hba => absurd hab (String.lt_asymm hba)) hl hl'

theorem get?_filter (hasc : Ascending l) (keep : String × α → Bool) :
    get? name (l.filter keep) = (get? name l).filter fun v => keep (name, v) := by
  have hfilter : Ascending (l.filter keep) := List.Pairwise.filter _ hasc
  apply Option.ext
  intro v
  rw [get?_eq_some hfilter, List.mem_filter, Option.filter_eq_some_iff, get?_eq_some hasc]

/-! ### The first and the last -/

/-- A field whose name none is less than stands in front. -/
theorem eq_cons_of_forall_le (hasc : Ascending l) (hmem : (name, value) ∈ l)
    (hleast : ∀ e ∈ l, name ≤ e.1) : ∃ rest, l = (name, value) :: rest := by
  cases l with
  | nil => simp at hmem
  | cons e rest =>
    rcases List.mem_cons.mp hmem with rfl | hmem
    · exact ⟨rest, rfl⟩
    · have hle : name ≤ e.1 := hleast e List.mem_cons_self
      exact absurd (hasc.head_lt _ hmem) (String.not_lt.mpr hle)

/-- A field whose name none is greater than stands at the end. -/
theorem eq_append_of_forall_le (hasc : Ascending l) (hmem : (name, value) ∈ l)
    (hgreatest : ∀ e ∈ l, e.1 ≤ name) : ∃ front, l = front ++ [(name, value)] := by
  induction l with
  | nil => simp at hmem
  | cons e rest ih =>
    rcases List.mem_cons.mp hmem with rfl | hmem
    · cases rest with
      | nil => exact ⟨[], rfl⟩
      | cons next rest =>
        have hle : next.1 ≤ name := hgreatest next (by simp)
        exact absurd (hasc.head_lt next List.mem_cons_self) (String.not_lt.mpr hle)
    · obtain ⟨front, hfront⟩ := ih hasc.tail hmem fun e' he' =>
        hgreatest e' (List.mem_cons_of_mem _ he')
      exact ⟨e :: front, by rw [hfront]; rfl⟩

/-! ### Putting fields in one after the other -/

/-- A name greater than all the others goes to the end. -/
theorem insert_of_forall_lt (h : ∀ e ∈ l, e.1 < name) :
    insert name value l = l ++ [(name, value)] := by
  induction l with
  | nil => rfl
  | cons e rest ih =>
    have hlt : e.1 < name := h e List.mem_cons_self
    have hrest : insert name value rest = rest ++ [(name, value)] :=
      ih fun e' he' => h e' (List.mem_cons_of_mem _ he')
    have hne : name ≠ e.1 := (Std.ne_of_lt hlt).symm
    simp [insert, String.lt_asymm hlt, hne, hrest]

theorem foldl_insert (h : Ascending (l ++ l')) :
    l'.foldl (fun m e => insert e.1 e.2 m) l = l ++ l' := by
  induction l' generalizing l with
  | nil => simp
  | cons e rest ih =>
    have hlt : ∀ e' ∈ l, e'.1 < e.1 := fun e' he' =>
      (List.pairwise_append.mp h).2.2 e' he' e List.mem_cons_self
    have happend : l ++ e :: rest = (l ++ [e]) ++ rest := by simp
    simp only [List.foldl_cons, insert_of_forall_lt hlt]
    rw [happend] at h ⊢
    exact ih h

/-! ### The last value -/

/-- The last value under a name. -/
def last? (name : String) (l : List (String × α)) : Option α :=
  ((l.filter fun e => e.1 == name).getLast?).map Prod.snd

@[simp] theorem last?_nil (name : String) : last? name ([] : List (String × α)) = none := rfl

theorem last?_concat (name : String) (l : List (String × α)) (e : String × α) :
    last? name (l ++ [e]) = if e.1 = name then some e.2 else last? name l := by
  unfold last?
  by_cases hname : e.1 = name
  · simp [List.filter_append, hname]
  · simp [List.filter_append, hname]

theorem mem_of_last? (h : last? name l = some value) : (name, value) ∈ l := by
  obtain ⟨e, he, rfl⟩ := Option.map_eq_some_iff.mp h
  obtain ⟨hmem, hname⟩ := List.mem_filter.mp (List.mem_of_getLast? he)
  obtain rfl : e.1 = name := by simpa using hname
  exact hmem

theorem last?_cons (name : String) (e : String × α) (l : List (String × α)) :
    last? name (e :: l) = (last? name l).or (if e.1 = name then some e.2 else none) := by
  unfold last?
  by_cases hname : e.1 = name
  · cases hlast : (l.filter fun e => e.1 == name).getLast? <;>
      simp [hname, hlast, List.getLast?_cons]
  · simp [hname]

theorem last?_map (f : α → β) (name : String) (l : List (String × α)) :
    last? name (l.map fun e => (e.1, f e.2)) = (last? name l).map f := by
  induction l with
  | nil => rfl
  | cons e l ih =>
    rw [List.map_cons, last?_cons, last?_cons, ih]
    by_cases hname : e.1 = name <;> cases last? name l <;> simp [hname]

/-- Only the entries under a name matter to the last value under it. -/
theorem last?_filter {keep : String × α → Bool} (h : ∀ e ∈ l, e.1 = name → keep e = true) :
    last? name (l.filter keep) = last? name l := by
  unfold last?
  rw [List.filter_filter]
  have hsame : (l.filter fun e => (e.1 == name) && keep e) = l.filter fun e => e.1 == name := by
    apply List.filter_congr
    intro e he
    by_cases hname : e.1 = name
    · simp [hname, h e he hname]
    · simp [hname]
  rw [hsame]

/-- Of values put in one after the other the last one under a name is found. -/
theorem get?_foldl_insert (name : String) (seen l : List (String × α)) :
    get? name (l.foldl (fun m e => insert e.1 e.2 m) seen) = (last? name l).or (get? name seen) := by
  induction l using List.reverseRecOn with
  | nil => simp
  | append_singleton l e ih =>
    rw [List.foldl_append, List.foldl_cons, List.foldl_nil, get?_insert, ih, last?_concat]
    by_cases hname : e.1 = name <;> simp [hname]

end Fields

namespace FieldMap

variable {m n : FieldMap}

/-- Maps with the same lookups are the same. -/
theorem ext_get? (h : ∀ name, m.get? name = n.get? name) : m = n :=
  FieldMap.ext (Fields.ext_get? m.ascending n.ascending h)

theorem get?_eq_some {name value : String} :
    m.get? name = some value ↔ (name, value) ∈ m.toList :=
  Fields.get?_eq_some m.ascending

theorem get?_filter (m : FieldMap) (keep : String → String → Bool) (name : String) :
    (m.filter keep).get? name = (m.get? name).filter (keep name) :=
  Fields.get?_filter m.ascending _

theorem mem_ofList {l : List (String × String)} {e : String × String}
    (h : e ∈ (ofList l).toList) : e ∈ l := by
  have hfold : ∀ (m : FieldMap) (l : List (String × String)),
      e ∈ (l.foldl (fun m e => m.insert e.1 e.2) m).toList → e ∈ m.toList ∨ e ∈ l := by
    intro m l
    induction l generalizing m with
    | nil => exact Or.inl
    | cons a rest ih =>
      intro he
      rcases ih _ he with he | he
      · exact (Fields.mem_insert he).symm.imp_right fun ha => List.mem_cons.mpr (Or.inl ha)
      · exact Or.inr (List.mem_cons_of_mem _ he)
  rcases hfold empty l h with hempty | hmem
  · simp [empty] at hempty
  · exact hmem

/-- Under distinct names a map holds the fields that were put in. -/
theorem get?_ofList {l : List (String × String)} (h : (l.map Prod.fst).Nodup)
    {name value : String} : (ofList l).get? name = some value ↔ (name, value) ∈ l := by
  have hfold : ∀ (m : FieldMap) (l : List (String × String)), (l.map Prod.fst).Nodup →
      ((l.foldl (fun m e => m.insert e.1 e.2) m).get? name = some value ↔
        (name, value) ∈ l ∨ name ∉ l.map Prod.fst ∧ m.get? name = some value) := by
    intro m l
    induction l generalizing m with
    | nil => simp
    | cons e rest ih =>
      intro hnames
      obtain ⟨hnew, hrest⟩ := List.nodup_cons.mp hnames
      rw [List.foldl_cons, ih _ hrest, get?_insert]
      by_cases hname : e.1 = name
      · -- the field that is put in is there for good, since no later one has its name
        subst hname
        have hnone : (e.1, value) ∉ rest := fun hmem =>
          hnew (List.mem_map.mpr ⟨_, hmem, rfl⟩)
        rw [if_pos rfl, List.mem_cons, or_iff_right hnone]
        constructor
        · rintro ⟨-, hvalue⟩
          exact Or.inl (Or.inl (Prod.ext rfl (Option.some.inj hvalue).symm))
        · rintro ((heq | hmem) | ⟨hno, -⟩)
          · exact ⟨hnew, congrArg some (Prod.mk.inj heq).2.symm⟩
          · exact absurd hmem hnone
          · exact absurd List.mem_cons_self hno
      · have hne : (name, value) ≠ e := fun heq => hname (heq ▸ rfl)
        rw [if_neg hname, List.mem_cons, or_iff_right hne, List.map_cons, List.mem_cons,
          not_or, and_assoc]
        simp [Ne.symm hname]
  unfold ofList
  rw [hfold empty l h]
  simp

/-- A map of texts put in one after the other has the last one of each name. -/
theorem get?_ofList_eq_last? (name : String) (l : List (String × String)) :
    (ofList l).get? name = Fields.last? name l := by
  have hfold : (ofList l).toList =
      l.foldl (fun r e => Fields.insert e.1 e.2 r) FieldMap.empty.toList :=
    (List.foldl_hom FieldMap.toList fun _ _ => rfl).symm
  unfold get?
  rw [hfold, Fields.get?_foldl_insert]
  simp [empty, Fields.get?]

/-- Under distinct names the order in which fields are put in does not matter. -/
theorem ofList_perm {l l' : List (String × String)} (h : l.Perm l')
    (hnames : (l.map Prod.fst).Nodup) : ofList l = ofList l' := by
  have hnames' : (l'.map Prod.fst).Nodup := (h.map Prod.fst).nodup_iff.mp hnames
  apply ext_get?
  intro name
  apply Option.ext
  intro value
  rw [get?_ofList hnames, get?_ofList hnames', h.mem_iff]

/-- Ascending fields are the map they make. -/
theorem toList_ofList {l : List (String × String)} (h : Fields.Ascending l) :
    (ofList l).toList = l := by
  have hfold : l.foldl (fun r e => Fields.insert e.1 e.2 r) FieldMap.empty.toList =
      (ofList l).toList :=
    List.foldl_hom FieldMap.toList fun _ _ => rfl
  rw [← hfold]
  exact Fields.foldl_insert h

end FieldMap

end TopUp.Data
