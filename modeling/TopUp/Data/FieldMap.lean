/-! # Field maps

    A gateway message is a set of named fields. The names are distinct and kept in
    ascending order of their code points, which is also the order of their UTF-8
    bytes. `Fields.insert` and `Fields.get?` work on any list of named values;
    `FieldMap` carries the proof that its names ascend, so two maps with the same
    fields are equal.
-/

namespace TopUp.Data

namespace Fields

variable {α : Type}

/-- The entries with `value` under `name`, kept in ascending order. -/
def insert (name : String) (value : α) : List (String × α) → List (String × α)
  | [] => [(name, value)]
  | (k, v) :: rest =>
    if name < k then (name, value) :: (k, v) :: rest
    else if name = k then (name, value) :: rest
    else (k, v) :: insert name value rest

/-- The value under `name`. -/
def get? (name : String) : List (String × α) → Option α
  | [] => none
  | (k, v) :: rest => if k = name then some v else get? name rest

/-- The names ascend. -/
def Ascending (l : List (String × α)) : Prop := l.Pairwise fun a b => a.1 < b.1

theorem mem_insert {name : String} {value : α} {l : List (String × α)} {e : String × α}
    (h : e ∈ insert name value l) : e = (name, value) ∨ e ∈ l := by
  induction l with
  | nil => simpa [insert] using h
  | cons a rest ih =>
    obtain ⟨k, v⟩ := a
    simp only [insert] at h
    split at h
    · simpa using h
    · split at h
      · rcases List.mem_cons.mp h with h | h
        · exact Or.inl h
        · exact Or.inr (List.mem_cons_of_mem _ h)
      · rcases List.mem_cons.mp h with h | h
        · exact Or.inr (h ▸ List.mem_cons_self)
        · exact (ih h).imp_right (List.mem_cons_of_mem _)

/-- Insertion keeps the order. -/
theorem ascending_insert (name : String) (value : α) {l : List (String × α)}
    (h : Ascending l) : Ascending (insert name value l) := by
  induction l with
  | nil => simp [insert, Ascending]
  | cons a rest ih =>
    obtain ⟨k, v⟩ := a
    obtain ⟨hk, hrest⟩ := List.pairwise_cons.mp h
    simp only [insert]
    split
    · next hlt =>
      refine List.pairwise_cons.mpr ⟨?_, h⟩
      intro e he
      rcases List.mem_cons.mp he with rfl | he
      · exact hlt
      · exact String.lt_trans hlt (hk e he)
    · split
      · next heq =>
        subst heq
        exact List.pairwise_cons.mpr ⟨hk, hrest⟩
      · next hnlt hne =>
        refine List.pairwise_cons.mpr ⟨?_, ih hrest⟩
        intro e he
        rcases mem_insert he with rfl | he
        · exact Std.lt_of_le_of_ne (String.not_lt.mp hnlt) (Ne.symm hne)
        · exact hk e he

theorem get?_insert (name other : String) (value : α) (l : List (String × α)) :
    get? other (insert name value l) = if name = other then some value else get? other l := by
  induction l with
  | nil => simp [insert, get?]
  | cons a rest ih =>
    obtain ⟨k, v⟩ := a
    simp only [insert]
    split
    · simp [get?]
    · split
      · next heq =>
        subst heq
        by_cases ho : name = other <;> simp [get?, ho]
      · next hne =>
        by_cases ho : k = other
        · subst ho; simp [get?, hne]
        · simp [get?, ho, ih]

end Fields

/-- Text fields under distinct names, in ascending order of the names. -/
structure FieldMap where
  /-- The fields in order. -/
  toList : List (String × String)
  /-- The names ascend. -/
  ascending : Fields.Ascending toList
  deriving DecidableEq

namespace FieldMap

/-- No fields. -/
def empty : FieldMap := ⟨[], List.Pairwise.nil⟩

/-- The map with `value` under `name`; an older value of `name` gives way. -/
def insert (m : FieldMap) (name value : String) : FieldMap :=
  ⟨Fields.insert name value m.toList, Fields.ascending_insert name value m.ascending⟩

/-- The value under `name`. -/
def get? (m : FieldMap) (name : String) : Option String := Fields.get? name m.toList

/-- The fields of a list, a later one taking the place of an earlier one of its name. -/
def ofList (l : List (String × String)) : FieldMap :=
  l.foldl (fun m e => m.insert e.1 e.2) empty

/-- The fields that `keep` accepts. -/
def filter (m : FieldMap) (keep : String → String → Bool) : FieldMap :=
  ⟨m.toList.filter fun e => keep e.1 e.2, m.ascending.filter _⟩

/-- The values, in the order of their names. -/
def values (m : FieldMap) : List String := m.toList.map Prod.snd

/-- The number of fields. -/
def size (m : FieldMap) : Nat := m.toList.length

@[ext] theorem ext {m n : FieldMap} (h : m.toList = n.toList) : m = n := by
  cases m; cases n; simp_all

@[simp] theorem get?_empty (name : String) : empty.get? name = none := rfl

theorem get?_insert (m : FieldMap) (name other value : String) :
    (m.insert name value).get? other = if name = other then some value else m.get? other :=
  Fields.get?_insert name other value m.toList

end FieldMap

end TopUp.Data
