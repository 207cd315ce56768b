/-! # Finite dictionaries

    A dictionary keeps its entries in the order in which their keys first came. A
    second value for a key takes the place of the first. `find?` is the view of a
    dictionary: each operation is pinned down by what it does to `find?`.
-/

namespace TopUp.Data

/-- Entries under distinct keys, in the order of the first insertion of each key. -/
structure Dict (κ α : Type) where
  /-- The entries, oldest key first. -/
  entries : List (κ × α) := []
  deriving DecidableEq, Repr

namespace Dict

variable {κ α : Type} [DecidableEq κ]

/-- The value of the first entry under `key`. -/
def lookup (key : κ) : List (κ × α) → Option α
  | [] => none
  | (k, a) :: rest => if k = key then some a else lookup key rest

/-- The entries with `value` under `key`, in the old place of `key` if it has one. -/
def replace (key : κ) (value : α) : List (κ × α) → List (κ × α)
  | [] => [(key, value)]
  | (k, a) :: rest => if k = key then (key, value) :: rest else (k, a) :: replace key value rest

/-- The dictionary without entries. -/
def empty : Dict κ α := ⟨[]⟩

/-- The value under `key`. -/
def find? (d : Dict κ α) (key : κ) : Option α := lookup key d.entries

/-- Whether `key` has a value. -/
def contains (d : Dict κ α) (key : κ) : Bool := (d.find? key).isSome

/-- The dictionary with `value` under `key`. -/
def insert (d : Dict κ α) (key : κ) (value : α) : Dict κ α := ⟨replace key value d.entries⟩

/-- The dictionary without `key`. -/
def erase (d : Dict κ α) (key : κ) : Dict κ α := ⟨d.entries.filter fun e => !decide (e.1 = key)⟩

/-- The dictionary with the entries that `keep` accepts. -/
def filter (d : Dict κ α) (keep : κ → α → Bool) : Dict κ α :=
  ⟨d.entries.filter fun e => keep e.1 e.2⟩

/-- The keys, oldest first. -/
def keys (d : Dict κ α) : List κ := d.entries.map Prod.fst

/-- The values, in the order of their keys. -/
def values (d : Dict κ α) : List α := d.entries.map Prod.snd

/-- The number of entries. -/
def size (d : Dict κ α) : Nat := d.entries.length

/-! ### The view -/

omit [DecidableEq κ] in
@[ext] theorem ext {d e : Dict κ α} (h : d.entries = e.entries) : d = e := by
  cases d; cases e; simp_all

@[simp] theorem find?_empty (key : κ) : (empty : Dict κ α).find? key = none := rfl

theorem lookup_replace (key other : κ) (value : α) (l : List (κ × α)) :
    lookup other (replace key value l) = if key = other then some value else lookup other l := by
  induction l with
  | nil => simp [replace, lookup]
  | cons e rest ih =>
    obtain ⟨k, a⟩ := e
    by_cases hk : k = key
    · subst hk
      by_cases ho : k = other <;> simp [replace, lookup, ho]
    · by_cases ho : k = other
      · subst ho
        simp [replace, lookup, hk, Ne.symm hk]
      · simp [replace, lookup, hk, ho, ih]

theorem find?_insert (d : Dict κ α) (key other : κ) (value : α) :
    (d.insert key value).find? other = if key = other then some value else d.find? other :=
  lookup_replace key other value d.entries

@[simp] theorem find?_insert_self (d : Dict κ α) (key : κ) (value : α) :
    (d.insert key value).find? key = some value := by
  simp [find?_insert]

@[simp] theorem find?_insert_ne (d : Dict κ α) {key other : κ} (value : α) (h : key ≠ other) :
    (d.insert key value).find? other = d.find? other := by
  simp [find?_insert, h]

theorem lookup_filter (key other : κ) (l : List (κ × α)) :
    lookup other (l.filter fun e => !decide (e.1 = key)) =
      if key = other then none else lookup other l := by
  induction l with
  | nil => simp [lookup]
  | cons e rest ih =>
    obtain ⟨k, a⟩ := e
    by_cases hk : k = key
    · subst hk
      by_cases ho : k = other
      · subst ho; simpa using ih
      · simpa [lookup, ho] using ih
    · by_cases ho : k = other
      · subst ho; simp [lookup, hk, Ne.symm hk]
      · simp [lookup, hk, ho, ih]

theorem find?_erase (d : Dict κ α) (key other : κ) :
    (d.erase key).find? other = if key = other then none else d.find? other :=
  lookup_filter key other d.entries

@[simp] theorem find?_erase_self (d : Dict κ α) (key : κ) : (d.erase key).find? key = none := by
  simp [find?_erase]

@[simp] theorem find?_erase_ne (d : Dict κ α) {key other : κ} (h : key ≠ other) :
    (d.erase key).find? other = d.find? other := by
  simp [find?_erase, h]

/-! ### Entries -/

theorem lookup_filter_of_keep (keep : κ → α → Bool) {key : κ} {a : α} {l : List (κ × α)}
    (h : lookup key l = some a) (hk : keep key a = true) :
    lookup key (l.filter fun e => keep e.1 e.2) = some a := by
  induction l with
  | nil => simp [lookup] at h
  | cons e rest ih =>
    obtain ⟨k, b⟩ := e
    by_cases hkey : k = key
    · subst hkey
      have hb : b = a := by simpa [lookup] using h
      subst hb
      simp [hk, lookup]
    · have hrest : lookup key rest = some a := by simpa [lookup, hkey] using h
      by_cases hkeep : keep k b = true
      · simp [hkeep, lookup, hkey, ih hrest]
      · simp [hkeep, ih hrest]

/-- A filter keeps the value of a key if it accepts it. -/
theorem find?_filter_of_keep (d : Dict κ α) (keep : κ → α → Bool) {key : κ} {a : α}
    (h : d.find? key = some a) (hk : keep key a = true) :
    (d.filter keep).find? key = some a :=
  lookup_filter_of_keep keep h hk

theorem lookup_filter_of_notMem (keep : κ → α → Bool) {key : κ} {l : List (κ × α)}
    (h : key ∉ l.map Prod.fst) : lookup key (l.filter fun e => keep e.1 e.2) = none := by
  induction l with
  | nil => rfl
  | cons e rest ih =>
    obtain ⟨hne, hrest⟩ : key ≠ e.1 ∧ key ∉ rest.map Prod.fst := by simpa using h
    by_cases hkeep : keep e.1 e.2 = true
    · simp [hkeep, lookup, Ne.symm hne, ih hrest]
    · simp [hkeep, ih hrest]

/-- Under distinct keys a filter is seen key by key. -/
theorem find?_filter {d : Dict κ α} (hd : d.keys.Nodup) (keep : κ → α → Bool) (key : κ) :
    (d.filter keep).find? key = (d.find? key).filter (keep key) := by
  obtain ⟨l⟩ := d
  show lookup key (l.filter fun e => keep e.1 e.2) = (lookup key l).filter (keep key)
  induction l with
  | nil => rfl
  | cons e rest ih =>
    obtain ⟨hnew, hrest⟩ := List.nodup_cons.mp hd
    by_cases hkey : e.1 = key
    · subst hkey
      -- no later entry can come to the fore
      have hnone := lookup_filter_of_notMem keep hnew
      by_cases hkeep : keep e.1 e.2 = true
      · simp [hkeep, lookup, Option.filter]
      · simp [hkeep, lookup, hnone, Option.filter]
    · by_cases hkeep : keep e.1 e.2 = true
      · simp [hkeep, lookup, hkey, ih hrest]
      · simp [hkeep, lookup, hkey, ih hrest]

theorem replace_replace (key : κ) (value value' : α) (l : List (κ × α)) :
    replace key value' (replace key value l) = replace key value' l := by
  induction l with
  | nil => simp [replace]
  | cons e rest ih =>
    obtain ⟨k, a⟩ := e
    by_cases hk : k = key <;> simp [replace, hk, ih]

/-- Of two values put under a key the later one stays. -/
theorem insert_insert (d : Dict κ α) (key : κ) (value value' : α) :
    (d.insert key value).insert key value' = d.insert key value' :=
  Dict.ext (replace_replace key value value' d.entries)

theorem replace_comm {key key' : κ} (h : key ≠ key') (value value' : α) {l : List (κ × α)}
    (hmem : lookup key l ≠ none) :
    replace key' value' (replace key value l) = replace key value (replace key' value' l) := by
  induction l with
  | nil => exact absurd rfl hmem
  | cons e rest ih =>
    obtain ⟨k, a⟩ := e
    by_cases hk : k = key
    · subst hk
      simp [replace, h]
    · have hrest : lookup key rest ≠ none := by simpa [lookup, hk] using hmem
      by_cases hk' : k = key'
      · subst hk'
        simp [replace, hk]
      · simp [replace, hk, hk', ih hrest]

/-- A value under a key that is there already may as well come before a value under
    another key. -/
theorem insert_comm {d : Dict κ α} {key key' : κ} (h : key ≠ key') (value value' : α)
    (hmem : d.find? key ≠ none) :
    (d.insert key value).insert key' value' = (d.insert key' value').insert key value :=
  Dict.ext (replace_comm h value value' hmem)

theorem keys_replace (key : κ) (value : α) (l : List (κ × α)) :
    (replace key value l).map Prod.fst =
      if key ∈ l.map Prod.fst then l.map Prod.fst else l.map Prod.fst ++ [key] := by
  induction l with
  | nil => simp [replace]
  | cons e rest ih =>
    by_cases hkey : e.1 = key
    · simp [replace, hkey]
    · by_cases hmem : key ∈ rest.map Prod.fst <;>
        simp_all [replace, Ne.symm hkey]

theorem nodup_keys_insert {d : Dict κ α} (hd : d.keys.Nodup) (key : κ) (value : α) :
    (d.insert key value).keys.Nodup := by
  unfold keys insert
  rw [keys_replace]
  split
  · exact hd
  · next hnew =>
    refine List.nodup_append.mpr ⟨hd, by simp, ?_⟩
    intro k hk k' hk' heq
    obtain rfl := List.mem_singleton.mp hk'
    exact hnew (heq ▸ hk)

omit [DecidableEq κ] in
theorem nodup_keys_filter {d : Dict κ α} (hd : d.keys.Nodup) (keep : κ → α → Bool) :
    (d.filter keep).keys.Nodup :=
  hd.sublist (List.filter_sublist.map Prod.fst)

theorem mem_of_lookup {key : κ} {a : α} {l : List (κ × α)} (h : lookup key l = some a) :
    (key, a) ∈ l := by
  induction l with
  | nil => simp [lookup] at h
  | cons e rest ih =>
    obtain ⟨k, b⟩ := e
    by_cases hkey : k = key
    · subst hkey
      have hb : b = a := by simpa [lookup] using h
      subst hb
      exact List.mem_cons_self
    · exact List.mem_cons_of_mem _ (ih (by simpa [lookup, hkey] using h))

theorem mem_of_find? {d : Dict κ α} {key : κ} {a : α} (h : d.find? key = some a) :
    (key, a) ∈ d.entries :=
  mem_of_lookup h

/-- Under distinct keys every entry is found. -/
theorem find?_of_mem {d : Dict κ α} {key : κ} {a : α} (hd : d.keys.Nodup)
    (h : (key, a) ∈ d.entries) : d.find? key = some a := by
  obtain ⟨l⟩ := d
  show lookup key l = some a
  induction l with
  | nil => exact absurd h List.not_mem_nil
  | cons e rest ih =>
    obtain ⟨hnew, hrest⟩ := List.nodup_cons.mp hd
    rcases List.mem_cons.mp h with rfl | h
    · simp [lookup]
    · -- the key comes again further down, so it is not the first one
      have hne : e.1 ≠ key := by
        intro heq
        exact hnew (heq ▸ List.mem_map_of_mem (f := Prod.fst) h)
      simpa [lookup, hne] using ih hrest h

theorem mem_replace {key : κ} {value : α} {l : List (κ × α)} {e : κ × α}
    (h : e ∈ replace key value l) : e = (key, value) ∨ e ∈ l := by
  induction l with
  | nil => simpa [replace] using h
  | cons c rest ih =>
    obtain ⟨k, a⟩ := c
    by_cases hkey : k = key
    · rw [replace, if_pos hkey] at h
      exact (List.mem_cons.mp h).imp_right (List.mem_cons_of_mem _)
    · rw [replace, if_neg hkey] at h
      rcases List.mem_cons.mp h with rfl | h
      · exact Or.inr List.mem_cons_self
      · exact (ih h).imp_right (List.mem_cons_of_mem _)

theorem mem_insert {d : Dict κ α} {key : κ} {value : α} {e : κ × α}
    (h : e ∈ (d.insert key value).entries) : e = (key, value) ∨ e ∈ d.entries :=
  mem_replace h

end Dict

end TopUp.Data
