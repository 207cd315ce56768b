import TopUp.Json.Shape
import TopUp.Proofs.Json.Reading

/-! # Readers of known shapes

    What the readers of scalars, of objects of texts and of records take the texts of a
    value for. A record is read member by member into a draft (`Fills`): a member that is
    known puts its value there, and one that is not is skipped, whatever its value.

    The members may come in any order if the draft does not depend on it. That is so when
    each draft is known by the names that were put into it (`Reader.Drafted`), and then it
    is enough to look at each known member alone (`Reader.fills_of_puts`).
-/

namespace TopUp.Json

open TopUp.Data

namespace Reader

variable {α β σ : Type} {r : Reader α} {a : α} {first : Bool} {v : Raw} {s : String}
  {ws lead t cs rest : List Char}

/-! ### Scalars -/

theorem reads_map {r : Reader α} (f : α → β) (h : Reads r v a) : Reads (f <$> r) v (f a) :=
  fun ws t rest hws ht hrest => map_run f (h ws t rest hws ht hrest)

theorem reads_text (s : String) : Reads text (.string s) s := by
  intro ws t rest hws ht _
  cases ht with
  | string hs =>
    unfold text
    refine bind_run_eq_ok.mpr ⟨_, _, peek_blank hws (by decide) _, ?_⟩
    exact bind_run_eq_ok.mpr ⟨_, _, drop_run _, stringRest_spells hs⟩

theorem reads_textAs {f : String → Option α} (h : f s = some a) :
    Reads (textAs f) (.string s) a := by
  intro ws t rest hws ht hrest
  unfold textAs
  refine bind_run_eq_ok.mpr ⟨_, _, reads_text s ws t rest hws ht hrest, ?_⟩
  simp only [h]
  rfl

theorem reads_oneOf {f : String → Option α} (h : f s = some a) :
    Reads (oneOf f) (.string s) a := by
  intro ws t rest hws ht hrest
  have htext := reads_textAs h [] t rest blank_nil ht hrest
  unfold oneOf
  cases ht with
  | string hs => exact bind_run_eq_ok.mpr ⟨_, _, peek_blank hws (by decide) _, htext⟩

theorem reads_int64 {l : Literal} {i : Int64} (hscan : Literal.scan t = some (l, []))
    (hvalue : l.value? = some (.integer i.toInt)) : Reads int64 (.number t) i := by
  intro ws t rest hws ht hrest
  cases ht
  obtain ⟨c, t', rfl, hc⟩ := Literal.startsNumber_of_scan hscan
  have hrange : Int64.minValue.toInt ≤ i.toInt ∧ i.toInt ≤ Int64.maxValue.toInt :=
    ⟨i.minValue_le_toInt, i.toInt_le⟩
  unfold int64
  refine bind_run_eq_ok.mpr ⟨_, _, peek_blank hws (isSpace_of_startsNumber hc) _, ?_⟩
  simp only [hc, if_true]
  refine bind_run_eq_ok.mpr ⟨_, _, number_run hscan hvalue hrest, ?_⟩
  simp only [hrange, and_self, if_true, Int64.ofInt_toInt]
  rfl

/-- Only null begins like null. -/
theorem head_ne_n (ht : Writes v t) (hv : v ≠ .null) :
    ∃ c t', t = c :: t' ∧ isSpace c = false ∧ c ≠ 'n' := by
  cases ht with
  | null => exact absurd rfl hv
  | number hscan =>
    obtain ⟨c, t', rfl, hc⟩ := Literal.startsNumber_of_scan hscan
    exact ⟨c, t', rfl, isSpace_of_startsNumber hc, ne_of_startsNumber hc (by decide)⟩
  | _ => exact ⟨_, _, rfl, by decide, by decide⟩

theorem reads_optional_null (r : Reader α) : Reads (optional r) .null none := by
  intro ws t rest hws ht _
  cases ht
  unfold optional
  refine bind_run_eq_ok.mpr ⟨_, _, peek_blank hws (by decide) _, ?_⟩
  exact bind_run_eq_ok.mpr ⟨_, _, exactly_run ['n', 'u', 'l', 'l'] rest, rfl⟩

theorem reads_optional_some (h : Reads r v a) (hv : v ≠ .null) :
    Reads (optional r) v (some a) := by
  intro ws t rest hws ht hrest
  have hread := map_run some (h [] t rest blank_nil ht hrest)
  obtain ⟨c, t', rfl, hspace, hn⟩ := head_ne_n ht hv
  unfold optional
  refine bind_run_eq_ok.mpr ⟨_, _, peek_blank hws hspace _, ?_⟩
  rw [if_neg (by simpa using hn)]
  exact hread

/-! ### Objects of texts -/

theorem fieldsRest_run {fuel : Nat} {texts : List (String × String)} (m : FieldMap)
    (ht : WritesMembers first (texts.map fun e => (e.1, .string e.2)) t) (hlen : t.length ≤ fuel) :
    fieldsRest fuel first m (t ++ rest) =
      .ok (texts.foldl (fun m e => m.insert e.1 e.2) m, rest) := by
  induction texts generalizing fuel first m t with
  | nil =>
    obtain ⟨fuel, rfl⟩ : ∃ n, fuel = n + 1 := ⟨fuel - 1, by have := ht.length_pos; omega⟩
    unfold fieldsRest
    cases ht with
    | close hws =>
      rw [List.append_assoc]
      refine bind_run_eq_ok.mpr ⟨_, _, moreMembers_close hws _ _, ?_⟩
      exact bind_run_eq_ok.mpr ⟨_, _, drop_run _, rfl⟩
  | cons e texts ih =>
    obtain ⟨fuel, rfl⟩ : ∃ n, fuel = n + 1 := ⟨fuel - 1, by have := ht.length_pos; omega⟩
    unfold fieldsRest
    cases ht with
    | @cons _ name v ms lead n ws ws' t u hlead hname hws hws' hv hms =>
      simp only [List.append_assoc, List.cons_append]
      simp only [List.length_append, List.length_cons] at hlen
      refine bind_run_eq_ok.mpr ⟨_, _, moreMembers_lead hlead _, ?_⟩
      refine bind_run_eq_ok.mpr ⟨_, _, stringRest_spells hname, ?_⟩
      refine bind_run_eq_ok.mpr ⟨_, _, colon_blank hws _, ?_⟩
      have hpos := hv.length_pos
      refine bind_run_eq_ok.mpr ⟨_, _, reads_text e.2 _ _ _ hws' hv hms.delimited, ?_⟩
      exact ih _ hms (by omega)

theorem reads_fields (texts : List (String × String)) :
    Reads fields (.object (texts.map fun e => (e.1, .string e.2))) (.ofList texts) := by
  intro ws t rest hws ht _
  cases ht with
  | @object ms t hms =>
    unfold fields
    refine bind_run_eq_ok.mpr ⟨_, _, peek_blank hws (by decide) _, ?_⟩
    refine bind_run_eq_ok.mpr ⟨_, _, drop_run _, ?_⟩
    refine fieldsRest_run .empty hms ?_
    show t.length ≤ (t ++ rest).length + 1
    rw [List.length_append]
    omega

/-! ### Records -/

/-- What the members of an object make of a draft, one after the other. -/
inductive Fills (known : List (Member σ)) : List (String × Raw) → σ → σ → Prop where
  /-- There are no more members. -/
  | done {d : σ} : Fills known [] d d
  /-- A known member that the draft does not have yet is put there. -/
  | put {name : String} {v : Raw} {ms : List (String × Raw)} {d d' : σ} {m : Member σ}
      {put : σ → σ} (hm : (known.find? fun m => m.name = name) = some m)
      (hread : Reads m.read v put) (hnew : m.given d = false)
      (h : Fills known ms (put d) d') : Fills known ((name, v) :: ms) d d'
  /-- A member that is not known is skipped. -/
  | skip {name : String} {v : Raw} {ms : List (String × Raw)} {d d' : σ}
      (hm : (known.find? fun m => m.name = name) = none)
      (h : Fills known ms d d') : Fills known ((name, v) :: ms) d d'

variable {known : List (Member σ)} {ms : List (String × Raw)} {blank d d' : σ}
  {finish : σ → Option α}

theorem membersRest_run {fuel : Nat} (h : Fills known ms d d') (ht : WritesMembers first ms t)
    (hlen : t.length ≤ fuel) :
    membersRest known fuel first d (t ++ rest) = .ok (d', '\x7d' :: rest) := by
  induction h generalizing fuel first t with
  | done =>
    obtain ⟨fuel, rfl⟩ : ∃ n, fuel = n + 1 := ⟨fuel - 1, by have := ht.length_pos; omega⟩
    unfold membersRest
    cases ht with
    | close hws =>
      rw [List.append_assoc]
      exact bind_run_eq_ok.mpr ⟨_, _, moreMembers_close hws _ _, rfl⟩
  | put hm hread hnew _ ih =>
    obtain ⟨fuel, rfl⟩ : ∃ n, fuel = n + 1 := ⟨fuel - 1, by have := ht.length_pos; omega⟩
    unfold membersRest
    cases ht with
    | @cons _ name v ms lead n ws ws' t u hlead hname hws hws' hv hms =>
      simp only [List.append_assoc, List.cons_append]
      simp only [List.length_append, List.length_cons] at hlen
      refine bind_run_eq_ok.mpr ⟨_, _, moreMembers_lead hlead _, ?_⟩
      refine bind_run_eq_ok.mpr ⟨_, _, stringRest_spells hname, ?_⟩
      simp only [hm, hnew, Bool.false_eq_true, if_false]
      refine bind_run_eq_ok.mpr ⟨_, _, colon_blank hws _, ?_⟩
      refine bind_run_eq_ok.mpr ⟨_, _, hread _ _ _ hws' hv hms.delimited, ?_⟩
      exact ih hms (by omega)
  | skip hm _ ih =>
    obtain ⟨fuel, rfl⟩ : ∃ n, fuel = n + 1 := ⟨fuel - 1, by have := ht.length_pos; omega⟩
    unfold membersRest
    cases ht with
    | @cons _ name v ms lead n ws ws' t u hlead hname hws hws' hv hms =>
      simp only [List.append_assoc, List.cons_append]
      simp only [List.length_append, List.length_cons] at hlen
      refine bind_run_eq_ok.mpr ⟨_, _, moreMembers_lead hlead _, ?_⟩
      refine bind_run_eq_ok.mpr ⟨_, _, stringRest_spells hname, ?_⟩
      simp only [hm]
      refine bind_run_eq_ok.mpr ⟨_, _, colon_blank hws _, ?_⟩
      refine bind_run_eq_ok.mpr ⟨_, _, reads_skipValue _ _ _ _ hws' hv hms.delimited, ?_⟩
      exact ih hms (by omega)

/-- An object is read as the record that its members make. -/
theorem reads_record (h : Fills known ms blank d) (hfinish : finish d = some a) :
    Reads (record known blank finish) (.object ms) a := by
  intro ws t rest hws ht _
  cases ht with
  | @object ms t hms =>
    unfold record
    refine bind_run_eq_ok.mpr ⟨_, _, peek_blank hws (by decide) _, ?_⟩
    refine bind_run_eq_ok.mpr ⟨_, _, drop_run _, ?_⟩
    refine bind_run_eq_ok.mpr ⟨d, '\x7d' :: rest, membersRest_run h hms ?_, ?_⟩
    · show t.length ≤ (t ++ rest).length + 1
      rw [List.length_append]
      omega
    · simp only [hfinish]
      exact bind_run_eq_ok.mpr ⟨_, _, drop_run _, rfl⟩

/-! ### Members in any order -/

/-- Whether a record has a member of this name. -/
def isKnown (known : List (Member σ)) (name : String) : Bool :=
  (known.find? fun m => m.name = name).isSome

/-- A draft for each list of names that were put into it. -/
structure Drafted (known : List (Member σ)) (draft : List String → σ) : Prop where
  /-- A draft has the members that were put there. -/
  given : ∀ m ∈ known, ∀ seen, m.given (draft seen) = decide (m.name ∈ seen)
  /-- Names that are not known do not matter. -/
  skip : ∀ name ∉ known.map Member.name, ∀ seen, draft (name :: seen) = draft seen

/-- Each value goes to its place in the drafts. -/
def Puts (known : List (Member σ)) (draft : List String → σ) (ms : List (String × Raw)) : Prop :=
  ∀ m ∈ known, ∀ v, (m.name, v) ∈ ms →
    ∃ put, Reads m.read v put ∧ ∀ seen, put (draft seen) = draft (m.name :: seen)

theorem isKnown_iff {name : String} :
    isKnown known name = true ↔ name ∈ known.map Member.name := by
  simp [isKnown]

theorem of_find?_known {name : String} {m : Member σ}
    (h : (known.find? fun m => m.name = name) = some m) : m ∈ known ∧ m.name = name :=
  ⟨List.mem_of_find?_eq_some h, by simpa using List.find?_some h⟩

/-- Members that are not given twice fill the draft of their names. -/
theorem fills_of_puts {draft : List String → σ} {seen : List String}
    (hdraft : Drafted known draft) (hputs : Puts known draft ms)
    (hnodup : ((ms.filter fun e => isKnown known e.1).map Prod.fst).Nodup)
    (hnew : ∀ e ∈ ms, isKnown known e.1 = true → e.1 ∉ seen) :
    Fills known ms (draft seen) (draft ((ms.map Prod.fst).reverse ++ seen)) := by
  induction ms generalizing seen with
  | nil => exact .done
  | cons e ms ih =>
    obtain ⟨name, v⟩ := e
    have htail : Puts known draft ms := fun m hm v hv => hputs m hm v (List.mem_cons_of_mem _ hv)
    have hseen : (((name, v) :: ms).map Prod.fst).reverse ++ seen =
        (ms.map Prod.fst).reverse ++ name :: seen := by simp
    rw [hseen]
    cases hfind : known.find? fun m => m.name = name with
    | some m =>
      obtain ⟨hm, rfl⟩ := of_find?_known hfind
      have hknown : isKnown known m.name = true := isKnown_iff.mpr (List.mem_map_of_mem hm)
      obtain ⟨put, hread, hput⟩ := hputs m hm v List.mem_cons_self
      rw [List.filter_cons_of_pos (by simpa using hknown), List.map_cons,
        List.nodup_cons] at hnodup
      have hgiven : m.given (draft seen) = false := by
        rw [hdraft.given m hm, decide_eq_false_iff_not]
        exact hnew _ List.mem_cons_self hknown
      refine .put hfind hread hgiven ?_
      rw [hput]
      refine ih htail hnodup.2 fun e he hknown' => ?_
      rw [List.mem_cons, not_or]
      refine ⟨fun hname => hnodup.1 ?_, hnew e (List.mem_cons_of_mem _ he) hknown'⟩
      exact List.mem_map.mpr ⟨e, List.mem_filter.mpr ⟨he, hknown'⟩, hname⟩
    | none =>
      have hknown : isKnown known name = false := by simp [isKnown, hfind]
      have hname : name ∉ known.map Member.name := by
        rw [← isKnown_iff, hknown]
        decide
      rw [List.filter_cons_of_neg (by simp [hknown])] at hnodup
      refine .skip hfind ?_
      rw [← hdraft.skip name hname]
      refine ih htail hnodup fun e he hknown' => ?_
      rw [List.mem_cons, not_or]
      refine ⟨?_, hnew e (List.mem_cons_of_mem _ he) hknown'⟩
      rintro rfl
      rw [hknown] at hknown'
      exact absurd hknown' (by decide)

end Reader

end TopUp.Json
