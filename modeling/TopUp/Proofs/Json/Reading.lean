import TopUp.Proofs.Json.Grammar
import TopUp.Proofs.Json.Objects

/-! # Readers and the grammar

    A reader takes a value for something (`Reads`) if it does so with every text of the
    value, wherever that text stands. This is shown for single steps first: looking over
    blanks, the rest of a string, what separates members and elements. From these follows
    that a value of any nesting can be skipped (`Reader.reads_skipValue`) and that a value
    is read as what its parts are read as (`parse_of_hasText`); both are by induction on
    the count of steps that the reader may take.
-/

namespace TopUp.Json

open TopUp.Data TopUp.Text

/-- The reader takes every text of the value for `a`, whatever stands before and behind. -/
def Reads {α : Type} (r : Reader α) (v : Raw) (a : α) : Prop :=
  ∀ ws t rest : List Char, Blank ws → Writes v t → Delimited rest →
    r (ws ++ (t ++ rest)) = .ok (a, rest)

/-- A whole text of the value is read. -/
theorem Reads.run_eq_ok {α : Type} {r : Reader α} {v : Raw} {a : α} {text : String}
    (h : Reads r v a) (htext : v.HasText text) : Reader.run r text = .ok a := by
  obtain ⟨ws, t, ws', hws, ht, hws', htext⟩ := htext
  have hend : Delimited ws' := by
    have hdelimited := hws'.delimited delimited_nil
    rwa [List.append_nil] at hdelimited
  have hall : ws'.all Reader.isSpace = true := List.all_eq_true.mpr hws'
  simp [Reader.run, htext, h ws t ws' hws ht hend, hall]

namespace Reader

variable {α β : Type} {r : Reader α} {a : α} {c : Char} {first : Bool} {v : Raw} {s : String}
  {ws lead t cs rest read : List Char}

/-! ### Single steps -/

theorem map_run {x : Reader α} (f : α → β) (h : x cs = .ok (a, rest)) :
    (f <$> x) cs = .ok (f a, rest) := by
  show (x cs >>= fun p => pure (f p.1, p.2)) = _
  rw [h]
  rfl

theorem peek_blank (hws : Blank ws) (hc : isSpace c = false) (cs : List Char) :
    peek (ws ++ c :: cs) = .ok (some c, c :: cs) := by
  have hdrop : (ws ++ c :: cs).dropWhile isSpace = c :: cs := by
    rw [List.dropWhile_append_of_pos hws]
    simp [hc]
  simp [peek, hdrop]

theorem drop_run (cs : List Char) : drop cs = .ok ((), cs.tail) := rfl

theorem exactly_run (word rest : List Char) : exactly word (word ++ rest) = .ok ((), rest) := by
  simp [exactly]

theorem literal_run {l : Literal} (h : Literal.scan t = some (l, [])) (hrest : Delimited rest) :
    literal (t ++ rest) = .ok (l, rest) := by
  simp [literal, Literal.scan_append hrest h]

theorem number_run {l : Literal} {n : Number} (h : Literal.scan t = some (l, []))
    (hvalue : l.value? = some n) (hrest : Delimited rest) : number (t ++ rest) = .ok (n, rest) := by
  unfold number
  refine bind_run_eq_ok.mpr ⟨_, _, literal_run h hrest, ?_⟩
  simp only [hvalue]
  rfl

theorem colon_blank (hws : Blank ws) (cs : List Char) : colon (ws ++ ':' :: cs) = .ok ((), cs) := by
  unfold colon
  exact bind_run_eq_ok.mpr ⟨_, _, peek_blank hws (by decide) _, drop_run _⟩

/-! ### Strings -/

/-- The letters that stand for characters do not announce digits. -/
theorem ne_u_of_unescape? {l c : Char} (h : unescape? l = some c) : l ≠ 'u' := by
  rintro rfl
  exact absurd h (by simp [unescape?])

/-- The rest of a string is read up to its closing quote. -/
theorem stringBody_spells (h : Spells cs t) :
    stringBody read (t ++ rest) = .ok (read.reverse ++ cs, rest) := by
  induction h generalizing read with
  | close => simp [stringBody]
  | @plain c cs t hcontrol hquote hbackslash _ ih =>
    rw [List.cons_append, stringBody]
    · have hnot : ¬ (c.toNat < 0x20 ∨ c = '\\') := by simp [hbackslash, hcontrol]
      rw [if_neg hnot, ih]
      simp
    · exact hquote
    all_goals
      intros
      contradiction
  | @letter l c cs t hl _ ih =>
    rw [List.cons_append, List.cons_append, stringBody]
    · simp [hl, ih]
    · intro _ _ _ _ _ hu
      exact absurd hu (ne_u_of_unescape? hl)
  | unit hn hlead htrail _ ih =>
    simp only [List.cons_append]
    rw [stringBody]
    simp [hn, hlead, htrail, ih]
  | @pair d₁ d₂ d₃ d₄ _ _ _ _ n _ _ _ hn hlead hm htrail _ ih =>
    have hnot : isTrail n = false := by
      simp only [isLead, isTrail, Bool.and_eq_true, decide_eq_true_eq, Bool.and_eq_false_iff,
        decide_eq_false_iff_not] at hlead ⊢
      omega
    simp only [List.cons_append]
    rw [stringBody]
    simp [hn, hlead, hnot, hm, htrail, ih]

theorem stringRest_spells (h : Spells s.toList t) : stringRest (t ++ rest) = .ok (s, rest) := by
  rw [stringRest, stringBody_spells h]
  simp [Except.map]

/-- A string is skipped up to its closing quote. -/
theorem skipString_spells (h : Spells cs t) : skipString (t ++ rest) = .ok ((), rest) := by
  induction h with
  | close => simp [skipString]
  | @plain c cs t hcontrol hquote hbackslash _ ih =>
    rw [List.cons_append, skipString]
    · have hnot : ¬ (c.toNat < 0x20 ∨ c = '\\') := by simp [hbackslash, hcontrol]
      rw [if_neg hnot, ih]
    · exact hquote
    all_goals
      intros
      contradiction
  | @letter l c cs t hl _ ih =>
    rw [List.cons_append, List.cons_append, skipString]
    · simp [hl, ih]
    · intro _ _ _ _ _ hu
      exact absurd hu (ne_u_of_unescape? hl)
  | unit hn _ _ _ ih =>
    simp only [List.cons_append]
    rw [skipString]
    simp [hn, ih]
  | pair hn _ hm _ _ ih =>
    simp only [List.cons_append]
    rw [skipString, if_pos (by simp [hn]), skipString, if_pos (by simp [hm]), ih]

/-! ### Separators -/

theorem moreElements_close (hws : Blank ws) (first : Bool) (cs : List Char) :
    moreElements first (ws ++ ']' :: cs) = .ok (false, ']' :: cs) := by
  unfold moreElements
  exact bind_run_eq_ok.mpr ⟨_, _, peek_blank hws (by decide) _, rfl⟩

theorem moreElements_lead (hlead : Lead first lead) (hc : isSpace c = false) (hend : c ≠ ']')
    (cs : List Char) : moreElements first (lead ++ c :: cs) = .ok (true, c :: cs) := by
  unfold moreElements
  cases hlead with
  | first hws =>
    refine bind_run_eq_ok.mpr ⟨_, _, peek_blank hws hc _, ?_⟩
    simp [hend, pure_run_eq_ok]
  | @comma ws ws' hws hws' =>
    rw [List.append_assoc, List.cons_append]
    refine bind_run_eq_ok.mpr ⟨_, _, peek_blank hws (by decide) _, ?_⟩
    refine bind_run_eq_ok.mpr ⟨_, _, drop_run _, ?_⟩
    refine bind_run_eq_ok.mpr ⟨_, _, peek_blank hws' hc _, ?_⟩
    simp [hend, pure_run_eq_ok]

theorem moreMembers_close (hws : Blank ws) (first : Bool) (cs : List Char) :
    moreMembers first (ws ++ '\x7d' :: cs) = .ok (false, '\x7d' :: cs) := by
  unfold moreMembers
  exact bind_run_eq_ok.mpr ⟨_, _, peek_blank hws (by decide) _, rfl⟩

theorem moreMembers_lead (hlead : Lead first lead) (cs : List Char) :
    moreMembers first (lead ++ '"' :: cs) = .ok (true, cs) := by
  unfold moreMembers
  cases hlead with
  | first hws =>
    refine bind_run_eq_ok.mpr ⟨_, _, peek_blank hws (by decide) _, ?_⟩
    refine bind_run_eq_ok.mpr ⟨some '"', _, rfl, ?_⟩
    exact bind_run_eq_ok.mpr ⟨_, _, drop_run _, rfl⟩
  | @comma ws ws' hws hws' =>
    rw [List.append_assoc, List.cons_append]
    refine bind_run_eq_ok.mpr ⟨_, _, peek_blank hws (by decide) _, ?_⟩
    refine bind_run_eq_ok.mpr ⟨_, _, drop_run _, ?_⟩
    refine bind_run_eq_ok.mpr ⟨_, _, peek_blank hws' (by decide) _, ?_⟩
    exact bind_run_eq_ok.mpr ⟨_, _, drop_run _, rfl⟩

/-! ### Skipping -/

/-- What so many steps are enough to skip. -/
structure Skips (fuel : Nat) : Prop where
  value : ∀ {v ws t rest}, Blank ws → Writes v t → Delimited rest → t.length ≤ fuel →
    skip fuel (ws ++ (t ++ rest)) = .ok ((), rest)
  elements : ∀ {first vs t rest}, WritesElements first vs t → t.length ≤ fuel →
    skipElements fuel first (t ++ rest) = .ok ((), rest)
  members : ∀ {first ms t rest}, WritesMembers first ms t → t.length ≤ fuel →
    skipMembers fuel first (t ++ rest) = .ok ((), rest)

theorem skips_zero : Skips 0 where
  value _ ht _ hlen := absurd ht.length_pos (by omega)
  elements ht hlen := absurd ht.length_pos (by omega)
  members ht hlen := absurd ht.length_pos (by omega)

theorem Skips.value_succ {fuel : Nat} (h : Skips fuel) (hws : Blank ws) (ht : Writes v t)
    (hrest : Delimited rest) (hlen : t.length ≤ fuel + 1) :
    skip (fuel + 1) (ws ++ (t ++ rest)) = .ok ((), rest) := by
  unfold skip
  cases ht with
  | null =>
    refine bind_run_eq_ok.mpr ⟨_, _, peek_blank hws (by decide) _, ?_⟩
    exact exactly_run ['n', 'u', 'l', 'l'] rest
  | yes =>
    refine bind_run_eq_ok.mpr ⟨_, _, peek_blank hws (by decide) _, ?_⟩
    exact exactly_run ['t', 'r', 'u', 'e'] rest
  | no =>
    refine bind_run_eq_ok.mpr ⟨_, _, peek_blank hws (by decide) _, ?_⟩
    exact exactly_run ['f', 'a', 'l', 's', 'e'] rest
  | number hscan =>
    obtain ⟨c, t', rfl, hc⟩ := Literal.startsNumber_of_scan hscan
    have hquote : c ≠ '"' := ne_of_startsNumber hc (by decide)
    refine bind_run_eq_ok.mpr ⟨_, _, peek_blank hws (isSpace_of_startsNumber hc) _, ?_⟩
    simp only [hquote, hc, if_false, if_true]
    exact map_run _ (literal_run hscan hrest)
  | string hs =>
    refine bind_run_eq_ok.mpr ⟨_, _, peek_blank hws (by decide) _, ?_⟩
    exact bind_run_eq_ok.mpr ⟨_, _, drop_run _, skipString_spells hs⟩
  | array hvs =>
    refine bind_run_eq_ok.mpr ⟨_, _, peek_blank hws (by decide) _, ?_⟩
    exact bind_run_eq_ok.mpr ⟨_, _, drop_run _, h.elements hvs (by simpa using hlen)⟩
  | object hms =>
    refine bind_run_eq_ok.mpr ⟨_, _, peek_blank hws (by decide) _, ?_⟩
    exact bind_run_eq_ok.mpr ⟨_, _, drop_run _, h.members hms (by simpa using hlen)⟩

theorem Skips.elements_succ {fuel : Nat} (h : Skips fuel) {vs : List Raw}
    (ht : WritesElements first vs t) (hlen : t.length ≤ fuel + 1) :
    skipElements (fuel + 1) first (t ++ rest) = .ok ((), rest) := by
  unfold skipElements
  cases ht with
  | close hws =>
    rw [List.append_assoc]
    exact bind_run_eq_ok.mpr ⟨_, _, moreElements_close hws _ _, drop_run _⟩
  | @cons _ v vs lead t u hlead hv hvs =>
    have hpos := hv.length_pos
    have hpos' := hvs.length_pos
    obtain ⟨c, t', rfl, hspace, hend⟩ := hv.head
    simp only [List.append_assoc, List.cons_append]
    refine bind_run_eq_ok.mpr ⟨_, _, moreElements_lead hlead hspace hend _, ?_⟩
    simp only [List.length_append] at hlen hpos
    refine bind_run_eq_ok.mpr ⟨_, _, h.value blank_nil hv hvs.delimited (by omega), ?_⟩
    exact h.elements hvs (by omega)

theorem Skips.members_succ {fuel : Nat} (h : Skips fuel) {ms : List (String × Raw)}
    (ht : WritesMembers first ms t) (hlen : t.length ≤ fuel + 1) :
    skipMembers (fuel + 1) first (t ++ rest) = .ok ((), rest) := by
  unfold skipMembers
  cases ht with
  | close hws =>
    rw [List.append_assoc]
    exact bind_run_eq_ok.mpr ⟨_, _, moreMembers_close hws _ _, drop_run _⟩
  | @cons _ name v ms lead n ws ws' t u hlead hname hws hws' hv hms =>
    have hpos := hv.length_pos
    have hpos' := hms.length_pos
    simp only [List.append_assoc, List.cons_append]
    simp only [List.length_append, List.length_cons] at hlen
    refine bind_run_eq_ok.mpr ⟨_, _, moreMembers_lead hlead _, ?_⟩
    refine bind_run_eq_ok.mpr ⟨_, _, skipString_spells hname, ?_⟩
    refine bind_run_eq_ok.mpr ⟨_, _, colon_blank hws _, ?_⟩
    refine bind_run_eq_ok.mpr ⟨_, _, h.value hws' hv hms.delimited (by omega), ?_⟩
    exact h.members hms (by omega)

theorem skips (fuel : Nat) : Skips fuel := by
  induction fuel with
  | zero => exact skips_zero
  | succ fuel ih =>
    exact ⟨fun hws ht hrest hlen => ih.value_succ hws ht hrest hlen,
      fun ht hlen => ih.elements_succ ht hlen, fun ht hlen => ih.members_succ ht hlen⟩

/-- A value of any nesting can be skipped. -/
theorem reads_skipValue (v : Raw) : Reads skipValue v () := by
  intro ws t rest hws ht hrest
  refine (skips _).value hws ht hrest ?_
  simp only [List.length_append]
  omega

end Reader

/-! ### Keeping -/

/-- The members of an object with the last one of each name, in their order. -/
def insertAll (seen members : List (String × Json)) : List (String × Json) :=
  members.foldl (fun seen e => Fields.insert e.1 e.2 seen) seen

mutual

/-- What a value is read as, if it has at most so many levels and no number that is too
    large. -/
def Raw.json? : Nat → Raw → Option Json
  | _, .null => some .null
  | _, .bool b => some (.bool b)
  | _, .number t =>
    match Literal.scan t with
    | some (l, []) => l.value?.map .number
    | _ => none
  | _, .string s => some (.string s)
  | 0, .array _ => none
  | levels + 1, .array vs => (elementsJson? levels vs).map .array
  | 0, .object _ => none
  | levels + 1, .object ms => (membersJson? levels ms).map fun js => .object (insertAll [] js)

/-- What the elements of an array are read as. -/
def elementsJson? : Nat → List Raw → Option (List Json)
  | _, [] => some []
  | levels, v :: vs => (v.json? levels).bind fun j => (elementsJson? levels vs).map (j :: ·)

/-- What the members of an object are read as. -/
def membersJson? : Nat → List (String × Raw) → Option (List (String × Json))
  | _, [] => some []
  | levels, (name, v) :: ms =>
    (v.json? levels).bind fun j => (membersJson? levels ms).map ((name, j) :: ·)

end

/-- A number is read as the value of its literal. -/
theorem json?_number {t : List Char} {j : Json} {levels : Nat}
    (h : (Raw.number t).json? levels = some j) :
    ∃ l n, Literal.scan t = some (l, []) ∧ l.value? = some n ∧ j = .number n := by
  unfold Raw.json? at h
  split at h
  · next l hscan =>
    obtain ⟨n, hvalue, rfl⟩ := Option.map_eq_some_iff.mp h
    exact ⟨l, n, hscan, hvalue, rfl⟩
  · exact absurd h (by simp)

theorem exists_json?_of_mem {levels : Nat} {ms : List (String × Raw)} {js : List (String × Json)}
    (h : membersJson? levels ms = some js) {e : String × Raw} (he : e ∈ ms) :
    ∃ j, e.2.json? levels = some j := by
  induction ms generalizing js with
  | nil => exact absurd he List.not_mem_nil
  | cons e' ms ih =>
    simp only [membersJson?, Option.bind_eq_some_iff, Option.map_eq_some_iff] at h
    obtain ⟨j, hj, js, hjs, -⟩ := h
    rcases List.mem_cons.mp he with rfl | he
    · exact ⟨j, hj⟩
    · exact ih hjs he

/-- The last member of a name is read as what its value is read as. -/
theorem last?_membersJson? {levels : Nat} {ms : List (String × Raw)} {js : List (String × Json)}
    (h : membersJson? levels ms = some js) (name : String) :
    Fields.last? name js = (Fields.last? name ms).bind (Raw.json? levels) := by
  induction ms generalizing js with
  | nil =>
    obtain rfl := Option.some.inj h
    rfl
  | cons e ms ih =>
    obtain ⟨name', v⟩ := e
    simp only [membersJson?, Option.bind_eq_some_iff, Option.map_eq_some_iff] at h
    obtain ⟨j, hj, js, hjs, rfl⟩ := h
    rw [Fields.last?_cons, Fields.last?_cons, ih hjs]
    cases hlast : Fields.last? name ms with
    | none => by_cases hname : name' = name <;> simp [hname, hj]
    | some w =>
      obtain ⟨j', hj'⟩ := exists_json?_of_mem hjs (Fields.mem_of_last? hlast)
      simp [hj']

namespace Reader

variable {c : Char} {first : Bool} {v : Raw} {j : Json} {levels : Nat}
  {ws lead t cs rest : List Char}

/-- What so many steps are enough to read. -/
structure Keeps (fuel : Nat) : Prop where
  value : ∀ {levels v j ws t rest}, v.json? levels = some j → Blank ws → Writes v t →
    Delimited rest → t.length ≤ fuel → value fuel levels (ws ++ (t ++ rest)) = .ok (j, rest)
  elements : ∀ {levels first vs js t rest} (read : List Json), elementsJson? levels vs = some js →
    WritesElements first vs t → t.length ≤ fuel →
    elements fuel levels first read (t ++ rest) = .ok (read.reverse ++ js, rest)
  members : ∀ {levels first ms js t rest} (seen : List (String × Json)),
    membersJson? levels ms = some js → WritesMembers first ms t → t.length ≤ fuel →
    Reader.members fuel levels first seen (t ++ rest) = .ok (insertAll seen js, rest)

theorem keeps_zero : Keeps 0 where
  value _ _ ht _ hlen := absurd ht.length_pos (by omega)
  elements _ _ ht hlen := absurd ht.length_pos (by omega)
  members _ _ ht hlen := absurd ht.length_pos (by omega)

theorem Keeps.value_succ {fuel : Nat} (h : Keeps fuel) (hj : v.json? levels = some j)
    (hws : Blank ws) (ht : Writes v t) (hrest : Delimited rest) (hlen : t.length ≤ fuel + 1) :
    Reader.value (fuel + 1) levels (ws ++ (t ++ rest)) = .ok (j, rest) := by
  unfold Reader.value
  cases ht with
  | null =>
    obtain rfl := Option.some.inj hj
    refine bind_run_eq_ok.mpr ⟨_, _, peek_blank hws (by decide) _, ?_⟩
    exact bind_run_eq_ok.mpr ⟨_, _, exactly_run ['n', 'u', 'l', 'l'] rest, rfl⟩
  | yes =>
    obtain rfl := Option.some.inj hj
    refine bind_run_eq_ok.mpr ⟨_, _, peek_blank hws (by decide) _, ?_⟩
    exact bind_run_eq_ok.mpr ⟨_, _, exactly_run ['t', 'r', 'u', 'e'] rest, rfl⟩
  | no =>
    obtain rfl := Option.some.inj hj
    refine bind_run_eq_ok.mpr ⟨_, _, peek_blank hws (by decide) _, ?_⟩
    exact bind_run_eq_ok.mpr ⟨_, _, exactly_run ['f', 'a', 'l', 's', 'e'] rest, rfl⟩
  | number hscan =>
    simp only [Raw.json?, hscan, Option.map_eq_some_iff] at hj
    obtain ⟨n, hvalue, rfl⟩ := hj
    obtain ⟨c, t', rfl, hc⟩ := Literal.startsNumber_of_scan hscan
    have hquote : c ≠ '"' := ne_of_startsNumber hc (by decide)
    refine bind_run_eq_ok.mpr ⟨_, _, peek_blank hws (isSpace_of_startsNumber hc) _, ?_⟩
    simp only [hquote, hc, if_false, if_true]
    exact bind_run_eq_ok.mpr ⟨_, _, number_run hscan hvalue hrest, rfl⟩
  | string hs =>
    obtain rfl := Option.some.inj hj
    refine bind_run_eq_ok.mpr ⟨_, _, peek_blank hws (by decide) _, ?_⟩
    refine bind_run_eq_ok.mpr ⟨_, _, drop_run _, ?_⟩
    exact bind_run_eq_ok.mpr ⟨_, _, stringRest_spells hs, rfl⟩
  | array hvs =>
    cases levels with
    | zero => exact absurd hj (by simp [Raw.json?])
    | succ levels =>
      obtain ⟨js, hjs, rfl⟩ := Option.map_eq_some_iff.mp hj
      refine bind_run_eq_ok.mpr ⟨_, _, peek_blank hws (by decide) _, ?_⟩
      refine bind_run_eq_ok.mpr ⟨_, _, drop_run _, ?_⟩
      exact bind_run_eq_ok.mpr ⟨_, _, h.elements [] hjs hvs (by simpa using hlen), rfl⟩
  | object hms =>
    cases levels with
    | zero => exact absurd hj (by simp [Raw.json?])
    | succ levels =>
      obtain ⟨js, hjs, rfl⟩ := Option.map_eq_some_iff.mp hj
      refine bind_run_eq_ok.mpr ⟨_, _, peek_blank hws (by decide) _, ?_⟩
      refine bind_run_eq_ok.mpr ⟨_, _, drop_run _, ?_⟩
      exact bind_run_eq_ok.mpr ⟨_, _, h.members [] hjs hms (by simpa using hlen), rfl⟩

theorem Keeps.elements_succ {fuel : Nat} (h : Keeps fuel) {vs : List Raw} {js : List Json}
    (read : List Json) (hjs : elementsJson? levels vs = some js)
    (ht : WritesElements first vs t) (hlen : t.length ≤ fuel + 1) :
    Reader.elements (fuel + 1) levels first read (t ++ rest) = .ok (read.reverse ++ js, rest) := by
  unfold Reader.elements
  cases ht with
  | close hws =>
    obtain rfl := Option.some.inj hjs
    rw [List.append_assoc]
    refine bind_run_eq_ok.mpr ⟨_, _, moreElements_close hws _ _, ?_⟩
    exact bind_run_eq_ok.mpr ⟨_, _, drop_run _, by simp [pure_run_eq_ok]⟩
  | @cons _ v vs lead t u hlead hv hvs =>
    simp only [elementsJson?, Option.bind_eq_some_iff, Option.map_eq_some_iff] at hjs
    obtain ⟨j, hj, js, hjs, rfl⟩ := hjs
    have hpos := hv.length_pos
    have hpos' := hvs.length_pos
    obtain ⟨c, t', rfl, hspace, hend⟩ := hv.head
    simp only [List.append_assoc, List.cons_append]
    refine bind_run_eq_ok.mpr ⟨_, _, moreElements_lead hlead hspace hend _, ?_⟩
    simp only [List.length_append] at hlen hpos
    refine bind_run_eq_ok.mpr ⟨_, _, h.value hj blank_nil hv hvs.delimited (by omega), ?_⟩
    have hothers : Reader.elements fuel levels false (j :: read) (u ++ rest) =
        .ok ((j :: read).reverse ++ js, rest) := h.elements _ hjs hvs (by omega)
    simpa using hothers

theorem Keeps.members_succ {fuel : Nat} (h : Keeps fuel) {ms : List (String × Raw)}
    {js : List (String × Json)} (seen : List (String × Json))
    (hjs : membersJson? levels ms = some js) (ht : WritesMembers first ms t)
    (hlen : t.length ≤ fuel + 1) :
    Reader.members (fuel + 1) levels first seen (t ++ rest) =
      .ok (insertAll seen js, rest) := by
  unfold Reader.members
  cases ht with
  | close hws =>
    obtain rfl := Option.some.inj hjs
    rw [List.append_assoc]
    refine bind_run_eq_ok.mpr ⟨_, _, moreMembers_close hws _ _, ?_⟩
    exact bind_run_eq_ok.mpr ⟨_, _, drop_run _, rfl⟩
  | @cons _ name v ms lead n ws ws' t u hlead hname hws hws' hv hms =>
    simp only [membersJson?, Option.bind_eq_some_iff, Option.map_eq_some_iff] at hjs
    obtain ⟨j, hj, js, hjs, rfl⟩ := hjs
    have hpos := hv.length_pos
    have hpos' := hms.length_pos
    simp only [List.append_assoc, List.cons_append]
    simp only [List.length_append, List.length_cons] at hlen
    refine bind_run_eq_ok.mpr ⟨_, _, moreMembers_lead hlead _, ?_⟩
    refine bind_run_eq_ok.mpr ⟨_, _, stringRest_spells hname, ?_⟩
    refine bind_run_eq_ok.mpr ⟨_, _, colon_blank hws _, ?_⟩
    refine bind_run_eq_ok.mpr ⟨_, _, h.value hj hws' hv hms.delimited (by omega), ?_⟩
    exact h.members _ hjs hms (by omega)

theorem keeps (fuel : Nat) : Keeps fuel := by
  induction fuel with
  | zero => exact keeps_zero
  | succ fuel ih =>
    exact ⟨fun hj hws ht hrest hlen => ih.value_succ hj hws ht hrest hlen,
      fun read hjs ht hlen => ih.elements_succ read hjs ht hlen,
      fun seen hjs ht hlen => ih.members_succ seen hjs ht hlen⟩

/-- A value with few enough levels is read as what its parts are read as. -/
theorem reads_json (hj : v.json? levels = some j) : Reads (json levels) v j := by
  intro ws t rest hws ht hrest
  refine (keeps _).value hj hws ht hrest ?_
  simp only [List.length_append]
  omega

end Reader

/-- Every text of a value is read as what the value is read as. -/
theorem parse_of_hasText {v : Raw} {j : Json} {text : String} (hj : v.json? nesting = some j)
    (htext : v.HasText text) : parse text = .ok j :=
  (Reader.reads_json hj).run_eq_ok htext

end TopUp.Json
