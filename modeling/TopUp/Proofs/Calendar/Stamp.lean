import Mathlib.Data.String.Basic
import TopUp.Calendar.Stamp
import TopUp.Proofs.Calendar.Date
import TopUp.Proofs.Text.Digits

/-! # What a stamp tells

    A stamp of fourteen digits denotes a second of local time (`Denotes`): its first eight
    digits are a date of the calendar, its last six a time of that day. The stamp of a
    second denotes that second and no other as long as the year has four digits
    (`stamp_denotes`, `Denotes.unique`), and texts that denote seconds are in the order of
    what they denote (`Denotes.lt_iff`).
-/

namespace TopUp.Calendar

open TopUp.Text

variable {s s' : String} {t t' : Int} {d : Date}

/-! ### Reading by places -/

/-- The number that the digits of a text are, `count` of them from place `start` on. -/
def numberAt (s : String) (start count : Nat) : Nat :=
  Nat.ofDigitChars 10 ((s.toList.drop start).take count) 0

/-- Read as year, month, day, hour, minute and second, `YYYYMMDDHHMMSS`, the text is the
    local time of second `t`, counted from the beginning of 1970. -/
structure Denotes (s : String) (t : Int) : Prop where
  digits : IsDigits 14 s
  date : Date.Falls ⟨numberAt s 0 4, numberAt s 4 2, numberAt s 6 2⟩ (t / 86400)
  hour : numberAt s 8 2 = t % 86400 / 3600
  minute : numberAt s 10 2 = t % 3600 / 60
  second : numberAt s 12 2 = t % 60

/-- The local time lies in one of the years 0000 to 9999. -/
def FourDigitYear (t : Int) : Prop := ∃ d, Date.Falls d (t / 86400) ∧ 0 ≤ d.year ∧ d.year ≤ 9999

theorem fourDigitYear_iff :
    FourDigitYear t ↔ 0 ≤ (Date.ofDayNumber (epochDay + t / 86400)).year ∧
      (Date.ofDayNumber (epochDay + t / 86400)).year ≤ 9999 := by
  constructor
  · rintro ⟨d, hdate, hyear⟩
    rwa [hdate.ofDayNumber_eq]
  · intro hyear
    exact ⟨_, Date.falls_ofDayNumber _, hyear⟩

instance (t : Int) : Decidable (FourDigitYear t) := decidable_of_iff _ fourDigitYear_iff.symm

theorem numberAt_add (start count more : Nat) (h : start + count + more ≤ s.length) :
    numberAt s start (count + more) =
      10 ^ more * numberAt s start count + numberAt s (start + count) more := by
  have hlength : ((s.toList.drop (start + count)).take more).length = more := by
    rw [List.length_take, List.length_drop, String.length_toList]
    omega
  unfold numberAt
  rw [List.take_add, List.drop_drop, Nat.ofDigitChars_append,
    Nat.ofDigitChars_eq_ofDigitChars_zero, hlength]

/-! ### The order of stamps -/

/-- The digits of a second's stamp as one number. It grows with the second, since dates are
    compared by year, month and day in turn. -/
def stampNumber (t : Int) : Int :=
  let d := Date.ofDayNumber (epochDay + t / 86400)
  ((((d.year * 100 + d.month) * 100 + d.day) * 100 + t % 86400 / 3600) * 100 +
    t % 3600 / 60) * 100 + t % 60

theorem stampNumber_lt (h : t < t') : stampNumber t < stampNumber t' := by
  unfold stampNumber
  dsimp only
  rcases Int.lt_or_eq_of_le (Int.ediv_le_ediv (by decide : (0 : Int) < 86400) h.le) with hday | hday
  · obtain ⟨hvalid, -⟩ := Date.ofDayNumber_spec (epochDay + t / 86400)
    obtain ⟨hvalid', -⟩ := Date.ofDayNumber_spec (epochDay + t' / 86400)
    have hbefore : (Date.ofDayNumber (epochDay + t / 86400)).Before
        (Date.ofDayNumber (epochDay + t' / 86400)) := by
      rw [Date.before_iff hvalid hvalid', (Date.ofDayNumber_spec _).2, (Date.ofDayNumber_spec _).2]
      omega
    generalize Date.ofDayNumber (epochDay + t / 86400) = d at *
    generalize Date.ofDayNumber (epochDay + t' / 86400) = d' at *
    have hmonth := hvalid.month_le
    have hdays := hvalid.day_le.trans (monthLength_bounds ..).2
    have hmonth' := hvalid'.month_le
    unfold Date.Before at hbefore
    omega
  · rw [hday]
    omega

theorem stampNumber_lt_iff : stampNumber t < stampNumber t' ↔ t < t' :=
  StrictMono.lt_iff_lt fun _ _ => stampNumber_lt

/-- The number of all fourteen digits is that of what they denote. -/
theorem Denotes.number (h : Denotes s t) : (numberAt s 0 14 : Int) = stampNumber t := by
  obtain ⟨⟨hlength, -⟩, hdate, hhour, hminute, hsecond⟩ := h
  have hplaces : numberAt s 0 14 = ((((numberAt s 0 4 * 100 + numberAt s 4 2) * 100 +
      numberAt s 6 2) * 100 + numberAt s 8 2) * 100 + numberAt s 10 2) * 100 +
      numberAt s 12 2 := by
    have h12 := numberAt_add (s := s) 0 12 2 (by omega)
    have h10 := numberAt_add (s := s) 0 10 2 (by omega)
    have h8 := numberAt_add (s := s) 0 8 2 (by omega)
    have h6 := numberAt_add (s := s) 0 6 2 (by omega)
    have h4 := numberAt_add (s := s) 0 4 2 (by omega)
    simp only [Nat.zero_add, Nat.reduceAdd, Nat.reducePow] at h12 h10 h8 h6 h4
    omega
  unfold stampNumber
  rw [hdate.ofDayNumber_eq, hplaces]
  push_cast
  rw [hhour, hminute, hsecond]

theorem Denotes.number_toList (h : Denotes s t) :
    Nat.ofDigitChars 10 s.toList 0 = numberAt s 0 14 := by
  unfold numberAt
  rw [List.drop_zero, List.take_of_length_le (by rw [String.length_toList, h.digits.1])]

/-- Texts are in the order of the seconds that they denote. -/
theorem Denotes.lt_iff (h : Denotes s t) (h' : Denotes s' t') : s < s' ↔ t < t' := by
  have hlength : s.toList.length = s'.toList.length := by
    rw [String.length_toList, String.length_toList, h.digits.1, h'.digits.1]
  rw [String.lt_iff_toList_lt, lt_iff_ofDigitChars_lt h.digits.2 h'.digits.2 hlength,
    h.number_toList, h'.number_toList, ← Int.ofNat_lt, h.number, h'.number,
    stampNumber_lt_iff]

/-- A text denotes one second at most. -/
theorem Denotes.unique (h : Denotes s t) (h' : Denotes s t') : t = t' := by
  rcases lt_trichotomy t t' with hless | heq | hmore
  · exact absurd ((h.lt_iff h').mpr hless) (lt_irrefl s)
  · exact heq
  · exact absurd ((h'.lt_iff h).mpr hmore) (lt_irrefl s)

/-! ### Writing -/

theorem yearChars_of_four {year : Int} (hlow : 0 ≤ year) (hhigh : year ≤ 9999) :
    yearChars year = paddedDigits 4 year.natAbs := by
  unfold yearChars
  rw [if_neg (by omega), if_neg (by omega)]

/-- Numbers one after the other, each filled up to its width. -/
def written (fields : List (Nat × Nat)) : List Char :=
  fields.flatMap fun f => paddedDigits f.1 f.2

/-- Every number fits into its width. -/
def Fits (fields : List (Nat × Nat)) : Prop := ∀ f ∈ fields, 0 < f.1 ∧ f.2 < 10 ^ f.1

@[simp] theorem fits_nil : Fits [] := by simp [Fits]

@[simp] theorem fits_cons {f : Nat × Nat} {fields : List (Nat × Nat)} :
    Fits (f :: fields) ↔ (0 < f.1 ∧ f.2 < 10 ^ f.1) ∧ Fits fields :=
  List.forall_mem_cons

theorem length_written {fields : List (Nat × Nat)} (h : Fits fields) :
    (written fields).length = (fields.map Prod.fst).sum := by
  unfold written
  rw [List.length_flatMap]
  congr 1
  exact List.map_congr_left fun f hf => length_paddedDigits (h f hf).1 (h f hf).2

theorem isDigit_of_mem_written {fields : List (Nat × Nat)} :
    ∀ c ∈ written fields, c.isDigit = true := by
  intro c hc
  obtain ⟨f, -, hf⟩ := List.mem_flatMap.mp hc
  exact isDigit_of_mem_paddedDigits c hf

/-- Each number is read where it was written. -/
theorem numberAt_written (fields : List (Nat × Nat)) {f : Nat × Nat} {more : List (Nat × Nat)}
    (h : s.toList = written (fields ++ f :: more)) (hfits : Fits (fields ++ f :: more)) :
    numberAt s (fields.map Prod.fst).sum f.1 = f.2 := by
  have hbefore : (written fields).length = (fields.map Prod.fst).sum :=
    length_written fun f hf => hfits f (List.mem_append_left _ hf)
  obtain ⟨hwidth, hnumber⟩ := hfits f (by simp)
  have htext : s.toList = written fields ++ (paddedDigits f.1 f.2 ++ written more) := by
    rw [h]
    simp only [written, List.flatMap_append, List.flatMap_cons]
  unfold numberAt
  rw [htext, List.drop_left' hbefore, List.take_left' (length_paddedDigits hwidth hnumber),
    ofDigitChars_paddedDigits]

/-- Six numbers are read off their text, whatever they mean. -/
theorem read_written {year month day hour minute second : Nat}
    (h : s.toList = written [(4, year), (2, month), (2, day), (2, hour), (2, minute), (2, second)])
    (hfits : Fits [(4, year), (2, month), (2, day), (2, hour), (2, minute), (2, second)]) :
    numberAt s 0 4 = year ∧ numberAt s 4 2 = month ∧ numberAt s 6 2 = day ∧
      numberAt s 8 2 = hour ∧ numberAt s 10 2 = minute ∧ numberAt s 12 2 = second :=
  ⟨numberAt_written [] h hfits,
    numberAt_written [(4, year)] h hfits,
    numberAt_written [(4, year), (2, month)] h hfits,
    numberAt_written [(4, year), (2, month), (2, day)] h hfits,
    numberAt_written [(4, year), (2, month), (2, day), (2, hour)] h hfits,
    numberAt_written [(4, year), (2, month), (2, day), (2, hour), (2, minute)] h hfits⟩

theorem dateStamp_written (hdate : Date.Falls d (t / 86400)) (hlow : 0 ≤ d.year)
    (hhigh : d.year ≤ 9999) :
    dateStamp t = written [(4, d.year.natAbs), (2, d.month), (2, d.day)] ∧
      Fits [(4, d.year.natAbs), (2, d.month), (2, d.day)] := by
  constructor
  · unfold dateStamp
    dsimp only
    rw [hdate.ofDayNumber_eq, yearChars_of_four hlow hhigh]
    simp only [written, List.flatMap_cons, List.flatMap_nil, List.append_assoc, List.append_nil]
  · have hmonth := hdate.valid.month_le
    have hday := hdate.valid.day_le.trans (monthLength_bounds ..).2
    simp only [fits_cons, fits_nil, Nat.reducePow, and_true]
    omega

theorem clockStamp_written (t : Int) :
    clockStamp t = written [(2, (t % 86400).toNat / 3600), (2, (t % 86400).toNat / 60 % 60),
        (2, (t % 86400).toNat % 60)] ∧
      Fits [(2, (t % 86400).toNat / 3600), (2, (t % 86400).toNat / 60 % 60),
        (2, (t % 86400).toNat % 60)] := by
  constructor
  · simp only [clockStamp, written, List.flatMap_cons, List.flatMap_nil, List.append_assoc,
      List.append_nil]
  · simp only [fits_cons, fits_nil, Nat.reducePow, and_true]
    omega

/-- A second is written as a text that denotes it. -/
theorem stamp_denotes (h : FourDigitYear t) : Denotes (stamp t) t := by
  obtain ⟨d, hdate, hlow, hhigh⟩ := h
  obtain ⟨hdateText, hdateFits⟩ := dateStamp_written hdate hlow hhigh
  obtain ⟨hclockText, hclockFits⟩ := clockStamp_written t
  have htext : (stamp t).toList = written ([(4, d.year.natAbs), (2, d.month), (2, d.day)] ++
      [(2, (t % 86400).toNat / 3600), (2, (t % 86400).toNat / 60 % 60),
        (2, (t % 86400).toNat % 60)]) := by
    rw [stamp, String.toList_ofList, hdateText, hclockText, written, written, written,
      List.flatMap_append]
  have hfits := List.forall_mem_append.mpr ⟨hdateFits, hclockFits⟩
  obtain ⟨hyear, hmonth, hday, hhour, hminute, hsecond⟩ := read_written htext hfits
  refine ⟨⟨?_, ?_⟩, ?_, by omega, by omega, by omega⟩
  · rw [← String.length_toList, htext, length_written hfits]
    rfl
  · rw [htext]
    exact isDigit_of_mem_written
  · rwa [hyear, hmonth, hday, Int.natAbs_of_nonneg hlow]

/-- The first eight digits are the date. -/
theorem take_stamp (h : FourDigitYear t) : (stamp t).toList.take 8 = dateStamp t := by
  obtain ⟨d, hdate, hlow, hhigh⟩ := h
  obtain ⟨htext, hfits⟩ := dateStamp_written hdate hlow hhigh
  have hlength : (dateStamp t).length = 8 := by
    rw [htext, length_written hfits]
    rfl
  rw [stamp, String.toList_ofList, List.take_left' hlength]

/-! ### Reading back -/

theorem number?_of_digits {cs : List Char} (hne : cs ≠ []) (h : ∀ c ∈ cs, c.isDigit = true) :
    number? cs = some (Nat.ofDigitChars 10 cs 0) := by
  have hall : cs.all Char.isDigit = true := List.all_eq_true.mpr h
  simp [number?, readDigits?, hne, hall]

/-- What a text denotes is what is read from it. -/
theorem Denotes.readStamp?_eq (h : Denotes s t) : readStamp? s = some t := by
  have hlength : s.toList.length = 14 := by rw [String.length_toList, h.digits.1]
  have hread : ∀ start count, 0 < count → start + count ≤ 14 →
      number? ((s.toList.drop start).take count) = some (numberAt s start count) := by
    intro start count hcount hle
    refine number?_of_digits ?_ fun c hc =>
      h.digits.2 c (List.mem_of_mem_drop (List.mem_of_mem_take hc))
    rw [← List.length_pos_iff, List.length_take, List.length_drop, hlength]
    omega
  have hyear := hread 0 4 (by decide) (by decide)
  have hsecond := hread 12 2 (by decide) (by decide)
  rw [List.drop_zero] at hyear
  rw [List.take_of_length_le (by rw [List.length_drop, hlength])] at hsecond
  have hday := (Date.falls_iff.mp h.date).2
  have hhour := h.hour
  have hminute := h.minute
  have hsec := h.second
  unfold readStamp?
  simp only [hlength, ne_eq, not_true_eq_false, if_false, hyear, hread 4 2 (by decide) (by decide),
    hread 6 2 (by decide) (by decide), hread 8 2 (by decide) (by decide),
    hread 10 2 (by decide) (by decide), hsecond, hday, bind, Option.bind]
  congr 1
  omega

theorem readStamp?_stamp (h : FourDigitYear t) : readStamp? (stamp t) = some t :=
  (stamp_denotes h).readStamp?_eq

end TopUp.Calendar
