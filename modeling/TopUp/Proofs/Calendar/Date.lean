import Mathlib.Algebra.Order.SuccPred
import Mathlib.Data.Int.SuccPred
import Mathlib.Tactic.IntervalCases
import Mathlib.Tactic.SplitIfs
import TopUp.Calendar.Date

/-! # Days and their dates

    What the calendar is can be said without numbers: from the first of January 1970 on, and
    back from there, each date is followed by the next one (`Date.next`), by the lengths of
    the months (`Date.Falls`). The date that is calculated for a number of days is the one
    that falls on that day (`Date.falls_iff`, `Date.ofDayNumber_eq_iff`), in every year before
    or after.

    Both rest on the order of dates: days are numbered in it (`Date.before_iff`), and every
    number is that of a day (`Date.ofDayNumber_spec`).
-/

namespace TopUp.Calendar

variable {d d' : Date} {n year : Int}

/-! ### Years -/

/-- The days of a year. -/
def yearLength (year : Int) : Nat := if isLeap year then 366 else 365

theorem isLeap_iff : isLeap year = true ↔ year % 4 = 0 ∧ (year % 100 ≠ 0 ∨ year % 400 = 0) := by
  simp [isLeap]

theorem yearStart_succ (year : Int) : yearStart (year + 1) = yearStart year + yearLength year := by
  unfold yearLength yearStart
  split_ifs with hleap
  · rw [isLeap_iff] at hleap
    omega
  · rw [isLeap_iff] at hleap
    omega

theorem yearStart_lt_succ (year : Int) : yearStart year < yearStart (year + 1) := by
  rw [yearStart_succ]
  unfold yearLength
  split <;> omega

/-- A later year begins on a later day. -/
theorem yearStart_lt_iff {year' : Int} : yearStart year < yearStart year' ↔ year < year' :=
  (strictMono_int_of_lt_succ yearStart_lt_succ).lt_iff_lt

theorem yearOf_spec (n : Int) : yearStart (yearOf n) ≤ n ∧ n < yearStart (yearOf n + 1) := by
  -- the estimate is at most one off, in either direction
  have hlow : yearStart (n * 400 / 146097 - 1) ≤ n := by
    unfold yearStart
    omega
  have hhigh : n < yearStart (n * 400 / 146097 + 1 + 1) := by
    unfold yearStart
    omega
  unfold yearOf
  dsimp only
  split_ifs with hless hmore
  · exact ⟨hlow, by rwa [sub_add_cancel]⟩
  · exact ⟨hmore, hhigh⟩
  · omega

/-! ### Months -/

/-- The days of a month. -/
def monthLength (leap : Bool) : Nat → Nat
  | 2 => if leap then 29 else 28
  | 4 | 6 | 9 | 11 => 30
  | _ => 31

theorem getElem?_monthLengths {leap : Bool} {m l : Nat} (h : (monthLengths leap)[m]? = some l) :
    m < 12 ∧ l = monthLength leap (m + 1) := by
  have hlengths : monthLengths leap = (List.range 12).map fun m => monthLength leap (m + 1) := by
    cases leap <;> rfl
  rw [hlengths, List.getElem?_map, Option.map_eq_some_iff] at h
  obtain ⟨i, hi, rfl⟩ := h
  obtain ⟨hlt, rfl⟩ := List.getElem?_eq_some_iff.mp hi
  rw [List.getElem_range]
  exact ⟨by simpa using hlt, rfl⟩

theorem daysBefore_succ (leap : Bool) {month : Nat} (hlow : 1 ≤ month) (hhigh : month ≤ 12) :
    daysBefore leap (month + 1) = daysBefore leap month + monthLength leap month := by
  interval_cases month <;> cases leap <;> rfl

theorem monthLength_bounds (leap : Bool) (month : Nat) :
    1 ≤ monthLength leap month ∧ monthLength leap month ≤ 31 := by
  unfold monthLength
  split
  · split <;> decide
  all_goals decide

theorem daysBefore_one (leap : Bool) : daysBefore leap 1 = 0 := rfl

theorem daysBefore_thirteen (year : Int) : daysBefore (isLeap year) 13 = yearLength year := by
  unfold yearLength
  cases isLeap year <;> rfl

theorem monthDay_of_lt {l k : Nat} {ls : List Nat} (h : k < l) :
    monthDay (l :: ls) k = (0, k) := by
  rw [monthDay, if_pos h]

theorem monthDay_of_le {l k : Nat} {ls : List Nat} (h : l ≤ k) :
    monthDay (l :: ls) k = ((monthDay ls (k - l)).1 + 1, (monthDay ls (k - l)).2) := by
  rw [monthDay, if_neg (by omega)]

/-- The walk ends in the month whose days the number falls among. -/
theorem monthDay_spec {ls : List Nat} {k : Nat} (h : k < ls.sum) :
    ∃ l, ls[(monthDay ls k).1]? = some l ∧ (monthDay ls k).2 < l ∧
      (ls.take (monthDay ls k).1).sum + (monthDay ls k).2 = k := by
  induction ls generalizing k with
  | nil => exact absurd h (by simp)
  | cons l ls ih =>
    rw [List.sum_cons] at h
    rcases Nat.lt_or_ge k l with hless | hmore
    · rw [monthDay_of_lt hless]
      exact ⟨l, rfl, hless, by simp⟩
    · obtain ⟨l', hl, hd, hk⟩ := ih (k := k - l) (by omega)
      rw [monthDay_of_le hmore]
      refine ⟨l', by simpa using hl, hd, ?_⟩
      rw [List.take_succ_cons, List.sum_cons]
      omega

theorem daysBefore_eq_sum (leap : Bool) (month : Nat) :
    daysBefore leap month = ((monthLengths leap).take (month - 1)).sum :=
  List.sum_eq_foldl.symm

/-- The month and the day of a day of the year. -/
theorem monthDay_monthLengths {year : Int} {k : Nat} (h : k < yearLength year) :
    ∃ m day, monthDay (monthLengths (isLeap year)) k = (m, day) ∧ m < 12 ∧
      day < monthLength (isLeap year) (m + 1) ∧ daysBefore (isLeap year) (m + 1) + day = k := by
  rw [← daysBefore_thirteen, daysBefore_eq_sum, List.take_of_length_le (by simp [monthLengths])] at h
  obtain ⟨l, hl, hday, hsum⟩ := monthDay_spec h
  obtain ⟨hm, rfl⟩ := getElem?_monthLengths hl
  exact ⟨_, _, rfl, hm, hday, by rwa [daysBefore_eq_sum]⟩

/-- The month is over before a later one begins. -/
theorem daysBefore_le (leap : Bool) {month month' : Nat} (hlow : 1 ≤ month) (h : month < month')
    (hhigh : month' ≤ 13) :
    daysBefore leap month + monthLength leap month ≤ daysBefore leap month' := by
  have hall : ∀ leap, ∀ month' < 14, ∀ month < month', 1 ≤ month →
      daysBefore leap month + monthLength leap month ≤ daysBefore leap month' := by decide
  exact hall leap month' (by omega) month h hlow

/-! ### Dates -/

namespace Date

/-- A day of the calendar. -/
structure Valid (d : Date) : Prop where
  month_pos : 1 ≤ d.month
  month_le : d.month ≤ 12
  day_pos : 1 ≤ d.day
  day_le : d.day ≤ monthLength (isLeap d.year) d.month

/-- The one date comes before the other: years, months and days are compared in turn. -/
def Before (d d' : Date) : Prop :=
  d.year < d'.year ∨ d.year = d'.year ∧
    (d.month < d'.month ∨ d.month = d'.month ∧ d.day < d'.day)

/-- The day after. -/
def next (d : Date) : Date :=
  if d.day < monthLength (isLeap d.year) d.month then { d with day := d.day + 1 }
  else if d.month < 12 then ⟨d.year, d.month + 1, 1⟩
  else ⟨d.year + 1, 1, 1⟩

/-- A century is a leap year only every fourth time. -/
example : Date.next ⟨1900, 2, 28⟩ = ⟨1900, 3, 1⟩ ∧ Date.next ⟨2000, 2, 28⟩ = ⟨2000, 2, 29⟩ := by
  decide

theorem Valid.lt_daysBefore {month : Nat} (hd : d.Valid) (h : d.month < month) (hle : month ≤ 13) :
    daysBefore (isLeap d.year) d.month + (d.day - 1) < daysBefore (isLeap d.year) month := by
  have hover := daysBefore_le (isLeap d.year) hd.month_pos h hle
  have hday := hd.day_le
  have hpos := hd.day_pos
  omega

theorem yearStart_le_dayNumber (d : Date) : yearStart d.year ≤ d.dayNumber := by
  unfold dayNumber
  omega

theorem Valid.dayNumber_lt (hd : d.Valid) : d.dayNumber < yearStart (d.year + 1) := by
  have hlast : d.month < 13 := Nat.lt_succ_of_le hd.month_le
  have hyear := hd.lt_daysBefore hlast le_rfl
  rw [daysBefore_thirteen] at hyear
  rw [yearStart_succ]
  unfold dayNumber
  omega

theorem dayNumber_lt_of_before (hd : d.Valid) (hd' : d'.Valid) (h : d.Before d') :
    d.dayNumber < d'.dayNumber := by
  rcases h with hyear | ⟨hyear, hmonth | ⟨hmonth, hday⟩⟩
  · calc d.dayNumber < yearStart (d.year + 1) := hd.dayNumber_lt
      _ ≤ yearStart d'.year := not_lt.mp (mt yearStart_lt_iff.mp (not_lt.mpr hyear))
      _ ≤ d'.dayNumber := yearStart_le_dayNumber d'
  · have hover := hd.lt_daysBefore hmonth (by have := hd'.month_le; omega)
    unfold dayNumber
    rw [← hyear]
    omega
  · have hpos := hd.day_pos
    unfold dayNumber
    rw [← hyear, ← hmonth]
    omega

theorem before_trichotomy (d d' : Date) : d.Before d' ∨ d = d' ∨ d'.Before d := by
  obtain ⟨year, month, day⟩ := d
  obtain ⟨year', month', day'⟩ := d'
  simp only [Before, Date.mk.injEq]
  omega

/-- Days are numbered in their order. -/
theorem before_iff (hd : d.Valid) (hd' : d'.Valid) :
    d.Before d' ↔ d.dayNumber < d'.dayNumber := by
  refine ⟨dayNumber_lt_of_before hd hd', fun h => ?_⟩
  rcases before_trichotomy d d' with hbefore | rfl | hafter
  · exact hbefore
  · exact absurd h (lt_irrefl _)
  · exact absurd h (dayNumber_lt_of_before hd' hd hafter).asymm

/-- No two days have one number. -/
theorem eq_of_dayNumber_eq (hd : d.Valid) (hd' : d'.Valid)
    (h : d.dayNumber = d'.dayNumber) : d = d' := by
  rcases before_trichotomy d d' with hbefore | heq | hafter
  · exact absurd h (dayNumber_lt_of_before hd hd' hbefore).ne
  · exact heq
  · exact absurd h (dayNumber_lt_of_before hd' hd hafter).ne'

theorem Valid.next (hd : d.Valid) : d.next.Valid := by
  obtain ⟨hlow, hhigh, hpos, hday⟩ := hd
  unfold Date.next
  split_ifs with hmonth hyear
  · exact ⟨hlow, hhigh, Nat.le_add_left .., hmonth⟩
  · exact ⟨Nat.le_add_left .., hyear, le_rfl, (monthLength_bounds ..).1⟩
  · exact ⟨le_rfl, Nat.le_add_left .., le_rfl, (monthLength_bounds ..).1⟩

theorem Valid.dayNumber_next (hd : d.Valid) : d.next.dayNumber = d.dayNumber + 1 := by
  obtain ⟨hlow, hhigh, hpos, hday⟩ := hd
  have hover := daysBefore_succ (isLeap d.year) hlow hhigh
  unfold Date.next
  split_ifs with hmonth hyear
  · simp only [dayNumber]
    omega
  · simp only [dayNumber, hover]
    omega
  · have hlast : d.month = 12 := by omega
    rw [hlast, daysBefore_thirteen] at hover
    rw [hlast] at hday hmonth
    simp only [dayNumber, yearStart_succ, daysBefore_one, hlast]
    omega

/-- Every number is that of a day. -/
theorem ofDayNumber_spec (n : Int) : (ofDayNumber n).Valid ∧ (ofDayNumber n).dayNumber = n := by
  obtain ⟨hlow, hhigh⟩ := yearOf_spec n
  rw [yearStart_succ] at hhigh
  have hday : (n - yearStart (yearOf n)).toNat < yearLength (yearOf n) := by omega
  obtain ⟨m, day, hwalk, hm, hday, hsum⟩ := monthDay_monthLengths hday
  have hdate : ofDayNumber n = ⟨yearOf n, m + 1, day + 1⟩ := by
    unfold ofDayNumber
    dsimp only
    rw [hwalk]
  rw [hdate]
  refine ⟨⟨Nat.le_add_left .., hm, Nat.le_add_left .., hday⟩, ?_⟩
  simp only [dayNumber, Nat.add_sub_cancel]
  omega

/-- The date of a number is the day that has it. -/
theorem ofDayNumber_eq_iff : ofDayNumber n = d ↔ d.Valid ∧ d.dayNumber = n := by
  obtain ⟨hvalid, hnumber⟩ := ofDayNumber_spec n
  constructor
  · rintro rfl
    exact ⟨hvalid, hnumber⟩
  · rintro ⟨hd, hn⟩
    exact eq_of_dayNumber_eq hvalid hd (hnumber.trans hn.symm)

theorem ofDayNumber_succ (n : Int) : ofDayNumber (n + 1) = (ofDayNumber n).next := by
  obtain ⟨hvalid, hnumber⟩ := ofDayNumber_spec n
  exact ofDayNumber_eq_iff.mpr ⟨hvalid.next, by rw [hvalid.dayNumber_next, hnumber]⟩

/-! ### The calendar, day by day -/

/-- The date of the `n`-th day after the first of January 1970, or of the `-n`-th day
    before it: the days follow one another by the lengths of the months, in both directions. -/
inductive Falls : Date → Int → Prop where
  | epoch : Falls ⟨1970, 1, 1⟩ 0
  | after {d : Date} {n : Int} (h : Falls d n) : Falls d.next (n + 1)
  | before {d : Date} {n : Int} (hd : d.Valid) (h : Falls d.next (n + 1)) : Falls d n

theorem falls_ofDayNumber (n : Int) : Falls (ofDayNumber (epochDay + n)) n := by
  induction n using Int.induction_on with
  | zero => exact .epoch
  | succ n ih =>
    rw [← add_assoc, ofDayNumber_succ]
    exact ih.after
  | pred n ih =>
    refine .before (ofDayNumber_spec _).1 ?_
    rwa [← ofDayNumber_succ, add_assoc, sub_add_cancel]

theorem falls_iff : Falls d n ↔ d.Valid ∧ d.dayNumber = epochDay + n := by
  constructor
  · intro h
    induction h with
    | epoch => exact ⟨⟨by decide, by decide, by decide, by decide⟩, by decide⟩
    | after h ih => exact ⟨ih.1.next, by rw [ih.1.dayNumber_next, ih.2]; omega⟩
    | before hd h ih =>
      have hnext := hd.dayNumber_next
      exact ⟨hd, by omega⟩
  · intro h
    rw [← ofDayNumber_eq_iff.mpr h]
    exact falls_ofDayNumber n

theorem Falls.valid (h : Falls d n) : d.Valid := (falls_iff.mp h).1

theorem Falls.ofDayNumber_eq (h : Falls d n) : ofDayNumber (epochDay + n) = d :=
  ofDayNumber_eq_iff.mpr (falls_iff.mp h)

end Date

end TopUp.Calendar
