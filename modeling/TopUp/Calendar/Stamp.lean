import TopUp.Calendar.Date
import TopUp.Text.Decimal

/-! # Gateway local time

    The gateway is sent times of its own time zone, a fixed offset from UTC, as
    fourteen digits: year, month, day, hour, minute and second. Years outside 0 to
    9999 are written with a sign and so take more characters.
-/

namespace TopUp.Calendar

open TopUp.Text

/-- Seconds east of UTC of an offset given in minutes. An offset of a day or more in
    either direction counts as none. -/
def offsetSeconds (minutes : Int32) : Int :=
  let seconds := minutes.toInt * 60
  if -86400 < seconds ∧ seconds < 86400 then seconds else 0

/-- A year in at least four digits, with a sign when it is not one of 0 to 9999. -/
def yearChars (year : Int) : List Char :=
  if year < 0 then '-' :: paddedDigits 4 year.natAbs
  else if 9999 < year then '+' :: paddedDigits 4 year.natAbs
  else paddedDigits 4 year.natAbs

/-- The date of an instant, eight digits for years of four. -/
def dateStamp (localSeconds : Int) : List Char :=
  let d := Date.ofDayNumber (epochDay + localSeconds / 86400)
  yearChars d.year ++ paddedDigits 2 d.month ++ paddedDigits 2 d.day

/-- The time of day of an instant, six digits. -/
def clockStamp (localSeconds : Int) : List Char :=
  let s := (localSeconds % 86400).toNat
  paddedDigits 2 (s / 3600) ++ paddedDigits 2 (s / 60 % 60) ++ paddedDigits 2 (s % 60)

/-- An instant, given in local seconds since 1970, as a stamp. -/
def stamp (localSeconds : Int) : String :=
  String.ofList (dateStamp localSeconds ++ clockStamp localSeconds)

/-- The time for which a gateway request stays open. -/
def requestLifetime : Int := 86400

/-- The stamps of a request's issue and of its expiry. -/
def requestStamps (unix : Int) (minutes : Int32) : String × String :=
  let issued := unix + offsetSeconds minutes
  (stamp issued, stamp (issued + requestLifetime))

/-! ### Reading a stamp -/

/-- The number of a run of digits. -/
def number? (cs : List Char) : Option Nat := readDigits? cs

/-- The local seconds since 1970 of a stamp of fourteen digits. -/
def readStamp? (s : String) : Option Int := do
  let cs := s.toList
  if cs.length ≠ 14 then none
  let year ← number? (cs.take 4)
  let month ← number? ((cs.drop 4).take 2)
  let day ← number? ((cs.drop 6).take 2)
  let hour ← number? ((cs.drop 8).take 2)
  let minute ← number? ((cs.drop 10).take 2)
  let second ← number? (cs.drop 12)
  let days := (Date.mk year month day).dayNumber - epochDay
  some (days * 86400 + hour * 3600 + minute * 60 + second)

/-! ### Sanity checks -/

example : requestStamps 1735689600 300 = ("20250101050000", "20250102050000") := by decide
example : requestStamps (-1) 0 = ("19691231235959", "19700101235959") := by decide
example : readStamp? "20250101050000" = some (1735689600 + 18000) := by decide

end TopUp.Calendar
