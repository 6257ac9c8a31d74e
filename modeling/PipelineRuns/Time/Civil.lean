import PipelineRuns.Text.Digit

/-!
# Civil dates

Days are counted from 1970-01-01 in the Gregorian calendar, extended to all years. `Civil.dayNumber`
and `Civil.ofDayNumber` go between a date and its day number; both move the start of the year to
March, so that the leap day is the last day of its year, and count in eras of 400 years.

`Civil.ofFields?` admits exactly the dates that exist in the years 1 to 9999.
-/

namespace PipelineRuns

/-- A date of the Gregorian calendar. -/
structure Civil where
  year : Int
  month : Nat
  day : Nat
  deriving DecidableEq, Repr, Inhabited

namespace Civil

/-- A year with a 29th of February. -/
def isLeap (year : Int) : Bool :=
  year % 4 = 0 && (year % 100 ≠ 0 || year % 400 = 0)

/-- The number of days of a month. -/
def daysIn (year : Int) (month : Nat) : Nat :=
  if month = 2 then (if isLeap year then 29 else 28)
  else if month = 4 || month = 6 || month = 9 || month = 11 then 30 else 31

/-- The days from 1970-01-01 to a date. -/
def dayNumber (d : Civil) : Int :=
  let y := if d.month ≤ 2 then d.year - 1 else d.year
  let era := y / 400
  let yearOfEra := y % 400
  let monthFromMarch : Int := ((d.month + 9) % 12 : Nat)
  let dayOfYear := (153 * monthFromMarch + 2) / 5 + (d.day : Int) - 1
  let dayOfEra := yearOfEra * 365 + yearOfEra / 4 - yearOfEra / 100 + dayOfYear
  era * 146097 + dayOfEra - 719468

/-- The date that lies `n` days after 1970-01-01. -/
def ofDayNumber (n : Int) : Civil :=
  let shifted := n + 719468
  let era := shifted / 146097
  let dayOfEra := shifted % 146097
  let yearOfEra := (dayOfEra - dayOfEra / 1460 + dayOfEra / 36524 - dayOfEra / 146096) / 365
  let dayOfYear := dayOfEra - (365 * yearOfEra + yearOfEra / 4 - yearOfEra / 100)
  let monthFromMarch := (5 * dayOfYear + 2) / 153
  let day := dayOfYear - (153 * monthFromMarch + 2) / 5 + 1
  let month := if monthFromMarch < 10 then monthFromMarch + 3 else monthFromMarch - 9
  ⟨yearOfEra + era * 400 + (if month ≤ 2 then 1 else 0), month.toNat, day.toNat⟩

/-- The date with these fields, when there is one in the years 1 to 9999. -/
def ofFields? (year month day : Nat) : Option Civil :=
  if 1 ≤ year && year ≤ 9999 && 1 ≤ month && month ≤ 12 && 1 ≤ day && day ≤ daysIn year month then
    some ⟨year, month, day⟩
  else none

/-- A date as `YYYY-MM-DD`. -/
def text (d : Civil) : String :=
  Text.padNat 4 d.year.toNat ++ "-" ++ Text.padNat 2 d.month ++ "-" ++ Text.padNat 2 d.day

end Civil

end PipelineRuns
