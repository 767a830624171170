import GridStream.Text.Search

/-!
# Dates of the Gregorian calendar

The calendar is extended to all years from 1 to 9999. Days are numbered from 1 January of year 1,
which is day 0 and a Monday.
-/

namespace GridStream

/-- A day of the calendar. -/
structure Date where
  year : Nat
  month : Nat
  day : Nat
  deriving DecidableEq, Repr, Inhabited

namespace Date

/-- Whether a year has a 29 February. -/
def isLeap (year : Nat) : Bool := year % 4 = 0 && (year % 100 ≠ 0 || year % 400 = 0)

/-- The number of days of a month. -/
def daysInMonth (year month : Nat) : Nat :=
  match month with
  | 2 => if isLeap year then 29 else 28
  | 4 | 6 | 9 | 11 => 30
  | _ => 31

/-- The number of days before 1 January of a year. -/
def daysBeforeYear (year : Nat) : Nat :=
  let y := year - 1
  365 * y + y / 4 - y / 100 + y / 400

/-- The number of days of a year before the given month. -/
def daysBeforeMonth (year : Nat) : (month : Nat) → Nat
  | 0 | 1 => 0
  | month + 2 => daysBeforeMonth year (month + 1) + daysInMonth year (month + 1)

/-- The number of days from year 1 to year 9999. -/
def dayLimit : Nat := 3652059

/-- Whether the parts name a day of the years 1 to 9999. -/
def Valid (d : Date) : Prop :=
  1 ≤ d.year ∧ d.year ≤ 9999 ∧ 1 ≤ d.month ∧ d.month ≤ 12 ∧
    1 ≤ d.day ∧ d.day ≤ daysInMonth d.year d.month

instance (d : Date) : Decidable d.Valid := by unfold Valid; infer_instance

/-- The day with the given parts, if the calendar has it. -/
def ofParts? (year month day : Nat) : Option Date :=
  if (Date.mk year month day).Valid then some ⟨year, month, day⟩ else none

/-- The position of a day within its year, 1 for 1 January. -/
def dayOfYear (d : Date) : Nat := daysBeforeMonth d.year d.month + d.day

/-- The number of a day, 0 for 1 January of year 1. -/
def dayNumber (d : Date) : Nat := daysBeforeYear d.year + d.dayOfYear - 1

/-- Finds the month, starting from `month`, that holds the day with the given offset. -/
def monthOfOffset (year : Nat) : (tries month offset : Nat) → Nat × Nat
  | 0, month, offset => (month, offset)
  | tries + 1, month, offset =>
    if offset < daysInMonth year month then (month, offset)
    else monthOfOffset year tries (month + 1) (offset - daysInMonth year month)

/-- The day with a given number. Periods of 400, 100 and 4 years have fixed lengths; the last
year of the two shorter ones may be cut off or have one day more. -/
def ofDayNumber (n : Nat) : Date :=
  let in400 := n % 146097
  let centuries := min 3 (in400 / 36524)
  let in100 := in400 - centuries * 36524
  let in4 := in100 % 1461
  let years := min 3 (in4 / 365)
  let year := n / 146097 * 400 + centuries * 100 + in100 / 1461 * 4 + years + 1
  let (month, offset) := monthOfOffset year 11 1 (in4 - years * 365)
  ⟨year, month, offset + 1⟩

/-- The day of the week, 0 for Monday. -/
def weekday (d : Date) : Nat := d.dayNumber % 7

/-- The number of weeks of the year that have begun on the day, where weeks begin on the given
day of the week (0 for Monday) and the days before the first one count as week 0. -/
def weekFrom (firstDay : Nat) (d : Date) : Nat :=
  (d.dayOfYear + 6 - (d.weekday + 7 - firstDay) % 7) / 7

/-- The first Monday on or before 4 January, from which the weeks of a year are counted. -/
def isoYearStart (year : Nat) : Int :=
  let fourth := (Date.mk year 1 4).dayNumber
  (fourth : Int) - (fourth % 7 : Nat)

/-- The year that the week of a day belongs to, and the number of that week in it. -/
def isoWeek (d : Date) : Nat × Nat :=
  let n : Int := d.dayNumber
  let year :=
    if n < isoYearStart d.year then d.year - 1
    else if isoYearStart (d.year + 1) ≤ n then d.year + 1
    else d.year
  -- The days before the first Monday of year 1 never occur: year 1 begins on a Monday.
  (year, ((n - isoYearStart year) / 7).toNat + 1)

/-- Year, month and day with hyphens between. -/
def iso (d : Date) : String :=
  s!"{Text.zeroPadded 4 d.year}-{Text.zeroPadded 2 d.month}-{Text.zeroPadded 2 d.day}"

end Date

end GridStream
