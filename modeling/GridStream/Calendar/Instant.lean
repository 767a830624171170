import GridStream.Calendar.Date
import GridStream.Calendar.Span

/-!
# Instants

An instant is a number of microseconds since the beginning of year 1 that lies before the end of
year 9999. It has no zone: what a clock shows in a time zone is an instant together with the zone.
-/

namespace GridStream

/-- A point in time. -/
structure Instant where
  micros : Nat
  inRange : micros < Date.dayLimit * microsPerDay
  deriving DecidableEq

namespace Instant

theorem zero_inRange : 0 < Date.dayLimit * microsPerDay := by decide

instance : Inhabited Instant := ⟨0, zero_inRange⟩

instance : LE Instant := ⟨fun a b => a.micros ≤ b.micros⟩
instance : LT Instant := ⟨fun a b => a.micros < b.micros⟩
instance (a b : Instant) : Decidable (a ≤ b) := inferInstanceAs (Decidable (a.micros ≤ b.micros))
instance (a b : Instant) : Decidable (a < b) := inferInstanceAs (Decidable (a.micros < b.micros))

/-- The instant at a number of microseconds, if it is within the calendar. -/
def ofMicros? (n : Int) : Option Instant :=
  if h : 0 ≤ n ∧ n.toNat < Date.dayLimit * microsPerDay then some ⟨n.toNat, h.2⟩ else none

/-- The instant a number of microseconds later, if it is within the calendar. -/
def shift? (t : Instant) (n : Int) : Option Instant := ofMicros? (t.micros + n)

/-- The microseconds from `a` to `b`. -/
def since (b a : Instant) : Int := (b.micros : Int) - a.micros

/-- The microseconds since midnight. -/
def timeOfDay (t : Instant) : Nat := t.micros % microsPerDay

/-- The day that an instant lies in. -/
def date (t : Instant) : Date := Date.ofDayNumber (t.micros / microsPerDay)

/-- Midnight at the beginning of the day of an instant. -/
def midnight (t : Instant) : Instant :=
  ⟨t.micros - t.timeOfDay, Nat.lt_of_le_of_lt (Nat.sub_le _ _) t.inRange⟩

def hour (t : Instant) : Nat := t.timeOfDay / 3600000000
def minute (t : Instant) : Nat := t.timeOfDay / 60000000 % 60
def second (t : Instant) : Nat := t.timeOfDay / 1000000 % 60
def fraction (t : Instant) : Nat := t.timeOfDay % 1000000

/-- The instant with the given date and microseconds since midnight, if the calendar has it. -/
def ofParts? (year month day timeOfDay : Nat) : Option Instant :=
  match Date.ofParts? year month day with
  | some d =>
    if timeOfDay < microsPerDay then ofMicros? (d.dayNumber * microsPerDay + timeOfDay) else none
  | none => none

/-- Midnight at the beginning of a day, if the calendar has the day. -/
def ofDate? (d : Date) : Option Instant := ofParts? d.year d.month d.day 0

/-- Date and clock time with `sep` between, the microseconds only if they are not 0. -/
def textWith (sep : String) (t : Instant) : String :=
  t.date.iso ++ sep ++ Span.clockText 2 t.timeOfDay

/-- Date and clock time with a `T` between. -/
def iso (t : Instant) : String := t.textWith "T"

/-- Date and clock time with a space between. -/
def text (t : Instant) : String := t.textWith " "

end Instant

/-- A time zone, known by how far its clocks are ahead of universal time: less than a day. -/
structure Zone where
  micros : Int
  inRange : micros.natAbs < microsPerDay
  deriving DecidableEq

namespace Zone

/-- The zone whose clocks are ahead by a number of microseconds, if they are ahead or behind by less
than a day. -/
def ofMicros? (n : Int) : Option Zone :=
  if h : n.natAbs < microsPerDay then some ⟨n, h⟩ else none

/-- Hours and minutes with their sign, and the rest unless it is 0. -/
def text (z : Zone) : String :=
  let size := z.micros.natAbs
  let sign := if z.micros < 0 then "-" else "+"
  if size % 60000000 = 0 then
    sign ++ Text.zeroPadded 2 (size / 3600000000) ++ ":" ++
      Text.zeroPadded 2 (size / 60000000 % 60)
  else sign ++ Span.clockText 2 size

end Zone

/-- The microseconds since the beginning of year 1 in universal time when the clocks of a zone show
an instant. They need not be within the calendar. -/
def Instant.universalMicros (t : Instant) (z : Zone) : Int := t.micros - z.micros

end GridStream
