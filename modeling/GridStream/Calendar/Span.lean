import GridStream.Text.Search

/-!
# Spans of time

A span is a whole number of microseconds of either sign, of at most a billion days.
-/

namespace GridStream

/-- The number of microseconds of a day. -/
abbrev microsPerDay : Nat := 86400000000

/-- A length of time in microseconds. -/
structure Span where
  micros : Int
  inRange : -999999999 * (microsPerDay : Int) ≤ micros ∧
    micros < 1000000000 * (microsPerDay : Int)
  deriving DecidableEq

namespace Span

/-- The span of a number of microseconds, if it is not too long. -/
def ofMicros? (n : Int) : Option Span :=
  if h : -999999999 * (microsPerDay : Int) ≤ n ∧ n < 1000000000 * (microsPerDay : Int) then
    some ⟨n, h⟩
  else none

instance : Inhabited Span := ⟨0, by decide⟩

/-- Numbers of hours are written as numerals. -/
instance (priority := high) : @NeZero Nat Zero.ofOfNat0 25 := ⟨by decide⟩

/-- The span of a whole number of hours up to 24. -/
def hours (n : Fin 25) : Span :=
  ⟨n.val * 3600000000, by have := n.isLt; unfold microsPerDay; omega⟩

/-- The days of a span, rounded down. -/
def days (s : Span) : Int := s.micros / microsPerDay

/-- Hours, minutes and seconds of a day, with the microseconds unless they are 0. -/
def clockText (hourDigits micros : Nat) : String :=
  let seconds := micros / 1000000
  let fraction := micros % 1000000
  let clock := Text.zeroPadded hourDigits (seconds / 3600) ++ ":" ++
    Text.zeroPadded 2 (seconds / 60 % 60) ++ ":" ++ Text.zeroPadded 2 (seconds % 60)
  if fraction = 0 then clock else clock ++ "." ++ Text.zeroPadded 6 fraction

/-- The days, unless there are none, and the clock time of a span. -/
def text (s : Span) : String :=
  let days := s.days
  let clock := clockText 1 (s.micros % microsPerDay).toNat
  if days = 0 then clock
  else
    let unit := if days.natAbs = 1 then "day" else "days"
    s!"{days} {unit}, {clock}"

end Span

end GridStream
