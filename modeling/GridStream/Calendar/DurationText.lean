import GridStream.Failure
import GridStream.Text.Character

/-!
# Durations as texts

A duration is written as one or more terms without anything between them, each an amount and a
unit: `1h30m`. The amount of a term is read as a double; the term's length is the exact product of
that double and the unit, rounded half to even to whole microseconds.
-/

namespace GridStream

/-- The unit of a term. -/
inductive TimeUnit
  | hour | minute | second | millisecond
  deriving DecidableEq, Repr

namespace TimeUnit

/-- The length of a unit in microseconds. -/
def micros : TimeUnit → Nat
  | hour => 3600000000
  | minute => 60000000
  | second => 1000000
  | millisecond => 1000

/-- Reads a unit. An `m` with an `s` behind it is a millisecond, not a minute. -/
def read? : List Char → Option (TimeUnit × List Char)
  | 'h' :: rest => some (hour, rest)
  | 'm' :: 's' :: rest => some (millisecond, rest)
  | 'm' :: rest => some (minute, rest)
  | 's' :: rest => some (second, rest)
  | _ => none

theorem length_of_read? {cs rest : List Char} {u : TimeUnit} (h : read? cs = some (u, rest)) :
    rest.length < cs.length := by
  unfold read? at h
  grind

end TimeUnit

/-- A number written with digits, perhaps with a point among them. -/
structure Amount where
  whole : List Char
  fraction : List Char
  deriving DecidableEq, Repr

namespace Amount

/-- Reads an amount: digits, digits and a point with or without digits behind it, or a point
with digits behind it. -/
def read? (cs : List Char) : Option (Amount × List Char) :=
  let whole := cs.takeWhile Text.isDigit
  match cs.dropWhile Text.isDigit with
  | '.' :: rest =>
    let fraction := rest.takeWhile Text.isDigit
    if whole = [] ∧ fraction = [] then none
    else some (⟨whole, fraction⟩, rest.dropWhile Text.isDigit)
  | rest => if whole = [] then none else some (⟨whole, []⟩, rest)

theorem length_dropWhile_le (p : Char → Bool) (cs : List Char) :
    (cs.dropWhile p).length ≤ cs.length := (List.dropWhile_suffix p).length_le

theorem length_of_read? {cs rest : List Char} {a : Amount} (h : read? cs = some (a, rest)) :
    rest.length ≤ cs.length := by
  have hd := length_dropWhile_le Text.isDigit cs
  unfold read? at h
  split at h
  next tail heq =>
    have ht := length_dropWhile_le Text.isDigit tail
    rw [heq, List.length_cons] at hd
    dsimp only at h
    split at h
    · simp at h
    · simp only [Option.some.injEq, Prod.mk.injEq] at h
      rw [← h.2]
      omega
  next =>
    dsimp only at h
    split at h
    · simp at h
    · simp only [Option.some.injEq, Prod.mk.injEq] at h
      rw [← h.2]
      exact hd

/-- The double nearest to an amount. -/
def value (a : Amount) : Float :=
  Decimal.ofDecimal (Text.natOfDigits (a.whole ++ a.fraction)) (-(a.fraction.length : Int))

end Amount

structure DurationTerm where
  amount : Amount
  unit : TimeUnit
  deriving DecidableEq, Repr

namespace DurationTerm

def read? (cs : List Char) : Option (DurationTerm × List Char) :=
  match Amount.read? cs with
  | none => none
  | some (amount, rest) =>
    match TimeUnit.read? rest with
    | none => none
    | some (unit, rest) => some (⟨amount, unit⟩, rest)

theorem length_of_read? {cs rest : List Char} {t : DurationTerm} (h : read? cs = some (t, rest)) :
    rest.length < cs.length := by
  unfold read? at h
  split at h
  · simp at h
  next ha =>
    have := Amount.length_of_read? ha
    split at h
    · simp at h
    next hu =>
      have := TimeUnit.length_of_read? hu
      simp only [Option.some.injEq, Prod.mk.injEq] at h
      rw [← h.2]
      omega

/-- Reads the terms that a text consists of, `none` if anything else is in it. -/
def readAll? (cs : List Char) : Option (List DurationTerm) :=
  if cs = [] then some []
  else
    match h : read? cs with
    | none => none
    | some (term, rest) =>
      have : rest.length < cs.length := length_of_read? h
      (readAll? rest).map (term :: ·)
termination_by cs.length

/-- The length of a term in whole microseconds, `none` if its amount is beyond the doubles. -/
def micros? (t : DurationTerm) : Option Int :=
  match Decimal.Parts.ofFloat t.amount.value with
  | .finite _ mantissa exponent =>
    let r := Decimal.binaryRatio mantissa exponent
    some (Decimal.roundDiv (r.num * t.unit.micros) r.den)
  | _ => none

/-- The length of a term as a span. -/
def span? (t : DurationTerm) : Option Span := t.micros?.bind Span.ofMicros?

end DurationTerm

namespace Span

/-- The sum of two spans, if it is not too long. -/
def add? (a b : Span) : Option Span := ofMicros? (a.micros + b.micros)

/-- The sum of terms from left to right, `none` as soon as a term or a sum is too long. -/
def sum? (start : Span) : List DurationTerm → Option Span
  | [] => some start
  | t :: ts => (t.span?.bind (add? start)).bind fun s => sum? s ts

end Span

/-- The terms that a text consists of: at least one. -/
def durationTerms? (text : String) : Option (List DurationTerm) :=
  match DurationTerm.readAll? text.toList with
  | some [] => none
  | terms? => terms?

/-- The positive length of time that a value names. A span stands for itself; of anything else
the text counts, without the blanks around it. `label` says in the message what the length is
of. -/
def parseDuration (label : String) (value : Value) : Attempt Span := do
  let shown := value.toText
  let span ← match value with
    | .span d => .ok d
    | _ =>
      match durationTerms? (Text.strip shown) with
      | none =>
        .error (.configuration
          s!"Invalid {label} '{shown}'. Expected e.g. '1h', '30m', '1h30m'" [("value", value)])
      | some terms =>
        match Span.sum? default terms with
        | some d => .ok d
        | none => .error .outOfRange
  if span.micros ≤ 0 then
    .error (.configuration s!"{label} must be positive, got '{shown}'" [("value", .text shown)])
  else .ok span

end GridStream
