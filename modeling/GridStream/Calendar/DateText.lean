import GridStream.Failure
import GridStream.Text.Character

/-!
# Dates of eight digits

A date is written as a year of four digits, a month and a day. A month and a day may be read with
one digit or with two, so that several readings of a text can exist; the readings are tried in a
fixed order and the first that finds both a month and a day decides, even if it leaves a rest or
names a day that no month has.
-/

namespace GridStream

namespace DateText

/-- Why eight digits are no date. -/
inductive Fault
  /-- No reading has a month and a day. -/
  | noReading
  /-- The first reading leaves a rest. -/
  | leftover (rest : List Char)
  | yearOutOfRange
  | dayOutOfRange
  deriving DecidableEq, Repr

/-- The words for a fault of the given text. -/
def Fault.message (text : String) : Fault → String
  | noReading => s!"time data {Text.quoted text} does not match format '%Y%m%d'"
  | leftover rest => s!"unconverted data remains: {String.ofList rest}"
  | yearOutOfRange => "year 0 is out of range"
  | dayOutOfRange => "day is out of range for month"

/-- Whether a character is an ASCII digit from `low` to `high`. -/
def digitIn (low high : Char) (c : Char) : Bool := low ≤ c && c ≤ high

/-- The value of an ASCII digit. -/
def plainValue (c : Char) : Nat := c.toNat - 48

/-- The readings of a month at the beginning of a text, each with what follows it. A first digit
of one takes a second from zero to two with it if it can. -/
def monthReadings : List Char → List (Nat × List Char)
  | [] => []
  | [c] => single c []
  | c :: d :: rest =>
    (if c = '1' && digitIn '0' '2' d then [(10 + plainValue d, rest)] else []) ++
      (if c = '0' && digitIn '1' '9' d then [(plainValue d, rest)] else []) ++ single c (d :: rest)
where
  /-- The reading of one digit alone. -/
  single (c : Char) (rest : List Char) : List (Nat × List Char) :=
    if digitIn '1' '9' c then [(plainValue c, rest)] else []

/-- The first reading of a day at the beginning of a text. The second digit behind a one or a two
may be of any script. -/
def dayReading? : List Char → Option (Nat × List Char)
  | [] => none
  | [c] => if digitIn '1' '9' c then some (plainValue c, []) else none
  | c :: d :: rest =>
    if c = '3' && digitIn '0' '1' d then some (30 + plainValue d, rest)
    else if digitIn '1' '2' c && Text.isDigit d then
      some (10 * plainValue c + (Text.digitValue? d).getD 0, rest)
    else if c = '0' && digitIn '1' '9' d then some (plainValue d, rest)
    else if digitIn '1' '9' c then some (plainValue c, d :: rest)
    else none

/-- The first reading of a month and a day, with what follows. -/
def monthDay? (cs : List Char) : Option (Nat × Nat × List Char) :=
  (monthReadings cs).findSome? fun (month, rest) =>
    (dayReading? rest).map fun (day, rest) => (month, day, rest)

/-- The date that eight digits spell. -/
def read (cs : List Char) : Except Fault Instant :=
  match monthDay? (cs.drop 4) with
  | none => .error .noReading
  | some (month, day, rest) =>
    let year := Text.natOfDigits (cs.take 4)
    if rest ≠ [] then .error (.leftover rest)
    else if year = 0 then .error .yearOutOfRange
    else
      match Instant.ofDate? ⟨year, month, day⟩ with
      | some t => .ok t
      | none => .error .dayOutOfRange

end DateText

/-- Whether the characters are eight digits. -/
def isEightDigits (cs : List Char) : Bool := cs.length == 8 && cs.all Text.isDigit

/-- The beginning of the day that a value names. An instant stands for itself; of anything else
the text counts, without the blanks around it. `label` says in the message what the date is of.
What clocks show in a time zone would stand for itself as well, but is not an instant. -/
def parseDate (label : String) (value : Value) : Attempt Instant :=
  match value with
  | .instant t => .ok t
  | .zoned .. => .error (.undescribed s!"{value.toText} is in a time zone")
  | _ =>
    let shown := value.toText
    let text := Text.strip shown
    if isEightDigits text.toList then
      match DateText.read text.toList with
      | .ok t => .ok t
      | .error fault =>
        .error (.configuration s!"Invalid {label} '{shown}': {fault.message text}"
          [("value", value)])
    else
      .error (.configuration s!"{label} must be an 8-digit YYYYMMDD string, got '{shown}'"
        [("value", value)])

end GridStream
