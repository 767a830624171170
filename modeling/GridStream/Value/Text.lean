import GridStream.Decimal.Shortest
import GridStream.Text.Quoted
import GridStream.Value.Basic

/-!
# Texts of values

How a value is written inside a message. On its own a text is written as it is; inside a list,
a tuple, a set or a mapping it is quoted, and dates and spans show their parts.
-/

namespace GridStream

namespace Value

/-- The parts of an instant as they are written inside a list: seconds and microseconds only where
they are not 0. -/
def instantParts (t : Instant) : List Nat :=
  let d := t.date
  let clock :=
    if t.fraction ≠ 0 then [t.hour, t.minute, t.second, t.fraction]
    else if t.second ≠ 0 then [t.hour, t.minute, t.second]
    else [t.hour, t.minute]
  [d.year, d.month, d.day] ++ clock

/-- The parts of a span as they are written inside a list: those that are not 0. -/
def spanParts (d : Span) : List (String × Int) :=
  let rest := d.micros % microsPerDay
  [("days", d.days), ("seconds", rest / 1000000), ("microseconds", rest % 1000000)].filter
    fun part => part.2 != 0

/-- Writes the parts of a composed value between brackets. -/
def bracketed (opening closing : String) (parts : List String) : String :=
  opening ++ String.intercalate ", " parts ++ closing

/-- A span as it is written inside a list. -/
def innerSpan (d : Span) : String :=
  match spanParts d with
  | [] => "datetime.timedelta(0)"
  | parts => bracketed "datetime.timedelta(" ")" (parts.map fun (n, v) => n ++ "=" ++ toString v)

/-- A time zone as it is written inside a list. Universal time has a name. -/
def innerZone (z : Zone) : String :=
  if z.micros = 0 then "datetime.timezone.utc"
  else bracketed "datetime.timezone(" ")" [innerSpan ((Span.ofMicros? z.micros).getD default)]

mutual

/-- A value as it is written inside a list. -/
def inner : Value → String
  | .null => "None"
  | .bool b => if b then "True" else "False"
  | .int n => toString n
  | .float x => Decimal.shortest x
  | .text s => Text.quoted s
  | .bytes data => Text.quotedBytes data
  | .date d => bracketed "datetime.date(" ")" [toString d.year, toString d.month, toString d.day]
  | .instant t => bracketed "datetime.datetime(" ")" ((instantParts t).map toString)
  | .zoned t z =>
    bracketed "datetime.datetime(" ")" ((instantParts t).map toString ++ ["tzinfo=" ++ innerZone z])
  | .span d => innerSpan d
  | .list items => bracketed "[" "]" (innerItems items)
  | .tuple [item] => "(" ++ inner item ++ ",)"
  | .tuple items => bracketed "(" ")" (innerItems items)
  | .set [] => "set()"
  | .set items => bracketed "\x7b" "\x7d" (innerItems items)
  | .map entries => bracketed "\x7b" "\x7d" (innerEntries entries)

/-- The items of a list, written. -/
def innerItems : List Value → List String
  | [] => []
  | v :: vs => inner v :: innerItems vs

/-- The entries of a mapping, written. -/
def innerEntries : List (Value × Value) → List String
  | [] => []
  | (k, v) :: es => (inner k ++ ": " ++ inner v) :: innerEntries es

end

/-- A value as it is written on its own. -/
def toText : Value → String
  | .text s => s
  | .date d => d.iso
  | .instant t => t.text
  | .zoned t z => t.text ++ z.text
  | .span d => d.text
  | v => v.inner

/-- The name of a value's type. -/
def typeName : Value → String
  | .null => "NoneType"
  | .bool _ => "bool"
  | .int _ => "int"
  | .float _ => "float"
  | .text _ => "str"
  | .bytes _ => "bytes"
  | .date _ => "datetime.date"
  | .instant _ | .zoned .. => "datetime.datetime"
  | .span _ => "datetime.timedelta"
  | .list _ => "list"
  | .tuple _ => "tuple"
  | .set _ => "set"
  | .map _ => "dict"

/-- A list of texts, written. -/
def textList (items : List String) : String :=
  bracketed "[" "]" (items.map Text.quoted)

end Value

end GridStream
