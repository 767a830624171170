import GridStream.Calendar.Instant
import GridStream.Text.Character

/-!
# Time patterns

A pattern is a text in which directives such as `%d` stand for parts of an instant. Between the
percent sign and the letter of a directive may stand flags, a least width and a modifier. Names
are English. A directive that does not exist stands for itself.
-/

namespace GridStream

namespace Pattern

/-- What the flags of a directive ask for. -/
structure Flags where
  /-- The character to fill up with, if asked for; `-` means not to fill up. -/
  fill : Option Char := none
  /-- Whether letters become capitals. -/
  capitals : Bool := false
  /-- Whether the case of the letters is changed. -/
  swapped : Bool := false
  /-- The least width, if asked for. -/
  width : Option Nat := none

def weekdayNames : List String :=
  ["Monday", "Tuesday", "Wednesday", "Thursday", "Friday", "Saturday", "Sunday"]

def monthNames : List String :=
  ["January", "February", "March", "April", "May", "June", "July", "August", "September",
    "October", "November", "December"]

/-- Fills a text up on the left as the flags ask. -/
def fillText (flags : Flags) (s : String) : String :=
  match flags.width, flags.fill with
  | some width, some '0' => Text.padLeft width '0' s
  | some width, _ => Text.padLeft width ' ' s
  | none, _ => s

/-- Writes a number, usually filled up with `fill` to `digits` places. -/
def number (flags : Flags) (fill : Char) (digits n : Nat) : String :=
  let fill := match flags.fill with
    | some '_' => ' '
    | some c => c
    | none => fill
  if fill = '-' then Text.padLeft (flags.width.getD 0) ' ' (toString n)
  else Text.padLeft (max digits (flags.width.getD 0)) fill (toString n)

/-- The letters of ASCII as capitals. -/
def capitalized (s : String) : String := s.map Char.toUpper

/-- Writes a name, with the case and width that the flags ask for. -/
def name (flags : Flags) (s : String) : String :=
  fillText flags (if flags.capitals || flags.swapped then capitalized s else s)

/-- The hour on a clock of twelve hours. -/
def hour12 (t : Instant) : Nat := (t.hour + 11) % 12 + 1

/-- The seconds from the beginning of 1970, which may be negative. -/
def epochSeconds (t : Instant) : Int :=
  (t.micros / 1000000 : Nat) - 719162 * 86400

/-- The text of the directive with a given letter, `none` if there is no such directive. -/
def directive (t : Instant) (flags : Flags) (c : Char) : Option String :=
  let d := t.date
  let two := number flags '0' 2
  let composed (s : String) : Option String :=
    some (fillText flags (if flags.capitals then capitalized s else s))
  let plain := number {} '0' 2
  let clock := s!"{plain t.hour}:{plain t.minute}:{plain t.second}"
  let weekdayName := weekdayNames.getD d.weekday ""
  let monthName := monthNames.getD (d.month - 1) ""
  let slashed := s!"{plain d.month}/{plain d.day}/{plain (d.year % 100)}"
  let spaced := number {} ' ' 2 d.day
  let half := if t.hour < 12 then "AM" else "PM"
  match c with
  | '%' => some (fillText flags "%")
  | 'n' => some (fillText flags "\n")
  | 't' => some (fillText flags "\t")
  | 'a' => some (name flags (weekdayName.take 3).toString)
  | 'A' => some (name flags weekdayName)
  | 'b' | 'h' => some (name flags (monthName.take 3).toString)
  | 'B' => some (name flags monthName)
  | 'c' => composed s!"{weekdayName.take 3} {monthName.take 3} {spaced} {clock} {d.year}"
  | 'C' => some (number flags '0' 1 (d.year / 100))
  | 'd' => some (two d.day)
  | 'D' | 'x' => composed slashed
  | 'e' => some (number flags ' ' 2 d.day)
  | 'F' => composed s!"{d.year}-{plain d.month}-{plain d.day}"
  | 'g' => some (two (d.isoWeek.1 % 100))
  | 'G' => some (number flags '0' 1 d.isoWeek.1)
  | 'H' => some (two t.hour)
  | 'I' => some (two (hour12 t))
  | 'j' => some (number flags '0' 3 d.dayOfYear)
  | 'k' => some (number flags ' ' 2 t.hour)
  | 'l' => some (number flags ' ' 2 (hour12 t))
  | 'm' => some (two d.month)
  | 'M' => some (two t.minute)
  | 'p' => some (fillText flags (if flags.swapped then Text.lower half else half))
  | 'P' => some (fillText flags (Text.lower half))
  | 'r' => composed s!"{plain (hour12 t)}:{plain t.minute}:{plain t.second} {half}"
  | 'R' => composed s!"{plain t.hour}:{plain t.minute}"
  | 's' => some (fillText flags (toString (epochSeconds t)))
  | 'S' => some (two t.second)
  | 'T' | 'X' => composed clock
  | 'u' => some (number flags '0' 1 (d.weekday + 1))
  | 'U' => some (two (d.weekFrom 6))
  | 'V' => some (two d.isoWeek.2)
  | 'w' => some (number flags '0' 1 ((d.weekday + 1) % 7))
  | 'W' => some (two (d.weekFrom 0))
  | 'y' => some (two (d.year % 100))
  | 'Y' => some (number flags '0' 1 d.year)
  | 'z' => some ""
  | 'Z' => some (fillText flags "")
  | _ => none

/-- Whether a directive exists with a modifier. -/
def takesModifier (modifier c : Char) : Bool :=
  if modifier = 'E' then !"%aAbBdDeFgGhHIjklmMSUVwW".contains c
  else !"%aAcDFxXY".contains c

/-- Puts the microseconds in place of `%f` and nothing in place of `%z` and `%Z`, since times have
no zone. A percent sign always goes with the character behind it. -/
def fillIn (t : Instant) : List Char → List Char
  | [] => []
  | '%' :: 'f' :: cs => (Text.zeroPadded 6 t.fraction).toList ++ fillIn t cs
  | '%' :: 'z' :: cs => fillIn t cs
  | '%' :: 'Z' :: cs => fillIn t cs
  | '%' :: c :: cs => '%' :: c :: fillIn t cs
  | c :: cs => c :: fillIn t cs

/-- Where the reading of a pattern stands: in plain text, or inside a directive. -/
inductive Mode
  | plain
  /-- Reading flags. -/
  | flags (read : List Char) (flags : Flags)
  /-- Reading the digits of a width. -/
  | width (read : List Char) (flags : Flags)
  /-- Behind a modifier, which changes nothing where a directive takes it. -/
  | modifier (read : List Char) (flags : Flags)

/-- What a directive that does not exist stands for: itself, or what of it is read from its last
percent sign on. -/
def unknown (flags : Flags) (read : List Char) : List Char :=
  let s := String.ofList ('%' :: (read.takeWhile (· ≠ '%')).reverse)
  (fillText flags (if flags.capitals then capitalized s else s)).toList

/-- Ends a directive with its letter. `read` holds what was read of it, last character first. -/
def finish (t : Instant) (read : List Char) (flags : Flags) (c : Char) : List Char :=
  match directive t flags c with
  | some s => s.toList
  | none => unknown flags (c :: read)

/-- Sets a flag, `none` if the character is no flag. -/
def Flags.with? (flags : Flags) (c : Char) : Option Flags :=
  match c with
  | '_' | '-' | '0' => some { flags with fill := some c }
  | '^' => some { flags with capitals := true }
  | '#' => some { flags with swapped := true }
  | _ => none

/-- Reads a pattern from a given mode on. -/
def expandFrom (t : Instant) : Mode → List Char → List Char
  | .plain, [] => []
  | .plain, '%' :: cs => expandFrom t (.flags ['%'] {}) cs
  | .plain, c :: cs => c :: expandFrom t .plain cs
  | .flags read flags, [] => unknown flags read
  | .flags read flags, c :: cs =>
    match flags.with? c with
    | some flags => expandFrom t (.flags (c :: read) flags) cs
    | none =>
      if Text.isPlainDigit c then
        expandFrom t (.width (c :: read) { flags with width := some (c.toNat - 48) }) cs
      else if c = 'E' ∨ c = 'O' then expandFrom t (.modifier (c :: read) flags) cs
      else finish t read flags c ++ expandFrom t .plain cs
  | .width read flags, [] => unknown flags read
  | .width read flags, c :: cs =>
    if Text.isPlainDigit c then
      let width := min 1000000 (10 * flags.width.getD 0 + (c.toNat - 48))
      expandFrom t (.width (c :: read) { flags with width := some width }) cs
    else if c = 'E' ∨ c = 'O' then expandFrom t (.modifier (c :: read) flags) cs
    else finish t read flags c ++ expandFrom t .plain cs
  | .modifier read flags, [] => unknown flags read
  | .modifier read flags, c :: cs =>
    (if takesModifier (read.headD 'E') c then finish t read flags c
      else unknown flags (c :: read)) ++ expandFrom t .plain cs

/-- The text that a pattern stands for at an instant. A null character ends the pattern. -/
def expand (pattern : String) (t : Instant) : String :=
  String.ofList (expandFrom t .plain ((fillIn t pattern.toList).takeWhile (· ≠ '\x00')))

/-- The pattern of a date with hyphens, which file names use unless told otherwise. -/
def dashedDate : String := "%Y-%m-%d"

end Pattern

/-- The mark that a file's date takes the place of in a path template. -/
def dateMark : String := "[DATE]"

/-- The path of the file that starts at `t`: the template with its date in place of each mark. -/
def expandTemplate (template pattern : String) (t : Instant) : String :=
  Text.replaceAll dateMark (Pattern.expand pattern t) template

end GridStream
