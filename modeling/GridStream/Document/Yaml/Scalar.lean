import GridStream.Document.Basic
import GridStream.Text.Base64
import GridStream.Text.Character

/-!
# Scalars

A scalar without quotes may be a null, a truth value, a number or a time; anything else is a text.
Numbers may hold underscores. Integers may be binary, octal or hexadecimal, and numbers may be
written with base 60, their digits between colons. A time of a clock may name its time zone.

A tag sets the type of a scalar whatever it looks like. Its text is then read in a way that is both
broader than what scalars without a tag look like, since blanks around a number and digits of all
scripts count, and not prepared for all of it: a text that is read as a truth value or a time and
looks like none, or as a number and is empty, ends reading with a failure of another kind than one
that is no number. An integer may have any number of digits.
-/

namespace GridStream.Yaml

/-- What kind of value a node stands for. -/
inductive Tag
  | null | bool | int | float | timestamp | text | bytes
  | sequence | mapping | set | ordered | pairs
  /-- As a key: the entries of other mappings stand in its place. -/
  | merge
  /-- As a key: its value stands for the mapping where a scalar is asked for. -/
  | default
  /-- A kind that there are no values of. -/
  | unknown
  deriving DecidableEq, Repr, Inhabited

/-- Whether values of a kind are collections, which cannot be keys. -/
def Tag.isCollection : Tag → Bool
  | sequence | mapping | set | ordered | pairs => true
  | _ => false

/-- What the full names of the usual tags begin with. -/
def usualStart : String := "tag:yaml.org,2002:"

/-- The full names of the usual tags, without their common beginning. -/
def usualTags : List (String × Tag) :=
  [("null", .null), ("bool", .bool), ("int", .int), ("float", .float), ("timestamp", .timestamp),
    ("str", .text), ("binary", .bytes), ("seq", .sequence), ("map", .mapping), ("set", .set),
    ("omap", .ordered), ("pairs", .pairs), ("merge", .merge), ("value", .default)]

/-- The tag with a full name. -/
def Tag.ofName (name : String) : Tag :=
  ((usualTags.find? fun (usual, _) => usualStart ++ usual == name).map (·.2)).getD .unknown

/-! ## What scalars look like -/

def nullWords : List String := ["", "~", "null", "Null", "NULL"]

def boolWords : List String :=
  ["yes", "Yes", "YES", "true", "True", "TRUE", "on", "On", "ON", "no", "No", "NO", "false",
    "False", "FALSE", "off", "Off", "OFF"]

/-- Takes a sign off. -/
def splitSign : List Char → Bool × List Char
  | '-' :: cs => (true, cs)
  | '+' :: cs => (false, cs)
  | cs => (false, cs)

/-- Whether a character is a decimal digit or an underscore. -/
def isLooseDigit (c : Char) : Bool := Text.isPlainDigit c || c = '_'

/-- Whether the characters are a digit followed by digits and underscores. -/
def isLooseNumber : List Char → Bool
  | c :: cs => Text.isPlainDigit c && cs.all isLooseDigit
  | [] => false

/-- Whether a part of a number with base 60 is one below 60. -/
def isSixtieth : List Char → Bool
  | [c] => Text.isPlainDigit c
  | [c, d] => '0' ≤ c && c ≤ '5' && Text.isPlainDigit d
  | _ => false

/-- The value of a digit in a base up to 16. Decimal digits may be of any script. -/
def digitIn? (base : Nat) (c : Char) : Option Nat :=
  ((Text.hexValue? c).or (Text.digitValue? c)).filter (· < base)

/-- Whether the characters are digits of a base and underscores, at least one of them. -/
def isLooseIn (base : Nat) (cs : List Char) : Bool :=
  cs ≠ [] && cs.all fun c => c = '_' || (c.toNat < 128 && (digitIn? base c).isSome)

def isIntText (cs : List Char) : Bool :=
  match (splitSign cs).2 with
  | ['0'] => true
  | '0' :: 'b' :: rest => isLooseIn 2 rest
  | '0' :: 'x' :: rest => isLooseIn 16 rest
  | '0' :: rest => isLooseIn 8 rest
  | rest =>
    match Text.splitChars ':' rest with
    | whole :: parts => isLooseNumber whole && parts.all isSixtieth
    | [] => false

/-- Whether the characters are an exponent, which has a sign, or nothing. -/
def isExponent : List Char → Bool
  | [] => true
  | e :: sign :: digits =>
    (e = 'e' || e = 'E') && (sign = '+' || sign = '-') && digits ≠ [] &&
      digits.all Text.isPlainDigit
  | _ => false

/-- Whether the characters are a number with a point. A sign is allowed unless the number begins
with its point. -/
def isFloatText (cs : List Char) : Bool :=
  let rest := (splitSign cs).2
  let whole := rest.takeWhile isLooseDigit
  String.ofList cs ∈ [".nan", ".NaN", ".NAN"] ||
    String.ofList rest ∈ [".inf", ".Inf", ".INF"] ||
    match rest.dropWhile isLooseDigit with
    | '.' :: more =>
      let fraction := more.takeWhile isLooseDigit
      (isLooseNumber whole || (whole = [] && rest.length = cs.length && isLooseNumber fraction)) &&
        isExponent (more.dropWhile isLooseDigit)
    | ':' :: _ =>
      match Text.splitChars ':' rest with
      | [] => false
      | first :: parts =>
        let last := parts.getLastD []
        isLooseNumber first && parts.dropLast.all isSixtieth &&
          isSixtieth (last.takeWhile (· ≠ '.')) &&
          match last.dropWhile (· ≠ '.') with
          | '.' :: fraction => fraction.all isLooseDigit
          | _ => false
    | _ => false

/-! ## Times -/

/-- The parts of a time as they are written. -/
structure TimeParts where
  year : Nat
  month : Nat
  day : Nat
  /-- Hours, minutes, seconds and microseconds, if a clock is read. -/
  clock : Option (Nat × Nat × Nat × Nat) := none
  /-- By how many microseconds the clock is ahead of universal time, if a zone is named. -/
  zone : Option Int := none

/-- Takes a number with between `least` and `most` digits off. -/
def takeDigits? (least most : Nat) (cs : List Char) : Option (Nat × List Char) :=
  let digits := (cs.take most).takeWhile Text.isPlainDigit
  if least ≤ digits.length then some (Text.natOfDigits digits, cs.drop digits.length) else none

/-- Takes a character off. -/
def takeChar? (c : Char) : List Char → Option (List Char)
  | d :: cs => if d = c then some cs else none
  | [] => none

/-- Takes off what separates the date from the clock: a letter, or blanks. -/
def takeGap? : List Char → Option (List Char)
  | 'T' :: cs | 't' :: cs => some cs
  | cs =>
    let rest := cs.dropWhile fun c => c = ' ' || c = '\t'
    if rest.length < cs.length then some rest else none

/-- Takes a fraction of a second off as microseconds, cutting off what is finer. -/
def takeFraction : List Char → Nat × List Char
  | '.' :: cs =>
    let digits := (cs.takeWhile Text.isPlainDigit).take 6
    (Text.natOfDigits digits * Nat.pow 10 (6 - digits.length), cs.dropWhile Text.isPlainDigit)
  | cs => (0, cs)

/-- Reads the time zone behind a clock, if there is one: a letter for universal time, or hours and
perhaps minutes with a sign. -/
def zone? (cs : List Char) : Option (Option Int) :=
  match cs, cs.dropWhile fun c => c = ' ' || c = '\t' with
  | [], _ => some none
  | _, ['Z'] => some (some 0)
  | _, sign :: rest => do
    if sign ≠ '+' ∧ sign ≠ '-' then none
    else
      let (hours, rest) ← takeDigits? 1 2 rest
      let (minutes, rest) ← match rest with
        | [] => some (0, [])
        | rest => takeDigits? 2 2 (← takeChar? ':' rest)
      let size : Int := (hours * 60 + minutes) * 60000000
      if rest ≠ [] then none else some (some (if sign = '-' then -size else size))
  | _, [] => none

/-- Reads a date, perhaps with a clock and a zone. -/
def timeParts? (cs : List Char) : Option TimeParts := do
  let (year, rest) ← takeDigits? 4 4 cs
  let (month, rest) ← takeDigits? 1 2 (← takeChar? '-' rest)
  let (day, rest) ← takeDigits? 1 2 (← takeChar? '-' rest)
  if rest = [] then some { year, month, day }
  else
    let (hour, rest) ← takeDigits? 1 2 (← takeGap? rest)
    let (minute, rest) ← takeDigits? 2 2 (← takeChar? ':' rest)
    let (second, rest) ← takeDigits? 2 2 (← takeChar? ':' rest)
    let (micros, rest) := takeFraction rest
    let zone ← zone? rest
    some { year, month, day, clock := some (hour, minute, second, micros), zone }

/-- Whether the characters are a time. Without a clock, month and day have two digits. -/
def isTimeText (cs : List Char) : Bool :=
  match timeParts? cs with
  | some parts => parts.clock.isSome || cs.length = 10
  | none => false

/-- The value with the parts of a time, if there is such a time. -/
def TimeParts.value? (p : TimeParts) : Option Value :=
  match p.clock with
  | none => (Date.ofParts? p.year p.month p.day).map .date
  | some (hour, minute, second, micros) =>
    if 23 < hour ∨ 59 < minute ∨ 59 < second then none
    else do
      let t ← Instant.ofParts? p.year p.month p.day
        (((hour * 60 + minute) * 60 + second) * 1000000 + micros)
      match p.zone with
      | none => some (.instant t)
      | some ahead => (Zone.ofMicros? ahead).map (.zoned t ·)

/-! ## The type of a scalar without a tag -/

/-- The characters without a line feed at their end. -/
def withoutLineEnd (cs : List Char) : List Char :=
  if cs.getLast? = some '\n' then cs.dropLast else cs

/-- The type that a scalar without quotes looks like. A line feed at its end does not count, unless
it is all there is. -/
def typeOf (s : String) : Tag :=
  let cs := if s = "\n" then s.toList else withoutLineEnd s.toList
  let line := String.ofList cs
  if line ∈ nullWords then .null
  else if line ∈ boolWords then .bool
  else if line = "<<" then .merge
  else if line = "=" then .default
  else if line ∈ ["!", "&", "*"] then .unknown
  else if isFloatText cs then .float
  else if isIntText cs then .int
  else if isTimeText cs then .timestamp
  else .text

/-! ## What scalars stand for -/

/-- The characters without underscores. -/
def tight (cs : List Char) : List Char := cs.filter (· ≠ '_')

/-- The characters without the white space at both ends, which is that of numbers: without the
information separators. -/
def trimmed (cs : List Char) : List Char :=
  let isSpace (c : Char) : Bool := Text.isBlank c && !(28 ≤ c.toNat && c.toNat ≤ 31)
  ((cs.dropWhile isSpace).reverse.dropWhile isSpace).reverse

/-- The beginning that a number with a base may have. -/
def withoutBase (base : Nat) (cs : List Char) : List Char :=
  match base, cs with
  | 2, '0' :: 'b' :: rest | 2, '0' :: 'B' :: rest => rest
  | 8, '0' :: 'o' :: rest | 8, '0' :: 'O' :: rest => rest
  | 16, '0' :: 'x' :: rest | 16, '0' :: 'X' :: rest => rest
  | _, cs => cs

/-- Reads an integer in a base, with white space around it and perhaps a sign. -/
def intIn? (base : Nat) (cs : List Char) : Option Int := do
  let (negative, cs) := splitSign (trimmed cs)
  let digits ← (withoutBase base cs).mapM (digitIn? base)
  if digits = [] then none
  else
    let n := digits.foldl (fun n d => base * n + d) 0
    some (if negative then -(n : Int) else n)

/-- Reads a double, with white space around it and perhaps a sign. Letters are small. -/
def float? (cs : List Char) : Option Float :=
  let (negative, cs) := splitSign (trimmed cs)
  let size? : Option Float :=
    if String.ofList cs ∈ ["inf", "infinity"] then some (1.0 / 0.0)
    else if String.ofList cs = "nan" then some (0.0 / 0.0)
    else
      let whole := cs.takeWhile Text.isDigit
      let (fraction, rest) := match cs.dropWhile Text.isDigit with
        | '.' :: rest => (rest.takeWhile Text.isDigit, rest.dropWhile Text.isDigit)
        | rest => ([], rest)
      let exponent? : Option Int := match rest with
        | [] => some 0
        | 'e' :: rest =>
          let (negative, digits) := splitSign rest
          if digits = [] ∨ !digits.all Text.isDigit then none
          else
            let n := Text.natOfDigits digits
            some (if negative then -(n : Int) else n)
        | _ => none
      if whole ++ fraction = [] then none
      else exponent?.map fun e =>
        Decimal.ofDecimal (Text.natOfDigits (whole ++ fraction)) (e - fraction.length)
  size?.map fun x => if negative then -x else x

/-- The failure of a text that is no number or no time. -/
def badText : Fault := .raised "ValueError"

/-- The failure of a text that ends too early. -/
def shortText : Fault := .raised "IndexError"

/-- Adds digits with base 60 to a sum, the least first. `unit` is what the first of them counts. A
digit cannot be multiplied with a unit beyond the range of doubles. -/
def sumSixtieths : (sum : Float) → (unit : Nat) → List Float → Except Fault Float
  | sum, _, [] => .ok sum
  | sum, unit, x :: xs =>
    match Decimal.ofInt? unit with
    | some u => sumSixtieths (sum + x * u) (unit * 60) xs
    | none => .error (.raised "OverflowError")

/-- Reads an integer. Underscores do not count. -/
def readInt (s : String) : Except Fault Int :=
  let cs := tight s.toList
  let (negative, rest) := splitSign cs
  let size : Except Fault Int :=
    match rest with
    | [] => .error shortText
    | ['0'] => .ok 0
    | '0' :: 'b' :: rest => badText.unless (intIn? 2 rest)
    | '0' :: 'x' :: rest => badText.unless (intIn? 16 rest)
    | '0' :: _ => badText.unless (intIn? 8 rest)
    | rest =>
      (badText.unless ((Text.splitChars ':' rest).mapM (intIn? 10))).map
        (·.foldl (fun n part => 60 * n + part) 0)
  size.map fun n => if negative then -n else n

/-- Reads a double. Underscores and case do not count. -/
def readFloat (s : String) : Except Fault Float :=
  let cs := tight (Text.lower s).toList
  let (negative, rest) := splitSign cs
  if cs = [] then .error shortText
  else if String.ofList rest = ".nan" then .ok (0.0 / 0.0)
  else
    let size : Except Fault Float :=
      if String.ofList rest = ".inf" then .ok (1.0 / 0.0)
      else if rest.contains ':' then do
        let parts ← badText.unless ((Text.splitChars ':' rest).mapM float?)
        sumSixtieths 0.0 1 parts.reverse
      else badText.unless (float? rest)
    size.map fun x => if negative then -x else x

/-- Reads a truth value. -/
def readBool (s : String) : Except Fault Bool :=
  let word := Text.lower s
  if word ∈ ["yes", "true", "on"] then .ok true
  else if word ∈ ["no", "false", "off"] then .ok false
  else .error (.raised "KeyError")

/-- Reads a time. -/
def readTime (s : String) : Except Fault Value :=
  match timeParts? (withoutLineEnd s.toList) with
  | some parts => badText.unless parts.value?
  | none => .error (.raised "AttributeError")

/-- Reads digits of bytes. -/
def readBytes (s : String) : Except Fault Value :=
  if s.toList.all (·.toNat < 128) then
    match Text.decode64? s.toList with
    | some data => .ok (.bytes data)
    | none => .error .malformed
  else .error .malformed

/-- What a scalar of a type stands for. There are scalars of some types only. -/
def Tag.read (t : Tag) (s : String) : Except Fault Value :=
  match t with
  | .null => .ok .null
  | .bool => (readBool s).map .bool
  | .int => (readInt s).map .int
  | .float => (readFloat s).map .float
  | .timestamp => readTime s
  | .text => .ok (.text s)
  | .bytes => readBytes s
  | _ => .error .malformed

end GridStream.Yaml
