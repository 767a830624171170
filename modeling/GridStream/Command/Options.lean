import GridStream.Text.Character
import GridStream.Text.Search
import GridStream.Value.Basic

/-!
# Options of a command line

The arguments of a command are words and options. An option may be shortened as long as only one
begins with what is left of it, and may hold its value behind an equals sign. Two hyphens alone
separate the options from words that look like options.
-/

namespace GridStream.Command

/-- What an option asks for. -/
inductive OptionKind
  | help | text | integer
  deriving DecidableEq, Repr

/-- The names of options with their kinds. -/
abbrev Grammar := List (String × OptionKind)

/-- The options that every command has. -/
def helpOptions : Grammar := [("-h", .help), ("--help", .help)]

/-- An option of the grammar as it occurs in an argument. -/
structure OptionUse where
  name : String
  kind : OptionKind
  /-- The value that is part of the argument. -/
  own : Option String
  deriving DecidableEq, Repr

inductive Argument
  | word (s : String)
  | option (use : OptionUse)
  /-- Looks like an option but is none. -/
  | stray
  | separator
  deriving DecidableEq, Repr

/-- Cuts a text at its first equals sign. -/
def splitAssignment (s : String) : Option (String × String) :=
  let cs := s.toList
  match cs.dropWhile (· ≠ '=') with
  | [] => none
  | _ :: value => some (String.ofList (cs.takeWhile (· ≠ '=')), String.ofList value)

/-- The options that an argument may be a short form of. With two hyphens it is the beginning of a
name, with one a name of one letter that its value follows at once. -/
def shortForms (g : Grammar) (s : String) : List OptionUse :=
  if s.startsWith "--" then
    let (start, own) := match splitAssignment s with
      | some (start, value) => (start, some value)
      | none => (s, none)
    (g.filter fun o => o.1.startsWith start).map fun o => ⟨o.1, o.2, own⟩
  else
    let cs := s.toList
    let letter := String.ofList (cs.take 2)
    (g.filter fun o => o.1 = letter).map fun o => ⟨o.1, o.2, some (String.ofList (cs.drop 2))⟩

/-- Whether characters are digits, at least one of them, perhaps with a line feed at the end. -/
def isDigitLine (cs : List Char) : Bool :=
  let digits := if cs.getLast? = some '\n' then cs.dropLast else cs
  digits ≠ [] && digits.all Text.isDigit

/-- Whether an argument is a negative number. -/
def isNegativeNumber (s : String) : Bool :=
  match s.toList with
  | '-' :: cs =>
    isDigitLine cs ||
      match cs.dropWhile Text.isDigit with
      | '.' :: fraction => isDigitLine fraction
      | _ => false
  | _ => false

/-- What an argument in front of a separator is, `none` if more than one option may be meant. -/
def classify? (g : Grammar) (s : String) : Option Argument :=
  if !s.startsWith "-" then some (.word s)
  else
    match g.find? (·.1 == s) with
    | some (name, kind) => some (.option ⟨name, kind, none⟩)
    | none =>
      if s = "-" then some (.word s)
      else
        let assigned := (splitAssignment s).bind fun (start, value) =>
          (g.find? (·.1 == start)).map fun o => Argument.option ⟨o.1, o.2, some value⟩
        match assigned with
        | some use => some use
        | none =>
          match shortForms g s with
          | [use] => some (.option use)
          | [] =>
            some (if isNegativeNumber s || s.toList.contains ' ' then .word s else .stray)
          | _ => none

/-- What the arguments are. Behind a separator all of them are words. -/
def classifyAll? (g : Grammar) : List String → Option (List Argument)
  | [] => some []
  | s :: rest =>
    if s = "--" then some (.separator :: rest.map .word)
    else do
      let first ← classify? g s
      let others ← classifyAll? g rest
      some (first :: others)

/-- Whether there is something other than underscores at both ends, and no two underscores stand
side by side. -/
def groupsDigits : (behindDigit : Bool) → List Char → Bool
  | behindDigit, [] => behindDigit
  | behindDigit, c :: cs =>
    if c = '_' then behindDigit && groupsDigits false cs
    else groupsDigits true cs

/-- Reads an integer of any script, perhaps with a sign, blanks around it, and underscores between
its digits. More digits than 4300 are refused. -/
def integer? (s : String) : Option Int :=
  let (negative, cs) := match Text.stripChars s.toList with
    | '-' :: cs => (true, cs)
    | '+' :: cs => (false, cs)
    | cs => (false, cs)
  let digits := cs.filter (· ≠ '_')
  if groupsDigits false cs && digits.all Text.isDigit && digits.length ≤ 4300 then
    let n : Int := Text.natOfDigits digits
    some (if negative then -n else n)
  else none

/-- The value of an option. A separator that is given as a value is taken out and leaves an empty
list. -/
def optionValue? (kind : OptionKind) (s : String) : Option Value :=
  if s = "--" then some (.list [])
  else
    match kind with
    | .integer => (integer? s).map .int
    | _ => some (.text s)

/-- What the arguments of a command say. -/
structure Reading where
  /-- The first word, if the command takes one. -/
  word : Option String := none
  options : List (String × Value) := []
  /-- Whether there are arguments of which the command makes no use. -/
  surplus : Bool := false

/-- What comes of reading arguments. -/
inductive Parsed (α : Type)
  | help
  | misuse
  | ok (a : α)

/-- Whether letters behind an option that asks for help ask for it too. -/
def isHelpCluster (g : Grammar) (letters : String) : Bool :=
  letters.toList.all fun c => g.contains (String.ofList ['-', c], OptionKind.help)

/-- Reads arguments one after the other. `wanted` tells whether a word is still missing. -/
def readFrom (g : Grammar) : (wanted : Bool) → Reading → List Argument → Parsed Reading
  | _, r, [] => .ok r
  | true, r, .word s :: .separator :: rest =>
    readFrom g false { r with word := some s, surplus := r.surplus || rest ≠ [] } []
  | true, r, .separator :: .word s :: rest =>
    readFrom g false { r with word := some s, surplus := r.surplus || rest ≠ [] } []
  | true, r, .word s :: rest => readFrom g false { r with word := some s } rest
  | false, r, .word _ :: rest => readFrom g false { r with surplus := true } rest
  | _, r, .separator :: _ => .ok { r with surplus := true }
  | wanted, r, .stray :: rest => readFrom g wanted { r with surplus := true } rest
  | wanted, r, .option ⟨name, kind, own⟩ :: rest =>
    match kind, own, rest with
    | .help, none, _ => .help
    | .help, some letters, _ =>
      if !name.startsWith "--" && letters ≠ "" && isHelpCluster g letters then .help else .misuse
    | kind, some s, rest =>
      match optionValue? kind s with
      | some v => readFrom g wanted { r with options := r.options ++ [(name, v)] } rest
      | none => .misuse
    | kind, none, .word s :: rest =>
      match optionValue? kind s with
      | some v => readFrom g wanted { r with options := r.options ++ [(name, v)] } rest
      | none => .misuse
    | _, none, _ => .misuse

/-- Reads the arguments of a command. A word that the command takes must be there. -/
def readArguments (g : Grammar) (takesWord : Bool) (args : List String) : Parsed Reading :=
  match classifyAll? g args with
  | none => .misuse
  | some parts =>
    match readFrom g takesWord {} parts with
    | .ok r => if takesWord && r.word.isNone then .misuse else .ok r
    | other => other

/-- The value of an option that was given last, null if it was not given. -/
def Reading.option (r : Reading) (name : String) : Value :=
  ((r.options.reverse.find? (·.1 == name)).map (·.2)).getD .null

end GridStream.Command
