import GridStream.Document.Yaml.Scalar
import GridStream.Text.Character
import GridStream.Text.Search

/-!
# Pages of YAML

A page is a text that is being written, together with what later parts need to know about its
end. Long scalars are folded: where a blank falls beyond the width of the page, the line ends
instead.
-/

namespace GridStream.Yaml

/-- The column beyond which a scalar is folded. -/
def pageWidth : Nat := 80

/-- A text that is being written. -/
structure Page where
  /-- The characters, the last one first. -/
  chars : List Char := []
  /-- The number of characters in the last line. -/
  column : Nat := 0
  /-- Whether nothing need be put between the last character and the next part. -/
  apart : Bool := true
  /-- Whether the last line has nothing but indentation and the marks of collections. -/
  atIndent : Bool := true

namespace Page

/-- Adds characters of a line. -/
def put (p : Page) (cs : List Char) : Page :=
  { p with chars := cs.reverse ++ p.chars, column := p.column + cs.length }

def endLine (p : Page) : Page :=
  { chars := '\n' :: p.chars, column := 0, apart := true, atIndent := true }

/-- Goes to an indent, on a new line unless the last one can take it. -/
def goTo (p : Page) (indent : Nat) : Page :=
  let p :=
    if !p.atIndent || indent < p.column || (p.column == indent && !p.apart) then p.endLine else p
  if p.column < indent then { p.put (List.replicate (indent - p.column) ' ') with apart := true }
  else p

/-- Ends the line inside a scalar and goes on at an indent. -/
def fold (p : Page) (indent : Nat) : Page :=
  { p.goTo indent with apart := false, atIndent := false }

/-- Adds a mark, behind a blank if `spaced`. Only the marks of block collections leave the line at
its indent. -/
def mark (p : Page) (text : String) (spaced ofBlock : Bool) : Page :=
  let cs := text.toList
  { p.put (if p.apart || !spaced then cs else ' ' :: cs) with
    apart := false
    atIndent := p.atIndent && ofBlock }

/-- Adds the opening mark of a flow collection. -/
def opening (p : Page) (text : String) : Page := { p.mark text true false with apart := true }

def text (p : Page) : String := String.ofList p.chars.reverse

end Page

/-- What a part of a scalar holds. -/
inductive RunKind
  | word | blanks | breaks
  deriving DecidableEq

/-- The kind of run that a character belongs to. -/
def runKind (c : Char) : RunKind :=
  if c = ' ' then .blanks else if c = '\n' then .breaks else .word

/-- Cuts a scalar into its longest runs of blanks, of line breaks and of other characters. -/
def runs : List Char → List (RunKind × List Char)
  | [] => []
  | c :: cs =>
    match runs cs with
    | (kind, run) :: rest =>
      if kind = runKind c then (kind, c :: run) :: rest else (runKind c, [c]) :: (kind, run) :: rest
    | [] => [(runKind c, [c])]

/-- Adds the runs of a plain scalar, of which the blanks may end a line. -/
def Page.plainRuns (indent : Nat) (foldable : Bool) : List (RunKind × List Char) → Page → Page
  | [], p => p
  | (kind, run) :: rest, p =>
    plainRuns indent foldable rest <|
      if kind = .blanks ∧ run.length = 1 ∧ pageWidth < p.column ∧ foldable then p.fold indent
      else p.put run

/-- Adds a plain scalar. -/
def Page.plain (p : Page) (indent : Nat) (foldable : Bool) (text : String) : Page :=
  let p := if p.apart then p else p.put [' ']
  plainRuns indent foldable (runs text.toList) { p with apart := false, atIndent := false }

/-- Adds the runs of a scalar between single quotes. A quote is doubled, and so is the first line
break of a run. -/
def Page.singleRuns (indent : Nat) (foldable : Bool) :
    (first : Bool) → List (RunKind × List Char) → Page → Page
  | _, [], p => p
  | first, (kind, run) :: rest, p =>
    singleRuns indent foldable false rest <|
      match kind with
      | .breaks => ((run.foldl (fun p _ => p.endLine) p.endLine).goTo indent)
      | .blanks =>
        if run.length = 1 ∧ pageWidth < p.column ∧ foldable ∧ !first ∧ rest ≠ [] then p.goTo indent
        else p.put run
      | .word => p.put (run.flatMap fun c => if c = '\x27' then [c, c] else [c])

/-- Adds a scalar between single quotes. -/
def Page.single (p : Page) (indent : Nat) (foldable : Bool) (text : String) : Page :=
  (singleRuns indent foldable true (runs text.toList) (p.mark "\x27" true false)).mark
    "\x27" false false

/-- The letter of an escape, for the characters that have one. -/
def escapeLetters : List (Char × Char) :=
  [('\x00', '0'), ('\x07', 'a'), ('\x08', 'b'), ('\t', 't'), ('\n', 'n'), ('\x0b', 'v'),
    ('\x0c', 'f'), ('\r', 'r'), ('\x1b', 'e'), ('"', '"'), ('\\', '\\'), ('\u0085', 'N'),
    ('\u00a0', '_'), ('\u2028', 'L'), ('\u2029', 'P')]

/-- The escape of a character between double quotes, if it needs one. -/
def writtenEscape? (c : Char) : Option (List Char) :=
  let n := c.toNat
  match escapeLetters.find? (·.1 == c) with
  | some (_, letter) => some ['\\', letter]
  | none =>
    if 0x20 ≤ n ∧ n ≤ 0x7e then none
    else some <| String.toList <|
      if n ≤ 0xff then "\\x" ++ Text.upper (Text.hex 2 n)
      else if n ≤ 0xffff then "\\u" ++ Text.upper (Text.hex 4 n)
      else "\\U" ++ Text.upper (Text.hex 8 n)

/-- Adds the characters of a scalar between double quotes. `pending` holds characters that are not
yet on the page, the last one first. A line ends with a backslash, before a blank or behind an
escape, and a blank that begins the next line is escaped. -/
def Page.doubleChars (indent : Nat) (foldable : Bool) :
    (first : Bool) → (pending : List Char) → List Char → Page → Page
  | _, pending, [], p => p.put pending.reverse
  | first, pending, c :: rest, p =>
    let canFold := foldable && !first && rest ≠ []
    match writtenEscape? c with
    | some escaped =>
      let p := (p.put pending.reverse).put escaped
      if canFold && pageWidth + 1 < p.column then
        let p := (p.put ['\\']).fold indent
        let p := if rest.head? = some ' ' then p.put ['\\'] else p
        doubleChars indent foldable false [] rest p
      else doubleChars indent foldable false [] rest p
    | none =>
      if canFold && (c = ' ' || pending = []) && pageWidth < p.column + pending.length then
        let p := (p.put (pending.reverse ++ ['\\'])).fold indent
        doubleChars indent foldable false [c] rest (if c = ' ' then p.put ['\\'] else p)
      else doubleChars indent foldable false (c :: pending) rest p

/-- Adds a scalar between double quotes. -/
def Page.double (p : Page) (indent : Nat) (foldable : Bool) (text : String) : Page :=
  (doubleChars indent foldable true [] text.toList (p.mark "\"" true false)).mark "\"" false false

end GridStream.Yaml
