import GridStream.Document.Yaml.Input

/-!
# Tokens of YAML

The first stage of reading takes a text apart into tokens. Indentation becomes tokens of its own: a
collection in block style is opened by its first entry and closed by the first line that is less
indented. A scalar turns out to be a key only at the colon behind it, so that a place is kept free
in front of everything that may be a key. Anchors, tags and aliases are tokens in front of a node or
in its place; a directive stands on a line of its own in front of the document.

Nothing is taken before it is asked for. So a text that cannot be taken apart to its end may be
found wrong earlier, by what asks for its tokens, and the fault is a token where they end.
-/

namespace GridStream.Yaml

/-- What a directive says. -/
inductive Directive
  /-- The version of the format that the document is written in. -/
  | version (major : Nat)
  /-- What a handle stands for in front of tags. -/
  | handle (name start : String)
  /-- Something that readers pass over. -/
  | reserved
  deriving DecidableEq, Repr

inductive Token
  | directive (d : Directive)
  | documentStart | documentEnd
  | blockSequenceStart | blockMappingStart | blockEnd
  | flowSequenceStart | flowSequenceEnd | flowMappingStart | flowMappingEnd
  | blockEntry | flowEntry
  | key | value
  | reference (name : String)
  | anchor (name : String)
  | tag (handle : Option String) (suffix : String)
  | scalar (text : String) (plain : Bool)
  | broken (f : Fault)
  deriving DecidableEq, Repr

/-- Reads a directive behind its first character, up to the end of its line. -/
def directiveText (i : Input) : Option (Directive × Input) := do
  let (name, i) ← nameText i
  if !endsPart i then none
  else if name = "YAML" then
    let i := i.skip (· = ' ')
    let major := i.rest.takeWhile Text.isPlainDigit
    let i := i.forward major.length
    let minor := i.step.rest.takeWhile Text.isPlainDigit
    if major = [] ∨ i.peek 0 ≠ some '.' ∨ minor = [] then none
    else
      let i ← restOfLine (i.forward (minor.length + 1))
      some (.version (Text.natOfDigits major), i)
  else if name = "TAG" then
    let (handle, i) ← handleText (i.skip (· = ' '))
    if i.peek 0 ≠ some ' ' then none
    else
      let (start, i) ← tagText (i.skip (· = ' '))
      let i ← restOfLine i
      some (.handle handle start, i)
  else
    let i ← restOfLine (i.skip (!isBreak ·))
    some (.reserved, i)

/-! ## The scanner -/

/-- A place that a key may begin at. -/
structure PendingKey where
  /-- The position of the free place in the list of tokens. -/
  place : Nat
  /-- Whether there must be a key. -/
  required : Bool
  index : Nat
  line : Nat
  column : Nat

/-- The state of taking a text apart. -/
structure Scan where
  input : Input
  /-- The tokens so far; the free places of keys hold none. -/
  places : Array (List Token) := #[]
  /-- The number of flow collections around the current place. -/
  flow : Nat := 0
  /-- The indentation of the current block collection. -/
  indent : Int := -1
  /-- The indentations of the collections around it. -/
  outer : List Int := []
  /-- Whether a key may begin here. -/
  keyAllowed : Bool := true
  /-- The places of possible keys by the number of flow collections around them. -/
  keys : List (Nat × PendingKey) := []

namespace Scan

/-- Adds a token. -/
def push (s : Scan) (t : Token) : Scan := { s with places := s.places.push [t] }

/-- Passes over blanks, comments and line ends up to the next token. -/
def skipGaps : (steps : Nat) → Scan → Scan
  | 0, s => s
  | steps + 1, s =>
    let i := s.input.skip (· = ' ')
    let i := if i.peek 0 == some '#' then i.skip (!isBreak ·) else i
    match i.rest with
    | [] => { s with input := i }
    | c :: _ =>
      if isBreak c then
        skipGaps steps { s with input := i.step, keyAllowed := s.keyAllowed || s.flow == 0 }
      else { s with input := i }

/-- Gives up the possible keys that are too far back. A required one must not be given up. -/
def dropStale (s : Scan) : Option Scan :=
  let isStale (k : PendingKey) : Bool :=
    k.line != s.input.line || 1024 < s.input.index - k.index
  if s.keys.any fun (_, k) => isStale k && k.required then none
  else some { s with keys := s.keys.filter fun (_, k) => !isStale k }

/-- Gives up the possible key of the current collection. -/
def dropKey (s : Scan) : Option Scan :=
  if s.keys.any fun (level, k) => level == s.flow && k.required then none
  else some { s with keys := s.keys.filter fun (level, _) => level != s.flow }

/-- Remembers that a key may begin here. -/
def saveKey (s : Scan) : Option Scan :=
  if !s.keyAllowed then some s
  else do
    let s ← s.dropKey
    let i := s.input
    let required := s.flow == 0 && s.indent == i.column
    let key : PendingKey := ⟨s.places.size, required, i.index, i.line, i.column⟩
    some { s with places := s.places.push [], keys := (s.flow, key) :: s.keys }

/-- Closes the block collections that are indented by more than `column`. -/
def closeTo (column : Int) : (outer : List Int) → Scan → Scan
  | [], s => s
  | indent :: outer, s =>
    if column < s.indent then closeTo column outer { s.push .blockEnd with indent, outer } else s

/-- Closes the block collections that are indented by more than `column`. -/
def unwind (s : Scan) (column : Int) : Scan :=
  if s.flow = 0 then closeTo column s.outer s else s

/-- Opens a block collection, if `column` is indented by more than the current one. The tokens of
its beginning are returned. -/
def openBlock (s : Scan) (column : Nat) (start : Token) : List Token × Scan :=
  if s.indent < column then
    ([start], { s with indent := column, outer := s.indent :: s.outer })
  else ([], s)

/-- Takes a directive. -/
def directive (s : Scan) : Option Scan := do
  let s ← (s.unwind (-1)).dropKey
  let (d, i) ← directiveText s.input.step
  some { s.push (.directive d) with keyAllowed := false, input := i }

/-- Begins or ends a document. -/
def marker (s : Scan) (t : Token) : Option Scan := do
  let s ← (s.unwind (-1)).dropKey
  some { s.push t with keyAllowed := false, input := s.input.forward 3 }

/-- Begins a flow collection. -/
def flowStart (s : Scan) (t : Token) : Option Scan := do
  let s ← s.saveKey
  some { s.push t with flow := s.flow + 1, keyAllowed := true, input := s.input.step }

/-- Ends a flow collection. -/
def flowEnd (s : Scan) (t : Token) : Option Scan := do
  let s ← s.dropKey
  if s.flow = 0 then none
  else some { s.push t with flow := s.flow - 1, keyAllowed := false, input := s.input.step }

/-- Separates the entries of a flow collection. -/
def flowEntry (s : Scan) : Option Scan := do
  let s ← s.dropKey
  some { s.push .flowEntry with keyAllowed := true, input := s.input.step }

/-- Begins an entry of a block sequence, or a key that is marked as such. -/
def blockMark (s : Scan) (start t : Token) (allowed : Bool) : Option Scan := do
  if s.flow = 0 ∧ !s.keyAllowed then none
  else
    let (tokens, s) := if s.flow = 0 then s.openBlock s.input.column start else ([], s)
    let s := { s with places := s.places.push tokens }
    let s ← s.dropKey
    some { s.push t with keyAllowed := allowed, input := s.input.step }

/-- Begins a value. What stands before the colon turns out to be a key, if it can be one. -/
def value (s : Scan) : Option Scan :=
  match s.keys.find? fun (level, _) => level == s.flow with
  | some (_, key) =>
    let s := { s with keys := s.keys.filter fun (level, _) => level != s.flow }
    let (tokens, s) :=
      if s.flow = 0 then s.openBlock key.column .blockMappingStart else ([], s)
    let s := { s with places := s.places.modify key.place fun _ => tokens ++ [Token.key] }
    some { s.push .value with keyAllowed := false, input := s.input.step }
  | none => s.blockMark .blockMappingStart .value (s.flow == 0)

/-- Takes the name of an anchor or an alias behind its mark. -/
def name (s : Scan) (t : String → Token) : Option Scan := do
  let s ← s.saveKey
  let (name, i) ← anchorText s.input.step
  some { s.push (t name) with keyAllowed := false, input := i }

/-- Takes a tag. -/
def tag (s : Scan) : Option Scan := do
  let s ← s.saveKey
  let ((handle, suffix), i) ← tagParts s.input
  some { s.push (.tag handle suffix) with keyAllowed := false, input := i }

/-- Takes a block scalar. It cannot be a key, but one may follow it. -/
def block (s : Scan) (isFolded : Bool) : Option Scan := do
  let s ← s.dropKey
  let (text, i) ← blockText isFolded s.indent s.input.step
  some { s.push (.scalar (String.ofList text) false) with keyAllowed := true, input := i }

/-- Takes a quoted scalar. -/
def quoted (s : Scan) (mark : Char) : Except Fault Scan := do
  let s ← Fault.malformed.unless s.saveKey
  let (text, i) ← quotedText mark (s.input.rest.length + 1) s.input.step
  return { s.push (.scalar (String.ofList text) false) with keyAllowed := false, input := i }

/-- Takes a plain scalar. -/
def plain (s : Scan) : Option Scan := do
  let s ← s.saveKey
  let (text, ended, i) := plainText (s.flow != 0) (s.indent + 1) s.input.rest.length s.input
  some { s.push (.scalar (String.ofList text) true) with keyAllowed := ended, input := i }

/-- Whether a plain scalar can begin with a character. -/
def beginsPlain (flow : Bool) (c : Char) (next : Option Char) : Bool :=
  !(isGap (some c) || "-?:,[]\x7b\x7d#&*!|>'\"%@\x60".contains c) ||
    (!isGap next && (c = '-' || (!flow && (c = '?' || c = ':'))))

/-- Takes the next token, which begins with `c` and is no quoted scalar. -/
def unquoted (s : Scan) (c : Char) : Option Scan :=
  let i := s.input
  let inFlow := s.flow != 0
  let apart := isGap (i.peek 1)
  if c = '%' ∧ i.column = 0 then s.directive
  else if i.column = 0 ∧ i.isTriple '-' then s.marker .documentStart
  else if i.column = 0 ∧ i.isTriple '.' then s.marker .documentEnd
  else if c = '[' then s.flowStart .flowSequenceStart
  else if c = '{' then s.flowStart .flowMappingStart
  else if c = ']' then s.flowEnd .flowSequenceEnd
  else if c = '}' then s.flowEnd .flowMappingEnd
  else if c = ',' then s.flowEntry
  else if c = '-' ∧ apart then s.blockMark .blockSequenceStart .blockEntry true
  else if c = '?' ∧ (inFlow ∨ apart) then s.blockMark .blockMappingStart .key (!inFlow)
  else if c = ':' ∧ (inFlow ∨ apart) then s.value
  else if c = '*' then s.name .reference
  else if c = '&' then s.name .anchor
  else if c = '!' then s.tag
  else if (c = '|' ∨ c = '>') ∧ !inFlow then s.block (c = '>')
  else if beginsPlain inFlow c (i.peek 1) then s.plain
  else none

/-- Takes the next token, which begins with `c`. -/
def token (s : Scan) (c : Char) : Except Fault Scan :=
  if c = '\x27' ∨ c = '"' then s.quoted c else Fault.malformed.unless (s.unquoted c)

/-- All tokens. -/
def tokens (s : Scan) : List Token := s.places.toList.flatten

/-- The tokens in front of a fault. What stands behind a possible key is not given out before it is
known whether it is one. -/
def brokenBy (s : Scan) (f : Fault) : List Token :=
  let given := (s.keys.map fun (_, key) => key.place).foldl min s.places.size
  (s.places.toList.take given).flatten ++ [.broken f]

/-- Takes tokens up to the end of the text. Every step but the last passes over a character. -/
def run : (steps : Nat) → Scan → List Token
  | 0, s => s.brokenBy .malformed
  | steps + 1, s =>
    match (skipGaps (s.input.rest.length + 1) s).dropStale with
    | none => s.brokenBy .malformed
    | some s =>
      let s := s.unwind s.input.column
      match s.input.rest with
      | [] => ((s.unwind (-1)).dropKey.map tokens).getD (s.brokenBy .malformed)
      | c :: _ =>
        match s.token c with
        | .ok s => run steps s
        | .error f => s.brokenBy f

end Scan

/-- Whether a character may occur in a text. -/
def isAllowed (c : Char) : Bool :=
  let n := c.toNat
  c = '\t' || c = '\n' || c = '\r' || (0x20 ≤ n && n ≤ 0x7e) || n == 0x85 ||
    (0xa0 ≤ n && n ≤ 0xd7ff) || (0xe000 ≤ n && n ≤ 0xfffd) || 0x10000 ≤ n

/-- The tokens of a text. Lines end with line feeds. -/
def tokensOf (s : String) : List Token :=
  let cs := s.toList
  if cs.all isAllowed then
    let cs := match cs with
      | '\ufeff' :: cs => cs
      | cs => cs
    Scan.run (cs.length + 1) { input := { rest := cs } }
  else [.broken .malformed]

end GridStream.Yaml
