import GridStream.Document.Basic
import GridStream.Text.Character

/-!
# Reading from a text of YAML

A scanner passes over a text from front to back and keeps track of lines and columns. This module
has what it takes off the text: plain, quoted and block scalars, names, and the parts of tags.
Whatever is longer than a line is folded as the format says. A text holds characters only, so that
an escape for half of a surrogate pair becomes the replacement character.
-/

namespace GridStream.Yaml

/-- Whether a character ends a line. -/
def isBreak (c : Char) : Bool :=
  c = '\n' || c = '\x85' || c = '\u2028' || c = '\u2029'

/-- The character that stands for a line's end in a scalar. -/
def breakChar (c : Char) : Char := if c = '\u2028' ∨ c = '\u2029' then c else '\n'

/-- Whether a character, or the end of the text, separates tokens. -/
def isGap : Option Char → Bool
  | none => true
  | some c => c = ' ' || c = '\t' || isBreak c

/-- The rest of a text with the place where it begins. -/
structure Input where
  rest : List Char
  index : Nat := 0
  line : Nat := 0
  column : Nat := 0

namespace Input

/-- Passes over a character. -/
def step (i : Input) : Input :=
  match i.rest with
  | [] => i
  | c :: rest =>
    if isBreak c then ⟨rest, i.index + 1, i.line + 1, 0⟩
    else ⟨rest, i.index + 1, i.line, if c = '\ufeff' then i.column else i.column + 1⟩

/-- Passes over some characters. -/
def forward (i : Input) : Nat → Input
  | 0 => i
  | n + 1 => i.step.forward n

/-- Passes over the characters of a kind. -/
def skip (i : Input) (p : Char → Bool) : Input := i.forward (i.rest.takeWhile p).length

/-- The character at a distance. -/
def peek (i : Input) (n : Nat) : Option Char := i.rest[n]?

/-- Whether three equal characters stand by themselves. -/
def isTriple (i : Input) (c : Char) : Bool := i.rest.take 3 == [c, c, c] && isGap (i.peek 3)

/-- Whether a document begins or ends here. -/
def atMarker (i : Input) : Bool := i.isTriple '-' || i.isTriple '.'

end Input

/-- Folds lines: a single line's end becomes a space, of several the first is left out. -/
def folded (first : Char) (breaks : List Char) : List Char :=
  if breakChar first ≠ '\n' then breakChar first :: breaks
  else if breaks = [] then [' ']
  else breaks

/-! ## Plain scalars -/

/-- Whether a plain scalar's word ends before a character. -/
def endsWord (flow : Bool) (c : Char) (next : Option Char) : Bool :=
  isGap (some c) ||
    (c = ':' && (isGap next || (flow && next.any (· ∈ [',', '[', ']', '{', '}'])))) ||
    (flow && c ∈ [',', '?', '[', ']', '{', '}'])

/-- The word that a plain scalar begins with. -/
def wordOf (flow : Bool) : List Char → List Char
  | [] => []
  | c :: cs => if endsWord flow c cs.head? then [] else c :: wordOf flow cs

/-- Empty lines inside a plain scalar. There is none where a document begins or ends. -/
def plainBreaks : (steps : Nat) → Input → Option (List Char) × Input
  | 0, i => (some [], i)
  | steps + 1, i =>
    match i.rest with
    | [] => (some [], i)
    | c :: _ =>
      if c = ' ' then plainBreaks steps i.step
      else if isBreak c then
        if i.step.atMarker then (none, i.step)
        else
          let (breaks, j) := plainBreaks steps i.step
          (breaks.map (breakChar c :: ·), j)
      else (some [], i)

/-- What stands between two words of a plain scalar, whether a line ends in it, and the rest. -/
def plainGap (i : Input) : List Char × Bool × Input :=
  let blanks := i.rest.takeWhile (· = ' ')
  let j := i.forward blanks.length
  match j.rest with
  | [] => (blanks, false, j)
  | c :: _ =>
    if isBreak c then
      if j.step.atMarker then ([], true, j.step)
      else
        match plainBreaks j.rest.length j.step with
        | (none, k) => ([], true, k)
        | (some breaks, k) => (folded c breaks, true, k)
    else (blanks, false, j)

/-- A plain scalar, whether it ends with a line, and the rest. It goes on over lines that are
indented by at least `indent`. -/
def plainText (flow : Bool) (indent : Int) : (steps : Nat) → Input → List Char × Bool × Input
  | 0, i => ([], false, i)
  | steps + 1, i =>
    let word := wordOf flow i.rest
    let (gap, ended, j) := plainGap (i.forward word.length)
    let stops := gap = [] || j.peek 0 == some '#' || (!flow && j.column < indent) ||
      wordOf flow j.rest = []
    if stops then (word, ended, j)
    else
      let (more, ended, k) := plainText flow indent steps j
      (word ++ gap ++ more, ended, k)

/-! ## Quoted scalars -/

/-- Empty lines inside a quoted scalar. It is an error if a document begins or ends there. -/
def quotedBreaks : (steps : Nat) → Input → Option (List Char × Input)
  | 0, _ => none
  | steps + 1, i =>
    if i.atMarker then none
    else
      let j := i.skip fun c => c = ' ' || c = '\t'
      match j.rest with
      | [] => some ([], j)
      | c :: _ =>
        if isBreak c then (quotedBreaks steps j.step).map fun (cs, k) => (breakChar c :: cs, k)
        else some ([], j)

/-- The character that an escape of one letter stands for. -/
def shortEscape? (c : Char) : Option Char :=
  match c with
  | '0' => some '\x00'
  | 'a' => some '\x07'
  | 'b' => some '\x08'
  | 't' | '\t' => some '\t'
  | 'n' => some '\n'
  | 'v' => some '\x0b'
  | 'f' => some '\x0c'
  | 'r' => some '\r'
  | 'e' => some '\x1b'
  | ' ' | '"' | '\\' | '/' => some c
  | 'N' => some '\x85'
  | '_' => some '\xa0'
  | 'L' => some '\u2028'
  | 'P' => some '\u2029'
  | _ => none

/-- The number of hexadecimal digits of an escape. -/
def escapeWidth? (c : Char) : Option Nat :=
  match c with
  | 'x' => some 2
  | 'u' => some 4
  | 'U' => some 8
  | _ => none

/-- The number that hexadecimal digits spell, if there are as many as asked for. -/
def hexNumber? (width : Nat) (digits : List Char) : Option Nat :=
  if digits.length < width then none
  else (digits.mapM Text.hexValue?).map (·.foldl (fun n d => 16 * n + d) 0)

/-- The character of a code point. A number beyond all code points ends reading. -/
def charOf (n : Nat) : Except Fault Char :=
  if n.isValidChar then .ok (Char.ofNat n)
  else if n < 0x110000 then .ok '\ufffd'
  else if n < 0x80000000 then .error (.raised "ValueError")
  else .error (.raised "OverflowError")

/-- The characters of an escape behind its backslash, with the rest. -/
def escape (i : Input) : Except Fault (List Char × Input) :=
  match i.rest with
  | [] => .error .malformed
  | c :: _ =>
    match shortEscape? c, escapeWidth? c with
    | some d, _ => .ok ([d], i.step)
    | none, some width => do
      let n ← Fault.malformed.unless (hexNumber? width (i.step.rest.take width))
      return ([← charOf n], i.step.forward width)
    | none, none =>
      if isBreak c then Fault.malformed.unless (quotedBreaks (i.rest.length + 1) i.step)
      else .error .malformed

/-- A quoted scalar up to its closing mark, with the rest. -/
def quotedText (mark : Char) : (steps : Nat) → Input → Except Fault (List Char × Input)
  | 0, _ => .error .malformed
  | steps + 1, i =>
    match i.rest with
    | [] => .error .malformed
    | c :: _ =>
      let behind (cs : List Char) (j : Input) : Except Fault (List Char × Input) :=
        (quotedText mark steps j).map fun (more, k) => (cs ++ more, k)
      if c = mark then
        if mark = '\x27' && i.peek 1 == some mark then behind [mark] (i.forward 2)
        else .ok ([], i.step)
      else if c = '\\' && mark = '"' then do
        let (cs, j) ← escape i.step
        behind cs j
      else if c = ' ' || c = '\t' || isBreak c then
        let j := i.skip fun c => c = ' ' || c = '\t'
        match j.rest with
        | [] => .error .malformed
        | d :: _ =>
          if isBreak d then do
            let (breaks, k) ← Fault.malformed.unless (quotedBreaks (j.rest.length + 1) j.step)
            behind (folded d breaks) k
          else behind (i.rest.take (j.index - i.index)) j
      else behind [c] i.step

/-! ## Block scalars -/

/-- What becomes of the line ends behind the text of a block scalar. -/
inductive Chomping
  | strip | clip | keep
  deriving DecidableEq, Repr

/-- The marks behind the first character of a block scalar: what becomes of the line ends behind it,
and its indentation if that is set. They may stand in either order. -/
def blockMarks (i : Input) : Option (Chomping × Option Nat × Input) :=
  let chomping (i : Input) : Option Chomping × Input :=
    match i.peek 0 with
    | some '+' => (some .keep, i.step)
    | some '-' => (some .strip, i.step)
    | _ => (none, i)
  let width (i : Input) : Option (Option Nat × Input) :=
    match i.peek 0 with
    | some c =>
      if Text.isPlainDigit c then if c = '0' then none else some (some (c.toNat - 48), i.step)
      else some (none, i)
    | none => some (none, i)
  let (before, i) := chomping i
  (width i).map fun (width, i) =>
    let (behind, i) := if before.isSome ∨ width.isNone then (none, i) else chomping i
    ((before.or behind).getD .clip, width, i)

/-- Whether a blank or the end of a line, or of the text, comes next. -/
def endsPart (i : Input) : Bool :=
  match i.peek 0 with
  | none => true
  | some c => c = ' ' || isBreak c

/-- Passes over blanks and a comment behind them up to the end of the line, which must follow. -/
def restOfLine (i : Input) : Option Input :=
  if !endsPart i then none
  else
    let i := i.skip (· = ' ')
    let i := if i.peek 0 == some '#' then i.skip (!isBreak ·) else i
    match i.rest with
    | [] => some i
    | c :: _ => if isBreak c then some i.step else none

/-- The empty lines in front of a block scalar whose indentation is not set, and the greatest column
that their blanks and those of the first line reach. -/
def leadingBreaks : (steps column : Nat) → Input → List Char × Nat × Input
  | 0, column, i => ([], column, i)
  | steps + 1, column, i =>
    match i.rest with
    | [] => ([], column, i)
    | c :: _ =>
      if c = ' ' then leadingBreaks steps (max column i.step.column) i.step
      else if isBreak c then
        let (breaks, column, j) := leadingBreaks steps column i.step
        (breakChar c :: breaks, column, j)
      else ([], column, i)

/-- Passes over blanks up to a column. -/
def toColumn (indent : Nat) (i : Input) : Input :=
  i.forward (min (indent - i.column) (i.rest.takeWhile (· = ' ')).length)

/-- The empty lines inside or behind a block scalar. -/
def blockBreaks (indent : Nat) : (steps : Nat) → Input → List Char × Input
  | 0, i => ([], i)
  | steps + 1, i =>
    let i := toColumn indent i
    match i.rest with
    | [] => ([], i)
    | c :: _ =>
      if isBreak c then
        let (breaks, j) := blockBreaks indent steps i.step
        (breakChar c :: breaks, j)
      else ([], i)

/-- What a block scalar consists of. -/
structure BlockText where
  /-- The text up to the end of its last line. -/
  text : List Char := []
  /-- The end of the last line, if there is one. -/
  lineEnd : List Char := []
  /-- The empty lines behind it. -/
  breaks : List Char
  rest : Input

/-- The lines of a block scalar, with the empty lines in front of them. In a folded one the end of a
line becomes a space where neither it nor the next line begins with a blank. -/
def blockLines (isFolded : Bool) (indent : Nat) :
    (steps : Nat) → (breaks : List Char) → Input → BlockText
  | 0, breaks, i => { breaks, rest := i }
  | steps + 1, breaks, i =>
    if i.column ≠ indent ∨ i.rest = [] then { breaks, rest := i }
    else
      let isText (i : Input) : Bool := i.peek 0 != some ' ' && i.peek 0 != some '\t'
      let line := i.rest.takeWhile (!isBreak ·)
      let j := i.forward line.length
      let lineEnd := (j.rest.take 1).map breakChar
      let (behind, k) := blockBreaks indent (j.rest.length + 1) j.step
      if k.column ≠ indent ∨ k.rest = [] then
        { text := breaks ++ line, lineEnd, breaks := behind, rest := k }
      else
        let between :=
          if isFolded && lineEnd == ['\n'] && isText i && isText k then
            if behind = [] then [' '] else []
          else lineEnd
        let b := blockLines isFolded indent steps behind k
        { b with text := breaks ++ line ++ between ++ b.text }

/-- A block scalar behind its first character, with the rest. It is indented by more than the
collection that it is in, whose indentation is `outer`. -/
def blockText (isFolded : Bool) (outer : Int) (i : Input) : Option (List Char × Input) := do
  let (chomping, width, i) ← blockMarks i
  let i ← restOfLine i
  let least := (max (outer + 1) 1).toNat
  let steps := i.rest.length + 1
  let (breaks, indent, i) := match width with
    | some width =>
      let indent := least + width - 1
      let (breaks, j) := blockBreaks indent steps i
      (breaks, indent, j)
    | none =>
      let (breaks, column, j) := leadingBreaks steps 0 i
      (breaks, max least column, j)
  let b := blockLines isFolded indent steps breaks i
  let ends := match chomping with
    | .strip => []
    | .clip => b.lineEnd
    | .keep => b.lineEnd ++ b.breaks
  some (b.text ++ ends, b.rest)

/-! ## Names and tags -/

/-- Whether a character may stand in a name. -/
def isNameChar (c : Char) : Bool := c.isAlphanum || c = '-' || c = '_'

/-- A name, which must not be empty, with the rest. -/
def nameText (i : Input) : Option (String × Input) :=
  match i.rest.takeWhile isNameChar with
  | [] => none
  | cs => some (String.ofList cs, i.forward cs.length)

/-- The name of an anchor. Only some characters may follow it. -/
def anchorText (i : Input) : Option (String × Input) := do
  let (name, j) ← nameText i
  if isGap (j.peek 0) ∨ (j.peek 0).any ("?:,]\x7d%@\x60".contains ·) then some (name, j) else none

/-- Whether a character may stand in a tag. -/
def isTagChar (c : Char) : Bool := c.isAlphanum || "-;/?:@&=+$,_.!~*'()[]".contains c

/-- The bytes that escapes with a percent sign stand for, with the rest. -/
def escapedBytes : (steps : Nat) → Input → Option (List UInt8 × Input)
  | 0, i => some ([], i)
  | steps + 1, i =>
    match i.rest with
    | '%' :: high :: low :: _ => do
      let byte := 16 * (← Text.hexValue? high) + (← Text.hexValue? low)
      let (bytes, j) ← escapedBytes steps (i.forward 3)
      some (UInt8.ofNat byte :: bytes, j)
    | '%' :: _ => none
    | _ => some ([], i)

/-- The characters of a tag or of what it begins with, with the rest. Escapes that follow each other
stand for the bytes of characters. -/
def tagChars : (steps : Nat) → Input → Option (List Char × Input)
  | 0, i => some ([], i)
  | steps + 1, i =>
    match i.rest with
    | [] => some ([], i)
    | c :: _ =>
      if c = '%' then do
        let (bytes, j) ← escapedBytes i.rest.length i
        let text ← String.fromUTF8? ⟨bytes.toArray⟩
        let (more, k) ← tagChars steps j
        some (text.toList ++ more, k)
      else if isTagChar c then
        (tagChars steps i.step).map fun (more, k) => (c :: more, k)
      else some ([], i)

/-- The text of a tag, which must have a character or an escape, with the rest. -/
def tagText (i : Input) : Option (String × Input) :=
  match tagChars i.rest.length i with
  | some (cs, j) => if j.index = i.index then none else some (String.ofList cs, j)
  | none => none

/-- The handle that a tag begins with: a name between exclamation marks, or no more than one of
them in front of a blank. -/
def handleText (i : Input) : Option (String × Input) :=
  if i.peek 0 != some '!' then none
  else if i.peek 1 == some ' ' then some ("!", i.step)
  else
    let name := i.step.rest.takeWhile isNameChar
    if i.step.peek name.length != some '!' then none
    else some ("!" ++ String.ofList name ++ "!", i.forward (name.length + 2))

/-- A tag, with the rest: its handle, which a tag between angle brackets lacks, and its suffix. -/
def tagParts (i : Input) : Option ((Option String × String) × Input) := do
  let (parts, j) ←
    if i.peek 1 == some '<' then do
      let (suffix, j) ← tagText (i.forward 2)
      if j.peek 0 == some '>' then some ((none, suffix), j.step) else none
    else if isGap (i.peek 1) then some ((none, "!"), i.step)
    else do
      let word := i.step.rest.takeWhile fun c => !(c = ' ' || isBreak c)
      let (handle, j) ← if word.contains '!' then handleText i else some ("!", i.step)
      let (suffix, j) ← tagText j
      some ((some handle, suffix), j)
  if endsPart j then some (parts, j) else none

end GridStream.Yaml
