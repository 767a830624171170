import GridStream.Value.Text

/-!
# Writing JSON

Documents are written with one entry or item a line, each level indented by two spaces, and in
ASCII alone. Bytes, dates, times, spans and sets have no written form.
-/

namespace GridStream.Json

/-- The escape of a number of 16 bits. -/
def escapeOf (n : Nat) : String := "\\u" ++ Text.hex 4 n

/-- How a character is written inside a text. A character beyond 16 bits is written as a pair of
surrogates. -/
def escaped (c : Char) : String :=
  match c with
  | '"' => "\\\""
  | '\\' => "\\\\"
  | '\n' => "\\n"
  | '\r' => "\\r"
  | '\t' => "\\t"
  | '\x08' => "\\b"
  | '\x0c' => "\\f"
  | c =>
    let n := c.toNat
    if 0x20 ≤ n ∧ n ≤ 0x7e then c.toString
    else if n < 0x10000 then escapeOf n
    else
      let n := n - 0x10000
      escapeOf (0xD800 + n / 1024) ++ escapeOf (0xDC00 + n % 1024)

/-- A text between quotation marks. -/
def quoted (s : String) : String := "\"" ++ String.join (s.toList.map escaped) ++ "\""

/-- A double, with a word for what is no number. -/
def floatText (x : Float) : String :=
  match Decimal.Parts.ofFloat x with
  | .nan => "NaN"
  | .infinite negative => if negative then "-Infinity" else "Infinity"
  | .finite .. => Decimal.shortest x

/-- The text that stands for a key, `none` if the value cannot be a key. -/
def keyText? : Value → Option String
  | .text s => some s
  | .null => some "null"
  | .bool b => some (if b then "true" else "false")
  | .int n => some (toString n)
  | .float x => some (floatText x)
  | _ => none

/-- The beginning of a line at a level. -/
def lineStart (level : Nat) : String := "\n" ++ String.ofList (List.replicate (2 * level) ' ')

/-- Writes the parts of a composed value, each on a line of its own. -/
def block (opening closing : String) (level : Nat) (parts : List String) : String :=
  match parts with
  | [] => opening ++ closing
  | parts =>
    let start := lineStart (level + 1)
    opening ++ start ++ String.intercalate ("," ++ start) parts ++ lineStart level ++ closing

mutual

/-- Writes a value at a level, `none` if it has no written form. -/
def write? (level : Nat) : Value → Option String
  | .null => some "null"
  | .bool b => some (if b then "true" else "false")
  | .int n => some (toString n)
  | .float x => some (floatText x)
  | .text s => some (quoted s)
  | .bytes _ | .date _ | .instant _ | .zoned .. | .span _ | .set _ => none
  | .list items | .tuple items => (writeItems? (level + 1) items).map (block "[" "]" level)
  | .map entries => (writeEntries? (level + 1) entries).map (block "\x7b" "\x7d" level)

def writeItems? (level : Nat) : List Value → Option (List String)
  | [] => some []
  | v :: vs => do
    let part ← write? level v
    let parts ← writeItems? level vs
    some (part :: parts)

/-- Writes the entries of a mapping. -/
def writeEntries? (level : Nat) : List (Value × Value) → Option (List String)
  | [] => some []
  | (k, v) :: es => do
    let key ← keyText? k
    let part ← write? level v
    let parts ← writeEntries? level es
    some ((quoted key ++ ": " ++ part) :: parts)

end

/-- The document of a value, `none` if a part of it has no written form. -/
def document? (v : Value) : Option String := write? 0 v

end GridStream.Json
