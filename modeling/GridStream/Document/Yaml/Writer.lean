import GridStream.Decimal.Shortest
import GridStream.Document.Yaml.Page
import GridStream.Text.Base64

/-!
# Writing YAML

Mappings, sets and lists are written in block style, empty ones between brackets. A text is written
without quotes if it then reads as itself, between single quotes if these show it as it is, and
between double quotes otherwise. Bytes are written in lines of digits with base 64.
-/

namespace GridStream.Yaml

/-- Whether a character separates words or lines. -/
def isSeparating (c : Char) : Bool :=
  c = ' ' || c = '\t' || c = '\r' || c = '\n' || c = '\x00' || c = '\u0085' || c = '\u2028' ||
    c = '\u2029'

/-- Whether characters end or go on with a separating one. -/
def isSeparated : List Char → Bool
  | [] => true
  | c :: _ => isSeparating c

/-- Whether a text has marks behind its first character that would end it or begin a comment. -/
def hasInnerMark : (previous : Char) → List Char → Bool
  | _, [] => false
  | previous, c :: cs =>
    (c = ':' && isSeparated cs) || (c = '#' && isSeparating previous) || hasInnerMark c cs

/-- Whether a text has marks of the format in places where they count. -/
def hasMark : List Char → Bool
  | [] => false
  | c :: cs =>
    "#,[]\x7b\x7d&*!|>'\"%@\x60".contains c || ("?:-".contains c && isSeparated cs) ||
      "---".toList.isPrefixOf (c :: cs) || "...".toList.isPrefixOf (c :: cs) || hasInnerMark c cs

/-- Whether a text holds characters that need an escape. -/
def hasSpecial (cs : List Char) : Bool :=
  cs.any fun c => c ≠ '\n' && !(0x20 ≤ c.toNat && c.toNat ≤ 0x7e)

/-- Whether one of the characters stands right before the other. -/
def hasPair (a b : Char) (cs : List Char) : Bool := Text.containsChars [a, b] cs

/-- How a scalar is written. -/
inductive ScalarStyle
  | plain | single | double
  deriving DecidableEq, Repr

/-- Whether the characters of a text can stand without quotes. -/
def canBePlain (cs : List Char) : Bool :=
  let ends := cs.take 1 ++ cs.drop (cs.length - 1)
  !(ends.contains ' ' || cs.contains '\n' || hasSpecial cs || hasMark cs)

/-- Whether the characters of a text can stand between single quotes. -/
def canBeSingle (asKey : Bool) (cs : List Char) : Bool :=
  !(hasPair '\n' ' ' cs || hasPair ' ' '\n' cs || hasSpecial cs || (asKey && cs.contains '\n'))

/-- The style of a scalar. `fits` tells whether it reads as itself without quotes. -/
def styleOf (asKey fits : Bool) (s : String) : ScalarStyle :=
  let cs := s.toList
  if fits && canBePlain cs && !(asKey && cs = []) then .plain
  else if canBeSingle asKey cs then .single
  else .double

/-- Whether a text reads as itself without quotes. -/
def readsAsText (s : String) : Bool := typeOf s == .text

/-- The written form of a double. A mantissa in front of an exponent has a point. -/
def floatText (x : Float) : String :=
  match Decimal.Parts.ofFloat x with
  | .nan => ".nan"
  | .infinite negative => if negative then "-.inf" else ".inf"
  | .finite .. =>
    let s := Decimal.shortest x
    if Text.contains "." s then s else Text.replaceAll "e" ".0e" s

/-- The text of a scalar, whether it is a text, and the length of the name of its type. -/
def scalar? : Value → Option (String × Bool × Nat)
  | .null => some ("null", false, 6)
  | .bool b => some (if b then "true" else "false", false, 6)
  | .int n => some (toString n, false, 5)
  | .float x => some (floatText x, false, 7)
  | .text s => some (s, true, 5)
  | .date d => some (d.iso, false, 11)
  | .instant t => some (t.text, false, 11)
  | .zoned t z => some (t.text ++ z.text, false, 11)
  | .bytes _ | .span _ | .list _ | .tuple _ | .set _ | .map _ => none

/-- Adds a scalar. As a key it stays in its line. -/
def Page.scalar (p : Page) (indent : Nat) (asKey : Bool) (text : String) (isText : Bool) : Page :=
  match styleOf asKey (!isText || readsAsText text) text with
  | .plain => p.plain indent (!asKey) text
  | .single => p.single indent (!asKey) text
  | .double => p.double indent (!asKey) text

/-- Whether a value can be a key in front of its colon without a mark of its own. -/
def isSimpleKey (key : Value) : Bool :=
  match scalar? key with
  | some (text, _, typeSize) => text ≠ "" && !text.contains '\n' && text.length + typeSize < 128
  | none =>
    match key with
    | .list [] | .map [] => true
    | _ => false

/-- The name that a list of another type than the usual is marked with. -/
def tupleMark : String := "!!python/tuple"

/-- The name that a mapping is marked with whose keys are the items of a set. -/
def setMark : String := "!!set"

/-- The name that the digits of bytes are marked with. -/
def bytesMark : String := "!!binary"

/-- The name that the parts of a span are marked with. -/
def spanMark : String := "!!python/object/apply:datetime.timedelta"

/-- The lines that characters make, each of them with at most `width`. -/
def linesOf (width : Nat) (cs : List Char) : List (List Char) :=
  (List.range ((cs.length + width - 1) / width)).map fun n => (cs.drop (n * width)).take width

/-- Adds the digits of bytes, on lines of their own. -/
def Page.bytes (p : Page) (indent : Nat) (data : List UInt8) : Page :=
  let p := p.mark bytesMark true false
  match linesOf 76 (Text.encode64 data) with
  | [] => p.single indent false ""
  | lines =>
    lines.foldl (fun p cs => ((p.goTo indent).put cs).endLine) (p.mark "|" true false).endLine

/-- The indent of a list. As the value of a key it is not indented, unless it follows a mark on the
same line. -/
def listIndent (p : Page) (indent : Nat) (inMapping : Bool) : Nat :=
  if inMapping && !p.atIndent then indent else indent + 2

/-- Adds a key with its colon, and with a mark of its own unless it is simple. -/
def Page.key (p : Page) (indent : Nat) (simple : Bool) (write : (asKey : Bool) → Page → Page) :
    Page :=
  let p := p.goTo indent
  if simple then (write true p).mark ":" false false
  else ((write false (p.mark "?" true true)).goTo indent).mark ":" true true

/-- The days, seconds and microseconds of a span. -/
def spanItems (d : Span) : List Value :=
  let rest := d.micros % microsPerDay
  [.int d.days, .int (rest / 1000000), .int (rest % 1000000)]

mutual

/-- Adds a value to a page. `indent` is the indent of the collection that the value is in. -/
def Page.value (p : Page) (indent : Nat) (inMapping asKey : Bool) : Value → Page
  | .null => p.scalar (indent + 2) asKey "null" false
  | .bool b => p.scalar (indent + 2) asKey (if b then "true" else "false") false
  | .int n => p.scalar (indent + 2) asKey (toString n) false
  | .float x => p.scalar (indent + 2) asKey (floatText x) false
  | .text s => p.scalar (indent + 2) asKey s true
  | .date d => p.scalar (indent + 2) asKey d.iso false
  | .instant t => p.scalar (indent + 2) asKey t.text false
  | .zoned t z => p.scalar (indent + 2) asKey (t.text ++ z.text) false
  | .bytes data => p.bytes (indent + 2) data
  | .span d =>
    let p := p.mark spanMark true false
    let indent := listIndent p indent inMapping
    (spanItems d).foldl (fun p v =>
      match v with
      | .int n => ((p.goTo indent).mark "-" true true).scalar (indent + 2) false (toString n) false
      | _ => p) p
  | .list [] => (p.opening "[").mark "]" false false
  | .list items => p.items (listIndent p indent inMapping) items
  | .tuple [] => ((p.mark tupleMark true false).opening "[").mark "]" false false
  | .tuple items =>
    let p := p.mark tupleMark true false
    p.items (listIndent p indent inMapping) items
  | .set [] => ((p.mark setMark true false).opening "\x7b").mark "\x7d" false false
  | .set items => (p.mark setMark true false).members (indent + 2) items
  | .map [] => (p.opening "\x7b").mark "\x7d" false false
  | .map entries => p.entries (indent + 2) entries

/-- Adds the items of a list, each on lines of its own. -/
def Page.items (p : Page) (indent : Nat) : List Value → Page
  | [] => p
  | v :: vs => (((p.goTo indent).mark "-" true true).value indent false false v).items indent vs

/-- Adds the items of a set as keys without values, each on lines of its own. -/
def Page.members (p : Page) (indent : Nat) : List Value → Page
  | [] => p
  | k :: ks =>
    let p := p.key indent (isSimpleKey k) fun asKey p => p.value indent true asKey k
    (p.scalar (indent + 2) false "null" false).members indent ks

/-- Adds the entries of a mapping, each on lines of its own. -/
def Page.entries (p : Page) (indent : Nat) : List (Value × Value) → Page
  | [] => p
  | (k, v) :: es =>
    let p := p.key indent (isSimpleKey k) fun asKey p => p.value indent true asKey k
    (p.value indent true false v).entries indent es

end

def document (m : Mapping) : String :=
  let p : Page := {}
  let p := match m with
    | [] => p.value 0 false false (.map [])
    | entries => p.entries 0 entries
  (p.goTo 0).text

end GridStream.Yaml
