import GridStream.Text.Character
import GridStream.Value.Basic

/-!
# Reading JSON

A document is taken apart into tokens, and the tokens are put together to a value. Beyond the
standard, the words `NaN`, `Infinity` and `-Infinity` are numbers. A number with a fraction or an
exponent is a double, any other an integer of any size. Of a key that is repeated the first
position and the last value count. Collections may stand in each other as deep as they like.
-/

namespace GridStream.Json

/-- A token of a document. -/
inductive Token
  | openList | closeList | openMap | closeMap | comma | colon
  | text (s : String)
  /-- A value that is neither a text nor composed. -/
  | word (v : Value)

/-- Whether a character may stand between tokens. -/
def isSpace (c : Char) : Bool := c = ' ' || c = '\t' || c = '\n' || c = '\r'

/-- The number that four hexadecimal digits spell. -/
def hexNumber? (a b c d : Char) : Option Nat := do
  let a ← Text.hexValue? a
  let b ← Text.hexValue? b
  let c ← Text.hexValue? c
  let d ← Text.hexValue? d
  some (((a * 16 + b) * 16 + c) * 16 + d)

/-- The character that an escape of one letter stands for. -/
def shortEscape? (c : Char) : Option Char :=
  match c with
  | '"' | '\\' | '/' => some c
  | 'b' => some '\x08'
  | 'f' => some '\x0c'
  | 'n' => some '\n'
  | 'r' => some '\r'
  | 't' => some '\t'
  | _ => none

/-- Whether a number is the first, or the second, half of a pair of surrogates. -/
def isHighHalf (n : Nat) : Bool := 0xD800 ≤ n && n < 0xDC00
def isLowHalf (n : Nat) : Bool := 0xDC00 ≤ n && n < 0xE000

/-- The character of a code point. A half of a pair that stands alone is no character and becomes
the replacement character. -/
def charOf (n : Nat) : Char := if n.isValidChar then Char.ofNat n else '\ufffd'

/-- Reads a text up to its closing quotation mark. -/
def readText : List Char → Option (List Char × List Char)
  | [] => none
  | '"' :: rest => some ([], rest)
  | '\\' :: 'u' :: a :: b :: c :: d :: '\\' :: 'u' :: e :: f :: g :: h :: rest =>
    match hexNumber? a b c d, hexNumber? e f g h with
    | some m, some n =>
      if isHighHalf m && isLowHalf n then
        (readText rest).map fun (cs, rest) =>
          (charOf (0x10000 + (m - 0xD800) * 1024 + (n - 0xDC00)) :: cs, rest)
      else
        (readText ('\\' :: 'u' :: e :: f :: g :: h :: rest)).map fun (cs, rest) =>
          (charOf m :: cs, rest)
    | some m, none =>
      (readText ('\\' :: 'u' :: e :: f :: g :: h :: rest)).map fun (cs, rest) =>
        (charOf m :: cs, rest)
    | none, _ => none
  | '\\' :: 'u' :: a :: b :: c :: d :: rest =>
    match hexNumber? a b c d with
    | some n => (readText rest).map fun (cs, rest) => (charOf n :: cs, rest)
    | none => none
  | '\\' :: c :: rest =>
    match shortEscape? c with
    | some c => (readText rest).map fun (cs, rest) => (c :: cs, rest)
    | none => none
  | c :: rest =>
    if c.toNat < 0x20 || c = '\\' then none
    else (readText rest).map fun (cs, rest) => (c :: cs, rest)

/-- The double with the given sign, digits and power of ten. -/
def float (negative : Bool) (digits : List Char) (power : Int) : Value :=
  let x := Decimal.ofDecimal (Text.natOfDigits digits) power
  .float (if negative then -x else x)

def readExponent (cs : List Char) : Option Int × List Char :=
  match cs with
  | e :: rest =>
    if e = 'e' ∨ e = 'E' then
      let (negative, rest) := match rest with
        | '-' :: rest => (true, rest)
        | '+' :: rest => (false, rest)
        | rest => (false, rest)
      let digits := rest.takeWhile Text.isPlainDigit
      if digits = [] then (none, cs)
      else
        let n : Int := Text.natOfDigits digits
        (some (if negative then -n else n), rest.dropWhile Text.isPlainDigit)
    else (none, cs)
  | [] => (none, cs)

/-- Reads a number behind its sign. The whole part has no zero in front of other digits. -/
def readNumber (negative : Bool) (cs : List Char) : Option (Value × List Char) :=
  let (whole, rest) := match cs with
    | '0' :: rest => (['0'], rest)
    | cs => (cs.takeWhile Text.isPlainDigit, cs.dropWhile Text.isPlainDigit)
  if whole = [] then none
  else
    let (fraction, rest) := match rest with
      | '.' :: more =>
        if more.takeWhile Text.isPlainDigit = [] then ([], rest)
        else (more.takeWhile Text.isPlainDigit, more.dropWhile Text.isPlainDigit)
      | rest => ([], rest)
    match fraction, readExponent rest with
    | [], (none, rest) =>
      let n : Int := Text.natOfDigits whole
      some (.int (if negative then -n else n), rest)
    | fraction, (exponent, rest) =>
      some (float negative (whole ++ fraction) (exponent.getD 0 - fraction.length), rest)

/-- The words with a meaning of their own. -/
def words : List (List Char × Value) :=
  [("null".toList, .null), ("true".toList, .bool true), ("false".toList, .bool false),
    ("NaN".toList, .float (0.0 / 0.0)), ("Infinity".toList, .float (1.0 / 0.0)),
    ("-Infinity".toList, .float (-1.0 / 0.0))]

/-- Reads the token that a text begins with. -/
def readToken (cs : List Char) : Option (Token × List Char) :=
  match cs with
  | '[' :: rest => some (.openList, rest)
  | ']' :: rest => some (.closeList, rest)
  | '{' :: rest => some (.openMap, rest)
  | '}' :: rest => some (.closeMap, rest)
  | ',' :: rest => some (.comma, rest)
  | ':' :: rest => some (.colon, rest)
  | '"' :: rest => (readText rest).map fun (s, rest) => (.text (String.ofList s), rest)
  | cs =>
    match words.find? fun (word, _) => word.isPrefixOf cs with
    | some (word, v) => some (.word v, cs.drop word.length)
    | none =>
      let number := match cs with
        | '-' :: rest => readNumber true rest
        | cs => readNumber false cs
      number.map fun (v, rest) => (.word v, rest)

/-- The tokens of a text. Every step passes over a character at least, so that a text has at most
as many steps as characters. -/
def tokensFrom : (steps : Nat) → List Char → Option (List Token)
  | _, [] => some []
  | 0, _ :: _ => none
  | steps + 1, c :: cs =>
    if isSpace c then tokensFrom steps cs
    else
      match readToken (c :: cs) with
      | none => none
      | some (token, rest) => (tokensFrom steps rest).map (token :: ·)

/-- The tokens of a text, `none` if it cannot be taken apart. -/
def tokens? (s : String) : Option (List Token) := tokensFrom s.length s.toList

mutual

/-- Puts together the value that tokens begin with. -/
def value? : (steps : Nat) → List Token → Option (Value × List Token)
  | 0, _ => none
  | _ + 1, .text s :: rest => some (.text s, rest)
  | _ + 1, .word v :: rest => some (v, rest)
  | _ + 1, .openList :: .closeList :: rest => some (.list [], rest)
  | steps + 1, .openList :: rest => (items? steps rest).map fun (vs, rest) => (.list vs, rest)
  | _ + 1, .openMap :: .closeMap :: rest => some (.map [], rest)
  | steps + 1, .openMap :: rest =>
    (entries? steps rest).map fun (es, rest) => (.map (Mapping.ofEntries es), rest)
  | _ + 1, _ => none

/-- Puts together the items of a list up to its end. -/
def items? : (steps : Nat) → List Token → Option (List Value × List Token)
  | 0, _ => none
  | steps + 1, tokens =>
    match value? steps tokens with
    | some (v, .comma :: rest) => (items? steps rest).map fun (vs, rest) => (v :: vs, rest)
    | some (v, .closeList :: rest) => some ([v], rest)
    | _ => none

/-- Puts together the entries of a mapping up to its end. -/
def entries? : (steps : Nat) → List Token → Option (List (Value × Value) × List Token)
  | 0, _ => none
  | steps + 1, .text key :: .colon :: tokens =>
    match value? steps tokens with
    | some (v, .comma :: rest) =>
      (entries? steps rest).map fun (es, rest) => ((.text key, v) :: es, rest)
    | some (v, .closeMap :: rest) => some ([(.text key, v)], rest)
    | _ => none
  | _ + 1, _ => none

end

/-- The value of a document, `none` if the text is no document. -/
def read? (s : String) : Option Value := do
  let tokens ← tokens? s
  match value? (2 * tokens.length) tokens with
  | some (v, []) => some v
  | _ => none

end GridStream.Json
