/-!
# Searching and padding texts
-/

namespace GridStream.Text

/-- Whether `pattern` occurs in the characters. -/
def containsChars (pattern : List Char) : List Char → Bool
  | [] => pattern.isEmpty
  | c :: cs => pattern.isPrefixOf (c :: cs) || containsChars pattern cs

/-- Whether `pattern` occurs in the text. -/
def contains (pattern s : String) : Bool := containsChars pattern.toList s.toList

/-- Replaces every occurrence of `pattern` from the left, none overlapping another. `skip` counts
the characters of an occurrence that are still to be passed over. -/
def replaceFrom (pattern replacement : List Char) : (skip : Nat) → List Char → List Char
  | _, [] => []
  | skip + 1, _ :: cs => replaceFrom pattern replacement skip cs
  | 0, c :: cs =>
    if pattern ≠ [] ∧ pattern.isPrefixOf (c :: cs) then
      replacement ++ replaceFrom pattern replacement (pattern.length - 1) cs
    else c :: replaceFrom pattern replacement 0 cs

/-- The text with every occurrence of `pattern` replaced. -/
def replaceAll (pattern replacement s : String) : String :=
  String.ofList (replaceFrom pattern.toList replacement.toList 0 s.toList)

/-- The parts of a text between the occurrences of a separating character. -/
def splitChars (sep : Char) : List Char → List (List Char)
  | [] => [[]]
  | c :: cs =>
    if c = sep then [] :: splitChars sep cs
    else
      match splitChars sep cs with
      | [] => [[c]]
      | part :: parts => (c :: part) :: parts

/-- The parts of a text between the occurrences of a separating character. -/
def splitAt (sep : Char) (s : String) : List String :=
  (splitChars sep s.toList).map String.ofList

/-- Fills up with `fill` on the left to at least `width` characters. -/
def padLeft (width : Nat) (fill : Char) (s : String) : String :=
  String.ofList (List.replicate (width - s.length) fill) ++ s

/-- Fills up with spaces on the right to at least `width` characters. -/
def padRight (width : Nat) (s : String) : String :=
  s ++ String.ofList (List.replicate (width - s.length) ' ')

/-- A number in decimal, filled up with zeros to at least `width` digits. -/
def zeroPadded (width n : Nat) : String := padLeft width '0' (toString n)

/-- A number in hexadecimal with small letters, filled up with zeros. -/
def hex (width n : Nat) : String := padLeft width '0' (String.ofList (Nat.toDigits 16 n))

end GridStream.Text
