import GridStream.Decimal.Binary
import GridStream.Text.Search

/-!
# Shortest decimal texts of doubles

The reals that round to a given double form an interval. The shortest text is written with the
fewest digits for which the interval holds a decimal, and with the decimal nearest to the double
where it holds two of that length.
-/

namespace GridStream.Decimal

/-- The reals that round to a positive double, in quarters of a unit of its last place: from
`low` to `high` times `2 ^ exponent`, both ends included when `closed`. -/
structure RoundingRange where
  low : Nat
  high : Nat
  exponent : Int
  closed : Bool

/-- The interval of a double `mantissa * 2 ^ exponent`. Below a power of two the doubles are
twice as dense. -/
def RoundingRange.around (mantissa : Nat) (exponent : Int) : RoundingRange :=
  let below := if mantissa = Nat.pow 2 52 ∧ -1074 < exponent then 1 else 2
  ⟨4 * mantissa - below, 4 * mantissa + 2, exponent - 2, mantissa % 2 = 0⟩

/-- Whether `digits * 10 ^ power` lies in the interval. -/
def RoundingRange.holds (i : RoundingRange) (digits : Nat) (power : Int) : Bool :=
  let point := digits * Nat.pow 10 power.toNat * Nat.pow 2 (-i.exponent).toNat
  let unit := Nat.pow 10 (-power).toNat * Nat.pow 2 i.exponent.toNat
  if i.closed then i.low * unit ≤ point && point ≤ i.high * unit
  else i.low * unit < point && point < i.high * unit

/-- The decimal of the interval on the grid of `10 ^ power` that is nearest to the value, if the
grid meets the interval: one of the two neighbours of the value. -/
def nearestOnGrid (value : Ratio) (i : RoundingRange) (power : Int) : Option Nat :=
  let onGrid := value.scale (-power)
  let below := onGrid.floor
  let rounded := onGrid.round
  let other := if rounded = below then below + 1 else below
  if i.holds rounded power then some rounded
  else if i.holds other power then some other
  else none

/-- The first grid, from coarse to fine, that meets the interval, with its decimal. -/
def firstGrid (value : Ratio) (i : RoundingRange) : (tries : Nat) → (power : Int) → Nat × Int
  | 0, power => ((value.scale (-power)).round, power)
  | tries + 1, power =>
    match nearestOnGrid value i power with
    | some digits => (digits, power)
    | none => firstGrid value i tries (power - 1)

/-- The digits of the shortest decimal that reads back as a positive double, and the decimal
exponent of the first of them. -/
def shortestDigits (mantissa : Nat) (exponent : Int) : List Char × Int :=
  let value := binaryRatio mantissa exponent
  let (digits, power) := firstGrid value (.around mantissa exponent) 17 value.exponent
  let text := Nat.toDigits 10 digits
  (text, power + text.length - 1)

/-- Digits without the zeros at their end, at least one digit remaining. -/
def trimZeros (digits : List Char) : List Char :=
  match (digits.reverse.dropWhile (· = '0')).reverse with
  | [] => ['0']
  | kept => kept

/-- An exponent with its sign and at least two digits. -/
def exponentText (exponent : Int) : String :=
  (if exponent < 0 then "-" else "+") ++ Text.zeroPadded 2 exponent.natAbs

/-- Digits with a point after the first and an exponent; the point is left out after a single
digit. -/
def scientificText (digits : List Char) (exponent : Int) : String :=
  match digits with
  | [] => ""
  | [d] => d.toString ++ "e" ++ exponentText exponent
  | d :: ds => d.toString ++ "." ++ String.ofList ds ++ "e" ++ exponentText exponent

/-- Digits in positional writing, the first having the given decimal exponent. -/
def positionalText (digits : List Char) (exponent : Int) : String :=
  if exponent < 0 then
    "0." ++ String.ofList (List.replicate (exponent.natAbs - 1) '0' ++ digits)
  else
    let places := exponent.toNat + 1
    let whole := digits.take places
    let fraction := digits.drop places
    String.ofList (whole ++ List.replicate (places - whole.length) '0') ++
      (if fraction.isEmpty then "" else "." ++ String.ofList fraction)

/-- The shortest text of a double: positional with at least one decimal from `1e-4` up to below
`1e16`, scientific beyond. -/
def shortest (x : Float) : String :=
  match Parts.ofFloat x with
  | .nan => "nan"
  | .infinite negative => if negative then "-inf" else "inf"
  | .finite negative mantissa exponent =>
    let sign := if negative then "-" else ""
    if mantissa = 0 then sign ++ "0.0"
    else
      let (digits, first) := shortestDigits mantissa exponent
      let digits := trimZeros digits
      if -4 ≤ first ∧ first < 16 then
        let text := positionalText digits first
        sign ++ if text.contains '.' then text else text ++ ".0"
      else sign ++ scientificText digits first

end GridStream.Decimal
