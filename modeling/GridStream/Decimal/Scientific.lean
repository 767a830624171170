import GridStream.Decimal.Shortest

/-!
# Decimal texts with a fixed number of digits

The exact value of a double is rounded half to even to a fixed number of significant digits, and
written in scientific or general form.
-/

namespace GridStream.Decimal

/-- The first `places + 1` significant digits of a positive ratio, and the decimal exponent of
the first of them. -/
def significant (value : Ratio) (places : Nat) : List Char × Int :=
  let exponent := value.exponent
  let digits := (value.scale (places - exponent)).round
  if digits < Nat.pow 10 (places + 1) then (Nat.toDigits 10 digits, exponent)
  else (Nat.toDigits 10 (digits / 10), exponent + 1)

/-- One digit before the point, `places` after it, and an exponent of at least two digits. -/
def scientific (places : Nat) (x : Float) : String :=
  match Parts.ofFloat x with
  | .nan => "nan"
  | .infinite negative => if negative then "-inf" else "inf"
  | .finite negative mantissa exponent =>
    let sign := if negative then "-" else ""
    let (digits, first) :=
      if mantissa = 0 then (List.replicate (places + 1) '0', 0)
      else significant (binaryRatio mantissa exponent) places
    sign ++ scientificText digits first

/-- `count` significant digits with the zeros at the end left out: positional while the decimal
exponent is at least `-4` and below `count`, scientific beyond. -/
def general (count : Nat) (x : Float) : String :=
  match Parts.ofFloat x with
  | .nan => "nan"
  | .infinite negative => if negative then "-inf" else "inf"
  | .finite negative mantissa exponent =>
    let sign := if negative then "-" else ""
    if mantissa = 0 then sign ++ "0"
    else
      let (digits, first) := significant (binaryRatio mantissa exponent) (count - 1)
      let digits := trimZeros digits
      if -4 ≤ first ∧ first < count then sign ++ positionalText digits first
      else sign ++ scientificText digits first

end GridStream.Decimal
