import GridStream.Decimal.Round

/-!
# Binary numbers taken apart

A double is not a number, infinite, or plus or minus a natural number times a power of two. The
exact value is what every decimal text and every rounding to a whole number starts from.
-/

namespace GridStream.Decimal

/-- What a double stands for. -/
inductive Parts
  | nan
  | infinite (negative : Bool)
  /-- Plus or minus `mantissa * 2 ^ exponent`. -/
  | finite (negative : Bool) (mantissa : Nat) (exponent : Int)
  deriving DecidableEq, Repr

/-- Takes the sign, the exponent and the fraction of a double apart. -/
def Parts.ofFloat (x : Float) : Parts :=
  let bits := x.toBits.toNat
  let negative := bits / Nat.pow 2 63 == 1
  let biased : Nat := bits / Nat.pow 2 52 % Nat.pow 2 11
  let fraction : Nat := bits % Nat.pow 2 52
  if biased = 2047 then if fraction = 0 then .infinite negative else .nan
  else if biased = 0 then .finite negative fraction (-1074)
  else .finite negative (fraction + Nat.pow 2 52) ((biased : Int) - 1075)

def binaryRatio (mantissa : Nat) (exponent : Int) : Ratio :=
  ⟨mantissa * Nat.pow 2 exponent.toNat, Nat.pow 2 (-exponent).toNat⟩

/-- Whether a double is a number and not infinite. -/
def isFinite (x : Float) : Bool :=
  match Parts.ofFloat x with
  | .finite .. => true
  | _ => false

/-- The integer nearest to a finite double, a half going to the even neighbour. -/
def nearestInt? (x : Float) : Option Int :=
  match Parts.ofFloat x with
  | .finite negative mantissa exponent =>
    let n : Int := (binaryRatio mantissa exponent).round
    some (if negative then -n else n)
  | _ => none

/-- The integer that a finite double equals, if it equals one. -/
def exactInt? (x : Float) : Option Int :=
  match Parts.ofFloat x with
  | .finite negative mantissa exponent =>
    let r := binaryRatio mantissa exponent
    if r.num % r.den = 0 then
      let n : Int := r.floor
      some (if negative then -n else n)
    else none
  | _ => none

/-- The double nearest to `digits * 10 ^ power`. A number beyond the range of doubles is settled
by its count of digits, without ever writing out the power of ten. -/
def ofDecimal (digits : Nat) (power : Int) : Float :=
  let top : Int := (Nat.toDigits 10 digits).length + power
  if digits = 0 ∨ top < -330 then 0.0
  else if 320 < top then 1.0 / 0.0
  else if power < 0 then Float.ofScientific digits true (-power).toNat
  else Float.ofScientific digits false power.toNat

/-- The double nearest to an integer, `none` where the integer is beyond the range of doubles. -/
def ofInt? (n : Int) : Option Float :=
  let x := ofDecimal n.natAbs 0
  if isFinite x then some (if n < 0 then -x else x) else none

end GridStream.Decimal
