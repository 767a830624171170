/-!
# Rounding quotients

A quotient of natural numbers is rounded to the nearest integer, a half going to the even
neighbour. Everything that turns a binary number into decimal digits or into a whole count rests
on this one rule.
-/

namespace GridStream.Decimal

/-- The nearest integer to `num / den`; a half goes to the even neighbour. -/
def roundDiv (num den : Nat) : Nat :=
  let q := num / den
  let r := num % den
  if 2 * r < den then q else if 2 * r = den then q + q % 2 else q + 1

/-- A non-negative quotient. -/
structure Ratio where
  num : Nat
  den : Nat

namespace Ratio

/-- The ratio times a power of ten. -/
def scale (x : Ratio) (power : Int) : Ratio :=
  ⟨x.num * Nat.pow 10 power.toNat, x.den * Nat.pow 10 (-power).toNat⟩

/-- The nearest integer, a half going to the even neighbour. -/
def round (x : Ratio) : Nat := roundDiv x.num x.den

/-- The greatest integer that is not above the ratio. -/
def floor (x : Ratio) : Nat := x.num / x.den

/-- Whether a power of ten is at most the ratio. -/
def reaches (x : Ratio) (power : Int) : Bool :=
  x.den * Nat.pow 10 power.toNat ≤ x.num * Nat.pow 10 (-power).toNat

/-- The decimal exponent of a positive ratio: the greatest `k` with `10 ^ k` at most the ratio.
The binary logarithms of numerator and denominator give it up to one step in either direction. -/
def exponent (x : Ratio) : Int :=
  let guess : Int := (((x.num.log2 : Int) - x.den.log2) * 30103) / 100000
  if x.reaches (guess + 2) then guess + 2
  else if x.reaches (guess + 1) then guess + 1
  else if x.reaches guess then guess
  else guess - 1

end Ratio

end GridStream.Decimal
