import GridStream.Text.Character

/-!
# Base 64

Bytes as texts: three bytes make four digits with base 64, and equals signs fill up the last four.
Reading passes over all characters that are no digits, up to the equals signs that fill up.
-/

namespace GridStream.Text

/-- The digits with base 64, in the order of their values. -/
def digits64 : List Char :=
  "ABCDEFGHIJKLMNOPQRSTUVWXYZabcdefghijklmnopqrstuvwxyz0123456789+/".toList

/-- The last digits of a number with base 64. -/
def spell64 (count n : Nat) : List Char :=
  (List.range count).reverse.map fun place => digits64.getD (n / Nat.pow 64 place % 64) '='

/-- The digits of bytes. -/
def encode64 : List UInt8 → List Char
  | a :: b :: c :: rest =>
    spell64 4 ((a.toNat * 256 + b.toNat) * 256 + c.toNat) ++ encode64 rest
  | [a, b] => spell64 3 ((a.toNat * 256 + b.toNat) * 4) ++ ['=']
  | [a] => spell64 2 (a.toNat * 16) ++ ['=', '=']
  | [] => []

/-- Reads digits. `place` is the place of the next digit among its four, `left` what the digit
before it leaves for the next byte, and `fill` the number of equals signs behind it. -/
def decodeFrom : (place left fill : Nat) → List Char → Option (List UInt8)
  | place, _, _, [] => if place = 0 then some [] else none
  | place, left, fill, c :: cs =>
    if c = '=' then
      if place < 2 then decodeFrom place left fill cs
      else if 4 ≤ place + fill + 1 then some []
      else decodeFrom place left (fill + 1) cs
    else
      match digits64.findIdx? (· == c), place with
      | none, _ => decodeFrom place left fill cs
      | some d, 0 => decodeFrom 1 d 0 cs
      | some d, 1 => (decodeFrom 2 (d % 16) 0 cs).map (UInt8.ofNat (left * 4 + d / 16) :: ·)
      | some d, 2 => (decodeFrom 3 (d % 4) 0 cs).map (UInt8.ofNat (left * 16 + d / 4) :: ·)
      | some d, _ => (decodeFrom 0 0 0 cs).map (UInt8.ofNat (left * 64 + d) :: ·)

/-- The bytes that digits spell, `none` if the last of them are not filled up. -/
def decode64? (cs : List Char) : Option (List UInt8) := decodeFrom 0 0 0 cs

end GridStream.Text
