import Coinage.Decimal.Basic
/-!
# The written form of a decimal

A decimal is written with exactly as many fractional digits as its scale, so the written form tells
`1.5` from `1.50`. There is always a digit before the point, and no exponent. A minus stands before
values below zero and before a zero that carries it.
-/

namespace Coinage

/-- Digits in groups: `digits` with a point before the last `places` of them, zeros in front as far
as a digit before the point needs them. -/
def positional (digits : List Char) (places : Nat) : List Char :=
  if places = 0 then digits
  else
    let padded := List.replicate (places + 1 - digits.length) '0' ++ digits
    padded.take (padded.length - places) ++ '.' :: padded.drop (padded.length - places)

namespace Decimal

def written (d : Decimal) : List Char :=
  let digits := positional (Nat.toDigits 10 d.mantissa.natAbs) d.scale
  if d.hasMinus then '-' :: digits else digits

instance : ToString Decimal where
  toString d := String.ofList d.written

end Decimal

end Coinage
