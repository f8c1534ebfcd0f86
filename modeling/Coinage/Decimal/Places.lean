import Coinage.Rounding.Mode
import Coinage.Decimal.Basic
/-!
# Cutting and padding digits

`Decimal.roundToPlaces` cuts the digits behind a place, `Decimal.roundToDigits` keeps a number of
leading digits, and `Decimal.widen` pads with zeros as far as the mantissa allows.
-/

namespace Coinage

namespace Decimal

theorem natAbs_roundQuotient_lt (mode : RoundingMode) {m : Int} (h : m.natAbs < capacity) {d : Nat}
    (hd : 2 ≤ d) : (mode.roundQuotient m d).natAbs < capacity := by
  have hle := mode.natAbs_roundQuotient_le m d
  have hhalf : m.natAbs / d ≤ m.natAbs / 2 := Nat.div_le_div_left hd (by decide)
  have hcap : (2 : Nat) ≤ capacity := by decide
  omega

/-- The value with at most `places` fractional digits, by the given mode. -/
def roundToPlaces (d : Decimal) (places : Nat) (mode : RoundingMode) : Decimal :=
  if h : places < d.scale then
    { mantissa := mode.roundQuotient d.mantissa (10 ^ (d.scale - places))
      scale := places
      natAbs_mantissa_lt := natAbs_roundQuotient_lt mode d.natAbs_mantissa_lt (by
        have hpos : 0 < d.scale - places := by omega
        calc 2 ≤ 10 ^ 1 := by decide
          _ ≤ 10 ^ (d.scale - places) := Nat.pow_le_pow_right (by decide) hpos)
      scale_le := Nat.le_trans (Nat.le_of_lt h) d.scale_le }
  else d

/-- The value with `digits` leading digits, by the given mode. Digits before the point are replaced
by zeros, and the result has scale 0 then; there is no result if it leaves the range. A carry may
leave one digit more. -/
def roundToDigits (d : Decimal) (digits : Nat) (mode : RoundingMode) : Option Decimal :=
  let excess := d.precision - digits
  if excess ≤ d.scale then some (d.roundToPlaces (d.scale - excess) mode)
  else
    let unit := 10 ^ (excess - d.scale)
    ofParts? (mode.roundQuotient d.mantissa (10 ^ excess) * unit) 0

/-- The same value with up to `count` more fractional digits, as many as fit. -/
def widen (d : Decimal) : Nat → Decimal
  | 0 => d
  | count + 1 =>
    match ofParts? (d.mantissa * 10) (d.scale + 1) with
    | some wider => widen wider count
    | none => d

end Decimal

end Coinage
