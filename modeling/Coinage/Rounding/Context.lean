import Coinage.Error
import Coinage.Decimal.Places
/-!
# Precision contexts

A context says to how many significant digits values are rounded, and how. A precision of 0 or of 28
and more sets no bound. `Decimal.roundToScale` and `Decimal.roundToPrecision` are the two roundings
of the library; under the mode that drops no digits both refuse a value that is not exact.
-/

namespace Coinage

/-- A number of significant digits with the mode that rounds to it. -/
structure MathContext where
  precision : Nat
  mode : RoundingMode
deriving DecidableEq, Repr

namespace MathContext

/-- Precisions from here on set no bound. -/
def boundlessPrecision : Nat := 28

/-- Seven digits, half-even. -/
def decimal32 : MathContext := ⟨7, .halfEven⟩

/-- Sixteen digits, half-even. -/
def decimal64 : MathContext := ⟨16, .halfEven⟩

/-- Thirty-four digits, half-even; more than a decimal can hold. -/
def decimal128 : MathContext := ⟨34, .halfEven⟩

/-- No bound, half-up. -/
def unlimited : MathContext := ⟨0, .halfUp⟩

/-- The context that is used where none is given. -/
def default : MathContext := decimal64

/-- Whether the context sets no bound. -/
def isUnlimited (c : MathContext) : Bool :=
  c.precision == 0 || decide (boundlessPrecision ≤ c.precision)

instance : ToString MathContext where
  toString c := s!"precision={c.precision} roundingMode={c.mode}"

end MathContext

namespace Decimal

/-- The value with `scale` fractional digits, but at most 28: longer ones are rounded by the mode,
shorter ones padded with zeros as far as the mantissa allows. A zero loses its minus. -/
def roundToScale (d : Decimal) (scale : Nat) (mode : RoundingMode) : Outcome Decimal :=
  let places := min scale maxScale
  let cut := d.roundToPlaces places mode
  if mode = .unnecessary ∧ ¬ cut.sameValue d then .error (.roundingNecessary d)
  else .ok (cut.widen (places - cut.scale)).unsigned

/-- The value with at most as many significant digits as the context says. -/
def roundToPrecision (d : Decimal) (context : MathContext) : Outcome Decimal :=
  if context.isUnlimited || d.isZero || decide (d.precision ≤ context.precision) then .ok d
  else
    match d.roundToDigits context.precision context.mode with
    | some cut =>
      if context.mode = .unnecessary ∧ ¬ cut.sameValue d then .error (.roundingNecessary d) else .ok cut
    | none => .error (.overflow s!"rounding {d} to {context}")

end Decimal

def RoundingMode.ofText (s : String) : Outcome RoundingMode :=
  match RoundingMode.ofText? s with
  | some mode => .ok mode
  | none => .error (.invalidArgument (.roundingMode s))

end Coinage
