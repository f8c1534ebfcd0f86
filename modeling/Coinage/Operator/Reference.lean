import Coinage.Amount.Operations
/-!
# Operators and queries

The transformations of amounts that need nothing but an amount: rounding to a number of places or to
a cash increment, the parts before and behind the point, the reciprocal, and shares. Each of them
gives its result the discipline of the amount it is applied to.
-/

namespace Coinage

open MonetaryAmount

/-- Rounding to a number of fractional digits. -/
structure PlaceRounding where
  scale : Nat
  mode : RoundingMode
deriving DecidableEq, Repr

namespace PlaceRounding

/-- The mode that is used where none is given. -/
def defaultMode : RoundingMode := .halfUp

/-- Rounding to a number of places; a negative number means whole units. -/
def ofScale (scale : Int) (mode : RoundingMode) : PlaceRounding :=
  ⟨scale.toNat, mode⟩

/-- Rounding to the minor unit of a currency. -/
def ofCurrency (c : Currency) (mode : RoundingMode) : PlaceRounding :=
  ⟨c.fractionDigits, mode⟩

def operator (r : PlaceRounding) : Operator := fun a => do
  withNumber a (← (number a).roundToScale r.scale r.mode)

instance : ToString PlaceRounding where
  toString r := s!"DefaultRounding[scale={r.scale}, mode={r.mode}]"

end PlaceRounding

/-- Rounding to the multiples of a smallest coin or note. -/
structure CashRounding where
  /-- The fractional digits of the result. -/
  scale : Nat
  increment : Decimal
  mode : RoundingMode
  increment_pos : 0 < increment.mantissa

namespace CashRounding

/-- Rounding to the multiples of an increment, if it is positive. -/
def make? (scale : Nat) (increment : Decimal) (mode : RoundingMode) : Option CashRounding :=
  if h : 0 < increment.mantissa then some ⟨scale, increment, mode, h⟩ else none

/-- Rounding to the multiples of an increment, which has to be positive. -/
def make (scale : Nat) (increment : Decimal) (mode : RoundingMode) : Outcome CashRounding :=
  match make? scale increment mode with
  | some r => .ok r
  | none => .error (.invalidArgument (.increment increment))

/-- The operator that a cash rounding is: the number of increments is rounded to an integer. -/
def operator (r : CashRounding) : Operator := fun a => do
  let steps ← (number a).quotient r.increment
  let whole ← steps.roundToScale 0 r.mode
  let cash ← whole.product r.increment
  withNumber a (← cash.roundToScale r.scale r.mode)

end CashRounding

/-- The value times `10 ^ digits`, for the fraction digits of a currency. -/
def shiftByDigits (d : Decimal) (digits : Nat) : Outcome Decimal :=
  if digits < 2 ^ 31 then d.shift digits else .error (.invalidArgument (.fractionDigits digits))

def majorPart : Operator := fun a => do
  withNumber a (← (number a).roundToScale 0 .down)

/-- The part behind the point, in minor units of the currency. -/
def minorPart : Operator := fun a => do
  let fraction ← (number a).difference (number a).trunc
  let shifted ← shiftByDigits fraction (currency a).fractionDigits
  withNumber a (← shifted.roundToScale 0 .down)

/-- One divided by the number. -/
def reciprocal : Operator := fun a => do
  let inverse ← Decimal.one.quotient (number a)
  withNumber a (← inverse.roundToPrecision .decimal128)

/-! ### Shares -/

/-- A share of an amount: so many parts of a whole of so many. -/
structure Share where
  parts : Decimal
  /-- The sign that is written behind the parts. -/
  sign : String
  /-- The share as a factor. -/
  factor : Decimal

namespace Share

/-- The share of so many parts in a whole, to sixteen digits. -/
def make (parts whole : Decimal) (sign : String) : Outcome Share := do
  let factor ← parts.quotient whole
  return ⟨parts, sign, ← factor.roundToPrecision .decimal64⟩

def hundred : Decimal :=
  .ofDigits 100 0 (by decide)

def thousand : Decimal :=
  .ofDigits 1000 0 (by decide)

/-- So many parts of a hundred. -/
def percent (parts : Decimal) : Outcome Share :=
  make parts hundred "%"

/-- So many parts of a thousand. -/
def permil (parts : Decimal) : Outcome Share :=
  make parts thousand "‰"

/-- The operator that takes the share of an amount. -/
def operator (s : Share) : Operator := fun a =>
  multiplyBy a s.factor

instance : ToString Share where
  toString s := s!"{s.parts} {s.sign}"

end Share

/-! ### Queries -/

/-- The whole major units of an amount. -/
def majorUnits : Query Int := fun a =>
  (number a).toInteger .int64

/-- The whole minor units of an amount. -/
def minorUnits : Query Int := fun a => do
  let shifted ← shiftByDigits (number a) (currency a).fractionDigits
  shifted.toInteger .int64

/-- Several operators, one after the other. -/
def Operator.sequence (ops : List Operator) : Operator := fun a =>
  ops.foldlM (fun x op => op x) a

end Coinage
