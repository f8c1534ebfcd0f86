import Coinage.Currency.Basic
import Coinage.Decimal.Checked
import Coinage.Rounding.Context
/-!
# Money

Amounts that keep every digit. Sums, differences and products are as exact as a decimal can be; only
quotients and powers are bounded, to sixteen digits half-even. No operation leaves a zero with a
minus.
-/

namespace Coinage

/-- An amount that keeps every digit. -/
structure Money where
  currency : Currency
  number : Decimal

namespace Money

/-- The context that bounds quotients and powers. -/
def bound : MathContext := .decimal64

/-- The amount of a number. A zero loses the minus that it may carry. -/
def ofNumber (currency : Currency) (n : Decimal) : Money :=
  ⟨currency, n.unsigned⟩

def zero (currency : Currency) : Money :=
  ofNumber currency .zero

/-- How many digits stand after the point. -/
def scale (a : Money) : Nat :=
  a.number.scale

/-- How many digits the number has. -/
def precision (a : Money) : Nat :=
  a.number.precision

/-- One unit in the last place of the number. -/
def ulp (a : Money) : Decimal :=
  a.number.ulp

/-- The amount with another number. -/
def withNumber (a : Money) (n : Decimal) : Money :=
  ofNumber a.currency n

/-- The same number in another currency. -/
def withCurrency (a : Money) (c : Currency) : Money :=
  ofNumber c a.number

/-- The sum of two amounts of one currency. -/
def add (a b : Money) : Outcome Money := do
  checkCurrency a.currency b.currency
  return a.withNumber (← a.number.sum b.number)

/-- The difference of two amounts of one currency. -/
def subtract (a b : Money) : Outcome Money := do
  checkCurrency a.currency b.currency
  return a.withNumber (← a.number.difference b.number)

/-- The product with a number. -/
def multiplyBy (a : Money) (n : Decimal) : Outcome Money := do
  return a.withNumber (← a.number.product n)

/-- The quotient by a number, to sixteen digits. -/
def divideBy (a : Money) (n : Decimal) : Outcome Money := do
  let q ← a.number.quotient n
  return a.withNumber (← q.roundToPrecision bound)

/-- The integral quotient by a number. -/
def divideToIntegralBy (a : Money) (n : Decimal) : Outcome Money := do
  return a.withNumber (← a.number.integralQuotient n)

/-- The remainder of the integral quotient. -/
def remainderBy (a : Money) (n : Decimal) : Outcome Money := do
  return a.withNumber (← a.number.remainder n)

/-- The integral quotient with its remainder. -/
def divideAndRemainderBy (a : Money) (n : Decimal) : Outcome (Money × Money) := do
  let q ← a.number.integralQuotient n
  let r ← a.number.remainder n
  return (a.withNumber q, a.withNumber r)

/-- The amount of opposite sign. -/
def negate (a : Money) : Money :=
  a.withNumber a.number.neg

/-- A natural power, to sixteen digits. -/
def pow (a : Money) (exponent : Nat) : Outcome Money := do
  let p ← a.number.power exponent
  return a.withNumber (← p.roundToPrecision bound)

/-- The amount times a power of ten. -/
def shift (a : Money) (n : Int) : Outcome Money := do
  return a.withNumber (← a.number.shift n)

/-- The number without superfluous zeros, and the code. -/
instance : ToString Money where
  toString a := s!"{a.number.normalize} {a.currency}"

end Money

end Coinage
