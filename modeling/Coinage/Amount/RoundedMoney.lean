import Coinage.Currency.Basic
import Coinage.Decimal.Checked
import Coinage.Rounding.Context
/-!
# Rounded money

Amounts under a context: every result is rounded to it. A pending rounding may be attached, which
every result goes through after the context, and the context once more after that. Integral division
alone rounds nothing: its results have to fit the context as they are.
-/

namespace Coinage

/-- A number that was rounded to a context, in a currency. -/
structure BoundedMoney where
  currency : Currency
  context : MathContext
  number : Decimal

/-- What a pending rounding does to an amount: of the result only number and currency count. -/
structure PendingRounding where
  apply : BoundedMoney → Outcome BoundedMoney

/-- An amount under a context, with a rounding that may be pending. -/
structure RoundedMoney extends BoundedMoney where
  pending : Option PendingRounding := none

namespace RoundedMoney

/-- The context that is used where none is given. -/
def defaultContext : MathContext := .decimal64

/-- The amount whose number is a given one, rounded to the context and by the pending rounding. -/
def finish (a : RoundedMoney) (n : Decimal) : Outcome RoundedMoney := do
  let reduced ← n.roundToPrecision a.context
  match a.pending with
  | none => return { a with number := reduced.unsigned }
  | some rounding =>
    let rounded ← rounding.apply { a.toBoundedMoney with number := reduced.unsigned }
    let number ← rounded.number.roundToPrecision a.context
    return { a with currency := rounded.currency, number := number.unsigned }

/-- The amount nearest to a number under a context. -/
def ofContext (currency : Currency) (d : Decimal) (context : MathContext) : Outcome RoundedMoney :=
  finish { currency := currency, context := context, number := .zero } d

/-- The amount nearest to a number under the usual context. -/
def ofDecimal (currency : Currency) (d : Decimal) : Outcome RoundedMoney :=
  ofContext currency d defaultContext

/-- No money at all, under the usual context. -/
def zero (currency : Currency) : RoundedMoney :=
  { currency := currency, context := defaultContext, number := .zero }

/-- The same number rounded to another context. -/
def withContext (a : RoundedMoney) (context : MathContext) : Outcome RoundedMoney :=
  finish { a with context := context } a.number

/-- The amount with a pending rounding, which is applied to it first. -/
def withPending (a : RoundedMoney) (rounding : PendingRounding) : Outcome RoundedMoney :=
  finish { a with pending := some rounding } a.number

/-- The amount with another number, rounded. -/
def withNumber (a : RoundedMoney) (d : Decimal) : Outcome RoundedMoney :=
  a.finish d

/-- The same number in another currency. -/
def withCurrency (a : RoundedMoney) (c : Currency) : RoundedMoney :=
  { a with currency := c }

/-- The amount with another number, which has to fit the context as it is; `part` names it. -/
def exact (a : RoundedMoney) (n : Decimal) (part : String) : Outcome RoundedMoney := do
  let cut ← n.roundToPrecision ⟨a.context.precision, .down⟩
  if cut.sameValue n then return { a with number := n.unsigned }
  else .error (.overflow s!"Division impossible: {part} {n} needs more than {a.context.precision} digits")

/-- The sum of two amounts of one currency, under the context of the first. -/
def add (a b : RoundedMoney) : Outcome RoundedMoney := do
  checkCurrency a.currency b.currency
  a.finish (← a.number.sum b.number)

/-- The difference of two amounts of one currency, under the context of the first. -/
def subtract (a b : RoundedMoney) : Outcome RoundedMoney := do
  checkCurrency a.currency b.currency
  a.finish (← a.number.difference b.number)

/-- The product with a number. -/
def multiplyBy (a : RoundedMoney) (n : Decimal) : Outcome RoundedMoney := do
  a.finish (← a.number.product n)

/-- The quotient by a number. -/
def divideBy (a : RoundedMoney) (n : Decimal) : Outcome RoundedMoney := do
  a.finish (← a.number.quotient n)

/-- The integral quotient with its remainder, both unrounded. -/
def divideAndRemainderBy (a : RoundedMoney) (n : Decimal) : Outcome (RoundedMoney × RoundedMoney) := do
  let q ← a.number.integralQuotient n
  let quotient ← a.exact q "quotient"
  let r ← a.number.remainder n
  let rest ← a.exact r "remainder"
  return (quotient, rest)

/-- The integral quotient by a number, unrounded. -/
def divideToIntegralBy (a : RoundedMoney) (n : Decimal) : Outcome RoundedMoney := do
  let q ← a.number.integralQuotient n
  a.exact q "quotient"

/-- The remainder of the integral quotient, which has to fit the context too. -/
def remainderBy (a : RoundedMoney) (n : Decimal) : Outcome RoundedMoney := do
  let parts ← a.divideAndRemainderBy n
  return parts.2

/-- The amount of opposite sign. -/
def negate (a : RoundedMoney) : Outcome RoundedMoney :=
  a.finish a.number.neg

/-- The amount itself, rounded anew. -/
def plus (a : RoundedMoney) : Outcome RoundedMoney :=
  a.finish a.number

/-- A natural power. -/
def pow (a : RoundedMoney) (exponent : Nat) : Outcome RoundedMoney := do
  a.finish (← a.number.power exponent)

/-- The amount times a power of ten. -/
def shift (a : RoundedMoney) (n : Int) : Outcome RoundedMoney := do
  a.finish (← a.number.shift n)

/-- The number without superfluous zeros, and the code. -/
instance : ToString RoundedMoney where
  toString a := s!"{a.number.normalize} {a.currency}"

end RoundedMoney

end Coinage
