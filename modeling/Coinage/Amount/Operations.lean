import Coinage.Amount.Basic
import Coinage.Projection
/-!
# What every amount can do

The operations that no representation defines for itself: they look at the number and the currency of
an amount and work alike for the three representations and for their union.
-/

namespace Coinage

/-- A transformation of amounts. -/
abbrev Operator := Amount → Outcome Amount

/-- A question about an amount. -/
abbrev Query (β : Type) := Amount → Outcome β

namespace MonetaryAmount

variable {α β : Type} [MonetaryAmount α] [MonetaryAmount β]

/-- The sign of the number: `-1`, `0` or `1`. -/
def signum (a : α) : Int :=
  (number a).signum

def isZero (a : α) : Bool :=
  signum a == 0

/-- Whether the number is above zero. -/
def isPositive (a : α) : Bool :=
  decide (0 < signum a)

/-- Whether the number is not below zero. -/
def isPositiveOrZero (a : α) : Bool :=
  decide (0 ≤ signum a)

/-- Whether the number is below zero. -/
def isNegative (a : α) : Bool :=
  decide (signum a < 0)

/-- Whether the number is not above zero. -/
def isNegativeOrZero (a : α) : Bool :=
  decide (signum a ≤ 0)

/-- The amount without its sign. An amount that has none stays as it is. -/
def abs (a : α) : Outcome α :=
  if isPositiveOrZero a then .ok a else negate a

/-! ### Comparison

The numbers are compared by value, whatever their scales and representations, but only within one
currency. -/

/-- Whether the first number is smaller. -/
def isLessThan (a : α) (b : β) : Outcome Bool := do
  checkCurrency (currency a) (currency b)
  return (number a).lt (number b)

/-- Whether the first number is smaller or the same. -/
def isLessThanOrEqualTo (a : α) (b : β) : Outcome Bool := do
  checkCurrency (currency a) (currency b)
  return (number a).le (number b)

/-- Whether the first number is larger. -/
def isGreaterThan (a : α) (b : β) : Outcome Bool := do
  checkCurrency (currency a) (currency b)
  return (number b).lt (number a)

/-- Whether the first number is larger or the same. -/
def isGreaterThanOrEqualTo (a : α) (b : β) : Outcome Bool := do
  checkCurrency (currency a) (currency b)
  return (number b).le (number a)

def isEqualTo (a : α) (b : β) : Outcome Bool := do
  checkCurrency (currency a) (currency b)
  return (number a).sameValue (number b)

/-- Whether the numbers have two values. -/
def isNotEqualTo (a : α) (b : β) : Outcome Bool := do
  return !(← isEqualTo a b)

/-- The order by currency code and then by value. -/
def compareTo (a : α) (b : β) : Ordering :=
  ((currency a).compare (currency b)).then ((number a).compare (number b))

/-! ### Transformation and projection -/

/-- The amount under an operator, which has to keep the representation. -/
def transform (a : α) (op : Operator) : Outcome α := do
  let result ← op (toAmount a)
  if result.kind = kind a then ofAmount result else .error (.unexpectedKind (kind a) result.kind)

/-- The answer to a question about the amount. -/
def query (a : α) (q : Query β) : Outcome β :=
  q (toAmount a)

def project (a : α) (t : NumberType) : Outcome Projected :=
  (number a).project t

def toRounded (a : α) (context : MathContext) : Outcome RoundedMoney :=
  RoundedMoney.ofContext (currency a) (number a) context

end MonetaryAmount

/-- An operator as a pending rounding. It sees the amount without one. -/
def PendingRounding.ofOperator (op : Operator) : PendingRounding where
  apply bounded := do
    let result ← op (.rounded { bounded with pending := none })
    let rounded : RoundedMoney ← MonetaryAmount.ofAmount result
    return rounded.toBoundedMoney

/-- Attaches an operator to an amount, as the rounding that every result goes through. -/
def RoundedMoney.withPendingOperator (a : RoundedMoney) (op : Operator) : Outcome RoundedMoney :=
  a.withPending (.ofOperator op)

end Coinage
