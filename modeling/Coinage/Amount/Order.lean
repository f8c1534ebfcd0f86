import Coinage.Amount.Operations
/-!
# Order and equality of amounts

Amounts are ordered by currency code, by value, by representation and last by scale. Two amounts are
equal if all of these agree, so equal amounts are exactly those that the order cannot tell apart. The
context of a rounded amount and its pending rounding take no part.
-/

namespace Coinage

/-- The order of amounts that keep every digit. -/
def Money.order (a b : Money) : Ordering :=
  (MonetaryAmount.compareTo a b).then (compare a.number.scale b.number.scale)

def RoundedMoney.order (a b : RoundedMoney) : Ordering :=
  (MonetaryAmount.compareTo a b).then (compare a.number.scale b.number.scale)

/-- The order of amounts in units. -/
def FastMoney.order (a b : FastMoney) : Ordering :=
  (a.currency.compare b.currency).then (compare a.units b.units)

instance : BEq Money where
  beq a b := a.currency == b.currency && a.number.sameDigits b.number

instance : BEq RoundedMoney where
  beq a b := a.currency == b.currency && a.number.sameDigits b.number

instance : BEq FastMoney where
  beq a b := a.currency == b.currency && decide (a.units = b.units)

namespace Amount

/-- What remains to be compared of two amounts of one representation. -/
def tieBreak : Amount → Amount → Ordering
  | money a, money b => a.order b
  | rounded a, rounded b => a.order b
  | fast a, fast b => a.order b
  | _, _ => .eq

def order (a b : Amount) : Ordering :=
  ((MonetaryAmount.compareTo a b).then (compare a.kind.rank b.kind.rank)).then (tieBreak a b)

/-- The order within one representation. -/
def nativeOrder? (a b : Amount) : Option Ordering :=
  if a.kind = b.kind then some (tieBreak a b) else none

instance : BEq Amount where
  beq
    | money a, money b => a == b
    | rounded a, rounded b => a == b
    | fast a, fast b => a == b
    | _, _ => false

/-- The data that a hash of an amount is computed from. -/
structure HashKey where
  kind : AmountKind
  code : String
  digits : Int
  scale : Nat
deriving DecidableEq

/-- The data that a hash of this amount is computed from. -/
def hashKey : Amount → HashKey
  | money a => ⟨.money, a.currency.code, a.number.mantissa, a.number.scale⟩
  | rounded a => ⟨.rounded, a.currency.code, a.number.mantissa, a.number.scale⟩
  | fast a => ⟨.fast, a.currency.code, a.units, FastMoney.scale⟩

/-- Amounts in ascending order; equal ones keep theirs. -/
def sort {γ : Type} (key : γ → Amount) (items : List γ) : List γ :=
  items.mergeSort fun a b => order (key a) (key b) != .gt

/-- How many different amounts there are among some. -/
def countDistinct : List Amount → Nat
  | [] => 0
  | a :: rest => if rest.any (a == ·) then countDistinct rest else countDistinct rest + 1

end Amount

end Coinage
