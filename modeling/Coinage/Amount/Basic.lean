import Coinage.Amount.Kind
import Coinage.Amount.Money
import Coinage.Amount.RoundedMoney
import Coinage.Amount.FastMoney
/-!
# Amounts of any representation

`Amount` is an amount of one of the three representations. `MonetaryAmount` is what the three and
their union have in common: the operations, each with the discipline of its representation. Two
amounts are only ever combined within one representation and one currency.
-/

namespace Coinage

/-- An amount of any representation. -/
inductive Amount where
  | money (a : Money)
  | rounded (a : RoundedMoney)
  | fast (a : FastMoney)

/-- A type of amounts. -/
class MonetaryAmount (α : Type) where
  kind : α → AmountKind
  currency : α → Currency
  /-- The value that is held. -/
  number : α → Decimal
  /-- The amount as one of any representation. -/
  toAmount : α → Amount
  /-- An amount of any representation as one of this type, if it is one. -/
  ofAmount : Amount → Outcome α
  /-- Another number under the discipline of the representation. -/
  withNumber : α → Decimal → Outcome α
  /-- The same number in another currency. -/
  withCurrency : α → Currency → α
  add : α → α → Outcome α
  subtract : α → α → Outcome α
  multiplyBy : α → Decimal → Outcome α
  divideBy : α → Decimal → Outcome α
  /-- The quotient truncated towards zero, with the remainder. -/
  divideAndRemainderBy : α → Decimal → Outcome (α × α)
  /-- The quotient truncated towards zero. -/
  divideToIntegralBy : α → Decimal → Outcome α
  remainderBy : α → Decimal → Outcome α
  negate : α → Outcome α
  /-- The amount itself under the discipline of the representation. -/
  plus : α → Outcome α
  pow : α → Nat → Outcome α
  /-- The amount times a power of ten. -/
  shift : α → Int → Outcome α
  multiply : α → α → Outcome α := fun a b => do
    checkCurrency (currency a) (currency b)
    multiplyBy a (number b)
  divide : α → α → Outcome α := fun a b => do
    checkCurrency (currency a) (currency b)
    divideBy a (number b)
  divideAndRemainder : α → α → Outcome (α × α) := fun a b => do
    checkCurrency (currency a) (currency b)
    divideAndRemainderBy a (number b)
  divideToIntegral : α → α → Outcome α := fun a b => do
    checkCurrency (currency a) (currency b)
    divideToIntegralBy a (number b)
  remainder : α → α → Outcome α := fun a b => do
    checkCurrency (currency a) (currency b)
    remainderBy a (number b)
  /-- The amount with every digit of its number. -/
  toMoney : α → Money := fun a => .ofNumber (currency a) (number a)
  /-- The amount in whole units of `10 ^ (-5)`. -/
  toFast : α → Outcome FastMoney := fun a => FastMoney.ofDecimal (currency a) (number a)

/-! ### The three representations -/

instance : MonetaryAmount Money where
  kind _ := .money
  currency := Money.currency
  number := Money.number
  toAmount := .money
  ofAmount
    | .money a => .ok a
    | .rounded _ => .error (.unexpectedKind .money .rounded)
    | .fast _ => .error (.unexpectedKind .money .fast)
  withNumber a n := .ok (a.withNumber n)
  withCurrency := Money.withCurrency
  add := Money.add
  subtract := Money.subtract
  multiplyBy := Money.multiplyBy
  divideBy := Money.divideBy
  divideAndRemainderBy := Money.divideAndRemainderBy
  divideToIntegralBy := Money.divideToIntegralBy
  remainderBy := Money.remainderBy
  negate a := .ok a.negate
  plus a := .ok a
  pow := Money.pow
  shift := Money.shift
  toMoney a := a

instance : MonetaryAmount RoundedMoney where
  kind _ := .rounded
  currency a := a.currency
  number a := a.number
  toAmount := .rounded
  ofAmount
    | .rounded a => .ok a
    | .money _ => .error (.unexpectedKind .rounded .money)
    | .fast _ => .error (.unexpectedKind .rounded .fast)
  withNumber := RoundedMoney.withNumber
  withCurrency := RoundedMoney.withCurrency
  add := RoundedMoney.add
  subtract := RoundedMoney.subtract
  multiplyBy := RoundedMoney.multiplyBy
  divideBy := RoundedMoney.divideBy
  divideAndRemainderBy := RoundedMoney.divideAndRemainderBy
  divideToIntegralBy := RoundedMoney.divideToIntegralBy
  remainderBy := RoundedMoney.remainderBy
  negate := RoundedMoney.negate
  plus := RoundedMoney.plus
  pow := RoundedMoney.pow
  shift := RoundedMoney.shift

instance : MonetaryAmount FastMoney where
  kind _ := .fast
  currency := FastMoney.currency
  number := FastMoney.number
  toAmount := .fast
  ofAmount
    | .fast a => .ok a
    | .money _ => .error (.unexpectedKind .fast .money)
    | .rounded _ => .error (.unexpectedKind .fast .rounded)
  withNumber := FastMoney.withNumber
  withCurrency := FastMoney.withCurrency
  add := FastMoney.add
  subtract := FastMoney.subtract
  multiplyBy := FastMoney.multiplyBy
  divideBy := FastMoney.divideBy
  divideAndRemainderBy := FastMoney.divideAndRemainderBy
  divideToIntegralBy := FastMoney.divideToIntegralBy
  remainderBy := FastMoney.remainderBy
  negate := FastMoney.negate
  plus a := .ok a
  pow := FastMoney.pow
  shift := FastMoney.shift
  toFast a := .ok a

/-! ### The union -/

namespace Amount

def kind : Amount → AmountKind
  | money _ => .money
  | rounded _ => .rounded
  | fast _ => .fast

def currency : Amount → Currency
  | money a => a.currency
  | rounded a => a.currency
  | fast a => a.currency

def number : Amount → Decimal
  | money a => a.number
  | rounded a => a.number
  | fast a => a.number

/-- An operation of every representation on an amount of any. -/
def lift (op : {α : Type} → [MonetaryAmount α] → α → Outcome α) : Amount → Outcome Amount
  | money a => (op a).map money
  | rounded a => (op a).map rounded
  | fast a => (op a).map fast

/-- An operation with two results of every representation on an amount of any. -/
def liftPair (op : {α : Type} → [MonetaryAmount α] → α → Outcome (α × α)) : Amount → Outcome (Amount × Amount)
  | money a => (op a).map fun (q, r) => (money q, money r)
  | rounded a => (op a).map fun (q, r) => (rounded q, rounded r)
  | fast a => (op a).map fun (q, r) => (fast q, fast r)

/-- An operation of every representation on two amounts of one. -/
def lift₂ (op : {α : Type} → [MonetaryAmount α] → α → α → Outcome α) : Amount → Amount → Outcome Amount
  | money a, money b => (op a b).map money
  | rounded a, rounded b => (op a b).map rounded
  | fast a, fast b => (op a b).map fast
  | a, b => .error (.unexpectedKind a.kind b.kind)

/-- An operation with two results of every representation on two amounts of one. -/
def liftPair₂ (op : {α : Type} → [MonetaryAmount α] → α → α → Outcome (α × α)) :
    Amount → Amount → Outcome (Amount × Amount)
  | money a, money b => (op a b).map fun (q, r) => (money q, money r)
  | rounded a, rounded b => (op a b).map fun (q, r) => (rounded q, rounded r)
  | fast a, fast b => (op a b).map fun (q, r) => (fast q, fast r)
  | a, b => .error (.unexpectedKind a.kind b.kind)

end Amount

instance : MonetaryAmount Amount where
  kind := Amount.kind
  currency := Amount.currency
  number := Amount.number
  toAmount a := a
  ofAmount a := .ok a
  withNumber a n := a.lift fun x => MonetaryAmount.withNumber x n
  withCurrency
    | .money a, c => .money (a.withCurrency c)
    | .rounded a, c => .rounded (a.withCurrency c)
    | .fast a, c => .fast (a.withCurrency c)
  add := Amount.lift₂ MonetaryAmount.add
  subtract := Amount.lift₂ MonetaryAmount.subtract
  multiplyBy a n := a.lift fun x => MonetaryAmount.multiplyBy x n
  divideBy a n := a.lift fun x => MonetaryAmount.divideBy x n
  divideAndRemainderBy a n := a.liftPair fun x => MonetaryAmount.divideAndRemainderBy x n
  divideToIntegralBy a n := a.lift fun x => MonetaryAmount.divideToIntegralBy x n
  remainderBy a n := a.lift fun x => MonetaryAmount.remainderBy x n
  negate := Amount.lift MonetaryAmount.negate
  plus := Amount.lift MonetaryAmount.plus
  pow a e := a.lift fun x => MonetaryAmount.pow x e
  shift a n := a.lift fun x => MonetaryAmount.shift x n
  multiply := Amount.lift₂ MonetaryAmount.multiply
  divide := Amount.lift₂ MonetaryAmount.divide
  divideAndRemainder := Amount.liftPair₂ MonetaryAmount.divideAndRemainder
  divideToIntegral := Amount.lift₂ MonetaryAmount.divideToIntegral
  remainder := Amount.lift₂ MonetaryAmount.remainder

instance : ToString Amount where
  toString
    | .money a => toString a
    | .rounded a => toString a
    | .fast a => toString a

end Coinage
