import Coinage.Currency.Basic
import Coinage.Decimal.Checked
import Coinage.Rounding.Context
/-!
# Fast money

Amounts that count units of `10 ^ (-5)` in 64 bits. Sums, differences and negation are integer
arithmetic. Products and quotients are computed in integers of twice that width and rounded half-up
once; where that width does not suffice they are computed as decimals. Leaving the range is an
overflow, never a wrap.
-/

namespace Coinage

/-- An amount in units of `10 ^ (-5)`. -/
structure FastMoney where
  currency : Currency
  units : Int
  le_units : -(2 ^ 63) ≤ units
  units_lt : units < 2 ^ 63

namespace FastMoney

/-- The number of fractional digits that a unit stands for. -/
def scale : Nat := 5

/-- The mode that rounds to whole units. -/
def mode : RoundingMode := .halfUp

/-- The amount of a given number of units, if it is in range. -/
def ofUnits? (currency : Currency) (units : Int) : Option FastMoney :=
  if h : -(2 ^ 63) ≤ units ∧ units < 2 ^ 63 then some ⟨currency, units, h.1, h.2⟩ else none

/-- The amount of a given number of units, or an overflow of the expression they are the value of. -/
def ofUnits (currency : Currency) (units : Int) (expression : String) : Outcome FastMoney :=
  match ofUnits? currency units with
  | some a => .ok a
  | none => .error (.overflow expression)

/-- The amount nearest to a number, half-up. A number that cannot be written with five fractional
digits is out of range. -/
def ofDecimal (currency : Currency) (d : Decimal) : Outcome FastMoney := do
  let rounded ← d.roundToScale scale mode
  if rounded.scale = scale then ofUnits currency rounded.mantissa s!"{d} exceeds the FastMoney range"
  else .error (.overflow s!"{d} exceeds the FastMoney range")

/-- The amount of a number that has at most five fractional digits; another number is refused. -/
def ofExact (currency : Currency) (d : Decimal) : Outcome FastMoney := do
  let exact ← d.roundToScale scale .unnecessary
  ofDecimal currency exact

def zero (currency : Currency) : FastMoney :=
  ⟨currency, 0, by decide, by decide⟩

def max (currency : Currency) : FastMoney :=
  ⟨currency, 2 ^ 63 - 1, by decide, by decide⟩

def min (currency : Currency) : FastMoney :=
  ⟨currency, -(2 ^ 63), by decide, by decide⟩

/-- The units as a decimal with five fractional digits. -/
def padded (a : FastMoney) : Decimal where
  mantissa := a.units
  scale := scale
  natAbs_mantissa_lt := by have := a.le_units; have := a.units_lt; omega
  scale_le := by decide

/-- The number, without superfluous zeros. -/
def number (a : FastMoney) : Decimal :=
  a.padded.normalize

instance : ToString FastMoney where
  toString a := s!"{a.number} {a.currency}"

/-- The same number in another currency. -/
def withCurrency (a : FastMoney) (c : Currency) : FastMoney :=
  { a with currency := c }

/-- The amount with another number, rounded to whole units. -/
def withNumber (a : FastMoney) (d : Decimal) : Outcome FastMoney :=
  ofDecimal a.currency d

/-! ### Integer arithmetic -/

/-- The quotient of two integers, rounded half away from zero. -/
def divideHalfUp (n d : Int) : Int :=
  let q := n.tdiv d
  let r := n.tmod d
  if d.natAbs ≤ 2 * r.natAbs then
    if decide (n < 0) == decide (d < 0) then q + 1 else q - 1
  else q

/-- Whether an integer fits the double width of intermediate results. -/
def fitsWide (n : Int) : Bool :=
  decide (-(2 ^ 127) ≤ n) && decide (n < 2 ^ 127)

/-- The sum of two amounts of one currency. -/
def add (a b : FastMoney) : Outcome FastMoney := do
  checkCurrency a.currency b.currency
  ofUnits a.currency (a.units + b.units) s!"{a} + {b}"

/-- The difference of two amounts of one currency. -/
def subtract (a b : FastMoney) : Outcome FastMoney := do
  checkCurrency a.currency b.currency
  ofUnits a.currency (a.units - b.units) s!"{a} - {b}"

/-- The amount of opposite sign; the smallest amount has none. -/
def negate (a : FastMoney) : Outcome FastMoney :=
  ofUnits a.currency (-a.units) s!"-({a})"

/-- The product with a number. -/
def multiplyBy (a : FastMoney) (n : Decimal) : Outcome FastMoney :=
  let exact := a.units * n.mantissa
  if fitsWide exact then ofUnits a.currency (divideHalfUp exact (10 ^ n.scale)) s!"{a} * {n}"
  else do ofDecimal a.currency (← a.number.product n)

/-- The quotient by a number. -/
def divideBy (a : FastMoney) (n : Decimal) : Outcome FastMoney :=
  if n.isZero then .error .divisionByZero
  else
    let exact := a.units * 10 ^ n.scale
    if fitsWide exact then ofUnits a.currency (divideHalfUp exact n.mantissa) s!"{a} / {n}"
    else do ofDecimal a.currency (← a.number.quotient n)

/-! ### Decimal arithmetic -/

/-- The integral quotient by a number. -/
def divideToIntegralBy (a : FastMoney) (n : Decimal) : Outcome FastMoney := do
  ofExact a.currency (← a.number.integralQuotient n)

/-- The remainder of the integral quotient; one that is no whole number of units is refused. -/
def remainderBy (a : FastMoney) (n : Decimal) : Outcome FastMoney := do
  ofExact a.currency (← a.number.remainder n)

/-- The integral quotient with its remainder. -/
def divideAndRemainderBy (a : FastMoney) (n : Decimal) : Outcome (FastMoney × FastMoney) := do
  let q ← a.number.integralQuotient n
  let r ← a.number.remainder n
  let quotient ← ofExact a.currency q
  let rest ← ofExact a.currency r
  return (quotient, rest)

/-- A natural power, rounded to whole units. -/
def pow (a : FastMoney) (exponent : Nat) : Outcome FastMoney := do
  ofDecimal a.currency (← a.number.power exponent)

/-- The amount times a power of ten, rounded to whole units. -/
def shift (a : FastMoney) (n : Int) : Outcome FastMoney := do
  ofDecimal a.currency (← a.number.shift n)

end FastMoney

end Coinage
