import Coinage.Binary.Format
import Coinage.Decimal.Written
/-!
# The shortest decimal of a binary number

Every decimal that lies nearer to a binary number than to its neighbours reads back as that number.
The shortest of these is a multiple of the largest power of ten that has a multiple among them; where
two multiples qualify the nearer is taken, and the larger of two that are equally near.

All is counted in units of a quarter of the last bit, or of a power of ten that divides this quarter,
so that the ends of the interval, the number itself and the powers of ten are natural numbers.
-/

namespace Coinage

namespace Binary

/-- The numbers from `low` to `high`, the ends among them if `closed`. -/
structure Interval where
  low : Nat
  high : Nat
  closed : Bool

def Interval.contains (i : Interval) (n : Nat) : Bool :=
  if i.closed then decide (i.low ≤ n) && decide (n ≤ i.high) else decide (i.low < n) && decide (n < i.high)

/-- The multiple of the largest power of ten, at most `10 ^ limit`, that the interval contains next
to `mid`, as a factor and the exponent of that power. -/
def Interval.roundest (i : Interval) (mid : Nat) : Nat → Nat × Nat
  | 0 => (mid, 0)
  | limit + 1 =>
    let unit := 10 ^ (limit + 1)
    let below := mid / unit
    let hitBelow := i.contains (below * unit)
    let hitAbove := i.contains ((below + 1) * unit)
    if hitBelow && hitAbove then
      (if 2 * (mid % unit) < unit then below else below + 1, limit + 1)
    else if hitBelow then (below, limit + 1)
    else if hitAbove then (below + 1, limit + 1)
    else i.roundest mid limit

/-- The shortest decimal of a positive finite number: its digits, and how many places the last digit
stands before (positive) or behind (negative) the units. -/
def shortest (f : Format) (magnitude exponent : Nat) : Nat × Int :=
  let lowestOfBinade := magnitude = 2 ^ f.fractionBits ∧ 0 < exponent
  let places := f.bias + 2 - exponent
  let unit := if places = 0 then 2 ^ (exponent - f.bias - 2) else 5 ^ places
  let mid := 4 * magnitude * unit
  let interval : Interval :=
    ⟨mid - (if lowestOfBinade then 1 else 2) * unit, mid + 2 * unit, magnitude % 2 == 0⟩
  let (digits, power) := interval.roundest mid (Nat.toDigits 10 interval.high).length
  (digits, (power : Int) - places)

/-- The written form of a number: its shortest digits, never an exponent. -/
def written (f : Format) : Value → List Char
  | .notANumber => ['N', 'a', 'N']
  | .infinite negative => if negative then ['-', 'i', 'n', 'f'] else ['i', 'n', 'f']
  | .finite negative magnitude exponent =>
    let body :=
      if magnitude = 0 then ['0']
      else
        let (digits, power) := shortest f magnitude exponent
        positional (Nat.toDigits 10 digits ++ List.replicate power.toNat '0') (-power).toNat
    if negative then '-' :: body else body

/-- Whether a value is a number at all, neither infinite nor not-a-number. -/
def Value.isFinite : Value → Bool
  | .finite _ _ _ => true
  | _ => false

end Binary

end Coinage
