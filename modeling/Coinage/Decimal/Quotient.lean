import Coinage.Decimal.Basic
/-!
# Division digit by digit

Long division in steps of up to nine digits. The work starts from the integer quotient of the two
mantissas and appends digits while the rest is not zero and there is room, both in the mantissa and
behind the point. A rest that is left at the end rounds the last digit half-even; a quotient that was
not exact at first loses some of its trailing zeros again.

`room` counts the fractional digits that may still be appended, so the scale of a quotient in
progress is `28 - room`; it is negative while `room` is above 28.
-/

namespace Coinage

namespace Decimal

/-- A finished magnitude with the digits after the point that it could still have taken. -/
structure Quotient where
  magnitude : Nat
  room : Nat

namespace Quotient

/-- The most digits, at most `limit`, that may be appended to a magnitude before it leaves the
range. -/
def headroom (magnitude : Nat) : Nat → Nat
  | 0 => 0
  | limit + 1 => if magnitude * 10 ^ (limit + 1) < capacity then limit + 1 else headroom magnitude limit

theorem headroom_le (magnitude limit : Nat) : headroom magnitude limit ≤ limit := by
  induction limit with
  | zero => exact Nat.le_refl 0
  | succ limit ih =>
    unfold headroom
    split
    · exact Nat.le_refl _
    · exact Nat.le_succ_of_le ih

/-- Gives up the last digit of a magnitude that left the range, rounding half-even; `sticky` says
that something other than zero was dropped behind it before. -/
def dropDigit (magnitude room : Nat) (sticky : Bool) : Option Quotient :=
  if maxScale ≤ room then none
  else
    let kept := magnitude / 10
    let digit := magnitude % 10
    let away := decide (5 < digit) || (decide (digit = 5) && (sticky || decide (kept % 2 = 1)))
    some ⟨if away then kept + 1 else kept, room + 1⟩

/-- The magnitude rounded half-even by a rest of `rest / divisor`. -/
def settle (divisor magnitude rest room : Nat) : Option Quotient :=
  let away := decide (divisor < 2 * rest) || (decide (2 * rest = divisor) && decide (magnitude % 2 = 1))
  let rounded := if away then magnitude + 1 else magnitude
  if capacity ≤ rounded then dropDigit rounded room true else some ⟨rounded, room⟩

/-- The number of digits to append next: up to the point a quotient needs all of them, behind it as
many as there is room for. -/
def stride (magnitude rest room : Nat) : Nat :=
  if rest = 0 then min 9 (room - maxScale) else headroom magnitude (min 9 room)

theorem stride_le (magnitude rest room : Nat) : stride magnitude rest room ≤ room := by
  unfold stride
  split
  · omega
  · exact Nat.le_trans (headroom_le _ _) (Nat.min_le_right _ _)

/-- Develops the quotient of `magnitude + rest / divisor`. The result tells whether a rest was seen on
the way. -/
def develop (divisor magnitude rest room : Nat) (sawRest : Bool) : Option (Quotient × Bool) :=
  if rest = 0 ∧ room ≤ maxScale then some (⟨magnitude, room⟩, sawRest)
  else
    let inexact := sawRest || decide (rest ≠ 0)
    let step := stride magnitude rest room
    if rest ≠ 0 ∧ step < 9 ∧ maxScale + step < room then none
    else if step = 0 then (settle divisor magnitude rest room).map fun q => (q, inexact)
    else if capacity ≤ magnitude * 10 ^ step then none
    else
      let grown := magnitude * 10 ^ step + rest * 10 ^ step / divisor
      let left := rest * 10 ^ step % divisor
      if capacity ≤ grown then
        (dropDigit grown (room - step) (decide (left ≠ 0))).map fun q => (q, inexact)
      else develop divisor grown left (room - step) inexact
termination_by room
decreasing_by
  have := stride_le magnitude rest room
  omega

/-! ### Trailing zeros -/

/-- Drops eight zeros at a time while the low 32 bits of the magnitude are zero too. -/
def dropEights (magnitude scale : Nat) : Nat × Nat :=
  if 8 ≤ scale ∧ magnitude % 2 ^ 32 = 0 ∧ magnitude % 10 ^ 8 = 0 then
    dropEights (magnitude / 10 ^ 8) (scale - 8)
  else (magnitude, scale)
termination_by scale
decreasing_by omega

/-- Drops `count` zeros at once, if there are that many behind the point. -/
def dropOnce (count : Nat) (digits : Nat × Nat) : Nat × Nat :=
  if count ≤ digits.2 ∧ digits.1 % 10 ^ count = 0 then (digits.1 / 10 ^ count, digits.2 - count) else digits

/-- A magnitude and a scale without the zeros that are dropped from a quotient that was not exact at
first: at most seven of them, and before that eight at a time. -/
def tidy (magnitude scale : Nat) : Nat × Nat :=
  dropOnce 1 (dropOnce 2 (dropOnce 4 (dropEights magnitude scale)))

end Quotient

/-- The quotient. A zero dividend gives zero at scale 0. There is no quotient by zero, and none
where the digits before the point are too many. -/
def div? (a b : Decimal) : Option Decimal :=
  if b.isZero then none
  else if a.isZero then some zero
  else
    let divisor := b.mantissa.natAbs
    let dividend := a.mantissa.natAbs
    match Quotient.develop divisor (dividend / divisor) (dividend % divisor)
        (maxScale + b.scale - a.scale) false with
    | none => none
    | some (q, sawRest) =>
      let digits :=
        if sawRest then Quotient.tidy q.magnitude (maxScale - q.room) else (q.magnitude, maxScale - q.room)
      ofParts? (a.mantissa.sign * b.mantissa.sign * digits.1) digits.2

end Decimal

end Coinage
