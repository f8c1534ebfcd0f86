import Coinage.Rounding.Mode
import Coinage.Decimal.Basic
/-!
# Sum, difference, product and remainder

Each operation computes an exact integer and a scale and takes the nearest decimal with as many
fractional digits as fit. `Decimal.nearest?` is that last step: it tries every number of places from
the top down and keeps the first at which the half-even rounding of the exact value is in range. It
fails only when even the nearest integer is out of range.
-/

namespace Coinage

namespace Decimal

/-- The value `m * 10 ^ (-s)` with at most `p` fractional digits, as many of them as fit. -/
def nearestWithin (m : Int) (s : Nat) : Nat → Option Decimal
  | 0 => ofParts? (RoundingMode.halfEven.roundQuotient m (10 ^ s)) 0
  | p + 1 =>
    match ofParts? (RoundingMode.halfEven.roundQuotient m (10 ^ (s - (p + 1)))) (p + 1) with
    | some d => some d
    | none => nearestWithin m s p

/-- The value `m * 10 ^ (-s)` with as many of its fractional digits as fit, a tie going to the even
neighbour. -/
def nearest? (m : Int) (s : Nat) : Option Decimal :=
  nearestWithin m s (min s maxScale)

/-- The sum. Next to a zero the other value stays as it is, scale included. -/
def add? (a b : Decimal) : Option Decimal :=
  if a.isZero then some b
  else if b.isZero then some a
  else
    let places := max a.scale b.scale
    nearest? (a.unitsAt places + b.unitsAt places) places

def sub? (a b : Decimal) : Option Decimal :=
  add? a b.neg

/-- Whether a product is so small that it is taken as zero without being computed: two short
mantissas far behind the point. -/
def vanishes (a b : Decimal) : Bool :=
  decide (a.mantissa.natAbs < 2 ^ 32) && decide (b.mantissa.natAbs < 2 ^ 32) && decide (47 < a.scale + b.scale)

/-- The product. A product with zero is zero at scale 0. -/
def mul? (a b : Decimal) : Option Decimal :=
  if a.isZero || b.isZero || vanishes a b then some zero
  else nearest? (a.mantissa * b.mantissa) (a.scale + b.scale)

/-! ### Remainder -/

theorem natAbs_tmod_le_left (m n : Int) : (m.tmod n).natAbs ≤ m.natAbs := by
  rw [Int.natAbs_tmod]
  exact Nat.mod_le _ _

theorem natAbs_tmod_lt_right (m : Int) {n : Int} (h : n ≠ 0) : (m.tmod n).natAbs < n.natAbs := by
  rw [Int.natAbs_tmod]
  exact Nat.mod_lt _ (Int.natAbs_pos.2 h)

theorem natAbs_unitsTmod_lt (a b : Decimal) (hb : b.mantissa ≠ 0) :
    ((a.unitsAt (max a.scale b.scale)).tmod (b.unitsAt (max a.scale b.scale))).natAbs < capacity := by
  have hpow : (10 : Int) ^ (max a.scale b.scale - b.scale) ≠ 0 := by
    exact Int.pow_ne_zero (by decide)
  rcases Nat.le_total b.scale a.scale with h | h
  · have ha : a.unitsAt (max a.scale b.scale) = a.mantissa := by
      simp [unitsAt, Nat.max_eq_left h]
    rw [ha]
    exact Nat.lt_of_le_of_lt (natAbs_tmod_le_left _ _) a.natAbs_mantissa_lt
  · have hbm : b.unitsAt (max a.scale b.scale) = b.mantissa := by
      simp [unitsAt, Nat.max_eq_right h]
    rw [hbm]
    exact Nat.lt_trans (natAbs_tmod_lt_right _ hb) b.natAbs_mantissa_lt

/-- The exact remainder of the division truncated towards zero, at the larger of the two scales. A
zero dividend or one of the divisor's magnitude leaves zero at scale 0, and a smaller one stays as it
is. -/
def rem (a b : Decimal) : Decimal :=
  let places := max a.scale b.scale
  if hb : b.mantissa = 0 then zero
  else if a.isZero || (a.unitsAt places).natAbs == (b.unitsAt places).natAbs then zero
  else if (a.unitsAt places).natAbs < (b.unitsAt places).natAbs then a
  else
    { mantissa := (a.unitsAt places).tmod (b.unitsAt places), scale := places,
      natAbs_mantissa_lt := natAbs_unitsTmod_lt a b hb, scale_le := Nat.max_le.2 ⟨a.scale_le, b.scale_le⟩ }

end Decimal

end Coinage
