import Coinage.Powers
/-!
# Decimal numbers

A decimal is an integer mantissa below `2 ^ 96` in magnitude and a scale of at most 28: its value is
`mantissa * 10 ^ (-scale)`. The scale is part of the number, so `1.5` and `1.50` are two decimals of
one value; `Decimal.compare` sees values only, `Decimal.sameDigits` sees both.

A zero may carry a minus, which tells that a value below zero was rounded to it. The minus has no part in
the value, and no comparison sees it; the written form shows it, and `Decimal.hasMinus` asks for it where a
decimal becomes a number of another type. `Decimal.unsigned` drops it.
-/

namespace Coinage

/-- A decimal number with a visible scale. -/
structure Decimal where
  /-- The digits, with the sign. -/
  mantissa : Int
  /-- How many of the digits stand after the point. -/
  scale : Nat
  natAbs_mantissa_lt : mantissa.natAbs < 2 ^ 96
  scale_le : scale ≤ 28
  /-- Whether this is a zero that is written with a minus. -/
  minusZero : Bool := false
  eq_zero_of_minusZero : minusZero = true → mantissa = 0 := by simp
deriving DecidableEq, Repr

namespace Decimal

/-- Every mantissa is below this in magnitude. -/
abbrev capacity : Nat := 2 ^ 96

/-- The most digits after the point. -/
abbrev maxScale : Nat := 28

/-- The decimal of a mantissa and a scale that are in range. -/
def ofDigits (mantissa : Int) (scale : Nat) (h : mantissa.natAbs < capacity ∧ scale ≤ maxScale) :
    Decimal where
  mantissa := mantissa
  scale := scale
  natAbs_mantissa_lt := h.1
  scale_le := h.2

/-- The decimal of a given mantissa and scale, if both are in range. -/
def ofParts? (mantissa : Int) (scale : Nat) : Option Decimal :=
  if h : mantissa.natAbs < capacity ∧ scale ≤ maxScale then some (ofDigits mantissa scale h) else none

/-- An integer as a decimal of scale 0, if it is in range. -/
def ofInt? (n : Int) : Option Decimal :=
  ofParts? n 0

theorem ofParts?_eq_some {m : Int} {s : Nat} {d : Decimal} (h : ofParts? m s = some d) :
    d.mantissa = m ∧ d.scale = s := by
  unfold ofParts? at h
  split at h
  · cases h; exact ⟨rfl, rfl⟩
  · cases h

/-- Zero without fractional digits. -/
def zero : Decimal where
  mantissa := 0
  scale := 0
  natAbs_mantissa_lt := by decide
  scale_le := by decide

/-- One without fractional digits. -/
def one : Decimal where
  mantissa := 1
  scale := 0
  natAbs_mantissa_lt := by decide
  scale_le := by decide

instance : Inhabited Decimal := ⟨zero⟩

/-- Whether the value is zero, at any scale. -/
def isZero (d : Decimal) : Bool :=
  d.mantissa == 0

/-- Whether the value is below zero. -/
def isNegative (d : Decimal) : Bool :=
  decide (d.mantissa < 0)

/-- The sign of the value: `-1`, `0` or `1`. -/
def signum (d : Decimal) : Int :=
  d.mantissa.sign

/-- The value of opposite sign, at the same scale. -/
def neg (d : Decimal) : Decimal where
  mantissa := -d.mantissa
  scale := d.scale
  natAbs_mantissa_lt := by simpa using d.natAbs_mantissa_lt
  scale_le := d.scale_le

/-! ### The minus of a zero -/

/-- Whether the decimal has a minus, as a value below zero or as a zero that carries one. -/
def hasMinus (d : Decimal) : Bool :=
  d.isNegative || d.minusZero

/-- The decimal without the minus that a zero may carry. -/
def unsigned (d : Decimal) : Decimal where
  mantissa := d.mantissa
  scale := d.scale
  natAbs_mantissa_lt := d.natAbs_mantissa_lt
  scale_le := d.scale_le

/-- The decimal, which carries a minus if it is a zero and `negative` holds. -/
def withZeroSign (d : Decimal) (negative : Bool) : Decimal where
  mantissa := d.mantissa
  scale := d.scale
  natAbs_mantissa_lt := d.natAbs_mantissa_lt
  scale_le := d.scale_le
  minusZero := negative && d.isZero
  eq_zero_of_minusZero := by simp [isZero]

@[simp]
theorem mantissa_unsigned (d : Decimal) : d.unsigned.mantissa = d.mantissa := rfl

@[simp]
theorem scale_unsigned (d : Decimal) : d.unsigned.scale = d.scale := rfl

@[simp]
theorem mantissa_withZeroSign (d : Decimal) (negative : Bool) :
    (d.withZeroSign negative).mantissa = d.mantissa := rfl

@[simp]
theorem scale_withZeroSign (d : Decimal) (negative : Bool) :
    (d.withZeroSign negative).scale = d.scale := rfl

theorem unsigned_eq_self (d : Decimal) (h : d.minusZero = false) : d.unsigned = d := by
  cases d
  cases h
  rfl

theorem ofParts?_mantissa_scale (d : Decimal) : ofParts? d.mantissa d.scale = some d.unsigned := by
  unfold ofParts?
  rw [dif_pos ⟨d.natAbs_mantissa_lt, d.scale_le⟩]
  rfl

/-! ### Digits -/

/-- How many decimal digits a number has; zero has one. -/
def digitCount (n : Nat) : Nat :=
  if n < 10 then 1 else digitCount (n / 10) + 1
termination_by n
decreasing_by omega

/-- How many digits the mantissa has. -/
def precision (d : Decimal) : Nat :=
  digitCount d.mantissa.natAbs

/-- One unit in the last place. -/
def ulp (d : Decimal) : Decimal where
  mantissa := 1
  scale := d.scale
  natAbs_mantissa_lt := by decide
  scale_le := d.scale_le

/-! ### Order by value -/

/-- The mantissa of a decimal written with `places` fractional digits, at least as many as it has. -/
def unitsAt (d : Decimal) (places : Nat) : Int :=
  d.mantissa * 10 ^ (places - d.scale)

/-- Compares two values, whatever their scales. -/
def compare (a b : Decimal) : Ordering :=
  Ord.compare (a.unitsAt (max a.scale b.scale)) (b.unitsAt (max a.scale b.scale))

/-- Equality of values, whatever the scales. -/
def sameValue (a b : Decimal) : Bool :=
  a.compare b == .eq

/-- Equality of value and scale. -/
def sameDigits (a b : Decimal) : Bool :=
  decide (a.mantissa = b.mantissa) && decide (a.scale = b.scale)

/-- Whether the first value is smaller. -/
def lt (a b : Decimal) : Bool :=
  a.compare b == .lt

/-- Whether the first value is smaller or the same. -/
def le (a b : Decimal) : Bool :=
  a.compare b != .gt

/-! ### Integral part and normal form -/

theorem natAbs_tdiv_lt {m : Int} {limit : Nat} (h : m.natAbs < limit) (d : Int) :
    (m.tdiv d).natAbs < limit := by
  rw [Int.natAbs_tdiv]
  exact Nat.lt_of_le_of_lt (Nat.div_le_self _ _) h

/-- The integral part, towards zero, at scale 0. -/
def trunc (d : Decimal) : Decimal where
  mantissa := d.mantissa.tdiv (10 ^ d.scale)
  scale := 0
  natAbs_mantissa_lt := natAbs_tdiv_lt d.natAbs_mantissa_lt _
  scale_le := by decide

/-- Drops zeros from the end of a mantissa while digits stand after the point. -/
def dropZeros (m : Int) : Nat → Int × Nat
  | 0 => (m, 0)
  | s + 1 => if m % 10 = 0 then dropZeros (m.tdiv 10) s else (m, s + 1)

theorem dropZeros_bounds {limit : Nat} (s : Nat) : ∀ m : Int, m.natAbs < limit →
    (dropZeros m s).1.natAbs < limit ∧ (dropZeros m s).2 ≤ s := by
  induction s with
  | zero => intro m h; exact ⟨h, Nat.le_refl _⟩
  | succ s ih =>
    intro m h
    unfold dropZeros
    split
    · have := ih (m.tdiv 10) (natAbs_tdiv_lt h 10)
      exact ⟨this.1, Nat.le_succ_of_le this.2⟩
    · exact ⟨h, Nat.le_refl _⟩

/-- The same value with the fewest fractional digits. -/
def normalize (d : Decimal) : Decimal where
  mantissa := (dropZeros d.mantissa d.scale).1
  scale := (dropZeros d.mantissa d.scale).2
  natAbs_mantissa_lt := (dropZeros_bounds d.scale d.mantissa d.natAbs_mantissa_lt).1
  scale_le := Nat.le_trans (dropZeros_bounds d.scale d.mantissa d.natAbs_mantissa_lt).2 d.scale_le

end Decimal

end Coinage
