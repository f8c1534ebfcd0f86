import Coinage.Proofs.Amount.FastProducts
/-!
# Division in the double width

`divideHalfUp` is arithmetic of unbounded integers. `divideHalfUp?` takes the same steps in numbers of the double width
and fails where the result of one of them has no place there. A divisor of zero and the smallest number divided by
`-1` do that and nothing else (`divideHalfUp?_eq_none_iff`), and neither is among the operands of products and
quotients.
-/

namespace Coinage

namespace FastMoney

open RoundingMode

/-! ### Steps that can fail -/

def signed? (n : ℤ) : Option ℤ :=
  if fitsWide n then some n else none

/-- A magnitude. It has the bit to spare that is the sign elsewhere. -/
def unsigned? (n : ℕ) : Option ℕ :=
  if n < 2 ^ 128 then some n else none

def quotient? (n d : ℤ) : Option ℤ :=
  if d = 0 then none else signed? (n.tdiv d)

/-- The remainder, which comes with the quotient or not at all. -/
def remainder? (n d : ℤ) : Option ℤ :=
  (quotient? n d).bind fun _ => signed? (n.tmod d)

/-- The quotient of two integers, rounded half away from zero, unless a step on the way fails. -/
def divideHalfUp? (n d : ℤ) : Option ℤ := do
  let q ← quotient? n d
  let r ← remainder? n d
  let doubled ← unsigned? (2 * r.natAbs)
  if d.natAbs ≤ doubled then
    if decide (n < 0) == decide (d < 0) then signed? (q + 1) else signed? (q - 1)
  else some q

variable {n d : ℤ}

theorem fitsWide_iff : fitsWide n = true ↔ -(2 ^ 127) ≤ n ∧ n < 2 ^ 127 := by
  rw [fitsWide, Bool.and_eq_true, decide_eq_true_eq, decide_eq_true_eq]

theorem signed?_eq (h : fitsWide n = true) : signed? n = some n :=
  if_pos h

theorem unsigned?_eq {n : ℕ} (h : n < 2 ^ 128) : unsigned? n = some n :=
  if_pos h

/-! ### Where no step fails -/

theorem natAbs_tdiv_le (hn : fitsWide n = true) (hd : 2 ≤ d.natAbs) : (n.tdiv d).natAbs ≤ 2 ^ 126 := by
  rw [fitsWide_iff] at hn
  calc (n.tdiv d).natAbs = n.natAbs / d.natAbs := Int.natAbs_tdiv n d
    _ ≤ n.natAbs / 2 := Nat.div_le_div_left hd two_pos
    _ ≤ 2 ^ 126 := by omega

theorem fitsWide_tdiv (hn : fitsWide n = true) (hd : d ≠ 0) (hmin : ¬ (n = -(2 ^ 127) ∧ d = -1)) :
    fitsWide (n.tdiv d) = true := by
  by_cases hlarge : 2 ≤ d.natAbs
  · have hq := natAbs_tdiv_le hn hlarge
    rw [fitsWide_iff]
    omega
  · rw [fitsWide_iff] at hn ⊢
    obtain rfl | rfl : d = 1 ∨ d = -1 := by omega
    · rwa [Int.tdiv_one]
    · rw [Int.tdiv_neg, Int.tdiv_one]
      omega

theorem natAbs_tmod_lt (n : ℤ) (hd : d ≠ 0) : (n.tmod d).natAbs < d.natAbs := by
  rw [Int.natAbs_tmod]
  exact Nat.mod_lt _ (Int.natAbs_pos.2 hd)

theorem fitsWide_tmod (hd : fitsWide d = true) (hd₀ : d ≠ 0) : fitsWide (n.tmod d) = true := by
  have hlt := natAbs_tmod_lt n hd₀
  rw [fitsWide_iff] at hd ⊢
  omega

/-- One step more or less is taken only with a rest, so the quotient is half as large as there is room at most. -/
theorem natAbs_tdiv_le_of_step (hn : fitsWide n = true) (hd₀ : d ≠ 0) (hstep : d.natAbs ≤ 2 * (n.tmod d).natAbs) :
    (n.tdiv d).natAbs ≤ 2 ^ 126 := by
  refine natAbs_tdiv_le hn ?_
  have hlt := natAbs_tmod_lt n hd₀
  omega

/-- The steps fail together with the division itself, and not behind it. -/
theorem divideHalfUp?_eq (hn : fitsWide n = true) (hd : fitsWide d = true) (hd₀ : d ≠ 0)
    (hmin : ¬ (n = -(2 ^ 127) ∧ d = -1)) : divideHalfUp? n d = some (divideHalfUp n d) := by
  have hquotient : quotient? n d = some (n.tdiv d) := by
    rw [quotient?, if_neg hd₀, signed?_eq (fitsWide_tdiv hn hd₀ hmin)]
  have hremainder : remainder? n d = some (n.tmod d) := by
    rw [remainder?, hquotient, Option.bind_some, signed?_eq (fitsWide_tmod hd hd₀)]
  have hdoubled : unsigned? (2 * (n.tmod d).natAbs) = some (2 * (n.tmod d).natAbs) := by
    refine unsigned?_eq ?_
    have hlt := natAbs_tmod_lt n hd₀
    rw [fitsWide_iff] at hd
    omega
  -- one step after the other gives what it should, and the correction is left
  show (quotient? n d).bind (fun q => (remainder? n d).bind fun r => (unsigned? (2 * r.natAbs)).bind fun doubled => _) = _
  rw [hquotient, Option.bind_some, hremainder, Option.bind_some, hdoubled, Option.bind_some, divideHalfUp]
  split_ifs with hstep hsign
  · have hq := natAbs_tdiv_le_of_step hn hd₀ hstep
    refine signed?_eq ?_
    rw [fitsWide_iff]
    omega
  · have hq := natAbs_tdiv_le_of_step hn hd₀ hstep
    refine signed?_eq ?_
    rw [fitsWide_iff]
    omega
  · rfl

theorem divideHalfUp?_eq_none_iff (hn : fitsWide n = true) (hd : fitsWide d = true) :
    divideHalfUp? n d = none ↔ d = 0 ∨ n = -(2 ^ 127) ∧ d = -1 := by
  constructor
  · intro hnone
    by_contra hrest
    obtain ⟨hd₀, hmin⟩ := not_or.1 hrest
    cases hnone.symm.trans (divideHalfUp?_eq hn hd hd₀ hmin)
  · rintro (rfl | ⟨rfl, rfl⟩)
    · rfl
    · decide

/-! ### Products and quotients -/

/-- The operations that divide integers: a product by the power of ten of its factor, a quotient by a mantissa. -/
inductive Division where
  | product (a : FastMoney) (f : Decimal)
  | quotient (a : FastMoney) (f : Decimal)

namespace Division

def currency : Division → Currency
  | product a _ | quotient a _ => a.currency

def numerator : Division → ℤ
  | product a f => a.units * f.mantissa
  | quotient a f => a.units * 10 ^ f.scale

def denominator : Division → ℤ
  | product _ f => 10 ^ f.scale
  | quotient _ f => f.mantissa

def outcome : Division → Outcome FastMoney
  | product a f => a.multiplyBy f
  | quotient a f => a.divideBy f

/-- Whether the operation is done in integers. -/
def IsWide (k : Division) : Prop :=
  fitsWide k.numerator = true ∧ k.denominator ≠ 0

instance (k : Division) : Decidable k.IsWide :=
  inferInstanceAs (Decidable (_ ∧ _))

/-- The smallest number has no factor of five. -/
theorem units_mul_pow_ne_min (a : FastMoney) (places : ℕ) : a.units * 10 ^ places ≠ -(2 ^ 127) := by
  intro h
  cases places with
  | zero =>
    have hunits := a.le_units
    rw [pow_zero, mul_one] at h
    omega
  | succ places =>
    have hfive : (5 : ℤ) ∣ a.units * 10 ^ (places + 1) := (dvd_pow (by norm_num) places.succ_ne_zero).mul_left _
    rw [h] at hfive
    exact absurd hfive (by decide)

theorem fitsWide_denominator (k : Division) : fitsWide k.denominator = true := by
  rw [fitsWide_iff]
  cases k with
  | product a f =>
    have hpow : (10 : ℤ) ^ f.scale ≤ 10 ^ 28 := pow_le_pow_right₀ (by norm_num) f.scale_le
    have hpos : (0 : ℤ) < 10 ^ f.scale := by positivity
    simp only [denominator]
    constructor <;> linarith
  | quotient a f =>
    have hmantissa := f.natAbs_mantissa_lt
    simp only [denominator]
    omega

theorem not_min_by_neg_one (k : Division) : ¬ (k.numerator = -(2 ^ 127) ∧ k.denominator = -1) := by
  rintro ⟨hmin, hone⟩
  cases k with
  | product a f =>
    have hpos : (0 : ℤ) < 10 ^ f.scale := by positivity
    simp only [denominator] at hone
    omega
  | quotient a f => exact units_mul_pow_ne_min a f.scale hmin

theorem outcome_eq {k : Division} (h : k.IsWide) :
    ∃ expression, k.outcome = ofUnits k.currency (divideHalfUp k.numerator k.denominator) expression := by
  obtain ⟨hfits, hzero⟩ := h
  cases k with
  | product a f => exact ⟨_, if_pos hfits⟩
  | quotient a f =>
    have hf : ¬ f.isZero = true := mt (fun hf => (Decimal.value_eq_zero_iff f).1 ((Decimal.isZero_iff f).1 hf)) hzero
    exact ⟨_, (if_neg hf).trans (if_pos hfits)⟩

end Division

/-! ### The nearest integer -/

/-- Whether an integer is the one nearest to a number, of two as near the one farther from zero. -/
def IsNearestAway (x : ℚ) (q : ℤ) : Prop :=
  ∀ k : ℤ, k ≠ q → |x - q| < |x - k| ∨ |x - q| = |x - k| ∧ |k| < |q|

theorem IsNearestAway.neg {x : ℚ} {q : ℤ} (h : IsNearestAway x q) : IsNearestAway (-x) (-q) := by
  intro k hk
  have hdist : ∀ j : ℤ, |-x - (-j : ℤ)| = |x - j| := by
    intro j
    rw [Int.cast_neg, ← abs_neg]
    congr 1
    ring
  have hk' := h (-k) (by omega)
  rwa [← hdist q, ← hdist (-k), neg_neg, abs_neg, ← abs_neg q] at hk'

/-- Of two integers as near to a number that is not negative, the larger one lies farther from zero. -/
theorem farther_of_halfway {x : ℚ} {q k : ℤ} (hx : 0 ≤ x) (hlt : k < q) (hq : |x - q| ≤ 1 / 2) (hk : x - k ≤ 1 / 2) :
    |x - q| = |x - k| ∧ |k| < |q| := by
  have hstep : (k : ℚ) + 1 ≤ q := by exact_mod_cast hlt
  obtain ⟨hlow, -⟩ := abs_le.1 hq
  have hx_eq : x = k + 1 / 2 := by linarith
  have hq_eq : (q : ℚ) = k + 1 := by linarith
  have hk_nonneg : 0 ≤ k := by
    have hneg : ((-1 : ℤ) : ℚ) < k := by
      push_cast
      linarith
    exact Int.add_one_le_iff.2 (Int.cast_lt.1 hneg)
  constructor
  · rw [hx_eq, hq_eq, ← abs_neg]
    congr 1
    ring
  · rw [abs_of_nonneg hk_nonneg, abs_of_nonneg (hk_nonneg.trans hlt.le)]
    exact hlt

theorem isNearestAway_of_nonneg {x : ℚ} (hx : 0 ≤ x) : IsNearestAway x ⌊x + 1 / 2⌋ := by
  intro k hk
  have hlow := Int.floor_le (x + 1 / 2)
  have hhigh := Int.lt_floor_add_one (x + 1 / 2)
  have hnear : |x - ⌊x + 1 / 2⌋| ≤ 1 / 2 := abs_le.2 ⟨by linarith, by linarith⟩
  rcases lt_or_gt_of_ne hk with hlt | hgt
  · rcases lt_or_ge (1 / 2) (x - k) with hfar | htie
    · exact .inl (hnear.trans_lt (lt_abs.2 (.inl hfar)))
    · exact .inr (farther_of_halfway hx hlt hnear htie)
  · have hstep : (⌊x + 1 / 2⌋ : ℚ) + 1 ≤ k := by exact_mod_cast hgt
    exact .inl (hnear.trans_lt (lt_abs.2 (.inr (by linarith))))

theorem isNearestAway_select (x : ℚ) : IsNearestAway x (halfUp.select x) := by
  have hselect : ∀ y : ℚ, 0 ≤ y → IsNearestAway y (halfUp.select y) := by
    intro y hy
    rw [select, if_pos hy]
    exact isNearestAway_of_nonneg hy
  rcases le_total 0 x with hx | hx
  · exact hselect x hx
  · have hneg := (hselect (-x) (by linarith)).neg
    rw [select_neg, neg_neg, neg_neg] at hneg
    exact hneg

/-- Whatever product or quotient is done in integers stays in the double width: its operands have a place there, no step
of the rounded division fails, and the units that are counted are the integer nearest to the exact quotient, of two as
near the one farther from zero. -/
theorem division_stays_wide (k : Division) (h : k.IsWide) :
    fitsWide k.numerator = true ∧ fitsWide k.denominator = true ∧
    ∃ units, divideHalfUp? k.numerator k.denominator = some units ∧
      IsNearestAway ((k.numerator : ℚ) / k.denominator) units ∧
      ∃ expression, k.outcome = ofUnits k.currency units expression := by
  refine ⟨h.1, k.fitsWide_denominator, _, ?_, ?_, Division.outcome_eq h⟩
  · exact divideHalfUp?_eq h.1 k.fitsWide_denominator h.2 k.not_min_by_neg_one
  · rw [divideHalfUp_eq_select _ h.2]
    exact isNearestAway_select _

/-- The smallest amount times `2 ^ 64 / 10` has the smallest number of the double width divided by ten. -/
def minTimes : Division :=
  .product (min .euro) (.ofDigits (2 ^ 64) 1 (by decide))

/-- Five units by minus ten are a tie below zero. -/
def byMinusTen : Division :=
  .quotient ⟨.euro, 5, by decide, by decide⟩ (.ofDigits (-10) 0 (by decide))

theorem division_stays_wide_min :
    divideHalfUp? (-(2 ^ 127)) 10 = some (-17014118346046923173168730371588410573) ∧
    IsNearestAway (-(2 ^ 127) / 10) (-17014118346046923173168730371588410573) ∧
    divideHalfUp? 5 (-10) = some (-1) ∧ IsNearestAway (5 / -10) (-1) := by
  have hmin : minTimes.numerator = -(2 ^ 127) ∧ minTimes.denominator = 10 := by decide
  have htie : byMinusTen.numerator = 5 ∧ byMinusTen.denominator = -10 := by decide
  have hminSteps : divideHalfUp? (-(2 ^ 127)) 10 = some (-17014118346046923173168730371588410573) := by decide
  have htieSteps : divideHalfUp? 5 (-10) = some (-1) := by decide
  obtain ⟨-, -, units, hunits, hnearest, -⟩ := division_stays_wide minTimes (by decide)
  rw [hmin.1, hmin.2] at hunits hnearest
  cases hunits.symm.trans hminSteps
  obtain ⟨-, -, units, hunits, haway, -⟩ := division_stays_wide byMinusTen (by decide)
  rw [htie.1, htie.2] at hunits haway
  cases hunits.symm.trans htieSteps
  push_cast at hnearest haway
  exact ⟨hminSteps, hnearest, htieSteps, haway⟩

end FastMoney

end Coinage
