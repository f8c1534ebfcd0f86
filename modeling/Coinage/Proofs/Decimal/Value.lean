import Coinage.Decimal.Basic
import Coinage.Proofs.Rounding.Select
/-!
# The value of a decimal

A decimal stands for the rational number `mantissa / 10 ^ scale`. Comparison, negation, the integral
part and the normal form are said here in terms of that number, so that later modules need not look at
mantissas and scales.
-/

namespace Coinage

namespace Decimal

/-- The number that a decimal stands for. -/
def value (d : Decimal) : ℚ :=
  d.mantissa / 10 ^ d.scale

/-- A number that some decimal stands for. -/
def Representable (x : ℚ) : Prop :=
  ∃ d : Decimal, d.value = x

theorem mantissa_eq (d : Decimal) : (d.mantissa : ℚ) = d.value * 10 ^ d.scale := by
  rw [value, div_mul_cancel₀]
  positivity

@[simp]
theorem value_ofDigits (m : ℤ) (s : ℕ) (h : m.natAbs < capacity ∧ s ≤ maxScale) :
    (ofDigits m s h).value = m / 10 ^ s := rfl

@[simp]
theorem value_zero : zero.value = 0 := by simp [value, zero]

@[simp]
theorem value_one : one.value = 1 := by simp [value, one]

@[simp]
theorem value_neg (d : Decimal) : d.neg.value = -d.value := by
  simp [value, neg, neg_div]

@[simp]
theorem value_unsigned (d : Decimal) : d.unsigned.value = d.value := rfl

theorem abs_value (d : Decimal) : |d.value| = (d.mantissa.natAbs : ℚ) / 10 ^ d.scale := by
  rw [value, abs_div, abs_of_pos (by positivity : (0 : ℚ) < 10 ^ d.scale), Nat.cast_natAbs, Int.cast_abs]

/-- No decimal has larger digits than the largest mantissa, however many of its places are taken for digits. -/
theorem abs_value_mul_le (d : Decimal) {s : ℕ} (h : s ≤ d.scale) : |d.value| * 10 ^ s ≤ 2 ^ 96 - 1 := by
  have hmantissa : (d.mantissa.natAbs : ℚ) ≤ 2 ^ 96 - 1 := by
    rw [le_sub_iff_add_le]
    exact_mod_cast d.natAbs_mantissa_lt
  calc |d.value| * 10 ^ s ≤ |d.value| * 10 ^ d.scale :=
        mul_le_mul_of_nonneg_left (pow_le_pow_right₀ (by norm_num) h) (abs_nonneg _)
    _ = d.mantissa.natAbs := by rw [abs_value, div_mul_cancel₀ _ (by positivity)]
    _ ≤ 2 ^ 96 - 1 := hmantissa

/-- No decimal is larger than the largest mantissa. -/
theorem abs_value_le (d : Decimal) : |d.value| ≤ 2 ^ 96 - 1 := by
  have h := d.abs_value_mul_le (Nat.zero_le _)
  rwa [pow_zero, mul_one] at h

theorem value_eq_zero_iff (d : Decimal) : d.value = 0 ↔ d.mantissa = 0 := by
  simp [value]

theorem isZero_iff (d : Decimal) : d.isZero = true ↔ d.value = 0 := by
  simp [isZero, value_eq_zero_iff]

theorem isZero_eq_false_iff (d : Decimal) : d.isZero = false ↔ d.value ≠ 0 := by
  rw [Ne, ← isZero_iff, Bool.not_eq_true]

theorem signum_nonneg_iff (d : Decimal) : 0 ≤ d.signum ↔ 0 ≤ d.value := by
  rw [signum, Int.sign_nonneg_iff, value, le_div_iff₀ (by positivity), zero_mul, Int.cast_nonneg_iff]

theorem value_ofParts? {m : ℤ} {s : ℕ} {d : Decimal} (h : ofParts? m s = some d) :
    d.value = m / 10 ^ s := by
  obtain ⟨rfl, rfl⟩ := ofParts?_eq_some h
  rfl

theorem ofParts?_eq_none_iff {m : ℤ} {s : ℕ} : ofParts? m s = none ↔ capacity ≤ m.natAbs ∨ maxScale < s := by
  unfold ofParts?
  split <;> simp <;> omega

theorem exists_ofParts? {m : ℤ} {s : ℕ} (hm : m.natAbs < capacity) (hs : s ≤ maxScale) :
    ∃ d, ofParts? m s = some d ∧ d.mantissa = m ∧ d.scale = s := by
  unfold ofParts?
  rw [dif_pos ⟨hm, hs⟩]
  exact ⟨_, rfl, rfl, rfl⟩

/-! ### Comparison -/

theorem unitsAt_eq (d : Decimal) {places : ℕ} (h : d.scale ≤ places) :
    (d.unitsAt places : ℚ) = d.value * 10 ^ places := by
  rw [unitsAt, value, Int.cast_mul, Int.cast_pow, Int.cast_ofNat]
  rw [div_mul_eq_mul_div, eq_div_iff (by positivity), mul_assoc, ← pow_add]
  congr 2
  omega

theorem unitsAt_lt_iff (a b : Decimal) :
    a.unitsAt (max a.scale b.scale) < b.unitsAt (max a.scale b.scale) ↔ a.value < b.value := by
  rw [← Int.cast_lt (R := ℚ), unitsAt_eq a (le_max_left _ _), unitsAt_eq b (le_max_right _ _)]
  exact mul_lt_mul_iff_left₀ (by positivity)

theorem unitsAt_eq_iff (a b : Decimal) :
    a.unitsAt (max a.scale b.scale) = b.unitsAt (max a.scale b.scale) ↔ a.value = b.value := by
  rw [← Int.cast_inj (α := ℚ), unitsAt_eq a (le_max_left _ _), unitsAt_eq b (le_max_right _ _)]
  exact mul_left_inj' (by positivity)

theorem compare_eq_compare_value (a b : Decimal) : a.compare b = Ord.compare a.value b.value := by
  unfold compare
  rcases lt_trichotomy a.value b.value with h | h | h
  · rw [compare_lt_iff_lt.2 h, compare_lt_iff_lt.2 ((unitsAt_lt_iff a b).2 h)]
  · rw [compare_eq_iff_eq.2 h, compare_eq_iff_eq.2 ((unitsAt_eq_iff a b).2 h)]
  · rw [compare_gt_iff_gt.2 h, compare_gt_iff_gt.2]
    have := (unitsAt_lt_iff b a).2 h
    rwa [max_comm] at this

theorem sameValue_iff (a b : Decimal) : a.sameValue b = true ↔ a.value = b.value := by
  rw [sameValue, compare_eq_compare_value, beq_iff_eq, compare_eq_iff_eq]

theorem lt_iff (a b : Decimal) : a.lt b = true ↔ a.value < b.value := by
  rw [lt, compare_eq_compare_value, beq_iff_eq, compare_lt_iff_lt]

theorem le_iff (a b : Decimal) : a.le b = true ↔ a.value ≤ b.value := by
  rw [le, compare_eq_compare_value, bne_iff_ne, compare_le_iff_le]

theorem signum_eq_of_value_eq {a b : Decimal} (h : a.value = b.value) : a.signum = b.signum := by
  have hunits : ∀ (d : Decimal) (places : ℕ), (d.unitsAt places).sign = d.signum := fun d places => by
    have hpow : (0 : ℤ) < 10 ^ (places - d.scale) := by positivity
    rw [unitsAt, Int.sign_mul, Int.sign_eq_one_of_pos hpow, mul_one, signum]
  rw [← hunits a (max a.scale b.scale), (unitsAt_eq_iff a b).2 h, hunits]

/-- A number on the side of zero where another one lies has its sign, or none. -/
theorem signum_of_mul_nonneg {a b : Decimal} (h : 0 ≤ b.value * a.value) (hzero : a.value = 0 → b.value = 0) :
    b.signum = 0 ∨ b.signum = a.signum := by
  have hprod : 0 ≤ b.mantissa * a.mantissa := by
    rw [value, value, div_mul_div_comm, le_div_iff₀ (by positivity), zero_mul] at h
    exact_mod_cast h
  rw [value_eq_zero_iff, value_eq_zero_iff] at hzero
  unfold signum
  rcases lt_trichotomy b.mantissa 0 with hb | hb | hb
  · have ha : a.mantissa < 0 := (nonpos_of_mul_nonneg_right hprod hb).lt_of_ne fun h₀ => hb.ne (hzero h₀)
    exact Or.inr (by rw [Int.sign_eq_neg_one_of_neg hb, Int.sign_eq_neg_one_of_neg ha])
  · exact Or.inl (by rw [hb, Int.sign_zero])
  · have ha : 0 < a.mantissa := (nonneg_of_mul_nonneg_right hprod hb).lt_of_ne fun h₀ => hb.ne' (hzero h₀.symm)
    exact Or.inr (by rw [Int.sign_eq_one_of_pos hb, Int.sign_eq_one_of_pos ha])

/-! ### Integral part and normal form -/

theorem select_down_div (m n : ℤ) : RoundingMode.down.select ((m : ℚ) / n) = m.tdiv n := by
  have hneg : ∀ x : ℚ, RoundingMode.down.select (-x) = -RoundingMode.down.select x := fun x =>
    RoundingMode.select_neg .down x
  have hpos : ∀ a b : ℕ, RoundingMode.down.select ((a : ℚ) / b) = ((a / b : ℕ) : ℤ) := fun a b => by
    rw [RoundingMode.select, if_pos (by positivity)]
    exact Rat.floor_intCast_div_natCast a b
  rcases Int.eq_nat_or_neg m with ⟨a, rfl | rfl⟩ <;> rcases Int.eq_nat_or_neg n with ⟨b, rfl | rfl⟩ <;>
    simp only [Int.cast_neg, Int.cast_natCast, neg_div, div_neg, neg_neg, hneg, hpos, Int.neg_tdiv,
      Int.tdiv_neg, Int.ofNat_tdiv]

theorem value_trunc (d : Decimal) : d.trunc.value = RoundingMode.down.select d.value := by
  have h := select_down_div d.mantissa (10 ^ d.scale)
  push_cast at h
  rw [show d.value = d.mantissa / 10 ^ d.scale from rfl, h]
  simp [value, trunc]

theorem dropZeros_value (s : ℕ) : ∀ m : ℤ,
    ((dropZeros m s).1 : ℚ) / 10 ^ (dropZeros m s).2 = m / 10 ^ s := by
  induction s with
  | zero => intro m; rfl
  | succ s ih =>
    intro m
    unfold dropZeros
    split
    · rename_i hm
      have hdvd : m.tdiv 10 * 10 = m := Int.tdiv_mul_cancel (Int.dvd_of_emod_eq_zero hm)
      have hcast : (m : ℚ) = m.tdiv 10 * 10 := by exact_mod_cast hdvd.symm
      rw [ih, hcast, pow_succ, mul_div_mul_right _ _ (by norm_num)]
    · rfl

@[simp]
theorem value_normalize (d : Decimal) : d.normalize.value = d.value :=
  dropZeros_value d.scale d.mantissa

end Decimal

end Coinage
