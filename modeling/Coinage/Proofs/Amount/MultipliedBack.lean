import Coinage.Proofs.Amount.Basic
import Coinage.Proofs.Decimal.Checked
import Coinage.Proofs.Decimal.RoundingError
/-!
# A quotient multiplied back

A quotient of money is rounded to a decimal and to sixteen digits, and its product with the divisor to a decimal once
more. The last rounding goes to a nearest number, and the dividend is a decimal itself, so at worst it doubles what
the quotient has lost. That settles all quotients with 28 places. A quotient that is too large for so many is known
to fewer, and the product of small numbers still has all of them; there the dividend counts fewer than `10 ^ 15`
units, and is met exactly, or a single unit is within the bound.
-/

namespace Coinage

namespace Decimal

open RoundingMode

/-! ### Quotients of few units

The quotient `x` of two integers has the decade `P`, and `k` is the decimal near to it, by a unit `δ` that is small
beside it. The dividend has fewer than sixteen digits, so `P` times the divisor stays below `10 ^ 15`. If it stays
far below, half a unit of the sixteenth digit is small enough; if not, the quotient is nearly an integer in those
units, and no rounding misses it. -/

section Few

variable {A m P : ℤ} {x k δ : ℚ}

theorem mul_decade_le (hm : 0 < m) (hA' : A < 10 ^ 15) (hxm : x * m = A) (hP : P ≤ k) (hk : k ≤ x + δ / 2)
    (hδ : δ ≤ 2 / 10 ^ 28 * x) : m * P ≤ A := by
  have hm' : (0 : ℚ) < m := by exact_mod_cast hm
  have hA₁ : (A : ℚ) < 10 ^ 15 := by exact_mod_cast hA'
  have hle : (P : ℚ) ≤ x + x / 10 ^ 28 := by linarith
  have hscaled := mul_le_mul_of_nonneg_right hle hm'.le
  rw [add_mul, div_mul_eq_mul_div, hxm] at hscaled
  have hlt : (m : ℚ) * P < A + 1 := by
    rw [mul_comm]
    linarith
  exact Int.lt_add_one_iff.1 (by exact_mod_cast hlt)

theorem abs_mul_sub_lt_of_far {y : ℚ} (hm : 0 < m) (hA' : A < 10 ^ 15) (hxm : x * m = A) (hk : |k - x| ≤ δ / 2)
    (hδ : δ ≤ 2 / 10 ^ 28 * x) (hy : |y - k| ≤ P / 10 ^ 15 / 2) (hfar : m * P + 10 ^ 4 < 10 ^ 15) :
    |y * m - A| < 1 / 2 := by
  have hm' : (0 : ℚ) < m := by exact_mod_cast hm
  have hA₁ : (A : ℚ) < 10 ^ 15 := by exact_mod_cast hA'
  have hfar' : (P : ℚ) * m + 10 ^ 4 < 10 ^ 15 := by
    rw [mul_comm]
    exact_mod_cast hfar
  have hle : |y - x| ≤ P / 10 ^ 15 / 2 + x / 10 ^ 28 := by linarith [abs_sub_le y k x]
  have hscaled := mul_le_mul_of_nonneg_right hle hm'.le
  have hsplit : (P / 10 ^ 15 / 2 + x / 10 ^ 28) * (m : ℚ) = P * m / 10 ^ 15 / 2 + A / 10 ^ 28 := by
    rw [← hxm]
    ring
  have hdiff : y * m - A = (y - x) * m := by rw [sub_mul, hxm]
  rw [hdiff, abs_mul, abs_of_pos hm']
  linarith

/-- What a decade loses against `10 ^ 15`, the quotient gains: their product differs from the dividend by terms of
second order. -/
theorem gain_mul_bounds (hA' : A < 10 ^ 15) (hle : m * P ≤ A) (hnear : 10 ^ 15 ≤ m * P + 10 ^ 4) :
    0 ≤ A * 10 ^ 15 - (A + (10 ^ 15 - m * P)) * (m * P) ∧
      A * 10 ^ 15 - (A + (10 ^ 15 - m * P)) * (m * P) ≤ 10 ^ 8 := by
  have hsecond : A * 10 ^ 15 - (A + (10 ^ 15 - m * P)) * (m * P) = (10 ^ 15 - m * P) * (A - m * P) := by ring
  have hgain : 0 ≤ 10 ^ 15 - m * P := by omega
  have hrest : 0 ≤ A - m * P := by omega
  rw [hsecond]
  refine ⟨mul_nonneg hgain hrest, ?_⟩
  calc (10 ^ 15 - m * P) * (A - m * P) ≤ 10 ^ 4 * 10 ^ 4 := mul_le_mul (by omega) (by omega) hrest (by norm_num)
    _ = 10 ^ 8 := by norm_num

theorem select_of_near (hm : 0 < m) (hP : 0 < P) (hA' : A < 10 ^ 15) (hxm : x * m = A) (hk : |k - x| ≤ δ / 2)
    (hδ : δ ≤ 2 / 10 ^ 28 * x) (hdecade : k < 10 * P) (hle : m * P ≤ A) (hnear : 10 ^ 15 ≤ m * P + 10 ^ 4) :
    halfEven.select (k / (P / 10 ^ 15)) = A + (10 ^ 15 - m * P) := by
  have hm' : (0 : ℚ) < m := by exact_mod_cast hm
  have hP' : (0 : ℚ) < P := by exact_mod_cast hP
  obtain ⟨hlow, hhigh⟩ := gain_mul_bounds hA' hle hnear
  have hlarge : (10 : ℤ) ^ 8 * 4 ≤ m * P := by omega
  have hexact : |x * 10 ^ 15 - (A + (10 ^ 15 - m * P) : ℤ) * P| ≤ (P : ℚ) / 4 := by
    have hscaled : (x * 10 ^ 15 - (A + (10 ^ 15 - m * P) : ℤ) * P) * m =
        ((A * 10 ^ 15 - (A + (10 ^ 15 - m * P)) * (m * P) : ℤ) : ℚ) := by
      push_cast
      rw [← hxm]
      ring
    rw [← mul_le_mul_iff_left₀ hm', ← abs_of_pos hm', ← abs_mul, abs_of_pos hm', hscaled, ← Int.cast_abs,
      abs_of_nonneg hlow]
    have hbound : (((A * 10 ^ 15 - (A + (10 ^ 15 - m * P)) * (m * P)) * 4 : ℤ) : ℚ) ≤ ((m * P : ℤ) : ℚ) := by
      exact_mod_cast (by omega : (A * 10 ^ 15 - (A + (10 ^ 15 - m * P)) * (m * P)) * 4 ≤ m * P)
    push_cast at hbound ⊢
    linarith
  have hrounded : |k * 10 ^ 15 - x * 10 ^ 15| ≤ (P : ℚ) / 8 := by
    obtain ⟨h₁, h₂⟩ := abs_le.1 hk
    rw [← sub_mul, abs_mul, abs_of_pos (by positivity : (0 : ℚ) < 10 ^ 15)]
    linarith
  refine isNearest_halfEven.select_eq ?_
  have hdist : k / (P / 10 ^ 15) - (A + (10 ^ 15 - m * P) : ℤ) =
      (k * 10 ^ 15 - (A + (10 ^ 15 - m * P) : ℤ) * P) / P := by
    field_simp
  rw [hdist, abs_div, abs_of_pos hP', div_lt_iff₀ hP']
  refine (abs_sub_le _ (x * 10 ^ 15) _).trans_lt ((add_le_add hrounded hexact).trans_lt ?_)
  linarith

theorem abs_mul_sub_lt_of_near (hA' : A < 10 ^ 15) (hle : m * P ≤ A) (hnear : 10 ^ 15 ≤ m * P + 10 ^ 4) :
    |((A + (10 ^ 15 - m * P) : ℤ) : ℚ) * (P / 10 ^ 15) * m - A| < 1 / 2 := by
  obtain ⟨hlow, hhigh⟩ := gain_mul_bounds hA' hle hnear
  have hdiff : ((A + (10 ^ 15 - m * P) : ℤ) : ℚ) * (P / 10 ^ 15) * m - A =
      -((A * 10 ^ 15 - (A + (10 ^ 15 - m * P)) * (m * P) : ℤ) : ℚ) / 10 ^ 15 := by
    push_cast
    field_simp
    ring
  rw [hdiff, abs_div, abs_neg, ← Int.cast_abs, abs_of_nonneg hlow, abs_of_pos (by positivity : (0 : ℚ) < 10 ^ 15)]
  generalize A * 10 ^ 15 - (A + (10 ^ 15 - m * P)) * (m * P) = gain at hhigh
  have hhigh' : (gain : ℚ) ≤ 10 ^ 8 := by exact_mod_cast hhigh
  linarith

/-- The digits before the point of a number from one on, of which sixteen are kept. -/
theorem exists_decade (hk : 1 ≤ k) :
    ∃ j : ℕ, ((10 ^ j : ℤ) : ℚ) ≤ k ∧ k < 10 * ((10 ^ j : ℤ) : ℚ) ∧ lastPlace 16 k = ((10 ^ j : ℤ) : ℚ) / 10 ^ 15 := by
  have hk₀ : 0 < k := by linarith
  obtain ⟨hdecade, hdecade'⟩ := zpow_log_bounds hk₀.ne'
  rw [abs_of_pos hk₀] at hdecade hdecade'
  have hlog : 0 ≤ Int.log 10 k := by
    have hlt := (zpow_zero (10 : ℚ)).le.trans_lt (hk.trans_lt hdecade')
    have := (zpow_lt_zpow_iff_right₀ (by norm_num : (1 : ℚ) < 10)).1 hlt
    omega
  obtain ⟨j, hj⟩ := Int.eq_ofNat_of_zero_le hlog
  refine ⟨j, ?_, ?_, ?_⟩
  · rw [hj, zpow_natCast] at hdecade
    exact_mod_cast hdecade
  · rw [hj, zpow_add₀ (by norm_num), zpow_natCast, zpow_one, mul_comm] at hdecade'
    exact_mod_cast hdecade'
  · rw [lastPlace, abs_of_pos hk₀, hj, show (j : ℤ) + 1 - (16 : ℕ) = (j : ℤ) - (15 : ℕ) by push_cast; ring,
      zpow_sub₀ (by norm_num), zpow_natCast, zpow_natCast]
    push_cast
    rfl

/-- Where a quotient of integers has no room for 28 places and its dividend has fewer than sixteen digits, its digits
times the divisor come closer than one half to the dividend. -/
theorem abs_toDigits_mul_sub_lt {t : ℕ} (hA : 0 < A) (hA' : A < 10 ^ 15) (hm : 0 < m) (ht : t < maxScale)
    (hfits : ¬ Fits ((A : ℚ) / m) (t + 1)) :
    |toDigits halfEven 16 (roundedAt ((A : ℚ) / m) t) * m - A| < 1 / 2 := by
  have hm' : (0 : ℚ) < m := by exact_mod_cast hm
  have hx : (0 : ℚ) < (A : ℚ) / m := div_pos (by exact_mod_cast hA) hm'
  have hxm : (A : ℚ) / m * m = A := div_mul_cancel₀ _ hm'.ne'
  have hunit := inv_pow_le_of_not_fits hfits
  have herror := abs_roundedAt_sub_le ((A : ℚ) / m) t
  have hlarge := le_of_not_fits hfits
  rw [abs_of_pos hx] at hunit hlarge
  rw [div_div, mul_comm, ← div_div] at herror
  obtain ⟨hlow, hhigh⟩ := abs_le.1 herror
  set x := (A : ℚ) / m
  set k := roundedAt x t
  have hx₁ : 2 ≤ x := by
    have hpow : (10 : ℚ) ^ (t + 1) ≤ 10 ^ 28 := pow_le_pow_right₀ (by norm_num) ht
    have := hlarge.trans (mul_le_mul_of_nonneg_left hpow hx.le)
    linarith
  -- the quotient has digits before the point, so its decade is an integer
  obtain ⟨j, hP, hP', hplace⟩ := exists_decade (by linarith : 1 ≤ k)
  have hle := mul_decade_le hm hA' hxm hP (by linarith) hunit
  rcases lt_or_ge (m * 10 ^ j + 10 ^ 4) (10 ^ 15) with hfar | hnear
  · have hy := abs_toDigits_sub_le 16 k
    rw [hplace] at hy
    exact abs_mul_sub_lt_of_far hm hA' hxm herror hunit hy hfar
  · rw [toDigits, if_neg (by decide), hplace,
      select_of_near hm (by positivity) hA' hxm herror hunit hP' hle hnear]
    exact abs_mul_sub_lt_of_near hA' hle hnear

end Few

/-! ### Quotient and product -/

section MultipliedBack

variable {a b k r : ℚ}

/-- An integer that comes close to one of sixteen digits or more is no further from it than a unit of these. -/
theorem abs_sub_le_of_large {u A : ℤ} (hlarge : 10 ^ 15 ≤ A)
    (hclose : |(u : ℚ) - A| ≤ 1 / 2 + ((A : ℚ) / 10 ^ 15 / 2 + A / 10 ^ 28)) : |(u : ℚ) - A| ≤ A / 10 ^ 15 := by
  have hlarge' : (10 : ℚ) ^ 15 ≤ A := by exact_mod_cast hlarge
  rcases lt_or_ge A (10 ^ 15 + 10 ^ 4) with hnear | hfar
  · -- less than two units away from an integer, so one unit at most
    have hnear' : (A : ℚ) < 10 ^ 15 + 10 ^ 4 := by exact_mod_cast hnear
    have htwo : |(u : ℚ) - A| < 2 := by linarith
    have hone : |u - A| ≤ 1 := Int.lt_add_one_iff.1 (by exact_mod_cast htwo)
    have hone' : |(u : ℚ) - A| ≤ 1 := by exact_mod_cast hone
    linarith
  · have hfar' : (10 : ℚ) ^ 15 + 10 ^ 4 ≤ A := by exact_mod_cast hfar
    linarith

/-- A product that is rounded to the last possible place, where the quotient had no room for as many places. -/
theorem abs_roundedAt_sub_le_of_coarse {A m : ℤ} {t : ℕ} (ha : a * 10 ^ maxScale = A) (hb : b * 10 ^ maxScale = m)
    (ha₀ : 0 < a) (hb₀ : 0 < b) (ht : t < maxScale) (hfits : ¬ Fits (a / b) (t + 1))
    (hquotient : |toDigits halfEven 16 (roundedAt (a / b) t) * b - a| ≤ a / 10 ^ 15 / 2 + a / 10 ^ 28) :
    |roundedAt (toDigits halfEven 16 (roundedAt (a / b) t) * b) maxScale - a| ≤ a / 10 ^ 15 := by
  have hpow : (0 : ℚ) < 10 ^ maxScale := by positivity
  have hA : 0 < A := by
    have : (0 : ℚ) < A := ha ▸ mul_pos ha₀ hpow
    exact_mod_cast this
  have hm : 0 < m := by
    have : (0 : ℚ) < m := hb ▸ mul_pos hb₀ hpow
    exact_mod_cast this
  have hratio : a / b = (A : ℚ) / m := by rw [← ha, ← hb, mul_div_mul_right _ _ hpow.ne']
  set z := toDigits halfEven 16 (roundedAt (a / b) t) * b with hz
  have hscaled : ∀ w : ℚ, |w - a| * 10 ^ maxScale = |w * 10 ^ maxScale - A| := fun w => by
    rw [← ha, ← sub_mul, abs_mul, abs_of_pos hpow]
  have hround : roundedAt z maxScale * 10 ^ maxScale = unitsNear z maxScale := by
    rw [roundedAt, div_mul_cancel₀ _ hpow.ne']
  rw [← mul_le_mul_iff_left₀ hpow, hscaled, hround, div_mul_eq_mul_div, ha]
  rcases lt_or_ge A (10 ^ 15) with hsmall | hlarge
  · have hnear : |z * 10 ^ maxScale - A| < 1 / 2 := by
      have h := abs_toDigits_mul_sub_lt hA hsmall hm ht (hratio ▸ hfits)
      rwa [← hratio, ← hb, ← mul_assoc, ← hz] at h
    have hunits : unitsNear z maxScale = A := isNearest_halfEven.select_eq hnear
    rw [hunits, sub_self, abs_zero]
    positivity
  · have hproduct : |z * 10 ^ maxScale - A| ≤ A / 10 ^ 15 / 2 + A / 10 ^ 28 := by
      rw [← hscaled, ← ha]
      refine (mul_le_mul_of_nonneg_right hquotient hpow.le).trans (le_of_eq ?_)
      ring
    have hhalf := isNearest_halfEven.abs_select_sub_le (z * 10 ^ maxScale)
    exact abs_sub_le_of_large hlarge ((abs_sub_le _ (z * 10 ^ maxScale) _).trans (add_le_add hhalf hproduct))

/-- The quotient of two positive decimals, rounded to sixteen digits and multiplied back. -/
theorem abs_sub_le_of_pos {A m : ℤ} (ha : a * 10 ^ maxScale = A) (hb : b * 10 ^ maxScale = m) (ha₀ : 0 < a)
    (hb₀ : 0 < b) (hk : nearestValue? (a / b) = some k) (hr : nearestValue? (toDigits halfEven 16 k * b) = some r) :
    |r - a| ≤ a / 10 ^ 15 + b / 10 ^ 28 := by
  obtain ⟨t, ht, -, hmax, rfl⟩ := exists_places hk
  obtain ⟨s, hs, -, hmax', rfl⟩ := exists_places hr
  set z := toDigits halfEven 16 (roundedAt (a / b) t) * b with hz
  have hquotient : |z - a| ≤ (a / 10 ^ 15 + b / 10 ^ t) / 2 := by
    have h := mul_le_mul_of_nonneg_right (abs_toDigits_roundedAt_sub_le (a / b) t (by norm_num : 1 ≤ 16)) hb₀.le
    have hsplit : z - a = (toDigits halfEven 16 (roundedAt (a / b) t) - a / b) * b := by
      rw [sub_mul, div_mul_cancel₀ _ hb₀.ne']
    rw [hsplit, abs_mul, abs_of_pos hb₀]
    refine h.trans (le_of_eq ?_)
    rw [abs_of_pos (div_pos ha₀ hb₀)]
    field_simp
  have hb₁ : 0 < b / 10 ^ 28 := by positivity
  have hproduct : s < maxScale → |roundedAt z s - a| ≤ (a + |z - a|) / 10 ^ 28 + |z - a| := fun hs' => by
    have hround := abs_roundedAt_sub_le_of_not_fits (hmax'.resolve_left hs'.ne)
    have hsize := abs_sub_abs_le_abs_sub z a
    rw [abs_of_pos ha₀] at hsize
    linarith [abs_sub_le (roundedAt z s) z a]
  rcases ht.eq_or_lt with rfl | ht
  · rcases hs.eq_or_lt with rfl | hs
    · have h := abs_roundedAt_sub_le_two_mul (z := z) ha
      norm_num [maxScale] at hquotient h ⊢
      linarith
    · have h := hproduct hs
      norm_num [maxScale] at hquotient h ⊢
      linarith
  · -- the quotient had no room for all places, so its unit is small beside the dividend
    have hfits := hmax.resolve_left ht.ne
    have hunit : b / 10 ^ t ≤ 2 / 10 ^ 28 * a := by
      have h := mul_le_mul_of_nonneg_right (inv_pow_le_of_not_fits hfits) hb₀.le
      rwa [abs_of_pos (div_pos ha₀ hb₀), mul_assoc, div_mul_cancel₀ _ hb₀.ne', div_mul_eq_mul_div, one_mul] at h
    rcases hs.eq_or_lt with rfl | hs
    · have h := abs_roundedAt_sub_le_of_coarse ha hb ha₀ hb₀ ht hfits (by linarith)
      linarith
    · linarith [hproduct hs]

theorem toDigits_sign_mul {s : ℤ} (hs : s = 1 ∨ s = -1) (p : ℕ) (x : ℚ) :
    toDigits halfEven p (s * x) = s * toDigits halfEven p x := by
  rcases hs with rfl | rfl
  · rw [Int.cast_one, one_mul, one_mul]
  · have hplace : lastPlace p (-x) = lastPlace p x := by rw [lastPlace, abs_neg, lastPlace]
    rw [Int.cast_neg, Int.cast_one, neg_one_mul, neg_one_mul, toDigits, if_neg (by decide), toDigits, if_neg (by decide),
      hplace, neg_div, select_neg, isNearest_halfEven.mirror_eq, Int.cast_neg, neg_mul]

theorem abs_value_units (d : Decimal) : |d.value| * 10 ^ maxScale = (|d.unitsAt maxScale| : ℤ) := by
  rw [Int.cast_abs, unitsAt_eq d d.scale_le, abs_mul, abs_of_pos (by positivity : (0 : ℚ) < 10 ^ maxScale)]

/-- The quotient of two decimals, rounded to sixteen digits and multiplied back, is off by one unit of the digits
and one of the last place of the divisor at most. -/
theorem abs_sub_le_of_multiplied_back {a b : Decimal} (hb : b.value ≠ 0)
    (hk : nearestValue? (a.value / b.value) = some k) (hr : nearestValue? (toDigits halfEven 16 k * b.value) = some r) :
    |r - a.value| ≤ |a.value| / 10 ^ 15 + |b.value| / 10 ^ 28 := by
  by_cases ha : a.value = 0
  · rw [ha, zero_div, ← Int.cast_zero] at hk
    rw [nearestValue?_intCast hk, Int.cast_zero, (hasDigits_zero 16).toDigits_eq, zero_mul, ← Int.cast_zero] at hr
    rw [nearestValue?_intCast hr, ha, Int.cast_zero, sub_zero, abs_zero, zero_div, zero_add]
    positivity
  · -- rounding and multiplication commute with the signs
    have hsa := sign_eq_one_or a.mantissa (by rwa [Ne, ← value_eq_zero_iff])
    have hsb := sign_eq_one_or b.mantissa (by rwa [Ne, ← value_eq_zero_iff])
    have hs : a.mantissa.sign * b.mantissa.sign = 1 ∨ a.mantissa.sign * b.mantissa.sign = -1 := by
      rcases hsa with h | h <;> rcases hsb with h' | h' <;> rw [h, h'] <;> decide
    rw [div_value_eq a b hb, nearestValue?_sign_mul hs] at hk
    obtain ⟨k', hk', rfl⟩ := Option.map_eq_some_iff.1 hk
    have hproduct : toDigits halfEven 16 ((a.mantissa.sign * b.mantissa.sign : ℤ) * k') * b.value =
        a.mantissa.sign * (toDigits halfEven 16 k' * |b.value|) := by
      have hsquare : (b.mantissa.sign : ℚ) * b.mantissa.sign = 1 := by
        rcases hsb with h | h <;> rw [h] <;> norm_num
      have hvalue := sign_mul_abs_value b
      rw [toDigits_sign_mul hs]
      push_cast
      linear_combination (a.mantissa.sign * toDigits halfEven 16 k' * |b.value|) * hsquare -
        (a.mantissa.sign * b.mantissa.sign * toDigits halfEven 16 k') * hvalue
    rw [hproduct, nearestValue?_sign_mul hsa] at hr
    obtain ⟨r', hr', rfl⟩ := Option.map_eq_some_iff.1 hr
    have h := abs_sub_le_of_pos (abs_value_units a) (abs_value_units b) (abs_pos.2 ha) (abs_pos.2 hb) hk' hr'
    have hsign : |(a.mantissa.sign : ℚ)| = 1 := by
      rcases hsa with h | h <;> rw [h] <;> norm_num
    have hdiff : a.mantissa.sign * r' - a.value = a.mantissa.sign * (r' - |a.value|) := by
      rw [mul_sub, sign_mul_abs_value]
    rwa [hdiff, abs_mul, hsign, one_mul]

end MultipliedBack

end Decimal

namespace Money

open Decimal

/-- A quotient of money multiplied by its divisor differs from the dividend by one unit of the sixteen digits that a
quotient has, and one of the last place for each unit of the divisor, at most. -/
theorem divideBy_multiplyBy_near {a q r : Money} {n : Decimal} (hq : a.divideBy n = .ok q) (hr : q.multiplyBy n = .ok r) :
    |r.number.value - a.number.value| ≤ |a.number.value| * (1 / 10 ^ 15) + |n.value| * (1 / 10 ^ 28) := by
  obtain ⟨k, hk, hq⟩ := bind_eq_ok.1 hq
  obtain ⟨rounded, hrounded, hq⟩ := bind_eq_ok.1 hq
  cases pure_eq_ok.1 hq
  obtain ⟨product, hproduct, hr⟩ := bind_eq_ok.1 hr
  cases pure_eq_ok.1 hr
  have hn := value_ne_zero_of_quotient hk
  have hquotient := (rounds_quotient a.number n hn).ok hk
  have hnearest := (rounds_product _ n).ok hproduct
  rw [number_withNumber, value_unsigned, value_roundToPrecision_toDigits (c := bound) rfl hrounded] at hnearest
  rw [number_withNumber, value_unsigned, mul_one_div, mul_one_div]
  exact abs_sub_le_of_multiplied_back hn hquotient hnearest

/-- A third of ten euros, taken three times, lacks one unit of the sixteen digits. -/
theorem divideBy_multiplyBy_near_third :
    divideBy ⟨.euro, ofDigits 10 0 (by decide)⟩ (ofDigits 3 0 (by decide)) =
        .ok ⟨.euro, ofDigits 3333333333333333 15 (by decide)⟩ ∧
      multiplyBy ⟨.euro, ofDigits 3333333333333333 15 (by decide)⟩ (ofDigits 3 0 (by decide)) =
        .ok ⟨.euro, ofDigits 9999999999999999 15 (by decide)⟩ ∧
      |(9999999999999999 / 10 ^ 15 : ℚ) - 10| ≤ |10| * (1 / 10 ^ 15) + |3| * (1 / 10 ^ 28) := by
  have hq : divideBy ⟨.euro, ofDigits 10 0 (by decide)⟩ (ofDigits 3 0 (by decide)) =
      .ok ⟨.euro, ofDigits 3333333333333333 15 (by decide)⟩ := by cbv
  have hr : multiplyBy ⟨.euro, ofDigits 3333333333333333 15 (by decide)⟩ (ofDigits 3 0 (by decide)) =
      .ok ⟨.euro, ofDigits 9999999999999999 15 (by decide)⟩ := by cbv
  have hnear := divideBy_multiplyBy_near hq hr
  exact ⟨hq, hr, by simpa using hnear⟩

end Money

end Coinage
