import Coinage.Proofs.Decimal.DoubleRounding
/-!
# The error of two roundings

A number is rounded to a decimal first, which errs by half a unit of its last place, and the decimal to some digits.
The second error is half a unit of these digits. It is bounded by the exact number and not only by the decimal:
only a decimal beyond a power of ten loses digits, and it lies beyond it by a unit of its own
(`abs_toDigits_roundedAt_sub_le`).
-/

namespace Coinage

namespace Decimal

open RoundingMode

/-! ### One rounding to a decimal -/

/-- Where no further place fits, one unit of the last place is small beside the number. -/
theorem inv_pow_le_of_not_fits {x : ℚ} {t : ℕ} (h : ¬ Fits x (t + 1)) : 1 / 10 ^ t ≤ 2 / 10 ^ 28 * |x| := by
  have hlarge := le_of_not_fits h
  rw [pow_succ 10 t, ← mul_assoc] at hlarge
  rw [div_le_iff₀ (by positivity)]
  linarith

theorem abs_roundedAt_sub_le_of_not_fits {x : ℚ} {t : ℕ} (h : ¬ Fits x (t + 1)) :
    |roundedAt x t - x| ≤ |x| / 10 ^ 28 := by
  have hhalf := abs_roundedAt_sub_le x t
  have hunit := inv_pow_le_of_not_fits h
  rw [div_div, mul_comm, ← div_div] at hhalf
  linarith

/-- No number of as many places is much nearer than the rounded one. -/
theorem abs_roundedAt_sub_le_two_mul {z a : ℚ} {t : ℕ} {n : ℤ} (ha : a * 10 ^ t = n) :
    |roundedAt z t - a| ≤ 2 * |z - a| := by
  have hpow : (0 : ℚ) < 10 ^ t := by positivity
  have hscaled : z * 10 ^ t - n = (z - a) * 10 ^ t := by rw [← ha, sub_mul]
  rcases lt_or_ge |z * 10 ^ t - n| (1 / 2) with hnear | hfar
  · have hunits : unitsNear z t = n := isNearest_halfEven.select_eq hnear
    rw [roundedAt, hunits, ← ha, mul_div_cancel_right₀ _ hpow.ne', sub_self, abs_zero]
    positivity
  · have hhalf := abs_roundedAt_sub_le z t
    rw [hscaled, abs_mul, abs_of_pos hpow, ← div_le_iff₀ hpow] at hfar
    have htriangle := abs_sub_le (roundedAt z t) z a
    linarith

/-! ### Digits that are lost -/

theorem pow_mul_lastPlace_le {k : ℚ} (hk : k ≠ 0) {p : ℕ} (hp : 1 ≤ p) : 10 ^ (p - 1) * lastPlace p k ≤ |k| := by
  refine le_trans (le_of_eq ?_) (zpow_log_bounds hk).1
  rw [lastPlace, ← zpow_natCast 10 (p - 1), ← zpow_add₀ (by norm_num)]
  congr 1
  omega

theorem abs_toDigits_sub_le (p : ℕ) (k : ℚ) : |toDigits halfEven p k - k| ≤ lastPlace p k / 2 := by
  have hpos := lastPlace_pos p k
  have hhalf := isNearest_halfEven.abs_select_sub_le (k / lastPlace p k)
  have hsplit : toDigits halfEven p k - k =
      (halfEven.select (k / lastPlace p k) - k / lastPlace p k) * lastPlace p k := by
    rw [toDigits, if_neg (by decide), sub_mul, div_mul_cancel₀ _ hpos.ne']
  rw [hsplit, abs_mul, abs_of_pos hpos]
  linarith [mul_le_mul_of_nonneg_right hhalf hpos.le]

theorem toDigits_of_div_lastPlace {p : ℕ} {k : ℚ} {n : ℤ} (hn : k / lastPlace p k = n) :
    toDigits halfEven p k = k := by
  rw [toDigits, if_neg (by decide), select_div_mul _ (lastPlace_pos p k).ne' hn]

section Lost

variable {k : ℚ} {p t : ℕ} {n : ℤ}

/-- A digit that the rounding drops lies before the last place. -/
theorem exists_lastPlace_of_lost (hn : k * 10 ^ t = n) (hlost : ¬ ∃ m : ℤ, k / lastPlace p k = m) :
    ∃ i : ℕ, lastPlace p k * 10 ^ t = 10 ^ i :=
  (lastPlace_mul_pow p t k).resolve_right fun ⟨i, hi⟩ => hlost ⟨n * 10 ^ i, div_lastPlace_of_behind hn hi⟩

/-- A number that loses digits lies beyond a power of ten, by one unit of its last place at least. -/
theorem pow_mul_lastPlace_add_le_of_lost (hp : 1 ≤ p) (hn : k * 10 ^ t = n)
    (hlost : ¬ ∃ m : ℤ, k / lastPlace p k = m) : 10 ^ (p - 1) * lastPlace p k + 1 / 10 ^ t ≤ |k| := by
  have hpow : (0 : ℚ) < 10 ^ t := by positivity
  obtain ⟨i, hi⟩ := exists_lastPlace_of_lost hn hlost
  have hk : k ≠ 0 := fun h₀ => hlost ⟨0, by rw [h₀, zero_div, Int.cast_zero]⟩
  have habs : |k| * 10 ^ t = |(n : ℚ)| := by rw [← hn, abs_mul, abs_of_pos hpow]
  have hle : (10 : ℤ) ^ (p - 1) * 10 ^ i ≤ |n| := by
    have h := mul_le_mul_of_nonneg_right (pow_mul_lastPlace_le hk hp) hpow.le
    rw [mul_assoc, hi, habs] at h
    exact_mod_cast h
  have hne : (10 : ℤ) ^ (p - 1) * 10 ^ i ≠ |n| := fun heq => by
    have hquot : k / lastPlace p k = n / 10 ^ i := by rw [← hn, ← hi, mul_div_mul_right _ _ hpow.ne']
    rcases (abs_eq (by positivity)).1 heq.symm with h | h
    · refine hlost ⟨10 ^ (p - 1), ?_⟩
      rw [hquot, h]
      push_cast
      rw [mul_div_cancel_right₀ _ (by positivity)]
    · refine hlost ⟨-10 ^ (p - 1), ?_⟩
      rw [hquot, h]
      push_cast
      rw [neg_div, mul_div_cancel_right₀ _ (by positivity)]
  have hbeyond : (10 : ℚ) ^ (p - 1) * 10 ^ i + 1 ≤ |k| * 10 ^ t := by
    rw [habs]
    exact_mod_cast lt_of_le_of_ne hle hne
  refine le_of_mul_le_mul_right ?_ hpow
  rwa [add_mul, div_mul_cancel₀ _ hpow.ne', mul_assoc, hi]

end Lost

/-- Two roundings, to a decimal and then to digits, err by half a unit of each at most. The unit of the digits
counts no more than the number itself: where a digit is lost, the decimal lies far enough beyond a power of ten. -/
theorem abs_toDigits_roundedAt_sub_le (x : ℚ) (t : ℕ) {p : ℕ} (hp : 1 ≤ p) :
    |toDigits halfEven p (roundedAt x t) - x| ≤ (|x| / 10 ^ (p - 1) + 1 / 10 ^ t) / 2 := by
  have hunits : roundedAt x t * 10 ^ t = unitsNear x t := by rw [roundedAt, div_mul_cancel₀ _ (by positivity)]
  have herror := abs_roundedAt_sub_le x t
  rw [div_div, mul_comm, ← div_div] at herror
  have hdigits : |toDigits halfEven p (roundedAt x t) - roundedAt x t| ≤ |x| / 10 ^ (p - 1) / 2 := by
    by_cases hkept : ∃ n : ℤ, roundedAt x t / lastPlace p (roundedAt x t) = n
    · obtain ⟨n, hn⟩ := hkept
      rw [toDigits_of_div_lastPlace hn, sub_self, abs_zero]
      positivity
    · have hbeyond := pow_mul_lastPlace_add_le_of_lost hp hunits hkept
      have hplace : lastPlace p (roundedAt x t) ≤ |x| / 10 ^ (p - 1) := by
        rw [le_div_iff₀ (by positivity), mul_comm]
        have hclose := abs_sub_abs_le_abs_sub (roundedAt x t) x
        have hunit : (0 : ℚ) < 1 / 10 ^ t := by positivity
        linarith
      linarith [abs_toDigits_sub_le p (roundedAt x t)]
  linarith [abs_sub_le (toDigits halfEven p (roundedAt x t)) (roundedAt x t) x]

end Decimal

end Coinage
