import Coinage.Proofs.Decimal.Digits
import Coinage.Proofs.Decimal.Nearest
import Coinage.Proofs.Rounding.Twice
/-!
# Digits of the nearest decimal

A result is rounded to the nearest decimal before it is rounded to the digits of its context. Decimals
hold more digits than a bounded context keeps, so the nearest decimal follows the exact result between the
places of the last digit; `rounded_once_iff` says when both have one and the same rounding.
-/

namespace Coinage

namespace Decimal

open RoundingMode

/-- Seen from a place that is a multiple of the last decimal one, the rounded number follows the exact one. -/
theorem follows_roundedAt (x : ℚ) {t j : ℕ} {u : ℚ} (hpos : 0 < u) (hu : u * 10 ^ t = 10 ^ j) :
    Follows (x / u) (roundedAt x t / u) := by
  rcases Nat.eq_zero_or_pos j with rfl | hj
  · -- the place is the last decimal one, and rounding gives the nearest multiple
    have hinv : x / u = x * 10 ^ t := by
      rw [div_eq_iff hpos.ne', mul_assoc, mul_comm _ u, hu, pow_zero, mul_one]
    have hunits : roundedAt x t / u = halfEven.select (x / u) := by
      rw [roundedAt, unitsNear, div_div, mul_comm _ u, hu, pow_zero, div_one, hinv]
    rw [hunits]
    exact follows_select_halfEven _
  · -- multiples and the ties between them are decimals themselves, and rounding does not pass them
    have hint : ∀ n : ℤ, (n : ℚ) * u * 10 ^ t = ((n * 10 ^ j : ℤ) : ℚ) := fun n => by
      rw [mul_assoc, hu]
      push_cast
      rfl
    have htie : ∀ n : ℤ, ((n : ℚ) + 1 / 2) * u * 10 ^ t = (((2 * n + 1) * 5 * 10 ^ (j - 1) : ℤ) : ℚ) := fun n => by
      have hpow : (10 : ℚ) ^ j = 10 ^ (j - 1) * 10 := by rw [← pow_succ, Nat.sub_add_cancel hj]
      rw [mul_assoc, hu, hpow]
      push_cast
      ring
    have hle : ∀ {b : ℚ} {m : ℤ}, b * u * 10 ^ t = m → x / u ≤ b → roundedAt x t / u ≤ b := fun hb h =>
      (div_le_iff₀ hpos).2 (roundedAt_le hb ((div_le_iff₀ hpos).1 h))
    have hge : ∀ {b : ℚ} {m : ℤ}, b * u * 10 ^ t = m → b ≤ x / u → b ≤ roundedAt x t / u := fun hb h =>
      (le_div_iff₀ hpos).2 (le_roundedAt hb ((le_div_iff₀ hpos).1 h))
    refine ⟨fun n => hle (hint n), fun n => hge (hint n), fun n h => hle (htie n) h.le, fun n h => hge (htie n) h.le, ?_⟩
    rintro ⟨n, hn⟩
    rw [div_eq_iff hpos.ne'] at hn
    rw [roundedAt_of_eq (hn ▸ htie n)]
    exact Or.inl rfl

/-- The nearest decimal follows a number between the integers. -/
theorem follows_nearestValue? {x y : ℚ} (h : nearestValue? x = some y) : Follows x y := by
  obtain ⟨t, -, -, -, rfl⟩ := exists_places h
  have hfollows := follows_roundedAt x (t := t) (j := t) one_pos (one_mul _)
  rwa [div_one, div_one] at hfollows

/-! ### The place of the last digit -/

theorem zpow_log_bounds {x : ℚ} (hx : x ≠ 0) : 10 ^ Int.log 10 |x| ≤ |x| ∧ |x| < 10 ^ (Int.log 10 |x| + 1) := by
  have hlow := Int.zpow_log_le_self (b := 10) (by norm_num) (abs_pos.2 hx)
  have hhigh := Int.lt_zpow_succ_log_self (b := 10) (by norm_num) |x|
  exact ⟨by exact_mod_cast hlow, by exact_mod_cast hhigh⟩

/-- A decimal in the decade of a number, both ends included, has the rounding that the last place of that
number gives it. -/
theorem select_lastPlace_of_decade {x k : ℚ} {p : ℕ} (hp : 1 ≤ p) (hlow : 10 ^ Int.log 10 |x| ≤ |k|)
    (hhigh : |k| ≤ 10 ^ (Int.log 10 |x| + 1)) (mode : RoundingMode) :
    mode.select (k / lastPlace p k) * lastPlace p k = mode.select (k / lastPlace p x) * lastPlace p x := by
  rcases hhigh.lt_or_eq with hlt | heq
  · rw [lastPlace_eq hlow hlt, lastPlace]
  · -- a carry into the next decade is a power of ten, which no rounding changes
    obtain ⟨s, hs⟩ : ∃ s : ℤ, k = s * 10 ^ (Int.log 10 |x| + 1) ∧ |s| = 1 := by
      rcases abs_cases k with ⟨habs, -⟩ | ⟨habs, -⟩
      · exact ⟨1, by rw [← heq, habs, Int.cast_one, one_mul], rfl⟩
      · exact ⟨-1, by rw [← heq, habs]; push_cast; ring, rfl⟩
    have hone : (1 : ℤ) < 10 ^ p := one_lt_pow₀ (by norm_num) (by omega)
    have hdigits : HasDigits p k := ⟨s, _, hs.1, by rw [hs.2]; exact hone⟩
    have hplace : k / lastPlace p x = (s * 10 ^ p : ℤ) := by
      rw [hs.1, lastPlace, mul_div_assoc, ← zpow_sub₀ (by norm_num), sub_sub_cancel, zpow_natCast]
      push_cast
      rfl
    rw [hdigits.select_lastPlace, mode.select_div_mul (lastPlace_pos p x).ne' hplace]

/-- A decimal keeps 28 digits, unless it has 28 of them behind the point. -/
theorem places_of_log {x : ℚ} {t : ℕ} (h : t = maxScale ∨ ¬ Fits x (t + 1)) :
    t = maxScale ∨ 27 ≤ Int.log 10 |x| + t := by
  refine h.imp_right fun hfits => ?_
  have hlarge := le_of_not_fits hfits
  have hx : x ≠ 0 := by
    rintro rfl
    norm_num at hlarge
  have hlt : (10 : ℚ) ^ (28 : ℤ) < 10 ^ (Int.log 10 |x| + 1 + (t + 1 : ℕ)) := by
    rw [zpow_add₀ (by norm_num), zpow_natCast 10 (t + 1)]
    refine lt_of_lt_of_le ?_ (hlarge.trans (mul_le_mul_of_nonneg_right (zpow_log_bounds hx).2.le (by positivity)))
    norm_num
  have := (zpow_lt_zpow_iff_right₀ (by norm_num : (1 : ℚ) < 10)).1 hlt
  push_cast at this
  omega

/-! ### Two roundings and one -/

/-- Where the last kept digit is not finer than the decimals, the rounding of the nearest decimal is that of
the exact number, unless the mode sees it displaced. -/
theorem toDigits_roundedAt_iff {x : ℚ} {t p : ℕ} {mode : RoundingMode} (hmode : mode ≠ unnecessary) (hp : 1 ≤ p)
    (hx : x ≠ 0) (ht : 0 ≤ Int.log 10 |x| + 1 - p + t) :
    toDigits mode p (roundedAt x t) = toDigits mode p x ↔
      ¬ mode.Displaced (x / lastPlace p x) (roundedAt x t / lastPlace p x) := by
  have hpos := lastPlace_pos p x
  obtain ⟨j, hj⟩ := Int.eq_ofNat_of_zero_le ht
  have hu : lastPlace p x * 10 ^ t = 10 ^ j := by
    rw [lastPlace, ← zpow_natCast 10 t, ← zpow_add₀ (by norm_num), hj]
    exact zpow_natCast 10 j
  -- both ends of the decade are decimals, so rounding does not leave it
  have hgrid : ∀ i : ℕ, (10 : ℚ) ^ (Int.log 10 |x| + 1 - p + i) * 10 ^ t = ((10 ^ (i + j) : ℤ) : ℚ) := fun i => by
    rw [zpow_add₀ (by norm_num), zpow_natCast, mul_right_comm, ← lastPlace, hu, ← pow_add, add_comm i j]
    push_cast
    rfl
  have hlow : (10 : ℚ) ^ Int.log 10 |x| ≤ |roundedAt x t| := by
    have hexp : Int.log 10 |x| + 1 - p + (p - 1 : ℕ) = Int.log 10 |x| := by omega
    have hbound := hgrid (p - 1)
    rw [hexp] at hbound
    rw [abs_roundedAt]
    exact le_roundedAt hbound (zpow_log_bounds hx).1
  have hhigh : |roundedAt x t| ≤ (10 : ℚ) ^ (Int.log 10 |x| + 1) := by
    have hbound := hgrid p
    rw [sub_add_cancel] at hbound
    rw [abs_roundedAt]
    exact roundedAt_le hbound (zpow_log_bounds hx).2.le
  rw [toDigits, if_neg hmode, toDigits, if_neg hmode, select_lastPlace_of_decade hp hlow hhigh,
    mul_left_inj' hpos.ne', Int.cast_inj]
  exact (follows_roundedAt x hpos hu).select_eq_iff hmode

/-- Where the last kept digit is finer than every decimal, a rounding that is a decimal is the nearest one. -/
theorem roundedAt_of_representable {x : ℚ} {p : ℕ} {mode : RoundingMode} (hmode : mode ≠ unnecessary)
    (ht : Int.log 10 |x| + 1 - p + maxScale < 0) (hrep : Representable (toDigits mode p x)) :
    roundedAt x maxScale = toDigits mode p x := by
  have hpos := lastPlace_pos p x
  obtain ⟨d, hd⟩ := hrep
  have hunits := unitsAt_eq d d.scale_le
  rw [hd] at hunits
  have hfine : lastPlace p x * 10 ^ maxScale ≤ 1 / 10 := by
    rw [lastPlace, ← zpow_natCast 10 maxScale, ← zpow_add₀ (by norm_num), one_div, ← zpow_neg_one]
    exact zpow_le_zpow_right₀ (by norm_num) (by omega)
  have hnear : |x * 10 ^ maxScale - d.unitsAt maxScale| < 1 / 2 := by
    have herror := mode.abs_select_sub_lt_one (x / lastPlace p x)
    have hsplit : x * 10 ^ maxScale - d.unitsAt maxScale =
        -(mode.select (x / lastPlace p x) - x / lastPlace p x) * (lastPlace p x * 10 ^ maxScale) := by
      rw [hunits, toDigits, if_neg hmode]
      field_simp
      ring
    rw [hsplit, abs_mul, abs_neg, abs_of_pos (by positivity : 0 < lastPlace p x * 10 ^ maxScale)]
    have hscaled := mul_lt_mul_of_pos_right herror (by positivity : 0 < lastPlace p x * 10 ^ maxScale)
    linarith
  rw [roundedAt, unitsNear, isNearest_halfEven.select_eq hnear, hunits, mul_div_cancel_right₀ _ (by positivity)]

/-- A result under a bounded context, which is the rounding of the nearest decimal, is the rounding of the
exact number as well if the mode does not see the nearest decimal displaced, and only then; provided the
latter is a decimal at all. -/
theorem rounded_once_iff {x : ℚ} {c : MathContext} {d r : Decimal} (hc : c.isUnlimited = false)
    (hd : nearestValue? x = some d.value) (hr : d.roundToPrecision c = .ok r)
    (hrep : Representable (toDigits c.mode c.precision x)) :
    r.value = toDigits c.mode c.precision x ↔
      ¬ c.mode.Displaced (x / lastPlace c.precision x) (d.value / lastPlace c.precision x) := by
  obtain ⟨hp, hp'⟩ := isUnlimited_eq_false_iff.1 hc
  have hpos := lastPlace_pos c.precision x
  by_cases hmode : c.mode = unnecessary
  · rw [value_roundToPrecision_unnecessary hmode hr, toDigits, if_pos hmode, hmode]
    change d.value = x ↔ ¬ d.value / lastPlace c.precision x ≠ x / lastPlace c.precision x
    rw [not_not, div_left_inj' hpos.ne']
  rw [value_roundToPrecision_toDigits hc hr]
  obtain ⟨t, ht, hfits, hmax, hk⟩ := exists_places hd
  by_cases hx : x = 0
  · have hzero : d.value = x := by
      rw [hk, hx, roundedAt_of_eq (n := 0) (by simp)]
    rw [hzero]
    exact iff_of_true rfl (((Follows.refl _).select_eq_iff hmode).1 rfl)
  rcases le_or_gt 0 (Int.log 10 |x| + 1 - c.precision + t) with hcoarse | hfine
  · rw [hk]
    exact toDigits_roundedAt_iff hmode hp hx hcoarse
  · have ht' : t = maxScale := (places_of_log hmax).resolve_right (by omega)
    subst ht'
    have hvalue := roundedAt_of_representable hmode hfine hrep
    rw [hk, hvalue]
    refine iff_of_true ?_ ?_
    · have hdigits : HasDigits c.precision (toDigits c.mode c.precision x) := by
        rw [toDigits, if_neg hmode]
        exact hasDigits_select c.mode hp x
      exact hdigits.toDigits_eq c.mode
    · rw [toDigits, if_neg hmode, mul_div_cancel_right₀ _ hpos.ne']
      exact not_displaced_select hmode _

/-- How a result `y` of `p` digits comes from the exact result `x`: it is the rounding of the decimal nearest
to `x`, and so of `x` itself if that is a decimal. Otherwise it is the rounding of `x`, wherever that is a
decimal, just if the mode does not see the nearest decimal displaced. -/
def RoundedThroughNearest (mode : RoundingMode) (p : ℕ) (x y : ℚ) : Prop :=
  ∃ k, nearestValue? x = some k ∧ y = toDigits mode p k ∧ (Representable x → y = toDigits mode p x) ∧
    (Representable (toDigits mode p x) →
      (y = toDigits mode p x ↔ ¬ mode.Displaced (x / lastPlace p x) (k / lastPlace p x)))

theorem roundedThroughNearest {x : ℚ} {c : MathContext} {d r : Decimal} (hc : c.isUnlimited = false)
    (hd : nearestValue? x = some d.value) (hr : d.roundToPrecision c = .ok r) :
    RoundedThroughNearest c.mode c.precision x r.value := by
  have hvalue := value_roundToPrecision_toDigits hc hr
  refine ⟨d.value, hd, hvalue, fun hx => ?_, rounded_once_iff hc hd hr⟩
  rwa [Option.some.inj (hd.symm.trans hx.nearestValue?)] at hvalue

end Decimal

end Coinage
