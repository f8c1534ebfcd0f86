import Coinage.Decimal.Arithmetic
import Coinage.Proofs.Decimal.Value
/-!
# The decimal nearest to a number

A number is represented with as many of its fractional digits as fit, the last of them rounded
half-even: `nearestValue?` is that value, and there is none where even the integer nearest to the
number is out of range. Sum, difference and product are the decimal nearest to the exact result, each
in one rounding.
-/

namespace Coinage

namespace Decimal

open RoundingMode

/-- The integer nearest to `x * 10 ^ t`, a tie going to the even neighbour. -/
def unitsNear (x : ℚ) (t : ℕ) : ℤ :=
  halfEven.select (x * 10 ^ t)

/-- A number rounded half-even to `t` fractional digits. -/
def roundedAt (x : ℚ) (t : ℕ) : ℚ :=
  unitsNear x t / 10 ^ t

/-- Whether a number may be written with `t` fractional digits. -/
def Fits (x : ℚ) (t : ℕ) : Prop :=
  (unitsNear x t).natAbs < capacity

instance (x : ℚ) : DecidablePred (Fits x) := fun t => inferInstanceAs (Decidable ((unitsNear x t).natAbs < capacity))

/-- How many fractional digits of a number fit. -/
def placesOf (x : ℚ) : ℕ :=
  Nat.findGreatest (Fits x) maxScale

/-- The value of the decimal nearest to a number. -/
def nearestValue? (x : ℚ) : Option ℚ :=
  if Fits x 0 then some (roundedAt x (placesOf x)) else none

/-! ### Which digits fit -/

theorem Fits.of_le {x : ℚ} {s t : ℕ} (h : Fits x t) (hst : s ≤ t) : Fits x s := by
  refine lt_of_le_of_lt (isNearest_halfEven.natAbs_select_le ?_) h
  rw [abs_mul, abs_mul]
  refine mul_le_mul_of_nonneg_left ?_ (abs_nonneg x)
  rw [abs_of_pos (by positivity), abs_of_pos (by positivity)]
  exact pow_le_pow_right₀ (by norm_num) hst

theorem not_fits_of_capacity_le {x : ℚ} {t : ℕ} (h : (capacity : ℚ) ≤ |x| * 10 ^ t) : ¬ Fits x t := by
  have hselect : (capacity : ℤ) ≤ halfEven.select (|x| * 10 ^ t) := halfEven.le_select (by exact_mod_cast h)
  have habs : |x| * 10 ^ t = |x * 10 ^ t| := by rw [abs_mul, abs_of_pos (by positivity : (0 : ℚ) < 10 ^ t)]
  rw [habs, ← isNearest_halfEven.abs_select, Int.abs_eq_natAbs] at hselect
  exact not_lt.2 (Int.ofNat_le.1 hselect)

/-- A number that does not fit with `t` fractional digits is large. -/
theorem le_of_not_fits {x : ℚ} {t : ℕ} (h : ¬ Fits x t) : (2 : ℚ) ^ 96 - 1 / 2 ≤ |x| * 10 ^ t := by
  have hnear : |(unitsNear x t : ℚ) - x * 10 ^ t| ≤ 1 / 2 := isNearest_halfEven.abs_select_sub_le _
  have hunits : (2 : ℚ) ^ 96 ≤ |(unitsNear x t : ℚ)| := by
    rw [← Int.cast_abs, Int.abs_eq_natAbs]
    exact_mod_cast not_lt.1 h
  have htriangle := abs_sub_abs_le_abs_sub (unitsNear x t : ℚ) (x * 10 ^ t)
  rw [abs_mul x, abs_of_pos (by positivity : (0 : ℚ) < 10 ^ t)] at htriangle
  linarith

theorem unitsNear_of_eq {x : ℚ} {t : ℕ} {n : ℤ} (h : x * 10 ^ t = n) : unitsNear x t = n := by
  rw [unitsNear, h, select_intCast]

theorem roundedAt_of_eq {x : ℚ} {t : ℕ} {n : ℤ} (h : x * 10 ^ t = n) : roundedAt x t = x := by
  rw [roundedAt, unitsNear_of_eq h, ← h, mul_div_cancel_right₀ _ (by positivity)]

/-! Rounding to `t` fractional digits keeps the order to every number of `t` fractional digits. -/

theorem le_roundedAt {x b : ℚ} {t : ℕ} {n : ℤ} (hb : b * 10 ^ t = n) (h : b ≤ x) : b ≤ roundedAt x t := by
  have hunits : n ≤ unitsNear x t := halfEven.le_select (hb ▸ mul_le_mul_of_nonneg_right h (by positivity))
  rw [roundedAt, le_div_iff₀ (by positivity), hb]
  exact_mod_cast hunits

theorem roundedAt_le {x b : ℚ} {t : ℕ} {n : ℤ} (hb : b * 10 ^ t = n) (h : x ≤ b) : roundedAt x t ≤ b := by
  have hunits : unitsNear x t ≤ n := halfEven.select_le (hb ▸ mul_le_mul_of_nonneg_right h (by positivity))
  rw [roundedAt, div_le_iff₀ (by positivity), hb]
  exact_mod_cast hunits

theorem abs_roundedAt (x : ℚ) (t : ℕ) : |roundedAt x t| = roundedAt |x| t := by
  have hpow : |(10 : ℚ) ^ t| = 10 ^ t := abs_of_pos (by positivity)
  rw [roundedAt, abs_div, hpow, unitsNear, ← Int.cast_abs, isNearest_halfEven.abs_select, abs_mul, hpow, roundedAt,
    unitsNear]

theorem abs_roundedAt_sub_le (x : ℚ) (t : ℕ) : |roundedAt x t - x| ≤ 1 / 2 / 10 ^ t := by
  have h := isNearest_halfEven.abs_select_sub_le (x * 10 ^ t)
  have hsplit : roundedAt x t - x = (halfEven.select (x * 10 ^ t) - x * 10 ^ t) / 10 ^ t := by
    rw [roundedAt, unitsNear, sub_div, mul_div_cancel_right₀ _ (by positivity)]
  rw [hsplit, abs_div, abs_of_pos (by positivity : (0 : ℚ) < 10 ^ t)]
  exact div_le_div_of_nonneg_right h (by positivity)

/-! ### The nearest decimal -/

theorem nearestValue?_of_fits {x : ℚ} {t : ℕ} (ht : t ≤ maxScale) (hfits : Fits x t)
    (hmax : t = maxScale ∨ ¬ Fits x (t + 1)) : nearestValue? x = some (roundedAt x t) := by
  have hplaces : placesOf x = t := by
    rw [placesOf, Nat.findGreatest_eq_iff]
    refine ⟨ht, fun _ => hfits, fun n hn hn' hcontra => ?_⟩
    rcases hmax with rfl | hmax
    · omega
    · exact hmax (hcontra.of_le hn)
  rw [nearestValue?, if_pos (hfits.of_le (Nat.zero_le t)), hplaces]

theorem nearestValue?_eq_none_iff {x : ℚ} : nearestValue? x = none ↔ ¬ Fits x 0 := by
  unfold nearestValue?
  split <;> simp_all

/-- There is no nearest decimal just where even the integer nearest to the magnitude is out of range. -/
theorem nearestValue?_eq_none_iff_le {x : ℚ} : nearestValue? x = none ↔ 2 ^ 96 ≤ halfEven.select |x| := by
  rw [nearestValue?_eq_none_iff, Fits, not_lt, unitsNear, pow_zero, mul_one, ← isNearest_halfEven.abs_select,
    Int.abs_eq_natAbs]
  exact_mod_cast Iff.rfl

/-- A number with finitely many digits that fit is its own nearest decimal. -/
theorem nearestValue?_of_exact {x : ℚ} {t : ℕ} {n : ℤ} (ht : t ≤ maxScale) (hx : x * 10 ^ t = n)
    (hn : n.natAbs < capacity) : nearestValue? x = some x := by
  have hfits : Fits x t := by rwa [Fits, unitsNear_of_eq hx]
  have hle : t ≤ placesOf x := Nat.le_findGreatest ht hfits
  have hscaled : x * 10 ^ placesOf x = ((n * 10 ^ (placesOf x - t) : ℤ) : ℚ) := by
    push_cast
    rw [← hx, mul_assoc, ← pow_add]
    congr 2
    omega
  rw [nearestValue?, if_pos (hfits.of_le (Nat.zero_le t)), roundedAt_of_eq hscaled]

/-- An integer has no other nearest decimal than itself. -/
theorem nearestValue?_intCast {n : ℤ} {y : ℚ} (h : nearestValue? n = some y) : y = n := by
  have hscaled : (n : ℚ) * 10 ^ 0 = n := by rw [pow_zero, mul_one]
  have hfits : Fits n 0 := by
    by_contra hno
    rw [nearestValue?_eq_none_iff.2 hno] at h
    cases h
  rw [Fits, unitsNear_of_eq hscaled] at hfits
  exact Option.some.inj (h.symm.trans (nearestValue?_of_exact (Nat.zero_le _) hscaled hfits))

theorem nearestValue?_value (d : Decimal) : nearestValue? d.value = some d.value :=
  nearestValue?_of_exact d.scale_le d.mantissa_eq.symm d.natAbs_mantissa_lt

theorem Representable.nearestValue? {x : ℚ} (h : Representable x) : nearestValue? x = some x := by
  obtain ⟨d, rfl⟩ := h
  exact nearestValue?_value d

/-- What is known of a nearest decimal: it keeps `t` fractional digits, and no more would fit. -/
theorem exists_places {x y : ℚ} (h : nearestValue? x = some y) :
    ∃ t ≤ maxScale, Fits x t ∧ (t = maxScale ∨ ¬ Fits x (t + 1)) ∧ y = roundedAt x t := by
  unfold nearestValue? at h
  split at h
  case isFalse => cases h
  case isTrue h₀ =>
    have hle : placesOf x ≤ maxScale := Nat.findGreatest_le _
    refine ⟨placesOf x, hle, Nat.findGreatest_spec (Nat.zero_le _) h₀, ?_, (Option.some.inj h).symm⟩
    rcases hle.eq_or_lt with heq | hlt
    · exact Or.inl heq
    · exact Or.inr (Nat.findGreatest_is_greatest (Nat.lt_succ_self _) hlt)

theorem nearestValue?_neg (x : ℚ) : nearestValue? (-x) = (nearestValue? x).map Neg.neg := by
  have hunits : ∀ t, unitsNear (-x) t = -unitsNear x t := fun t => by
    rw [unitsNear, neg_mul, select_neg, isNearest_halfEven.mirror_eq]
    rfl
  have hfits : Fits (-x) = Fits x := by
    funext t
    rw [Fits, hunits, Int.natAbs_neg]
    rfl
  have hplaces : placesOf (-x) = placesOf x := by
    unfold placesOf
    simp only [hfits]
  unfold nearestValue?
  simp only [hfits, hplaces, roundedAt, hunits]
  split <;> simp [neg_div]

theorem nearestValue?_nonneg {x y : ℚ} (h : nearestValue? x = some y) (hx : 0 ≤ x) : 0 ≤ y := by
  obtain ⟨t, -, -, -, rfl⟩ := exists_places h
  have hunits : 0 ≤ unitsNear x t := halfEven.select_nonneg (by positivity)
  exact div_nonneg (by exact_mod_cast hunits) (by positivity)

/-- Rounding to the nearest decimal does not cross zero. -/
theorem mul_nonneg_of_nearestValue? {x y c : ℚ} (h : nearestValue? x = some y) (hx : 0 ≤ x * c) : 0 ≤ y * c := by
  rcases le_or_gt 0 c with hc | hc
  · rcases hc.eq_or_lt with rfl | hc
    · rw [mul_zero]
    · exact mul_nonneg (nearestValue?_nonneg h (nonneg_of_mul_nonneg_left hx hc)) hc.le
  · have hneg : nearestValue? (-x) = some (-y) := by rw [nearestValue?_neg, h, Option.map_some]
    have hx' : 0 ≤ -x := neg_nonneg.2 (nonpos_of_mul_nonneg_left hx hc)
    exact mul_nonneg_of_nonpos_of_nonpos (neg_nonneg.1 (nearestValue?_nonneg hneg hx')) hc.le

/-- A number that does not fit with one place more is not rounded below the largest mantissa. -/
theorem le_roundedAt_of_not_fits {x : ℚ} {t : ℕ} (hx : 0 < x) (h : ¬ Fits x (t + 1)) :
    2 ^ 96 - 1 ≤ roundedAt x t * 10 ^ (t + 1) := by
  have hlarge := le_of_not_fits h
  rw [abs_of_pos hx, pow_succ 10 t, ← mul_assoc] at hlarge
  have hnear : -(1 / 2) ≤ (unitsNear x t : ℚ) - x * 10 ^ t :=
    (abs_le.1 (isNearest_halfEven.abs_select_sub_le (x * 10 ^ t))).1
  have hunits : (7922816251426433759354395033 : ℤ) < unitsNear x t := by
    have hlt : ((7922816251426433759354395033 : ℤ) : ℚ) < unitsNear x t := by
      push_cast
      linarith
    exact_mod_cast hlt
  have hunits' : ((7922816251426433759354395034 : ℤ) : ℚ) ≤ unitsNear x t := by exact_mod_cast hunits
  rw [roundedAt, pow_succ 10 t, ← mul_assoc, div_mul_cancel₀ _ (by positivity)]
  push_cast at hunits'
  linarith

/-- Rounding to the nearest decimal does not pass a decimal: one that has a place more than the result has fewer digits
than would fit there. -/
theorem le_nearestValue? {b : Decimal} {x y : ℚ} (h : nearestValue? x = some y) (hb : b.value ≤ x) : b.value ≤ y := by
  obtain ⟨t, ht, -, hmax, rfl⟩ := exists_places h
  rcases le_or_gt b.scale t with hscale | hscale
  · exact le_roundedAt (unitsAt_eq b hscale).symm hb
  have hmax' : ¬ Fits x (t + 1) := hmax.resolve_left (hscale.trans_le b.scale_le).ne
  have hpow : (0 : ℚ) < 10 ^ (t + 1) := by positivity
  have hsmall := b.abs_value_mul_le (s := t + 1) hscale
  have habs : |b.value| < |x| := lt_of_mul_lt_mul_right (by linarith [le_of_not_fits hmax']) hpow.le
  have hx : 0 < x := by
    by_contra hneg
    rw [abs_of_nonpos (not_lt.1 hneg), abs_of_nonpos (hb.trans (not_lt.1 hneg))] at habs
    linarith
  exact (le_abs_self _).trans (le_of_mul_le_mul_right (hsmall.trans (le_roundedAt_of_not_fits hx hmax')) hpow)

theorem nearestValue?_le {b : Decimal} {x y : ℚ} (h : nearestValue? x = some y) (hb : x ≤ b.value) : y ≤ b.value := by
  have hneg : nearestValue? (-x) = some (-y) := by rw [nearestValue?_neg, h, Option.map_some]
  have hle := le_nearestValue? (b := b.neg) hneg (by rw [value_neg]; exact neg_le_neg hb)
  rw [value_neg] at hle
  exact neg_le_neg_iff.1 hle

/-! ### Sum, difference and product -/

theorem roundQuotient_eq_unitsNear (m : ℤ) {s t : ℕ} (h : t ≤ s) :
    halfEven.roundQuotient m (10 ^ (s - t)) = unitsNear (m / 10 ^ s) t := by
  rw [roundQuotient_eq_select _ _ (by positivity), unitsNear]
  congr 1
  have hs : (10 : ℚ) ^ s = 10 ^ (s - t) * 10 ^ t := by rw [← pow_add, Nat.sub_add_cancel h]
  push_cast
  rw [hs]
  field_simp

theorem map_value_nearestWithin (m : ℤ) {s p : ℕ} (hs : p ≤ s) (hp : p ≤ maxScale) :
    (nearestWithin m s p).map value =
      if Fits (m / 10 ^ s) 0 then
        some (roundedAt (m / 10 ^ s) (Nat.findGreatest (Fits (m / 10 ^ s)) p))
      else none := by
  induction p with
  | zero =>
    have hround := roundQuotient_eq_unitsNear m (Nat.zero_le s)
    rw [Nat.sub_zero] at hround
    rw [nearestWithin, hround, Nat.findGreatest_zero]
    split
    case isTrue h =>
      obtain ⟨d, hd, -, -⟩ := exists_ofParts? h (Nat.zero_le maxScale)
      rw [hd, Option.map_some, value_ofParts? hd, roundedAt]
    case isFalse h =>
      rw [ofParts?_eq_none_iff.2 (Or.inl (not_lt.1 h)), Option.map_none]
  | succ p ih =>
    rw [nearestWithin, roundQuotient_eq_unitsNear m hs, Nat.findGreatest_succ]
    by_cases hfits : Fits (m / 10 ^ s) (p + 1)
    · obtain ⟨d, hd, -, -⟩ := exists_ofParts? hfits hp
      rw [if_pos hfits, if_pos (hfits.of_le (Nat.zero_le _)), hd]
      exact congrArg some (value_ofParts? hd)
    · rw [if_neg hfits, ofParts?_eq_none_iff.2 (Or.inl (not_lt.1 hfits))]
      exact ih (by omega) (by omega)

theorem map_value_nearest? (m : ℤ) (s : ℕ) : (nearest? m s).map value = nearestValue? (m / 10 ^ s) := by
  rw [nearest?, map_value_nearestWithin m (min_le_left _ _) (min_le_right _ _)]
  split
  case isFalse h => exact (nearestValue?_eq_none_iff.2 h).symm
  case isTrue h =>
    have hle : Nat.findGreatest (Fits (m / 10 ^ s)) (min s maxScale) ≤ min s maxScale := Nat.findGreatest_le _
    have hfits : Fits (m / 10 ^ s) (Nat.findGreatest (Fits (m / 10 ^ s)) (min s maxScale)) :=
      Nat.findGreatest_spec (Nat.zero_le _) h
    have hgreatest := fun k => Nat.findGreatest_is_greatest (P := Fits (m / 10 ^ s)) (k := k) (n := min s maxScale)
    generalize Nat.findGreatest (Fits (m / 10 ^ s)) (min s maxScale) = t at hle hfits hgreatest
    by_cases hst : s ≤ t
    · -- all digits of the number are kept
      have hexact : (m : ℚ) / 10 ^ s * 10 ^ t = ((m * 10 ^ (t - s) : ℤ) : ℚ) := by
        push_cast
        rw [div_mul_eq_mul_div, div_eq_iff (by positivity), mul_assoc, ← pow_add]
        congr 2
        omega
      have hn := hfits
      rw [Fits, unitsNear_of_eq hexact] at hn
      rw [nearestValue?_of_exact (by omega) hexact hn, roundedAt_of_eq hexact]
    · refine (nearestValue?_of_fits (by omega) hfits ?_).symm
      by_cases ht : t = maxScale
      · exact Or.inl ht
      · exact Or.inr (hgreatest (t + 1) (Nat.lt_succ_self t) (by omega))

theorem scale_nearestWithin_le {m : ℤ} {s p : ℕ} {d : Decimal} (h : nearestWithin m s p = some d) : d.scale ≤ p := by
  induction p with
  | zero => exact (ofParts?_eq_some h).2.le
  | succ p ih =>
    unfold nearestWithin at h
    split at h
    case h_1 e he =>
      cases h
      exact (ofParts?_eq_some he).2.le
    case h_2 => exact (ih h).trans (Nat.le_succ p)

theorem scale_add?_le {a b d : Decimal} (h : a.add? b = some d) : d.scale ≤ max a.scale b.scale := by
  unfold add? at h
  split at h
  · cases h
    exact le_max_right _ _
  · split at h
    · cases h
      exact le_max_left _ _
    · exact (scale_nearestWithin_le h).trans (min_le_left _ _)

theorem scale_mul?_le {a b d : Decimal} (h : a.mul? b = some d) : d.scale ≤ a.scale + b.scale := by
  unfold mul? at h
  split at h
  · cases h
    exact Nat.zero_le _
  · exact (scale_nearestWithin_le h).trans (min_le_left _ _)

/-- A sum is the decimal nearest to the exact sum. -/
theorem map_value_add? (a b : Decimal) : (a.add? b).map value = nearestValue? (a.value + b.value) := by
  unfold add?
  split
  case isTrue ha => rw [(a.isZero_iff).1 ha, zero_add, nearestValue?_value, Option.map_some]
  case isFalse =>
    split
    case isTrue hb => rw [(b.isZero_iff).1 hb, add_zero, nearestValue?_value, Option.map_some]
    case isFalse =>
      rw [map_value_nearest?]
      congr 1
      push_cast
      rw [unitsAt_eq a (le_max_left _ _), unitsAt_eq b (le_max_right _ _), ← add_mul,
        mul_div_cancel_right₀ _ (by positivity)]

/-- A difference is the decimal nearest to the exact difference. -/
theorem map_value_sub? (a b : Decimal) : (a.sub? b).map value = nearestValue? (a.value - b.value) := by
  rw [sub?, map_value_add?, value_neg, sub_eq_add_neg]

theorem nearestValue?_of_vanishes {a b : Decimal} (h : vanishes a b = true) :
    nearestValue? (a.value * b.value) = some 0 := by
  simp only [vanishes, Bool.and_eq_true, decide_eq_true_eq] at h
  obtain ⟨⟨ha, hb⟩, hscale⟩ := h
  have hprod : |(a.mantissa : ℚ) * b.mantissa| < 2 ^ 64 := by
    have hlt : a.mantissa.natAbs * b.mantissa.natAbs < 2 ^ 32 * 2 ^ 32 := Nat.mul_lt_mul'' ha hb
    rw [← Int.natAbs_mul, ← pow_add] at hlt
    rw [← Int.cast_mul, ← Int.cast_abs, Int.abs_eq_natAbs]
    exact_mod_cast hlt
  have hpow : (10 : ℚ) ^ 48 ≤ 10 ^ (a.scale + b.scale) := pow_le_pow_right₀ (by norm_num) hscale
  have hx : a.value * b.value = a.mantissa * b.mantissa / 10 ^ (a.scale + b.scale) := by
    rw [value, value, div_mul_div_comm, ← pow_add]
  have hsmall : |a.value * b.value * 10 ^ maxScale - (0 : ℤ)| < 1 / 2 := by
    rw [hx, Int.cast_zero, sub_zero, abs_mul, abs_div, abs_of_pos (by positivity : (0 : ℚ) < 10 ^ (a.scale + b.scale)),
      abs_of_pos (by positivity : (0 : ℚ) < 10 ^ maxScale), div_mul_eq_mul_div, div_lt_iff₀ (by positivity)]
    norm_num [maxScale] at hpow hprod ⊢
    linarith
  have hunits : unitsNear (a.value * b.value) maxScale = 0 := isNearest_halfEven.select_eq hsmall
  rw [nearestValue?_of_fits le_rfl (by rw [Fits, hunits]; decide) (Or.inl rfl), roundedAt, hunits]
  simp

/-- A product is the decimal nearest to the exact product. -/
theorem map_value_mul? (a b : Decimal) : (a.mul? b).map value = nearestValue? (a.value * b.value) := by
  unfold mul?
  split
  case isTrue h =>
    rw [Option.map_some, value_zero]
    simp only [Bool.or_eq_true, isZero_iff] at h
    rcases h with (h | h) | h
    · rw [h, zero_mul, ← value_zero, nearestValue?_value]
    · rw [h, mul_zero, ← value_zero, nearestValue?_value]
    · exact (nearestValue?_of_vanishes h).symm
  case isFalse =>
    rw [map_value_nearest?]
    congr 1
    push_cast
    rw [value, value, div_mul_div_comm, ← pow_add]

end Decimal

end Coinage
