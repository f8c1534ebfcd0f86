import Coinage.Decimal.Checked
import Coinage.Proofs.Decimal.Quotient
import Coinage.Proofs.Outcome
/-!
# Sums, differences, products and quotients as outcomes

Every checked operation gives the decimal nearest to its exact result, and an overflow exactly where
there is none.
-/

namespace Coinage

namespace Decimal

/-- An outcome that is the decimal nearest to a number, or an overflow if there is none. -/
def Rounds (x : ℚ) : Outcome Decimal → Prop
  | .ok d => nearestValue? x = some d.value
  | .error cause => nearestValue? x = none ∧ ∃ expression, cause = .overflow expression

theorem Rounds.ok {x : ℚ} {d : Decimal} {o : Outcome Decimal} (h : Rounds x o) (ho : o = .ok d) :
    nearestValue? x = some d.value := by
  subst ho
  exact h

theorem Rounds.exists_eq_ok {x y : ℚ} {o : Outcome Decimal} (h : Rounds x o) (hy : nearestValue? x = some y) :
    ∃ d, o = .ok d ∧ d.value = y := by
  cases o with
  | ok d => exact ⟨d, rfl, Option.some.inj (Eq.trans (Eq.symm h) hy)⟩
  | error cause => exact absurd (hy.symm.trans h.1) (Option.some_ne_none y)

/-- A result that is a decimal itself is reached without an error. -/
theorem Rounds.exists_ok {x : ℚ} {o : Outcome Decimal} (h : Rounds x o) (hx : Representable x) :
    ∃ d, o = .ok d ∧ d.value = x :=
  h.exists_eq_ok hx.nearestValue?

theorem rounds_sum (a b : Decimal) : Rounds (a.value + b.value) (a.sum b) := by
  have h := map_value_add? a b
  unfold sum
  cases hs : a.add? b <;> rw [hs] at h
  · exact ⟨h.symm, _, rfl⟩
  · exact h.symm

theorem rounds_difference (a b : Decimal) : Rounds (a.value - b.value) (a.difference b) := by
  have h := map_value_sub? a b
  unfold difference
  cases hs : a.sub? b <;> rw [hs] at h
  · exact ⟨h.symm, _, rfl⟩
  · exact h.symm

theorem rounds_product (a b : Decimal) : Rounds (a.value * b.value) (a.product b) := by
  have h := map_value_mul? a b
  unfold product
  cases hs : a.mul? b <;> rw [hs] at h
  · exact ⟨h.symm, _, rfl⟩
  · exact h.symm

theorem rounds_quotient (a b : Decimal) (hb : b.value ≠ 0) : Rounds (a.value / b.value) (a.quotient b) := by
  have h := map_value_div? a b hb
  unfold quotient
  rw [if_neg (by rwa [isZero_iff])]
  cases hs : a.div? b <;> rw [hs] at h
  · exact ⟨h.symm, _, rfl⟩
  · exact h.symm

theorem scale_sum_le {a b d : Decimal} (h : a.sum b = .ok d) : d.scale ≤ max a.scale b.scale := by
  unfold sum at h
  split at h
  case h_1 hadd =>
    cases h
    exact scale_add?_le hadd
  case h_2 => cases h

theorem scale_difference_le {a b d : Decimal} (h : a.difference b = .ok d) : d.scale ≤ max a.scale b.scale := by
  unfold difference at h
  split at h
  case h_1 hsub =>
    cases h
    have hadd : a.add? b.neg = some d := hsub
    have hle := scale_add?_le hadd
    exact hle
  case h_2 => cases h

theorem scale_product_le {a b d : Decimal} (h : a.product b = .ok d) : d.scale ≤ a.scale + b.scale := by
  unfold product at h
  split at h
  case h_1 hmul =>
    cases h
    exact scale_mul?_le hmul
  case h_2 => cases h

/-- Moving the point multiplies with a power of ten, and rounds nothing. -/
theorem value_shift {d e : Decimal} {n : ℤ} (h : d.shift n = .ok e) : e.value = d.value * 10 ^ n := by
  unfold shift at h
  dsimp only at h
  split at h
  case h_2 => cases h
  case h_1 shifted hshifted =>
    cases h
    split at hshifted
    case isTrue hscale =>
      split at hshifted
      case isFalse => cases hshifted
      obtain ⟨t, ht⟩ := Int.eq_ofNat_of_zero_le hscale
      have hsplit : n = (d.scale : ℤ) - t := by omega
      rw [ht, Int.toNat_natCast] at hshifted
      rw [value_ofParts? hshifted, hsplit, zpow_sub₀ (by norm_num), zpow_natCast, zpow_natCast, value]
      field_simp
    case isFalse hscale =>
      split at hshifted
      case isFalse => cases hshifted
      obtain ⟨k, hk⟩ := Int.eq_ofNat_of_zero_le (by omega : 0 ≤ -((d.scale : ℤ) - n))
      have hsplit : n = (d.scale : ℤ) + k := by omega
      rw [hk, Int.toNat_natCast] at hshifted
      rw [value_ofParts? hshifted, hsplit, zpow_add₀ (by norm_num), zpow_natCast, zpow_natCast, value]
      push_cast
      field_simp

theorem value_ne_zero_of_quotient {a b q : Decimal} (h : a.quotient b = .ok q) : b.value ≠ 0 := by
  rw [← isZero_eq_false_iff]
  unfold quotient at h
  split at h
  · cases h
  · exact Bool.eq_false_of_not_eq_true ‹_›

theorem value_ne_zero_of_remainder {a b r : Decimal} (h : a.remainder b = .ok r) : b.value ≠ 0 := by
  rw [← isZero_eq_false_iff]
  unfold remainder at h
  split at h
  · cases h
  · exact Bool.eq_false_of_not_eq_true ‹_›

/-! ### Remainder and integral quotient -/

/-- The exact quotient, truncated towards zero. -/
def integralPart (a d : ℚ) : ℤ :=
  RoundingMode.down.select (a / d)

theorem integralPart_eq_tdiv (a b : Decimal) :
    integralPart a.value b.value =
      (a.unitsAt (max a.scale b.scale)).tdiv (b.unitsAt (max a.scale b.scale)) := by
  rw [← select_down_div, unitsAt_eq a (le_max_left _ _), unitsAt_eq b (le_max_right _ _), integralPart,
    mul_div_mul_right _ _ (by positivity)]

theorem sub_integralPart_mul (a b : Decimal) :
    a.value - integralPart a.value b.value * b.value =
      ((a.unitsAt (max a.scale b.scale)).tmod (b.unitsAt (max a.scale b.scale)) : ℤ) / 10 ^ max a.scale b.scale := by
  rw [Int.tmod_def, ← integralPart_eq_tdiv, Int.cast_sub, Int.cast_mul, unitsAt_eq a (le_max_left _ _),
    unitsAt_eq b (le_max_right _ _)]
  field_simp

/-- The remainder is what the integral quotient leaves of the dividend. -/
theorem value_rem (a b : Decimal) (hb : b.value ≠ 0) :
    (a.rem b).value = a.value - integralPart a.value b.value * b.value := by
  rw [sub_integralPart_mul]
  unfold rem
  dsimp only
  rw [dif_neg (by rwa [← value_eq_zero_iff])]
  split
  case isTrue h =>
    have hmod : (a.unitsAt (max a.scale b.scale)).tmod (b.unitsAt (max a.scale b.scale)) = 0 := by
      rw [← Int.natAbs_eq_zero, Int.natAbs_tmod]
      rw [Bool.or_eq_true, beq_iff_eq] at h
      rcases h with h | h
      · have hm : a.mantissa = 0 := (value_eq_zero_iff a).1 ((isZero_iff a).1 h)
        rw [unitsAt, hm, zero_mul, Int.natAbs_zero, Nat.zero_mod]
      · rw [h, Nat.mod_self]
    rw [hmod, value_zero, Int.cast_zero, zero_div]
  case isFalse =>
    split
    case isTrue h =>
      have hmod : (a.unitsAt (max a.scale b.scale)).tmod (b.unitsAt (max a.scale b.scale)) =
          a.unitsAt (max a.scale b.scale) := by
        have hdiv : (a.unitsAt (max a.scale b.scale)).tdiv (b.unitsAt (max a.scale b.scale)) = 0 := by
          rw [← Int.natAbs_eq_zero, Int.natAbs_tdiv]
          exact Nat.div_eq_of_lt h
        rw [Int.tmod_def, hdiv, mul_zero, sub_zero]
      rw [hmod, unitsAt_eq a (le_max_left _ _), mul_div_cancel_right₀ _ (by positivity)]
    case isFalse => rfl

theorem abs_sub_integralPart_mul_lt (a : ℚ) {d : ℚ} (hd : d ≠ 0) : |a - integralPart a d * d| < |d| := by
  have h := RoundingMode.abs_select_sub_lt_one .down (a / d)
  have hsplit : a - integralPart a d * d = -(integralPart a d - a / d) * d := by
    field_simp
    ring
  rw [hsplit, abs_mul, abs_neg]
  exact mul_lt_of_lt_one_left (abs_pos.2 hd) h

/-- The remainder is no larger than the dividend. -/
theorem abs_sub_integralPart_mul_le (a : ℚ) {d : ℚ} (hd : d ≠ 0) : |a - integralPart a d * d| ≤ |a| := by
  have htrunc : |a / d - integralPart a d| ≤ |a / d| := by
    unfold integralPart RoundingMode.select
    dsimp only
    split_ifs with h
    · have hfloor : (0 : ℚ) ≤ ⌊a / d⌋ := by exact_mod_cast Int.floor_nonneg.2 h
      rw [abs_of_nonneg h, abs_of_nonneg (sub_nonneg.2 (Int.floor_le _))]
      linarith
    · have hceil : (⌈a / d⌉ : ℚ) ≤ 0 := by exact_mod_cast Int.ceil_le.2 (by exact_mod_cast (not_le.1 h).le)
      rw [abs_of_neg (not_le.1 h), abs_of_nonpos (sub_nonpos.2 (Int.le_ceil _))]
      linarith
  have hsplit : a - integralPart a d * d = (a / d - integralPart a d) * d := by field_simp
  calc |a - integralPart a d * d| = |a / d - integralPart a d| * |d| := by rw [hsplit, abs_mul]
    _ ≤ |a / d| * |d| := mul_le_mul_of_nonneg_right htrunc (abs_nonneg d)
    _ = |a| := by rw [← abs_mul, div_mul_cancel₀ _ hd]

/-- The remainder never lies on the other side of zero than the dividend. -/
theorem sub_integralPart_mul_nonneg (a : ℚ) {d : ℚ} (hd : d ≠ 0) : 0 ≤ (a - integralPart a d * d) * a := by
  have hsplit : (a - integralPart a d * d) * a = (a / d - integralPart a d) * (a / d) * d ^ 2 := by
    field_simp
  have hfrac : 0 ≤ (a / d - integralPart a d) * (a / d) := RoundingMode.sub_select_down_mul_self_nonneg (a / d)
  rw [hsplit]
  positivity

theorem signum_rem (a b : Decimal) (hb : b.value ≠ 0) : (a.rem b).signum = 0 ∨ (a.rem b).signum = a.signum := by
  refine signum_of_mul_nonneg ?_ fun ha => ?_
  · rw [value_rem a b hb]
    exact sub_integralPart_mul_nonneg a.value hb
  · rw [value_rem a b hb, ha, integralPart, zero_div, RoundingMode.select_zero]
    simp

/-- The part of a decimal behind the point is a decimal. -/
theorem representable_sub_trunc (d : Decimal) : Representable (d.value - d.trunc.value) := by
  refine ⟨d.rem one, ?_⟩
  rw [value_rem d one (by simp), integralPart, value_one, div_one, mul_one, value_trunc]

theorem remainder_eq (a b : Decimal) (hb : b.value ≠ 0) : a.remainder b = .ok (a.rem b) :=
  if_neg (by rwa [isZero_iff])

/-- Integral division rounds twice before it truncates: the multiple of the divisor, and its quotient. -/
theorem exists_of_integralQuotient {a b q : Decimal} (h : a.integralQuotient b = .ok q) :
    b.value ≠ 0 ∧ ∃ m k : Decimal, nearestValue? (integralPart a.value b.value * b.value) = some m.value ∧
      nearestValue? (m.value / b.value) = some k.value ∧ q = k.trunc := by
  unfold integralQuotient at h
  obtain ⟨rest, hrest, h⟩ := bind_eq_ok.1 h
  obtain ⟨m, hm, h⟩ := bind_eq_ok.1 h
  obtain ⟨k, hk, h⟩ := bind_eq_ok.1 h
  have hb := value_ne_zero_of_remainder hrest
  rw [remainder_eq a b hb, Except.ok.injEq] at hrest
  refine ⟨hb, m, k, ?_, (rounds_quotient m b hb).ok hk, (pure_eq_ok.1 h).symm⟩
  have := (rounds_difference a rest).ok hm
  rwa [← hrest, value_rem a b hb, sub_sub_cancel] at this

/-- Where neither the multiple of the divisor nor the integral part leaves the decimals, nothing is rounded. -/
theorem exists_integralQuotient {a b : Decimal} (hb : b.value ≠ 0)
    (hmultiple : Representable (integralPart a.value b.value * b.value))
    (hpart : Representable (integralPart a.value b.value)) :
    ∃ q, a.integralQuotient b = .ok q ∧ q.value = integralPart a.value b.value := by
  obtain ⟨m, hm, hm_value⟩ := (rounds_difference a (a.rem b)).exists_ok (by rwa [value_rem a b hb, sub_sub_cancel])
  rw [value_rem a b hb, sub_sub_cancel] at hm_value
  have hquotient : m.value / b.value = integralPart a.value b.value := by rw [hm_value, mul_div_cancel_right₀ _ hb]
  obtain ⟨k, hk, hk_value⟩ := (rounds_quotient m b hb).exists_ok (by rwa [hquotient])
  refine ⟨k.trunc, ?_, ?_⟩
  · rw [integralQuotient, remainder_eq a b hb, ok_bind, hm, ok_bind, hk, ok_bind]
    rfl
  · rw [value_trunc, hk_value, hquotient, RoundingMode.select_intCast]

end Decimal

end Coinage
