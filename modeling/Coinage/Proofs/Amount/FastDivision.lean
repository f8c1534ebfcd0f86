import Coinage.Proofs.Amount.FastProducts
import Coinage.Proofs.Amount.IntegralDivision
import Coinage.Proofs.Decimal.Normal
/-!
# Integral division in units

Quotient and remainder of an amount in units are computed as decimals and then have to be whole numbers of
units. That test on the remainder is what makes the quotient right: where the remainder is a whole number
of units, so is the multiple of the divisor, which is then a decimal, and no rounding touches the quotient.
-/

namespace Coinage

namespace FastMoney

open Decimal RoundingMode

theorem units_eq_iff (a : FastMoney) (x : ℚ) : (a.units : ℚ) = x * 10 ^ scale ↔ a.number.value = x := by
  rw [number_value, div_eq_iff (by positivity)]

/-- Only a whole number of units in range is taken without rounding. -/
theorem ofExact_eq_ok_iff {currency : Currency} {d : Decimal} {r : FastMoney} :
    ofExact currency d = .ok r ↔ r.currency = currency ∧ r.number.value = d.value := by
  constructor
  · intro h
    obtain ⟨e, he, h⟩ := bind_eq_ok.1 h
    have hvalue := value_roundToScale_unnecessary he
    obtain ⟨k, hk⟩ : ∃ k : ℤ, d.value * 10 ^ scale = k := (roundToScale_unnecessary_iff d scale).1 ⟨e, he, hvalue⟩
    have hcounts := countsUnits_ofDecimal currency e
    rw [h] at hcounts
    refine ⟨hcounts.1, (units_eq_iff r d.value).1 ?_⟩
    rw [hcounts.2, unitsOf, hvalue, hk, select_intCast]
  · rintro ⟨rfl, hr⟩
    obtain ⟨e, he, hvalue⟩ := (roundToScale_unnecessary_iff d scale).2 ⟨r.units, ((units_eq_iff r d.value).2 hr).symm⟩
    rw [ofExact, he, ok_bind]
    exact ofDecimal_of_value (hvalue.trans hr.symm)

theorem exists_ofExact {d : Decimal} {n : ℤ} (currency : Currency) (hn : InRange n) (hd : d.value = n / 10 ^ scale) :
    ∃ r, ofExact currency d = .ok r := by
  refine ⟨⟨currency, n, hn.1, hn.2⟩, ofExact_eq_ok_iff.2 ⟨rfl, ?_⟩⟩
  rw [number_value, hd]

theorem divideAndRemainderBy_eq_ok_iff {a q r : FastMoney} {d : Decimal} :
    a.divideAndRemainderBy d = .ok (q, r) ↔
      ∃ q' r', a.number.integralQuotient d = .ok q' ∧ a.number.remainder d = .ok r' ∧
        ofExact a.currency q' = .ok q ∧ ofExact a.currency r' = .ok r := by
  unfold divideAndRemainderBy
  simp only [bind_eq_ok, pure_eq_ok, Prod.mk.injEq]
  constructor
  · rintro ⟨q', hq', r', hr', _, hq, _, hr, rfl, rfl⟩
    exact ⟨q', r', hq', hr', hq, hr⟩
  · rintro ⟨q', r', hq', hr', hq, hr⟩
    exact ⟨q', hq', r', hr', q, hq, r, hr, rfl, rfl⟩

/-! ### A remainder in units -/

section Rest

variable {a : FastMoney} {d : Decimal} {n : ℤ} (hd : d.value ≠ 0)
  (hn : a.number.value - integralPart a.number.value d.value * d.value = n / 10 ^ scale)

include hd hn

theorem natAbs_rest_le : n.natAbs ≤ a.units.natAbs := by
  have hle := abs_sub_integralPart_mul_le a.number.value hd
  have hpos : (0 : ℚ) < 10 ^ scale := by positivity
  rw [hn, number_value, abs_div, abs_div, div_le_div_iff_of_pos_right (abs_pos.2 hpos.ne'), ← Int.cast_abs,
    ← Int.cast_abs, Int.cast_le, Int.abs_eq_natAbs, Int.abs_eq_natAbs] at hle
  exact_mod_cast hle

/-- The remainder has the sign of the amount, so it does not pass the end of the range that has no opposite. -/
theorem inRange_rest : InRange n := by
  have hle := natAbs_rest_le hd hn
  have hside := sub_integralPart_mul_nonneg a.number.value hd
  rw [hn, number_value, div_mul_div_comm] at hside
  have hprod : 0 ≤ n * a.units := by
    rw [le_div_iff₀ (by positivity), zero_mul] at hside
    exact_mod_cast hside
  have hlow := a.le_units
  have hhigh := a.units_lt
  unfold InRange
  rcases lt_or_ge a.units 0 with hu | hu
  · have : n ≤ 0 := nonpos_of_mul_nonneg_left hprod hu
    omega
  · omega

theorem representable_multiple : Representable (integralPart a.number.value d.value * d.value) := by
  have hle := natAbs_rest_le hd hn
  have hlow := a.le_units
  have hhigh := a.units_lt
  refine ⟨ofDigits (a.units - n) scale ⟨?_, by decide⟩, ?_⟩
  · simp only [capacity]
    omega
  · rw [value_ofDigits, Int.cast_sub, sub_div, ← number_value, ← hn, sub_sub_cancel]

end Rest

/-- Quotient and remainder that are taken as whole numbers of units are those of the truncated division. -/
theorem truncatedDivision_of_ofExact {a q r : FastMoney} {d q' r' : Decimal} (hq' : a.number.integralQuotient d = .ok q')
    (hr' : a.number.remainder d = .ok r') (hq : ofExact a.currency q' = .ok q) (hr : ofExact a.currency r' = .ok r) :
    TruncatedDivision a.number d q.number r.number := by
  have hd := value_ne_zero_of_remainder hr'
  have hq_value := (ofExact_eq_ok_iff.1 hq).2
  have hr_value := (ofExact_eq_ok_iff.1 hr).2
  have hrest : a.number.value - integralPart a.number.value d.value * d.value = r.units / 10 ^ scale := by
    rw [← number_value, hr_value, ← value_unsigned r', value_of_remainder hr']
  have hkeeps := keepsQuotient_of_representable hq' (representable_multiple hd hrest)
  obtain ⟨-, hquotient, hsignum, habs, hidentity⟩ := (truncatedDivision_iff hq' hr').2 hkeeps
  have hpart : q.number.value = integralPart a.number.value d.value := hq_value.trans hquotient
  have hinteger : q.padded.value = integralPart a.number.value d.value := (value_normalize q.padded).symm.trans hpart
  refine ⟨scale_normalize_of_integer hinteger, hpart, ?_, ?_, ?_⟩
  · rw [signum_eq_of_value_eq hr_value]
    exact hsignum
  · rw [hr_value]
    exact habs
  · rw [hq_value, hr_value]
    exact hidentity

/-- Integral division of an amount in units succeeds just where the divisor is not zero, the truncated
quotient is in range and the remainder is a whole number of units. What it gives then is exact, and the two
single operations give the same. -/
theorem divideAndRemainderBy_exact_or_refused (a : FastMoney) (d : Decimal) :
    ((∃ q r, a.divideAndRemainderBy d = .ok (q, r)) ↔
      d.value ≠ 0 ∧ InRange (integralPart a.number.value d.value * 10 ^ scale) ∧
        ∃ n : ℤ, a.number.value - integralPart a.number.value d.value * d.value = n / 10 ^ scale) ∧
    ∀ q r, a.divideAndRemainderBy d = .ok (q, r) →
      q.currency = a.currency ∧ r.currency = a.currency ∧ TruncatedDivision a.number d q.number r.number ∧
        a.divideToIntegralBy d = .ok q ∧ a.remainderBy d = .ok r := by
  refine ⟨⟨?_, ?_⟩, ?_⟩
  · rintro ⟨q, r, h⟩
    obtain ⟨q', r', hq', hr', hq, hr⟩ := divideAndRemainderBy_eq_ok_iff.1 h
    have hdivision := truncatedDivision_of_ofExact hq' hr' hq hr
    have hunits := (units_eq_iff q _).2 hdivision.quotient_eq
    refine ⟨value_ne_zero_of_remainder hr', ?_, r.units, ?_⟩
    · have hcast : q.units = integralPart a.number.value d.value * 10 ^ scale := by exact_mod_cast hunits
      exact hcast ▸ inRange_units q
    · rw [← number_value, (ofExact_eq_ok_iff.1 hr).2, ← value_unsigned r', value_of_remainder hr']
  · rintro ⟨hd, hpart, n, hn⟩
    have hrepresentable : Representable (integralPart a.number.value d.value) := by
      refine ⟨ofDigits (integralPart a.number.value d.value) 0 ⟨?_, Nat.zero_le _⟩, by simp⟩
      unfold InRange at hpart
      simp only [capacity, scale] at hpart ⊢
      omega
    obtain ⟨q', hq', hq_value⟩ := exists_integralQuotient hd (representable_multiple hd hn) hrepresentable
    obtain ⟨q, hq⟩ := exists_ofExact a.currency hpart (d := q') (by
      rw [hq_value]
      push_cast
      rw [mul_div_cancel_right₀ _ (by positivity)])
    obtain ⟨r, hr⟩ := exists_ofExact a.currency (inRange_rest hd hn) ((value_rem a.number d hd).trans hn)
    exact ⟨q, r, divideAndRemainderBy_eq_ok_iff.2 ⟨q', _, hq', remainder_eq a.number d hd, hq, hr⟩⟩
  · intro q r h
    obtain ⟨q', r', hq', hr', hq, hr⟩ := divideAndRemainderBy_eq_ok_iff.1 h
    refine ⟨(ofExact_eq_ok_iff.1 hq).1, (ofExact_eq_ok_iff.1 hr).1, truncatedDivision_of_ofExact hq' hr' hq hr, ?_, ?_⟩
    · rw [divideToIntegralBy, hq', ok_bind, hq]
    · rw [remainderBy, hr', ok_bind, hr]

/-- The smallest amount by `2.5`, with a remainder below zero; and one by `0.333333`, which is refused for
the remainder `0.000001`. -/
theorem divideAndRemainderBy_smallest :
    divideAndRemainderBy (min .euro) (ofDigits 25 1 (by decide)) =
      .ok (⟨.euro, -3689348814741900000, by decide, by decide⟩, ⟨.euro, -25808, by decide, by decide⟩) ∧
    TruncatedDivision (min .euro).number (ofDigits 25 1 (by decide))
      (number ⟨.euro, -3689348814741900000, by decide, by decide⟩) (number ⟨.euro, -25808, by decide, by decide⟩) ∧
    ¬ ∃ q r, divideAndRemainderBy ⟨.euro, 100000, by decide, by decide⟩ (ofDigits 333333 6 (by decide)) = .ok (q, r) := by
  have hrun : divideAndRemainderBy (min .euro) (ofDigits 25 1 (by decide)) =
      .ok (⟨.euro, -3689348814741900000, by decide, by decide⟩, ⟨.euro, -25808, by decide, by decide⟩) := by cbv
  refine ⟨hrun, ?_, ?_⟩
  · exact ((divideAndRemainderBy_exact_or_refused _ _).2 _ _ hrun).2.2.1
  · rw [(divideAndRemainderBy_exact_or_refused _ _).1]
    rintro ⟨-, -, n, hn⟩
    rw [number_value, value_ofDigits] at hn
    have hpart : integralPart ((100000 : ℤ) / 10 ^ scale) ((333333 : ℤ) / 10 ^ 6) = 3 := by
      rw [integralPart, select_down_eq_iff_of_nonneg (by positivity)]
      norm_num [scale]
    dsimp only at hn
    rw [hpart] at hn
    norm_num [scale] at hn
    have hten : (1 : ℤ) = 10 * n := by
      have : (1 : ℚ) = 10 * n := by linarith
      exact_mod_cast this
    omega

end FastMoney

end Coinage
