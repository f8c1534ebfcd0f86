import Coinage.Proofs.Amount.Basic
import Coinage.Proofs.Decimal.Checked
/-!
# Integral division of amounts

Quotient and remainder are computed apart: the remainder exactly, the quotient by dividing what the
remainder leaves of the dividend. That multiple of the divisor may have more digits than a decimal
holds, and is rounded then; `KeepsQuotient` says which dividends and divisors bear it.
-/

namespace Coinage

namespace Decimal

open RoundingMode

/-- What division with truncation promises of quotient and remainder. -/
structure TruncatedDivision (a d q r : Decimal) : Prop where
  scale_eq : q.scale = 0
  quotient_eq : q.value = integralPart a.value d.value
  signum_eq : r.signum = 0 ∨ r.signum = a.signum
  abs_lt : |r.value| < |d.value|
  identity : q.value * d.value + r.value = a.value

/-- The two roundings of integral division spare the integral quotient: the multiple of the divisor, as
the nearest decimal, divided by the divisor gives a decimal that has not fallen below the quotient and
has not reached the next integer. -/
def KeepsQuotient (a d : ℚ) : Prop :=
  ∃ m k, nearestValue? (integralPart a d * d) = some m ∧ nearestValue? (m / d) = some k ∧
    |(integralPart a d : ℚ)| ≤ |k| ∧ |k| < |(integralPart a d : ℚ)| + 1

theorem integralQuotient_spec {a d q : Decimal} (h : a.integralQuotient d = .ok q) :
    q.scale = 0 ∧ (q.value = integralPart a.value d.value ↔ KeepsQuotient a.value d.value) := by
  obtain ⟨hd, m, k, hm, hk, rfl⟩ := exists_of_integralQuotient h
  refine ⟨rfl, ?_⟩
  have hm_side : 0 ≤ m.value * (integralPart a.value d.value * d.value) := mul_nonneg_of_nearestValue? hm (mul_self_nonneg _)
  have hside : 0 ≤ k.value * integralPart a.value d.value := by
    refine mul_nonneg_of_nearestValue? hk ?_
    have hsplit : m.value / d.value * integralPart a.value d.value =
        m.value * (integralPart a.value d.value * d.value) / d.value ^ 2 := by field_simp
    rw [hsplit]
    positivity
  rw [value_trunc, Int.cast_inj, select_down_eq_iff hside]
  refine ⟨fun hk' => ⟨_, _, hm, hk, hk'⟩, ?_⟩
  rintro ⟨m', k', hm', hk', hbounds⟩
  cases hm.symm.trans hm'
  cases hk.symm.trans hk'
  exact hbounds

/-- Where the multiple of the divisor is a decimal, nothing is rounded and the quotient is right. -/
theorem keepsQuotient_of_representable {a d q : Decimal} (h : a.integralQuotient d = .ok q)
    (hm : Representable (integralPart a.value d.value * d.value)) : KeepsQuotient a.value d.value := by
  obtain ⟨hd, m, k, hm', hk, -⟩ := exists_of_integralQuotient h
  have hmultiple := Option.some.inj (hm'.symm.trans hm.nearestValue?)
  rw [hmultiple, mul_div_cancel_right₀ _ hd] at hk
  have hk_eq := nearestValue?_intCast hk
  rw [hk_eq] at hk
  exact ⟨_, _, hm.nearestValue?, by rw [mul_div_cancel_right₀ _ hd, hk], le_rfl, lt_add_one _⟩

/-- The remainder is always right; so the identity of division holds just where the quotient is right. -/
theorem truncatedDivision_iff {a d q r : Decimal} (hq : a.integralQuotient d = .ok q) (hr : a.remainder d = .ok r) :
    TruncatedDivision a d q.unsigned r.unsigned ↔ KeepsQuotient a.value d.value := by
  have hd := value_ne_zero_of_remainder hr
  obtain ⟨hscale, hkeeps⟩ := integralQuotient_spec hq
  rw [remainder_eq a d hd, Except.ok.injEq] at hr
  subst hr
  rw [← hkeeps]
  refine ⟨fun h => h.quotient_eq, fun h => ⟨hscale, h, signum_rem a d hd, ?_, ?_⟩⟩
  · rw [value_unsigned, value_rem a d hd]
    exact abs_sub_integralPart_mul_lt _ hd
  · rw [value_unsigned, value_unsigned, h, value_rem a d hd]
    ring

theorem value_of_remainder {a d r : Decimal} (hr : a.remainder d = .ok r) :
    r.unsigned.value = a.value - integralPart a.value d.value * d.value := by
  have hd := value_ne_zero_of_remainder hr
  rw [remainder_eq a d hd, Except.ok.injEq] at hr
  rw [← hr, value_unsigned, value_rem a d hd]

end Decimal

open Decimal RoundingMode

/-- Integral division by a decimal gives quotient and remainder as the two single operations do. The
remainder is what the integral part leaves of the dividend, and the pair is a truncated division just
where the roundings in between spare the quotient, as they do wherever the multiple is a decimal. -/
theorem divideAndRemainderBy_truncated_iff (a q r : Money) (b s t : RoundedMoney) (d : Decimal) :
    (a.divideAndRemainderBy d = .ok (q, r) →
      a.divideToIntegralBy d = .ok q ∧ a.remainderBy d = .ok r ∧
      r.number.value = a.number.value - integralPart a.number.value d.value * d.value ∧
      (TruncatedDivision a.number d q.number r.number ↔ KeepsQuotient a.number.value d.value) ∧
      (Representable (integralPart a.number.value d.value * d.value) → KeepsQuotient a.number.value d.value)) ∧
    (b.divideAndRemainderBy d = .ok (s, t) →
      b.divideToIntegralBy d = .ok s ∧ b.remainderBy d = .ok t ∧
      t.number.value = b.number.value - integralPart b.number.value d.value * d.value ∧
      (TruncatedDivision b.number d s.number t.number ↔ KeepsQuotient b.number.value d.value) ∧
      (Representable (integralPart b.number.value d.value * d.value) → KeepsQuotient b.number.value d.value)) := by
  constructor
  · intro h
    unfold Money.divideAndRemainderBy at h
    obtain ⟨q', hq, h⟩ := bind_eq_ok.1 h
    obtain ⟨r', hr, h⟩ := bind_eq_ok.1 h
    cases pure_eq_ok.1 h
    exact ⟨by rw [Money.divideToIntegralBy, hq]; rfl, by rw [Money.remainderBy, hr]; rfl, value_of_remainder hr,
      truncatedDivision_iff hq hr, keepsQuotient_of_representable hq⟩
  · intro h
    have hrest : b.remainderBy d = .ok t := by rw [RoundedMoney.remainderBy, h]; rfl
    unfold RoundedMoney.divideAndRemainderBy at h
    obtain ⟨q', hq, h⟩ := bind_eq_ok.1 h
    obtain ⟨quotient, hquotient, h⟩ := bind_eq_ok.1 h
    obtain ⟨r', hr, h⟩ := bind_eq_ok.1 h
    obtain ⟨rest, hrest', h⟩ := bind_eq_ok.1 h
    cases pure_eq_ok.1 h
    have hintegral : b.divideToIntegralBy d = .ok s := by rw [RoundedMoney.divideToIntegralBy, hq]; exact hquotient
    obtain ⟨-, -, -, rfl⟩ := RoundedMoney.exact_eq_ok hquotient
    obtain ⟨-, -, -, rfl⟩ := RoundedMoney.exact_eq_ok hrest'
    exact ⟨hintegral, hrest, value_of_remainder hr, truncatedDivision_iff hq hr, keepsQuotient_of_representable hq⟩

theorem integralPart_ten_three : integralPart 10 3 = 3 := by
  rw [integralPart, select_down_eq_iff_of_nonneg (by norm_num)]
  norm_num

/-- Ten by three is three and one is left, in either representation. -/
theorem divideAndRemainderBy_ten_three :
    (Money.mk .euro (ofDigits 10 0 (by decide))).divideAndRemainderBy (ofDigits 3 0 (by decide)) =
      .ok (⟨.euro, ofDigits 3 0 (by decide)⟩, ⟨.euro, ofDigits 1 0 (by decide)⟩) ∧
    TruncatedDivision (ofDigits 10 0 (by decide)) (ofDigits 3 0 (by decide)) (ofDigits 3 0 (by decide))
      (ofDigits 1 0 (by decide)) ∧
    (RoundedMoney.mk ⟨.euro, .decimal32, ofDigits 10 0 (by decide)⟩ none).divideToIntegralBy (ofDigits 3 0 (by decide)) =
      .ok (.mk ⟨.euro, .decimal32, ofDigits 3 0 (by decide)⟩ none) := by
  have hrun : (Money.mk .euro (ofDigits 10 0 (by decide))).divideAndRemainderBy (ofDigits 3 0 (by decide)) =
      .ok (⟨.euro, ofDigits 3 0 (by decide)⟩, ⟨.euro, ofDigits 1 0 (by decide)⟩) := by cbv
  have h := divideAndRemainderBy_truncated_iff ⟨.euro, ofDigits 10 0 (by decide)⟩ ⟨.euro, ofDigits 3 0 (by decide)⟩
    ⟨.euro, ofDigits 1 0 (by decide)⟩ (.mk ⟨.euro, .decimal32, ofDigits 10 0 (by decide)⟩ none)
    (.mk ⟨.euro, .decimal32, ofDigits 3 0 (by decide)⟩ none) (.mk ⟨.euro, .decimal32, ofDigits 1 0 (by decide)⟩ none)
    (ofDigits 3 0 (by decide))
  obtain ⟨-, -, -, hmoney, hkeeps⟩ := h.1 hrun
  obtain ⟨hrounded, -⟩ := h.2 (by cbv)
  refine ⟨hrun, hmoney.2 (hkeeps ⟨ofDigits 9 0 (by decide), ?_⟩), hrounded⟩
  norm_num [integralPart_ten_three]

/-- `10 ^ 28 + 1` by `1.5`: the multiple `10 ^ 28 + 0.5` is rounded to `10 ^ 28`, and the quotient comes
out one short of the integral part. -/
theorem divideAndRemainderBy_one_short :
    (Money.mk .euro (ofDigits 10000000000000000000000000001 0 (by decide))).divideAndRemainderBy (ofDigits 15 1 (by decide)) =
      .ok (⟨.euro, ofDigits 6666666666666666666666666666 0 (by decide)⟩, ⟨.euro, ofDigits 5 1 (by decide)⟩) ∧
    integralPart (ofDigits 10000000000000000000000000001 0 (by decide)).value (ofDigits 15 1 (by decide)).value =
      6666666666666666666666666667 ∧
    ¬ TruncatedDivision (ofDigits 10000000000000000000000000001 0 (by decide)) (ofDigits 15 1 (by decide))
      (ofDigits 6666666666666666666666666666 0 (by decide)) (ofDigits 5 1 (by decide)) := by
  refine ⟨by cbv, ?_, fun h => ?_⟩
  · rw [integralPart, select_down_eq_iff_of_nonneg (by norm_num)]
    norm_num
  · have := h.identity
    norm_num at this

end Coinage
