import Coinage.Proofs.Amount.ExactResults
import Coinage.Proofs.Rate.Composition
/-!
# Effective rates

The effective rate of a conversion is the quotient of output and input. Division develops the quotient digit by digit,
but what it arrives at is the decimal nearest to it, so where the output is the exact product, the quotient is one of
the factors: the effective rate is the factor of the rate, and a product divided by the factor is the amount. Quotients
of money have sixteen digits, so the latter takes an amount of no more.
-/

namespace Coinage

open Decimal

/-- The effective rate is the decimal nearest to the quotient of output and input. -/
theorem Conversion.effectiveRate_eq_ok {c : Conversion} {x : ℚ} (hinput : c.input.number.value ≠ 0)
    (hx : nearestValue? (c.output.number.value / c.input.number.value) = some x) :
    ∃ e, c.effectiveRate = .ok e ∧ e.value = x := by
  rw [← map_value_div? _ _ hinput] at hx
  obtain ⟨e, he, rfl⟩ := Option.map_eq_some_iff.1 hx
  refine ⟨e, ?_, rfl⟩
  unfold effectiveRate
  dsimp only
  rw [if_neg (by rwa [isZero_iff]), he]

namespace ExchangeRate

variable {r : ExchangeRate} {a : Money}

/-- A conversion records the exact product of amount and factor, if that is a decimal. -/
theorem exists_convert (hcode : a.currency.code = r.base.code) (hexact : Representable (a.number.value * r.factor.value)) :
    ∃ b : Money, r.convert a = .ok ⟨.money a, .money b, r⟩ ∧ b.currency = r.term ∧
      b.number.value = a.number.value * r.factor.value := by
  obtain ⟨d, hd, hvalue⟩ := (rounds_product a.number.unsigned r.factor).exists_ok hexact
  refine ⟨⟨r.term, d.unsigned⟩, ?_, rfl, hvalue⟩
  unfold convert
  rw [apply_money_eq_ok hcode hd]
  rfl

/-- Where no digit of a product is out of range, division takes it back: the effective rate of a conversion is the
factor, and the product of an amount of sixteen digits divided by the factor is the amount. -/
theorem exact_product_undone (hcode : a.currency.code = r.base.code) (ha : a.number.value ≠ 0)
    (hdigits : a.number.mantissa.natAbs * r.factor.mantissa.natAbs < capacity)
    (hplaces : a.number.scale + r.factor.scale ≤ maxScale) :
    (∃ c e, r.convert a = .ok c ∧ c.effectiveRate = .ok e ∧ e.value = r.factor.value) ∧
    (r.factor.value ≠ 0 → HasDigits 16 a.number.value →
      ∃ p q, a.multiplyBy r.factor = .ok p ∧ p.divideBy r.factor = .ok q ∧ q.currency = a.currency ∧
        q.number.value = a.number.value) := by
  rw [← Int.natAbs_mul] at hdigits
  have hexact := representable_mul ⟨hdigits, hplaces⟩
  constructor
  · obtain ⟨b, hconvert, -, hb⟩ := exists_convert hcode hexact
    have hquotient : nearestValue? (b.number.value / a.number.value) = some r.factor.value := by
      rw [hb, mul_div_cancel_left₀ _ ha, nearestValue?_value]
    obtain ⟨e, he, hvalue⟩ := Conversion.effectiveRate_eq_ok (c := ⟨.money a, .money b, r⟩) ha hquotient
    exact ⟨_, e, hconvert, he, hvalue⟩
  · intro hfactor hshort
    obtain ⟨p, hp, hcurrency, hp_value⟩ := (Money.keepsExact_multiplyBy r.factor).exact hexact
    have hquotient : p.number.value / r.factor.value = a.number.value := by
      rw [hp_value, mul_div_cancel_right₀ _ hfactor]
    obtain ⟨q, hq, hq_currency, hq_value⟩ := Money.exists_divideBy hfactor hquotient hshort
    exact ⟨p, q, hp, hq, hq_currency.trans hcurrency, hq_value⟩

/-- A product of 29 digits, the largest one that the amount can have, with all the places that a decimal can have. -/
theorem exact_product_undone_wide :
    (∃ c e, convert { direct .euro .dollar with factor := ofDigits 64174812214127 13 (by decide) }
        (Money.mk .euro (ofDigits 1234567890123457 15 (by decide))) = .ok c ∧
      c.effectiveRate = .ok e ∧ e.value = 64174812214127 / 10 ^ 13) ∧
    ∃ p q, Money.multiplyBy ⟨.euro, ofDigits 1234567890123457 15 (by decide)⟩ (ofDigits 64174812214127 13 (by decide)) =
        .ok p ∧ p.divideBy (ofDigits 64174812214127 13 (by decide)) = .ok q ∧
      q.number.value = 1234567890123457 / 10 ^ 15 := by
  have h := exact_product_undone (r := { direct .euro .dollar with factor := ofDigits 64174812214127 13 (by decide) })
    (a := ⟨.euro, ofDigits 1234567890123457 15 (by decide)⟩) rfl (by norm_num) (by decide) (by decide)
  refine ⟨by simpa using h.1, ?_⟩
  have hdigits : HasDigits 16 (ofDigits 1234567890123457 15 (by decide)).value :=
    ⟨1234567890123457, -15, by norm_num, by norm_num⟩
  obtain ⟨p, q, hp, hq, -, hvalue⟩ := h.2 (by norm_num) hdigits
  exact ⟨p, q, hp, hq, by simpa using hvalue⟩

end ExchangeRate

end Coinage
