import Coinage.Proofs.Amount.Basic
import Coinage.Proofs.Decimal.Checked
import Coinage.Proofs.Decimal.Digits
/-!
# Exact results of money

Money rounds only what no decimal can hold. Operands are brought to one scale first and may leave the range there, but
the digits that are dropped then are zeros wherever the exact result is a decimal. What is left to fail are results
whose integral part is out of range, a carry at the edge included.
-/

namespace Coinage

open Decimal RoundingMode

/-! ### The causes of decimal operations -/

namespace Decimal

theorem cause_of_sum {a b : Decimal} {cause : AmountError} (h : a.sum b = .error cause) :
    cause = .overflow s!"{a} + {b}" := by
  unfold sum at h
  split at h <;> cases h
  rfl

theorem cause_of_difference {a b : Decimal} {cause : AmountError} (h : a.difference b = .error cause) :
    cause = .overflow s!"{a} - {b}" := by
  unfold difference at h
  split at h <;> cases h
  rfl

theorem cause_of_product {a b : Decimal} {cause : AmountError} (h : a.product b = .error cause) :
    cause = .overflow s!"{a} * {b}" := by
  unfold product at h
  split at h <;> cases h
  rfl

end Decimal

namespace Money

/-- An outcome that is an exact result `x` wherever a decimal can be, and an overflow just where even the integer
nearest to it is out of range. -/
structure KeepsExact (c : Currency) (x : ℚ) (expression : String) (o : Outcome Money) : Prop where
  exact : Representable x → ∃ r, o = .ok r ∧ r.currency = c ∧ r.number.value = x
  overflow_iff : o = .error (.overflow expression) ↔ 2 ^ 96 ≤ halfEven.select |x|
  cause_eq : ∀ cause, o = .error cause → cause = .overflow expression

/-- The amount takes up a decimal without rounding it. -/
theorem keepsExact_withNumber (a : Money) {x : ℚ} {expression : String} {o : Outcome Decimal} (ho : Rounds x o)
    (hcause : ∀ cause, o = .error cause → cause = .overflow expression) :
    KeepsExact a.currency x expression (do return a.withNumber (← o)) := by
  refine ⟨fun hx => ?_, ?_, fun cause h => ?_⟩
  · obtain ⟨d, rfl, hvalue⟩ := ho.exists_ok hx
    exact ⟨a.withNumber d, rfl, rfl, hvalue⟩
  · rw [← nearestValue?_eq_none_iff_le]
    cases o with
    | ok d =>
      have hsome : nearestValue? x = some d.value := ho
      exact iff_of_false pure_ne_error (by simp [hsome])
    | error cause => exact iff_of_true (by rw [hcause cause rfl]; rfl) ho.1
  · rcases bind_eq_error.1 h with h | ⟨d, -, h⟩
    · exact hcause cause h
    · exact absurd h pure_ne_error

variable {a b : Money}

theorem keepsExact_add (h : a.currency.code = b.currency.code) :
    KeepsExact a.currency (a.number.value + b.number.value) s!"{a.number} + {b.number}" (a.add b) := by
  rw [add, checkCurrency_eq_ok h, ok_bind]
  exact a.keepsExact_withNumber (rounds_sum _ _) fun _ => cause_of_sum

theorem keepsExact_subtract (h : a.currency.code = b.currency.code) :
    KeepsExact a.currency (a.number.value - b.number.value) s!"{a.number} - {b.number}" (a.subtract b) := by
  rw [subtract, checkCurrency_eq_ok h, ok_bind]
  exact a.keepsExact_withNumber (rounds_difference _ _) fun _ => cause_of_difference

theorem keepsExact_multiplyBy (n : Decimal) :
    KeepsExact a.currency (a.number.value * n.value) s!"{a.number} * {n}" (a.multiplyBy n) :=
  a.keepsExact_withNumber (rounds_product _ _) fun _ => cause_of_product

/-- A quotient of money is exact where it has sixteen digits. -/
theorem exists_divideBy {a : Money} {n d : Decimal} (hn : n.value ≠ 0) (hd : a.number.value / n.value = d.value)
    (hdigits : HasDigits 16 d.value) :
    ∃ q, a.divideBy n = .ok q ∧ q.currency = a.currency ∧ q.number.value = d.value := by
  obtain ⟨k, hk, hk_value⟩ := (rounds_quotient a.number n hn).exists_ok ⟨d, hd.symm⟩
  rw [hd] at hk_value
  have hbounded : Bounded bound k.value := Or.inr (hk_value ▸ hdigits)
  obtain ⟨rounded, hrounded, hvalue⟩ := hbounded.roundToPrecision
  refine ⟨a.withNumber rounded, ?_, rfl, hvalue.trans hk_value⟩
  rw [divideBy, hk, ok_bind, hrounded, ok_bind]
  rfl

/-- Subtraction takes an amount back that was added to another, as long as the sum was not rounded. -/
theorem exists_subtract_of_add (h : a.currency.code = b.currency.code)
    (hsum : Representable (a.number.value + b.number.value)) :
    ∃ s r, a.add b = .ok s ∧ s.subtract b = .ok r ∧ r.number.value = a.number.value := by
  obtain ⟨s, hs, hcurrency, hvalue⟩ := (keepsExact_add h).exact hsum
  have hback : s.number.value - b.number.value = a.number.value := by rw [hvalue, add_sub_cancel_right]
  obtain ⟨r, hr, -, hr_value⟩ := (keepsExact_subtract (hcurrency ▸ h)).exact ⟨a.number, hback.symm⟩
  exact ⟨s, r, hs, hr, hr_value.trans hback⟩

/-- Sums, differences and products of money are exact wherever a decimal can be and overflow just where they have to. -/
theorem exact_where_representable (a b : Money) (n : Decimal) (h : a.currency.code = b.currency.code) :
    KeepsExact a.currency (a.number.value + b.number.value) s!"{a.number} + {b.number}" (a.add b) ∧
    KeepsExact a.currency (a.number.value - b.number.value) s!"{a.number} - {b.number}" (a.subtract b) ∧
    KeepsExact a.currency (a.number.value * n.value) s!"{a.number} * {n}" (a.multiplyBy n) ∧
    (Representable (a.number.value + b.number.value) →
      ∃ s r, a.add b = .ok s ∧ s.subtract b = .ok r ∧ r.number.value = a.number.value) :=
  ⟨keepsExact_add h, keepsExact_subtract h, keepsExact_multiplyBy n, exists_subtract_of_add h⟩

/-- With two places behind the point the sum would have 30 digits, but two of them are zeros. -/
theorem add_subtract_of_thirty_digits :
    ∃ s r, add ⟨.euro, ofDigits 79228162514264337593543950335 1 (by decide)⟩ ⟨.euro, ofDigits 50 2 (by decide)⟩ = .ok s ∧
      subtract s ⟨.euro, ofDigits 50 2 (by decide)⟩ = .ok r ∧ r.number.value = 79228162514264337593543950335 / 10 := by
  have h := (exact_where_representable ⟨.euro, ofDigits 79228162514264337593543950335 1 (by decide)⟩
    ⟨.euro, ofDigits 50 2 (by decide)⟩ .one rfl).2.2.2 ⟨ofDigits 7922816251426433759354395034 0 (by decide), by norm_num⟩
  simpa using h

end Money

end Coinage
