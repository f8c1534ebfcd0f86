import Coinage.Proofs.Amount.Lockstep
import Coinage.Proofs.Amount.Union
import Coinage.Rate.Conversion
/-!
# Transparent conversions

Units survive the way through each of the other representations: money keeps every digit, and a context of nineteen
digits or without a bound rounds none of a number of units, so what is rounded to units at the end is a number of units
already. A rate that serves as an operator sees an amount of any representation, where as a rate it sees one of a
single representation; the union being transparent, both ways give the same.
-/

namespace Coinage

open MonetaryAmount hiding abs

/-! ### From units and back -/

namespace FastMoney

theorem toFast_toMoney (a : FastMoney) : toFast (toMoney a) = .ok a :=
  ofDecimal_of_value (Decimal.value_unsigned a.number)

theorem toRounded_eq_ok {context : MathContext} (hcontext : context.precision = 0 ∨ 19 ≤ context.precision)
    (a : FastMoney) : toRounded a context = .ok ⟨⟨a.currency, context, a.number.unsigned⟩, none⟩ :=
  (RoundedMoney.finish_eq_ok_of_pending_none rfl).2
    ⟨a.number, RoundedMoney.roundToPrecision_units hcontext (.number a) (inRange_units a), rfl⟩

theorem exists_toRounded {context : MathContext} (hcontext : context.precision = 0 ∨ 19 ≤ context.precision)
    (a : FastMoney) : ∃ r, toRounded a context = .ok r ∧ toFast r = .ok a :=
  ⟨_, toRounded_eq_ok hcontext a, ofDecimal_of_value (Decimal.value_unsigned a.number)⟩

end FastMoney

/-! ### Rates as operators -/

namespace ExchangeRate

/-- What a rate does as an operator, and what it does as a rate: the same, with a cause of the same wording where it
refuses. -/
structure OperatesAlike {α : Type} [MonetaryAmount α] (r : ExchangeRate) (a : α) : Prop where
  transform_eq : transform a r.operator = (r.apply a).mapError RateError.toAmountError
  message_eq : ∀ cause, r.apply a = .error cause → cause.toAmountError.message = cause.message

variable {α : Type} [MonetaryAmount α] (r : ExchangeRate) (a : α)

/-- A rate refuses an amount for its currency, or because the product is refused. -/
theorem message_of_apply {cause : RateError} (h : r.apply a = .error cause) :
    cause.toAmountError.message = cause.message := by
  rw [apply] at h
  split at h
  case isTrue =>
    obtain ⟨inner, -, rfl⟩ := mapError_eq_error.1 h
    rfl
  case isFalse =>
    cases h
    rfl

variable [Wrapped α]

theorem apply_toAmount : r.apply (toAmount a) = (r.apply a).map toAmount := by
  have hcurrency : MonetaryAmount.withCurrency (toAmount a) r.term = toAmount (MonetaryAmount.withCurrency a r.term) :=
    Except.ok.inj (Wrapped.forwards a (.withCurrency r.term))
  have hproduct : MonetaryAmount.multiplyBy (toAmount (MonetaryAmount.withCurrency a r.term)) r.factor =
      (MonetaryAmount.multiplyBy (MonetaryAmount.withCurrency a r.term) r.factor).map toAmount :=
    Wrapped.forwards _ (.multiplyBy r.factor)
  rw [apply, apply, Wrapped.currency_toAmount, hcurrency, hproduct]
  split
  · exact mapError_map _ _ _
  · rfl

theorem transform_operator : transform a r.operator = (r.apply a).mapError RateError.toAmountError := by
  have hamount : r.operator (toAmount a) = ((r.apply a).map toAmount).mapError RateError.toAmountError :=
    congrArg (Except.mapError RateError.toAmountError) (r.apply_toAmount a)
  rw [transform, hamount]
  cases r.apply a with
  | error cause => rfl
  | ok b =>
    show (if (toAmount b).kind = kind a then ofAmount (toAmount b) else _) = _
    rw [if_pos (Wrapped.kind_toAmount b a), Wrapped.ofAmount_toAmount]
    rfl

theorem operatesAlike : r.OperatesAlike a :=
  ⟨r.transform_operator a, fun _ => r.message_of_apply a⟩

theorem operatesAlike_toAmount : r.OperatesAlike (toAmount a) where
  transform_eq := by
    rw [Wrapped.transform_toAmount, transform_operator, apply_toAmount, mapError_map]
  message_eq _ := r.message_of_apply (toAmount a)

theorem operatesAlike_amount (a : Amount) : r.OperatesAlike a := by
  cases a with
  | money a => exact r.operatesAlike_toAmount a
  | rounded a => exact r.operatesAlike_toAmount a
  | fast a => exact r.operatesAlike_toAmount a

end ExchangeRate

/-- The union and the conversions are transparent. An amount of any representation does what the amount does that it is
made of, whether the union leaves the operation to that amount or has it from the number; a number of units is the same
after the way to money and back, and after that to a rounded amount if its context is without a bound or of nineteen
digits; and a rate does the same as an operator and as a rate. -/
theorem union_and_conversions_transparent :
    (Wrapped Money ∧ Wrapped RoundedMoney ∧ Wrapped FastMoney) ∧
    ((∀ a : Money, AnswersAlike a) ∧ (∀ a : RoundedMoney, AnswersAlike a) ∧ ∀ a : FastMoney, AnswersAlike a) ∧
    (∀ a : FastMoney, toFast (toMoney a) = .ok a ∧
      ∀ context : MathContext, context.precision = 0 ∨ 19 ≤ context.precision →
        ∃ r, toRounded a context = .ok r ∧ toFast r = .ok a) ∧
    ∀ r : ExchangeRate, (∀ a : Money, r.OperatesAlike a) ∧ (∀ a : RoundedMoney, r.OperatesAlike a) ∧
      (∀ a : FastMoney, r.OperatesAlike a) ∧ ∀ a : Amount, r.OperatesAlike a := by
  refine ⟨⟨inferInstance, inferInstance, inferInstance⟩, ⟨Money.answersAlike, RoundedMoney.answersAlike,
    FastMoney.answersAlike⟩, ?_, ?_⟩
  · intro a
    exact ⟨a.toFast_toMoney, fun context hcontext => a.exists_toRounded hcontext⟩
  · intro r
    exact ⟨fun a => r.operatesAlike a, fun a => r.operatesAlike a, fun a => r.operatesAlike a, r.operatesAlike_amount⟩

/-- The smallest amount has nineteen digits and a minus, and none of them is lost where rounding is not allowed. -/
theorem union_and_conversions_transparent_smallest :
    toFast (toMoney (FastMoney.min .euro)) = .ok (.min .euro) ∧
    ∃ r, toRounded (FastMoney.min .euro) ⟨19, .unnecessary⟩ = .ok r ∧ toFast r = .ok (.min .euro) := by
  obtain ⟨-, -, hback, -⟩ := union_and_conversions_transparent
  obtain ⟨hmoney, hrounded⟩ := hback (.min .euro)
  exact ⟨hmoney, hrounded ⟨19, .unnecessary⟩ (Or.inr le_rfl)⟩

end Coinage
