import Coinage.Amount.Operations
import Coinage.Rate.Basic
/-!
# Converting amounts

A rate converts an amount of its base currency: the number is multiplied by the factor in the term
currency, under the discipline of the amount's representation.
-/

namespace Coinage

/-- The record of a conversion. -/
structure Conversion where
  input : Amount
  output : Amount
  rate : ExchangeRate

namespace ExchangeRate

variable {α : Type} [MonetaryAmount α]

/-- The amount in the term currency. -/
def apply (r : ExchangeRate) (a : α) : Except RateError α :=
  let currency := MonetaryAmount.currency a
  if currency == r.base then
    Outcome.toRate (MonetaryAmount.multiplyBy (MonetaryAmount.withCurrency a r.term) r.factor)
  else .error (.currencyMismatch r.base.code currency.code)

/-- The amount in the term currency, rounded. -/
def applyRounded (r : ExchangeRate) (a : α) (rounding : Operator) : Except RateError α := do
  let converted ← r.apply a
  Outcome.toRate (MonetaryAmount.transform converted rounding)

/-- The amount in the term currency, with a record of the conversion. -/
def convert (r : ExchangeRate) (a : α) : Except RateError Conversion := do
  let output ← r.apply a
  return ⟨MonetaryAmount.toAmount a, MonetaryAmount.toAmount output, r⟩

def operator (r : ExchangeRate) : Operator := fun a =>
  (r.apply a).mapError RateError.toAmountError

end ExchangeRate

namespace Conversion

/-- What was converted and what came of it. -/
instance : ToString Conversion where
  toString c := s!"{c.input} -> {c.output}"

/-- What the conversion gave for one unit, nothing if there was nothing to convert. -/
def effectiveRate (c : Conversion) : Except RateError Decimal :=
  let input := c.input.number
  let output := c.output.number
  if input.isZero then .ok .zero
  else
    match output.div? input with
    | some d => .ok d
    | none => .error (.amount (.overflow s!"effective rate {output} / {input}"))

/-- The currencies that were converted from and into. -/
def pair (c : Conversion) : Currency × Currency :=
  (c.input.currency, c.output.currency)

end Conversion

end Coinage
