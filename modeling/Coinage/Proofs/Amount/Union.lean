import Coinage.Proofs.Amount.FastConstruction
import Coinage.Proofs.Amount.Mismatch
import Coinage.Proofs.Amount.Order
/-!
# The union of the representations

An amount of any representation does what the amount does that it is made of. Most operations are left to that amount
(`Wrapped`). The others the union has from what it shows of an amount, its number and its currency, although a
representation may know a shorter way (`AnswersAlike`); for fast money, which has its units at hand, that way and the
one through the number meet because no number of units is rounded.
-/

namespace Coinage

open MonetaryAmount hiding abs

/-! ### Operations that are left to the representation -/

/-- An operation from an amount to one amount that the union leaves to the representation. -/
inductive Forwarded where
  | withNumber (n : Decimal)
  | withCurrency (c : Currency)
  | multiplyBy (n : Decimal)
  | divideBy (n : Decimal)
  | divideToIntegralBy (n : Decimal)
  | remainderBy (n : Decimal)
  | negate
  | plus
  | pow (exponent : ℕ)
  | shift (n : ℤ)

/-- The operation on an amount. -/
def Forwarded.apply {α : Type} [MonetaryAmount α] (a : α) : Forwarded → Outcome α
  | withNumber n => MonetaryAmount.withNumber a n
  | withCurrency c => .ok (MonetaryAmount.withCurrency a c)
  | multiplyBy n => MonetaryAmount.multiplyBy a n
  | divideBy n => MonetaryAmount.divideBy a n
  | divideToIntegralBy n => MonetaryAmount.divideToIntegralBy a n
  | remainderBy n => MonetaryAmount.remainderBy a n
  | negate => MonetaryAmount.negate a
  | plus => MonetaryAmount.plus a
  | pow exponent => MonetaryAmount.pow a exponent
  | shift n => MonetaryAmount.shift a n

/-- A representation: the union shows the number and the currency of the amount it is made of, takes only amounts of
its kind for such, and leaves operations to it, whose results it wraps. -/
class Wrapped (α : Type) [MonetaryAmount α] : Prop where
  kind_toAmount (a b : α) : (toAmount a).kind = kind b
  currency_toAmount (a : α) : currency (toAmount a) = currency a
  number_toAmount (a : α) : number (toAmount a) = number a
  ofAmount_eq_ok_iff {x : Amount} {a : α} : ofAmount x = .ok a ↔ x = toAmount a
  exists_of_kind_eq {x : Amount} {a : α} : x.kind = kind a → ∃ b : α, x = toAmount b
  forwards (a : α) (op : Forwarded) : op.apply (toAmount a) = (op.apply a).map toAmount
  forwards_parts (a : α) (n : Decimal) :
    divideAndRemainderBy (toAmount a) n = (divideAndRemainderBy a n).map fun parts => (toAmount parts.1, toAmount parts.2)
  forwards_pair (a b : α) (op : PairOperation) : op.apply (toAmount a) (toAmount b) = (op.apply a b).map (List.map toAmount)

instance : Wrapped Money where
  kind_toAmount _ _ := rfl
  currency_toAmount _ := rfl
  number_toAmount _ := rfl
  ofAmount_eq_ok_iff {x a} := by cases x <;> simp [ofAmount, toAmount]
  exists_of_kind_eq {x a} h := by
    cases x with
    | money b => exact ⟨b, rfl⟩
    | rounded b | fast b => cases h
  forwards a op := by cases op <;> rfl
  forwards_parts _ _ := rfl
  forwards_pair a b op := op.apply_money a b

instance : Wrapped RoundedMoney where
  kind_toAmount _ _ := rfl
  currency_toAmount _ := rfl
  number_toAmount _ := rfl
  ofAmount_eq_ok_iff {x a} := by cases x <;> simp [ofAmount, toAmount]
  exists_of_kind_eq {x a} h := by
    cases x with
    | rounded b => exact ⟨b, rfl⟩
    | money b | fast b => cases h
  forwards a op := by cases op <;> rfl
  forwards_parts _ _ := rfl
  forwards_pair a b op := op.apply_rounded a b

instance : Wrapped FastMoney where
  kind_toAmount _ _ := rfl
  currency_toAmount _ := rfl
  number_toAmount _ := rfl
  ofAmount_eq_ok_iff {x a} := by cases x <;> simp [ofAmount, toAmount]
  exists_of_kind_eq {x a} h := by
    cases x with
    | fast b => exact ⟨b, rfl⟩
    | money b | rounded b => cases h
  forwards a op := by cases op <;> rfl
  forwards_parts _ _ := rfl
  forwards_pair a b op := op.apply_fast a b

/-! ### Operations that the union has from number and currency -/

/-- A question about the sign of an amount. -/
inductive SignTest where
  | zero
  | positive
  | positiveOrZero
  | negative
  | negativeOrZero

/-- The answer to a question about the sign. -/
def SignTest.apply {α : Type} [MonetaryAmount α] (a : α) : SignTest → Bool
  | zero => isZero a
  | positive => isPositive a
  | positiveOrZero => isPositiveOrZero a
  | negative => isNegative a
  | negativeOrZero => isNegativeOrZero a

/-- What the union answers by itself about an amount is what the amount answers. The only difference to be seen is the
minus of a zero in money, which the union drops and no comparison takes notice of. -/
structure AnswersAlike {α : Type} [MonetaryAmount α] (a : α) : Prop where
  abs_eq : MonetaryAmount.abs (toAmount a) = (MonetaryAmount.abs a).map toAmount
  transform_eq (op : Operator) : transform (toAmount a) op = (transform a op).map toAmount
  query_eq {β : Type} (q : Query β) : query (toAmount a) q = query a q
  project_eq (t : NumberType) : project (toAmount a) t = project a t
  signum_eq : signum (toAmount a) = signum a
  sign_eq (t : SignTest) : t.apply (toAmount a) = t.apply a
  comparison_eq {β : Type} [MonetaryAmount β] (b : β) (c : Comparison) :
    c.apply (toAmount a) b = c.apply a b ∧ c.apply b (toAmount a) = c.apply b a
  compareTo_eq {β : Type} [MonetaryAmount β] (b : β) :
    compareTo (toAmount a) b = compareTo a b ∧ compareTo b (toAmount a) = compareTo b a
  toMoney_eq : toMoney (toAmount a) = ⟨(toMoney a).currency, (toMoney a).number.unsigned⟩
  toMoney_beq : (toMoney (toAmount a) == toMoney a) = true
  toFast_eq : toFast (toAmount a) = toFast a
  toRounded_eq (context : MathContext) : toRounded (toAmount a) context = toRounded a context

theorem Comparison.apply_congr {α α' β β' : Type} [MonetaryAmount α] [MonetaryAmount α'] [MonetaryAmount β]
    [MonetaryAmount β'] {a : α} {a' : α'} {b : β} {b' : β'} (ha : currency a = currency a') (ha' : number a = number a')
    (hb : currency b = currency b') (hb' : number b = number b') (c : Comparison) : c.apply a b = c.apply a' b' := by
  cases c <;> simp only [apply, isLessThan, isLessThanOrEqualTo, isGreaterThan, isGreaterThanOrEqualTo, isEqualTo,
    isNotEqualTo, ha, ha', hb, hb']

namespace Wrapped

variable {α : Type} [MonetaryAmount α] [Wrapped α] (a : α)

theorem ofAmount_toAmount : (ofAmount (toAmount a) : Outcome α) = .ok a :=
  ofAmount_eq_ok_iff.2 rfl

theorem signum_toAmount : signum (toAmount a) = signum a :=
  congrArg Decimal.signum (number_toAmount a)

theorem abs_toAmount : MonetaryAmount.abs (toAmount a) = (MonetaryAmount.abs a).map toAmount := by
  have hnegate : MonetaryAmount.negate (toAmount a) = (MonetaryAmount.negate a).map toAmount := forwards a .negate
  have hsign : isPositiveOrZero (toAmount a) = isPositiveOrZero a := by
    rw [isPositiveOrZero, signum_toAmount, isPositiveOrZero]
  rw [MonetaryAmount.abs, MonetaryAmount.abs, hsign, hnegate]
  split <;> rfl

/-- An operator sees the same amount either way, and what it may give is of one kind. -/
theorem transform_toAmount (op : Operator) : transform (toAmount a) op = (transform a op).map toAmount := by
  have hkind : kind (toAmount a) = kind a := kind_toAmount a a
  have hamount : toAmount (toAmount a) = toAmount a := rfl
  rw [transform, transform, hkind, hamount]
  cases op (toAmount a) with
  | error cause => rfl
  | ok x =>
    rw [ok_bind, ok_bind]
    split_ifs with h
    · obtain ⟨b, rfl⟩ := exists_of_kind_eq h
      rw [ofAmount_toAmount]
      rfl
    · rfl

/-- What is left to see are the two conversions that a representation may do in its own way. -/
theorem answersAlike (hmoney : toMoney (toAmount a) = ⟨(toMoney a).currency, (toMoney a).number.unsigned⟩)
    (hfast : toFast (toAmount a) = toFast a) : AnswersAlike a where
  abs_eq := abs_toAmount a
  transform_eq := transform_toAmount a
  query_eq _ := rfl
  project_eq t := by rw [project, number_toAmount, project]
  signum_eq := signum_toAmount a
  sign_eq t := by
    cases t <;> simp only [SignTest.apply, isZero, isPositive, isPositiveOrZero, isNegative, isNegativeOrZero,
      signum_toAmount]
  comparison_eq b c :=
    ⟨c.apply_congr (currency_toAmount a) (number_toAmount a) rfl rfl,
      c.apply_congr rfl rfl (currency_toAmount a) (number_toAmount a)⟩
  compareTo_eq b := by
    simp only [compareTo, currency_toAmount, number_toAmount, and_self]
  toMoney_eq := hmoney
  toMoney_beq := by
    rw [hmoney]
    exact (toMoney a).unsigned_beq
  toFast_eq := hfast
  toRounded_eq context := by rw [toRounded, currency_toAmount, number_toAmount, toRounded]

end Wrapped

theorem Money.answersAlike (a : Money) : AnswersAlike a :=
  Wrapped.answersAlike a rfl rfl

theorem RoundedMoney.answersAlike (a : RoundedMoney) : AnswersAlike a :=
  Wrapped.answersAlike a rfl rfl

theorem FastMoney.answersAlike (a : FastMoney) : AnswersAlike a :=
  Wrapped.answersAlike a rfl (ofDecimal_of_value rfl)

end Coinage
