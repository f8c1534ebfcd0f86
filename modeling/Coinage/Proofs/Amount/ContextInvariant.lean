import Coinage.Proofs.Amount.Basic
import Coinage.Proofs.Decimal.Digits
import Coinage.Stored.Amount
/-!
# The numbers of rounded amounts

`Reachable` is every rounded amount that can be made, read back or computed, also through operators that
are attached as pending roundings and may do anything. Its number respects its context: it was rounded to
it, or it was kept because it needed no rounding.
-/

namespace Coinage

namespace RoundedMoney

open Decimal

/-- Whether the number of an amount is one that its context leaves as it is. -/
def WithinContext (a : RoundedMoney) : Prop :=
  Bounded a.context a.number.value

/-- The results of one arithmetic operation on an amount. -/
inductive Arithmetic (a : RoundedMoney) : RoundedMoney → Prop
  | add {r : RoundedMoney} (b : RoundedMoney) : a.add b = .ok r → Arithmetic a r
  | subtract {r : RoundedMoney} (b : RoundedMoney) : a.subtract b = .ok r → Arithmetic a r
  | multiplyBy {r : RoundedMoney} (n : Decimal) : a.multiplyBy n = .ok r → Arithmetic a r
  | divideBy {r : RoundedMoney} (n : Decimal) : a.divideBy n = .ok r → Arithmetic a r
  | negate {r : RoundedMoney} : a.negate = .ok r → Arithmetic a r
  | plus {r : RoundedMoney} : a.plus = .ok r → Arithmetic a r
  | abs {r : RoundedMoney} : MonetaryAmount.abs a = .ok r → Arithmetic a r
  | pow {r : RoundedMoney} (exponent : Nat) : a.pow exponent = .ok r → Arithmetic a r
  | shift {r : RoundedMoney} (n : Int) : a.shift n = .ok r → Arithmetic a r
  | quotient {q r : RoundedMoney} (n : Decimal) : a.divideAndRemainderBy n = .ok (q, r) → Arithmetic a q
  | rest {q r : RoundedMoney} (n : Decimal) : a.divideAndRemainderBy n = .ok (q, r) → Arithmetic a r
  | divideToIntegralBy {r : RoundedMoney} (n : Decimal) : a.divideToIntegralBy n = .ok r → Arithmetic a r
  | remainderBy {r : RoundedMoney} (n : Decimal) : a.remainderBy n = .ok r → Arithmetic a r

/-- The rounded amounts that can be had. -/
inductive Reachable : RoundedMoney → Prop
  | ofDecimal {r : RoundedMoney} (c : Currency) (d : Decimal) : RoundedMoney.ofDecimal c d = .ok r → Reachable r
  | ofContext {r : RoundedMoney} (c : Currency) (d : Decimal) (context : MathContext) :
      RoundedMoney.ofContext c d context = .ok r → Reachable r
  | zero (c : Currency) : Reachable (RoundedMoney.zero c)
  | toRounded {r : RoundedMoney} {α : Type} [MonetaryAmount α] (a : α) (context : MathContext) :
      MonetaryAmount.toRounded a context = .ok r → Reachable r
  | decoded {r : RoundedMoney} (tagged : Bool) (j : Json) : RoundedMoney.ofJson tagged j = .ok r → Reachable r
  | decodedAmount {r : RoundedMoney} (j : Json) : Amount.ofJson j = .ok (.rounded r) → Reachable r
  | arithmetic {a r : RoundedMoney} : Reachable a → Arithmetic a r → Reachable r
  | withNumber {a r : RoundedMoney} (d : Decimal) : Reachable a → a.withNumber d = .ok r → Reachable r
  | withCurrency {a : RoundedMoney} (c : Currency) : Reachable a → Reachable (a.withCurrency c)
  | withContext {a r : RoundedMoney} (context : MathContext) : Reachable a → a.withContext context = .ok r → Reachable r
  | withPendingOperator {a r : RoundedMoney} (op : Operator) :
      Reachable a → a.withPendingOperator op = .ok r → Reachable r

/-! ### What one operation does -/

theorem withinContext_of_finish {a r : RoundedMoney} {n : Decimal} (h : a.finish n = .ok r) : r.WithinContext := by
  obtain ⟨⟨m, d, hd, hnumber⟩, hcontext, -⟩ := finish_eq_ok h
  rw [WithinContext, hcontext, hnumber, value_unsigned]
  exact bounded_of_roundToPrecision hd

theorem withinContext_of_exact {a r : RoundedMoney} {n : Decimal} {part : String} (h : a.exact n part = .ok r) :
    r.WithinContext := by
  obtain ⟨cut, hcut, hvalue, rfl⟩ := exact_eq_ok h
  -- whether a context has a bound does not depend on its mode
  have hbounded : Bounded ⟨a.context.precision, .down⟩ n.value := hvalue ▸ bounded_of_roundToPrecision hcut
  exact hbounded

theorem exact_of_divideAndRemainderBy {a q r : RoundedMoney} {n : Decimal}
    (h : a.divideAndRemainderBy n = .ok (q, r)) :
    (∃ m, a.exact m "quotient" = .ok q) ∧ ∃ m, a.exact m "remainder" = .ok r := by
  unfold divideAndRemainderBy at h
  obtain ⟨q', -, h⟩ := bind_eq_ok.1 h
  obtain ⟨quotient, hq, h⟩ := bind_eq_ok.1 h
  obtain ⟨r', -, h⟩ := bind_eq_ok.1 h
  obtain ⟨rest, hr, h⟩ := bind_eq_ok.1 h
  cases pure_eq_ok.1 h
  exact ⟨⟨q', hq⟩, r', hr⟩

/-- Every arithmetic result was rounded, was kept exactly, or is the amount itself. -/
theorem Arithmetic.taken_up {a r : RoundedMoney} (h : Arithmetic a r) :
    (∃ n, a.finish n = .ok r) ∨ (∃ n part, a.exact n part = .ok r) ∨ r = a := by
  cases h with
  | add b h | subtract b h =>
    obtain ⟨-, -, h⟩ := bind_eq_ok.1 h
    obtain ⟨n, -, h⟩ := bind_eq_ok.1 h
    exact Or.inl ⟨n, h⟩
  | multiplyBy n h | divideBy n h | pow n h | shift n h =>
    obtain ⟨m, -, h⟩ := bind_eq_ok.1 h
    exact Or.inl ⟨m, h⟩
  | negate h | plus h => exact Or.inl ⟨_, h⟩
  | abs h =>
    unfold MonetaryAmount.abs at h
    split at h
    · exact Or.inr (Or.inr (Except.ok.inj h).symm)
    · exact Or.inl ⟨_, h⟩
  | quotient n h =>
    obtain ⟨m, hm⟩ := (exact_of_divideAndRemainderBy h).1
    exact Or.inr (Or.inl ⟨m, _, hm⟩)
  | rest n h =>
    obtain ⟨m, hm⟩ := (exact_of_divideAndRemainderBy h).2
    exact Or.inr (Or.inl ⟨m, _, hm⟩)
  | divideToIntegralBy n h =>
    obtain ⟨m, -, h⟩ := bind_eq_ok.1 h
    exact Or.inr (Or.inl ⟨m, _, h⟩)
  | remainderBy n h =>
    obtain ⟨⟨q, r'⟩, hparts, h⟩ := bind_eq_ok.1 h
    cases pure_eq_ok.1 h
    obtain ⟨m, hm⟩ := (exact_of_divideAndRemainderBy hparts).2
    exact Or.inr (Or.inl ⟨m, _, hm⟩)

theorem Arithmetic.withinContext {a r : RoundedMoney} (h : Arithmetic a r) (ha : a.WithinContext) :
    r.WithinContext := by
  obtain ⟨n, h⟩ | ⟨n, part, h⟩ | rfl := h.taken_up
  · exact withinContext_of_finish h
  · exact withinContext_of_exact h
  · exact ha

/-- Context and pending rounding pass from an amount to whatever is computed from it. -/
theorem Arithmetic.carries {a r : RoundedMoney} (h : Arithmetic a r) :
    r.context = a.context ∧ r.pending = a.pending := by
  obtain ⟨n, h⟩ | ⟨n, part, h⟩ | rfl := h.taken_up
  · exact (finish_eq_ok h).2
  · obtain ⟨-, -, -, rfl⟩ := exact_eq_ok h
    exact ⟨rfl, rfl⟩
  · exact ⟨rfl, rfl⟩

/-! ### Amounts that are read -/

theorem withinContext_of_ofJson {tagged : Bool} {j : Json} {r : RoundedMoney} (h : RoundedMoney.ofJson tagged j = .ok r) :
    r.WithinContext := by
  unfold ofJson at h
  obtain ⟨f, -, h⟩ := bind_eq_ok.1 h
  obtain ⟨number, -, h⟩ := bind_eq_ok.1 h
  obtain ⟨context, -, h⟩ := bind_eq_ok.1 h
  obtain ⟨currency, -, h⟩ := bind_eq_ok.1 h
  exact withinContext_of_finish (mapError_eq_ok.1 h)

theorem ofJson_of_amount {j : Json} {r : RoundedMoney} (h : Amount.ofJson j = .ok (.rounded r)) :
    ∃ rest, RoundedMoney.ofJson true rest = .ok r := by
  unfold Amount.ofJson at h
  obtain ⟨⟨kind, rest⟩, -, h⟩ := bind_eq_ok.1 h
  cases kind with
  | rounded =>
    obtain ⟨a, ha, h⟩ := bind_eq_ok.1 h
    cases pure_eq_ok.1 h
    exact ⟨rest, ha⟩
  | money | fast =>
    obtain ⟨a, -, h⟩ := bind_eq_ok.1 h
    cases pure_eq_ok.1 h

/-! ### What a whole run does -/

theorem Reachable.withinContext {a : RoundedMoney} (h : Reachable a) : a.WithinContext := by
  induction h with
  | ofDecimal c d h | ofContext c d _ h | toRounded a _ h => exact withinContext_of_finish h
  | zero c => exact Or.inr (value_zero ▸ hasDigits_zero _)
  | decoded tagged j h => exact withinContext_of_ofJson h
  | decodedAmount j h =>
    obtain ⟨rest, h⟩ := ofJson_of_amount h
    exact withinContext_of_ofJson h
  | arithmetic _ h ih => exact h.withinContext ih
  | withNumber d _ h | withContext _ _ h | withPendingOperator op _ h => exact withinContext_of_finish h
  | withCurrency c _ ih => exact ih

theorem WithinContext.finish {a : RoundedMoney} (hp : a.pending = none) {n : Decimal} (hn : Bounded a.context n.value) :
    ∃ r, a.finish n = .ok r ∧ r.number.value = n.value := by
  obtain ⟨d, hd, hvalue⟩ := hn.roundToPrecision
  exact ⟨_, (finish_eq_ok_of_pending_none hp).2 ⟨d, hd, rfl⟩, hvalue⟩

theorem WithinContext.abs {a : RoundedMoney} (ha : a.WithinContext) (hp : a.pending = none) :
    ∃ r, MonetaryAmount.abs a = .ok r ∧ r.number.value = |a.number.value| := by
  have hsign : MonetaryAmount.isPositiveOrZero a = true ↔ 0 ≤ a.number.value :=
    decide_eq_true_iff.trans (signum_nonneg_iff a.number)
  unfold MonetaryAmount.abs
  split
  case isTrue h => exact ⟨a, rfl, (abs_of_nonneg (hsign.1 h)).symm⟩
  case isFalse h =>
    obtain ⟨r, hr, hvalue⟩ := WithinContext.finish hp (n := a.number.neg) (by rw [value_neg]; exact ha.neg)
    rw [hsign, not_le] at h
    exact ⟨r, hr, by rw [hvalue, value_neg, abs_of_neg h]⟩

/-- The number of an amount is one that its context leaves alone; with a bound of `p` digits it has at
most `p` of them. Arithmetic keeps the context and the pending rounding, and where there is none a change
of sign is exact. -/
theorem Reachable.respects_context {a : RoundedMoney} (h : Reachable a) :
    (∃ d, a.number.roundToPrecision a.context = .ok d ∧ d.value = a.number.value) ∧
    (1 ≤ a.context.precision → a.context.precision ≤ 27 → HasDigits a.context.precision a.number.value) ∧
    (∀ r, Arithmetic a r → r.context = a.context ∧ r.pending = a.pending) ∧
    (a.pending = none →
      (∃ r, a.negate = .ok r ∧ r.number.value = -a.number.value) ∧
      (∃ r, MonetaryAmount.abs a = .ok r ∧ r.number.value = |a.number.value|) ∧
      (∃ r, a.plus = .ok r ∧ r.number.value = a.number.value)) := by
  have ha := h.withinContext
  refine ⟨Bounded.roundToPrecision ha, fun hlow hhigh => ?_, fun r hr => hr.carries, fun hp => ⟨?_, ha.abs hp, ?_⟩⟩
  · have hc := isUnlimited_eq_false_iff.2 ⟨hlow, hhigh⟩
    exact ha.resolve_left (by rw [hc]; exact Bool.false_ne_true)
  · obtain ⟨r, hr, hvalue⟩ := WithinContext.finish hp (n := a.number.neg) (by rw [value_neg]; exact ha.neg)
    exact ⟨r, hr, hvalue.trans (value_neg _)⟩
  · exact WithinContext.finish hp ha

/-- `9.996` under three digits becomes `10.00`, a mantissa of four digits and a number of one. -/
theorem Reachable.respects_context_carry :
    RoundedMoney.ofContext .euro (ofDigits 9996 3 (by decide)) ⟨3, .halfUp⟩ =
        .ok (.mk ⟨.euro, ⟨3, .halfUp⟩, ofDigits 1000 2 (by decide)⟩ none) ∧
      HasDigits 3 (ofDigits 1000 2 (by decide)).value ∧
      ∃ r, (RoundedMoney.mk ⟨.euro, ⟨3, .halfUp⟩, ofDigits 1000 2 (by decide)⟩ none).negate = .ok r ∧
        r.number.value = -10 := by
  have hmade : RoundedMoney.ofContext .euro (ofDigits 9996 3 (by decide)) ⟨3, .halfUp⟩ =
      .ok (.mk ⟨.euro, ⟨3, .halfUp⟩, ofDigits 1000 2 (by decide)⟩ none) := by cbv
  have h := Reachable.respects_context (.ofContext _ _ _ hmade)
  refine ⟨hmade, h.2.1 (by decide) (by decide), ?_⟩
  obtain ⟨r, hr, hvalue⟩ := (h.2.2.2 rfl).1
  refine ⟨r, hr, hvalue.trans ?_⟩
  norm_num

end RoundedMoney

end Coinage
