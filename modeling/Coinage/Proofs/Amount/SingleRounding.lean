import Coinage.Proofs.Amount.Basic
import Coinage.Proofs.Decimal.Checked
import Coinage.Proofs.Decimal.DoubleRounding
/-!
# Results under a bounded context

Sum, difference, product and quotient are decimals before they are reduced to a context, so the result is
the rounding of the decimal nearest to the exact one. `RoundedThroughNearest` compares it with the
rounding of the exact result itself.
-/

namespace Coinage

open Decimal RoundingMode

/-- The operations whose exact result is rounded to the context of the amount. -/
inductive BoundedOperation
  | add (b : RoundedMoney)
  | subtract (b : RoundedMoney)
  | multiplyBy (n : Decimal)
  | divideBy (n : Decimal)

namespace BoundedOperation

/-- The outcome of an operation on an amount. -/
def apply (a : RoundedMoney) : BoundedOperation → Outcome RoundedMoney
  | add b => a.add b
  | subtract b => a.subtract b
  | multiplyBy n => a.multiplyBy n
  | divideBy n => a.divideBy n

/-- The exact result of an operation. -/
def exactValue (a : RoundedMoney) : BoundedOperation → ℚ
  | add b => a.number.value + b.number.value
  | subtract b => a.number.value - b.number.value
  | multiplyBy n => a.number.value * n.value
  | divideBy n => a.number.value / n.value

/-- A result is made of the decimal nearest to the exact one. -/
theorem exists_nearest {a r : RoundedMoney} {op : BoundedOperation} (h : op.apply a = .ok r) :
    ∃ d : Decimal, nearestValue? (op.exactValue a) = some d.value ∧ a.finish d = .ok r := by
  cases op with
  | add b =>
    obtain ⟨-, -, h⟩ := bind_eq_ok.1 h
    obtain ⟨d, hd, h⟩ := bind_eq_ok.1 h
    exact ⟨d, (rounds_sum a.number b.number).ok hd, h⟩
  | subtract b =>
    obtain ⟨-, -, h⟩ := bind_eq_ok.1 h
    obtain ⟨d, hd, h⟩ := bind_eq_ok.1 h
    exact ⟨d, (rounds_difference a.number b.number).ok hd, h⟩
  | multiplyBy n =>
    obtain ⟨d, hd, h⟩ := bind_eq_ok.1 h
    exact ⟨d, (rounds_product a.number n).ok hd, h⟩
  | divideBy n =>
    obtain ⟨d, hd, h⟩ := bind_eq_ok.1 h
    exact ⟨d, (rounds_quotient a.number n (value_ne_zero_of_quotient hd)).ok hd, h⟩

end BoundedOperation

/-- Without a pending rounding, a result under a context of 1 to 27 digits is rounded to it through the
decimal nearest to the exact result; so is a quotient of money to sixteen digits, half-even. -/
theorem results_rounded_through_nearest (a r : RoundedMoney) (op : BoundedOperation) (b s : Money) (n : Decimal) :
    (a.pending = none → 1 ≤ a.context.precision → a.context.precision ≤ 27 → op.apply a = .ok r →
      RoundedThroughNearest a.context.mode a.context.precision (op.exactValue a) r.number.value) ∧
    (b.divideBy n = .ok s → RoundedThroughNearest halfEven 16 (b.number.value / n.value) s.number.value) := by
  constructor
  · intro hp hlow hhigh h
    have hc := isUnlimited_eq_false_iff.2 ⟨hlow, hhigh⟩
    obtain ⟨d, hd, hfinish⟩ := op.exists_nearest h
    obtain ⟨reduced, hreduced, rfl⟩ := (RoundedMoney.finish_eq_ok_of_pending_none hp).1 hfinish
    rw [value_unsigned]
    exact roundedThroughNearest hc hd hreduced
  · intro h
    obtain ⟨d, hd, h⟩ := bind_eq_ok.1 h
    obtain ⟨reduced, hreduced, h⟩ := bind_eq_ok.1 h
    cases pure_eq_ok.1 h
    have hnearest := (rounds_quotient b.number n (value_ne_zero_of_quotient hd)).ok hd
    rw [Money.number_withNumber, value_unsigned]
    exact roundedThroughNearest (c := Money.bound) rfl hnearest hreduced

/-- One by three to five digits, and two by three as a quotient of money. -/
theorem results_rounded_through_nearest_thirds :
    (RoundedMoney.mk ⟨.euro, ⟨5, .halfUp⟩, ofDigits 1 0 (by decide)⟩ none).divideBy (ofDigits 3 0 (by decide)) =
        .ok (.mk ⟨.euro, ⟨5, .halfUp⟩, ofDigits 33333 5 (by decide)⟩ none) ∧
      RoundedThroughNearest halfUp 5 (1 / 3) (33333 / 10 ^ 5) ∧
      (Money.mk .euro (ofDigits 2 0 (by decide))).divideBy (ofDigits 3 0 (by decide)) =
        .ok ⟨.euro, ofDigits 6666666666666667 16 (by decide)⟩ ∧
      RoundedThroughNearest halfEven 16 (2 / 3) (6666666666666667 / 10 ^ 16) := by
  have hthird : (RoundedMoney.mk ⟨.euro, ⟨5, .halfUp⟩, ofDigits 1 0 (by decide)⟩ none).divideBy (ofDigits 3 0 (by decide)) =
      .ok (.mk ⟨.euro, ⟨5, .halfUp⟩, ofDigits 33333 5 (by decide)⟩ none) := by cbv
  have hthirds : (Money.mk .euro (ofDigits 2 0 (by decide))).divideBy (ofDigits 3 0 (by decide)) =
      .ok ⟨.euro, ofDigits 6666666666666667 16 (by decide)⟩ := by cbv
  have h := results_rounded_through_nearest (.mk ⟨.euro, ⟨5, .halfUp⟩, ofDigits 1 0 (by decide)⟩ none)
    (.mk ⟨.euro, ⟨5, .halfUp⟩, ofDigits 33333 5 (by decide)⟩ none) (.divideBy (ofDigits 3 0 (by decide)))
    ⟨.euro, ofDigits 2 0 (by decide)⟩ ⟨.euro, ofDigits 6666666666666667 16 (by decide)⟩ (ofDigits 3 0 (by decide))
  have hrounded := h.1 rfl (by decide) (by decide) hthird
  have hmoney := h.2 hthirds
  simp only [BoundedOperation.exactValue, value_ofDigits, pow_zero, div_one, Int.cast_one, Int.cast_ofNat] at hrounded hmoney
  exact ⟨hthird, hrounded, hthirds, hmoney⟩

/-- Squared and rounded up to twenty digits, `1.0000000000000000001` has lost its last digits before the
mode can see them; and a quotient just below a tie of sixteen digits has become that tie. -/
theorem results_rounded_twice :
    (RoundedMoney.mk ⟨.euro, ⟨20, .up⟩, ofDigits 10000000000000000001 19 (by decide)⟩ none).multiplyBy
        (ofDigits 10000000000000000001 19 (by decide)) =
      .ok (.mk ⟨.euro, ⟨20, .up⟩, ofDigits 10000000000000000002 19 (by decide)⟩ none) ∧
    toDigits up 20 (10000000000000000001 / 10 ^ 19 * (10000000000000000001 / 10 ^ 19)) =
      (ofDigits 10000000000000000003 19 (by decide)).value ∧
    (Money.mk .euro (ofDigits 10000000000001015000000000001 0 (by decide))).divideBy (ofDigits 10000000000001 0 (by decide)) =
      .ok ⟨.euro, ofDigits 1000000000000002 0 (by decide)⟩ ∧
    toDigits halfEven 16 (10000000000001015000000000001 / 10000000000001) =
      (ofDigits 1000000000000001 0 (by decide)).value := by
  refine ⟨by cbv, ?_, by cbv, ?_⟩
  · rw [toDigits, if_neg (by decide), lastPlace_eq (e := 0) (by norm_num) (by norm_num)]
    have hselect : up.select (10000000000000000001 / 10 ^ 19 * (10000000000000000001 / 10 ^ 19) /
        10 ^ ((0 : ℤ) + 1 - (20 : ℕ))) = 10000000000000000003 := by
      rw [RoundingMode.select, if_pos (by positivity), Int.ceil_eq_iff]
      norm_num
    rw [hselect]
    norm_num
  · rw [toDigits, if_neg (by decide), lastPlace_eq (e := 15) (by norm_num) (by norm_num)]
    have hselect : halfEven.select (10000000000001015000000000001 / 10000000000001 / 10 ^ ((15 : ℤ) + 1 - (16 : ℕ))) =
        1000000000000001 :=
      isNearest_halfEven.select_eq (by norm_num [abs_lt])
    rw [hselect]
    norm_num

end Coinage
