import Coinage.Amount.Order
import Coinage.Proofs.Amount.FastDivision
import Coinage.Proofs.Decimal.Normal
/-!
# The order of amounts

Every comparison of amounts is a comparison of what they show: the code, the value, the representation and last the
scale, in this order (`Amount.order_eq`). So the order is transitive across representations, scales and currencies,
and it tells apart just those amounts that are not equal. Equal amounts are hashed alike.
-/

namespace Coinage

open Decimal

namespace MonetaryAmount

variable {α β : Type} [MonetaryAmount α] [MonetaryAmount β]

theorem compareTo_eq (a : α) (b : β) :
    compareTo a b = (Ord.compare (currency a).code (currency b).code).then
      (Ord.compare (number a).value (number b).value) := by
  rw [compareTo, compare_eq_compare_value]
  rfl

theorem compareTo_eq_eq_iff {a : α} {b : β} :
    compareTo a b = .eq ↔ (currency a).code = (currency b).code ∧ (number a).value = (number b).value := by
  rw [compareTo_eq, Ordering.then_eq_eq, Std.LawfulEqOrd.compare_eq_iff_eq, compare_eq_iff_eq]

/-- With the scale as a tie-break, just amounts of one code, one value and one scale are level. -/
theorem then_scale_eq_iff (a b : α) :
    (compareTo a b).then (Ord.compare (number a).scale (number b).scale) = .eq ↔
      (currency a == currency b && (number a).sameDigits (number b)) = true := by
  rw [Ordering.then_eq_eq, compareTo_eq_eq_iff, compare_eq_iff_eq, Bool.and_eq_true, Currency.beq_iff, sameDigits_iff,
    and_assoc]

end MonetaryAmount

open MonetaryAmount

/-! ### Within one representation -/

theorem Money.order_eq_iff (a b : Money) : a.order b = .eq ↔ (a == b) = true :=
  then_scale_eq_iff a b

/-- The minus of a zero makes no difference. -/
theorem Money.unsigned_beq (a : Money) : ((⟨a.currency, a.number.unsigned⟩ : Money) == a) = true := by
  change (a.currency == a.currency && a.number.unsigned.sameDigits a.number) = true
  rw [Bool.and_eq_true, Currency.beq_iff, Decimal.sameDigits_iff]
  exact ⟨rfl, rfl, rfl⟩

theorem RoundedMoney.order_eq_iff (a b : RoundedMoney) : a.order b = .eq ↔ (a == b) = true :=
  then_scale_eq_iff a b

theorem FastMoney.order_eq_iff (a b : FastMoney) : a.order b = .eq ↔ (a == b) = true := by
  show ((Ord.compare a.currency.code b.currency.code).then _) = .eq ↔
    (a.currency == b.currency && decide (a.units = b.units)) = true
  rw [Ordering.then_eq_eq, Std.LawfulEqOrd.compare_eq_iff_eq, compare_eq_iff_eq, Bool.and_eq_true, Currency.beq_iff,
    decide_eq_true_iff]

theorem FastMoney.compare_units (a b : FastMoney) :
    Ord.compare a.units b.units = Ord.compare a.number.value b.number.value := by
  have hlt : ∀ x y : FastMoney, x.units < y.units → x.number.value < y.number.value := fun x y h => by
    rw [number_value, number_value]
    exact div_lt_div_of_pos_right (Int.cast_lt.2 h) (by positivity)
  rcases lt_trichotomy a.units b.units with h | h | h
  · rw [compare_lt_iff_lt.2 h, compare_lt_iff_lt.2 (hlt a b h)]
  · rw [compare_eq_iff_eq.2 h, compare_eq_iff_eq.2 (by rw [number_value, number_value, h])]
  · rw [compare_gt_iff_gt.2 h, compare_gt_iff_gt.2 (hlt b a h)]

theorem FastMoney.order_eq_compareTo (a b : FastMoney) : a.order b = compareTo a b := by
  rw [compareTo_eq, order, compare_units]
  rfl

namespace Amount

/-- The scale that tells amounts of one value and one representation apart. -/
def lastScale : Amount → ℕ
  | money a => a.number.scale
  | rounded a => a.number.scale
  | fast _ => FastMoney.scale

theorem order_eq (a b : Amount) :
    order a b = ((compareTo a b).then (Ord.compare a.kind.rank b.kind.rank)).then
      (Ord.compare a.lastScale b.lastScale) := by
  have hagain : ∀ o e p : Ordering, (o.then e).then (o.then p) = (o.then e).then p := fun o e p => by cases o <;> rfl
  have hlevel : ∀ o e : Ordering, (o.then e).then o = (o.then e).then .eq := fun o e => by cases o <;> rfl
  have hapart : ∀ o p : Ordering, (o.then .lt).then .eq = (o.then .lt).then p ∧
      (o.then .gt).then .eq = (o.then .gt).then p := fun o p => by cases o <;> exact ⟨rfl, rfl⟩
  cases a <;> cases b
  case money.money a b => exact hagain _ _ _
  case rounded.rounded a b => exact hagain _ _ _
  case fast.fast a b =>
    show _ = Ordering.then _ .eq
    rw [← hlevel]
    show Ordering.then _ (a.order b) = _
    rw [FastMoney.order_eq_compareTo]
    rfl
  case money.rounded | money.fast | rounded.fast => exact (hapart _ _).1
  case rounded.money | fast.money | fast.rounded => exact (hapart _ _).2

theorem compareTo_eq_compareLex :
    (compareTo : Amount → Amount → Ordering) =
      compareLex (compareOn fun a => a.currency.code) (compareOn fun a => a.number.value) :=
  funext₂ fun a b => compareTo_eq a b

instance : Std.TransCmp (compareTo : Amount → Amount → Ordering) := by
  rw [compareTo_eq_compareLex]
  infer_instance

instance : Std.TransCmp order := by
  have heq : order = compareLex (compareLex compareTo (compareOn fun a => a.kind.rank)) (compareOn lastScale) :=
    funext₂ order_eq
  rw [heq]
  infer_instance

/-- The order goes beyond code and value only where these are level. -/
theorem order_eq_compareTo {a b : Amount} (h : compareTo a b ≠ .eq) : order a b = compareTo a b := by
  rw [order_eq]
  revert h
  cases compareTo a b with
  | eq => exact fun h => absurd rfl h
  | lt | gt => exact fun _ => rfl

theorem order_eq_iff (a b : Amount) : order a b = .eq ↔ (a == b) = true := by
  rw [order_eq, Ordering.then_eq_eq, Ordering.then_eq_eq]
  cases a <;> cases b
  case money.money a b =>
    refine Iff.trans ?_ (Money.order_eq_iff a b)
    rw [Money.order, Ordering.then_eq_eq]
    exact and_congr_left fun _ => and_iff_left rfl
  case rounded.rounded a b =>
    refine Iff.trans ?_ (RoundedMoney.order_eq_iff a b)
    rw [RoundedMoney.order, Ordering.then_eq_eq]
    exact and_congr_left fun _ => and_iff_left rfl
  case fast.fast a b =>
    refine Iff.trans ?_ (FastMoney.order_eq_iff a b)
    rw [FastMoney.order_eq_compareTo]
    exact (and_iff_left rfl).trans (and_iff_left rfl)
  all_goals exact iff_of_false (fun h => nomatch h.1.2) Bool.false_ne_true

theorem beq_iff_hashKey (a b : Amount) : (a == b) = true ↔ a.hashKey = b.hashKey := by
  have hdigits : ∀ (c c' : Currency) (n n' : Decimal), (c == c' && n.sameDigits n') = true ↔
      c.code = c'.code ∧ n.mantissa = n'.mantissa ∧ n.scale = n'.scale := fun c c' n n' => by
    rw [Bool.and_eq_true, Currency.beq_iff, sameDigits, Bool.and_eq_true, decide_eq_true_iff, decide_eq_true_iff]
  cases a <;> cases b
  case money.money a b | rounded.rounded a b =>
    rw [hashKey, hashKey, HashKey.mk.injEq]
    exact (hdigits a.currency b.currency a.number b.number).trans (and_iff_right rfl).symm
  case fast.fast a b =>
    rw [hashKey, hashKey, HashKey.mk.injEq, ← and_assoc, ← and_assoc]
    refine Iff.trans ?_ (and_iff_left rfl).symm
    rw [and_iff_right rfl]
    show (a.currency == b.currency && decide (a.units = b.units)) = true ↔ _
    rw [Bool.and_eq_true, Currency.beq_iff, decide_eq_true_iff]
  all_goals exact iff_of_false Bool.false_ne_true (fun h => AmountKind.noConfusion (congrArg HashKey.kind h))

/-- Amounts of any representation are in a total preorder by code and value. `order` refines it to a total order:
it is the same wherever code and value decide, and level just on equal amounts, as the order of each representation is
on its own. Equal amounts, and no others, are hashed from the same data. -/
theorem order_equality_hash_agree :
    (∀ {α β : Type} [MonetaryAmount α] [MonetaryAmount β] (a : α) (b : β), compareTo a b =
      (Ord.compare (MonetaryAmount.currency a).code (MonetaryAmount.currency b).code).then
        (Ord.compare (MonetaryAmount.number a).value (MonetaryAmount.number b).value)) ∧
    Std.TransCmp (compareTo : Amount → Amount → Ordering) ∧
    Std.TransCmp order ∧
    (∀ a b : Amount, compareTo a b ≠ .eq → order a b = compareTo a b) ∧
    (∀ a b : Amount, order a b = .eq ↔ (a == b) = true) ∧
    (∀ a b : Amount, (a == b) = true ↔ a.hashKey = b.hashKey) ∧
    (∀ a b : Money, a.order b = .eq ↔ (a == b) = true) ∧
    (∀ a b : RoundedMoney, a.order b = .eq ↔ (a == b) = true) ∧
    ∀ a b : FastMoney, a.order b = .eq ↔ (a == b) = true :=
  ⟨fun a b => MonetaryAmount.compareTo_eq a b, inferInstance, inferInstance, fun _ _ => order_eq_compareTo, order_eq_iff,
    beq_iff_hashKey, Money.order_eq_iff, RoundedMoney.order_eq_iff, FastMoney.order_eq_iff⟩

/-- One euro in units comes before two euros as a decimal, by value alone; one euro as a decimal comes before one in
units, by representation. -/
theorem order_equality_hash_agree_one_two :
    compareTo (fast ⟨.euro, 100000, by decide, by decide⟩) (money ⟨.euro, .ofDigits 2 0 (by decide)⟩) ≠ .eq ∧
    order (fast ⟨.euro, 100000, by decide, by decide⟩) (money ⟨.euro, .ofDigits 2 0 (by decide)⟩) = .lt ∧
    (money ⟨.euro, .ofDigits 1 0 (by decide)⟩ == fast ⟨.euro, 100000, by decide, by decide⟩) = false ∧
    order (money ⟨.euro, .ofDigits 1 0 (by decide)⟩) (fast ⟨.euro, 100000, by decide, by decide⟩) ≠ .eq := by
  obtain ⟨-, -, -, hbeyond, hequal, -⟩ := order_equality_hash_agree
  have hvalue : compareTo (fast ⟨.euro, 100000, by decide, by decide⟩) (money ⟨.euro, .ofDigits 2 0 (by decide)⟩) = .lt := by
    decide
  have hne : compareTo (fast ⟨.euro, 100000, by decide, by decide⟩) (money ⟨.euro, .ofDigits 2 0 (by decide)⟩) ≠ .eq := by
    rw [hvalue]
    decide
  refine ⟨hne, (hbeyond _ _ hne).trans hvalue, rfl, ?_⟩
  rw [ne_eq, hequal]
  exact Bool.false_ne_true

end Amount

end Coinage
