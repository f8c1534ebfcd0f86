import Coinage.Decimal.Checked
import Coinage.Proofs.Decimal.Nearest
/-!
# Products that keep all their digits

A product whose mantissa and scale are in range is not rounded: its mantissa is the product of the mantissas and
its scale the sum of the scales. `KeepsDigits` says that this is so for a number and factors one after the other,
whatever the order in which they are multiplied.
-/

namespace Coinage

namespace Decimal

/-- Digits that are in range are taken as they are. -/
theorem nearest?_of_inRange {m : ℤ} {s : ℕ} (h : m.natAbs < capacity ∧ s ≤ maxScale) :
    nearest? m s = some (ofDigits m s h) := by
  have hround : RoundingMode.halfEven.roundQuotient m (10 ^ (s - s)) = m := by
    rw [roundQuotient_eq_unitsNear m le_rfl]
    exact unitsNear_of_eq (div_mul_cancel₀ _ (by positivity))
  have htaken : ofParts? m s = some (ofDigits m s h) := dif_pos h
  rw [nearest?, min_eq_left h.2]
  cases s with
  | zero =>
    rw [Nat.sub_self] at hround
    rw [nearestWithin, hround, htaken]
  | succ s => rw [nearestWithin, hround, htaken]

/-- The product of two decimals is one, if its digits and places are in range. -/
theorem representable_mul {a b : Decimal}
    (h : (a.mantissa * b.mantissa).natAbs < capacity ∧ a.scale + b.scale ≤ maxScale) :
    Representable (a.value * b.value) :=
  ⟨ofDigits _ _ h, by rw [value_ofDigits, value, value, div_mul_div_comm, ← pow_add, Int.cast_mul]⟩

/-- A product other than zero whose digits are in range is exact, and shows all the places of its factors. -/
theorem product_of_inRange {a b : Decimal} (ha : a.mantissa ≠ 0) (hb : b.mantissa ≠ 0)
    (h : (a.mantissa * b.mantissa).natAbs < capacity ∧ a.scale + b.scale ≤ maxScale) :
    a.product b = .ok (ofDigits (a.mantissa * b.mantissa) (a.scale + b.scale) h) := by
  have hcomputed : (a.isZero || b.isZero || vanishes a b) = false := by
    have hshort : ¬ 47 < a.scale + b.scale := fun hlong => absurd (h.2.trans_lt (by decide)) (not_lt.2 hlong.le)
    simp [isZero, vanishes, ha, hb, hshort]
  have hmul : a.mul? b = some (ofDigits (a.mantissa * b.mantissa) (a.scale + b.scale) h) := by
    rw [mul?, hcomputed, if_neg Bool.false_ne_true, nearest?_of_inRange h]
  rw [product, hmul]

/-- Digits that stay in range when they are multiplied by factors, none of which is zero. -/
structure KeepsDigits (m : ℤ) (s : ℕ) (factors : List Decimal) : Prop where
  ne_zero : m ≠ 0
  factors_ne_zero : ∀ f ∈ factors, f.mantissa ≠ 0
  digits_lt : m.natAbs * (factors.map fun f => f.mantissa.natAbs).prod < capacity
  scales_le : s + (factors.map scale).sum ≤ maxScale

namespace KeepsDigits

variable {m : ℤ} {s : ℕ} {f : Decimal} {factors : List Decimal}

theorem one_le_prod (h : ∀ f ∈ factors, f.mantissa ≠ 0) : 1 ≤ (factors.map fun f => f.mantissa.natAbs).prod := by
  refine List.one_le_prod_of_one_le fun n hn => ?_
  obtain ⟨f, hf, rfl⟩ := List.mem_map.1 hn
  exact Int.natAbs_pos.2 (h f hf)

/-- The digits themselves are in range. -/
theorem inRange (h : KeepsDigits m s factors) : m.natAbs < capacity ∧ s ≤ maxScale :=
  ⟨(Nat.le_mul_of_pos_right _ (one_le_prod h.factors_ne_zero)).trans_lt h.digits_lt,
    (Nat.le_add_right _ _).trans h.scales_le⟩

/-- What holds of digits with all the factors holds of their product with the first one and the others. -/
theorem tail (h : KeepsDigits m s (f :: factors)) : KeepsDigits (m * f.mantissa) (s + f.scale) factors where
  ne_zero := mul_ne_zero h.ne_zero (h.factors_ne_zero f List.mem_cons_self)
  factors_ne_zero := fun g hg => h.factors_ne_zero g (List.mem_cons_of_mem f hg)
  digits_lt := by
    have hdigits := h.digits_lt
    rwa [List.map_cons, List.prod_cons, ← mul_assoc, ← Int.natAbs_mul] at hdigits
  scales_le := by
    have hscales := h.scales_le
    rwa [List.map_cons, List.sum_cons, ← add_assoc] at hscales

/-- Factors that leave the digits of a number in range leave those of one in range. -/
theorem of_one (h : KeepsDigits m s factors) : KeepsDigits 1 0 factors where
  ne_zero := one_ne_zero
  factors_ne_zero := h.factors_ne_zero
  digits_lt := by
    rw [Int.natAbs_one, one_mul]
    exact (Nat.le_mul_of_pos_left _ (Int.natAbs_pos.2 h.ne_zero)).trans_lt h.digits_lt
  scales_le := by
    rw [zero_add]
    exact (Nat.le_add_left _ _).trans h.scales_le

end KeepsDigits

end Decimal

end Coinage
