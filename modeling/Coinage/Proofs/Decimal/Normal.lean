import Coinage.Proofs.Decimal.Value
/-!
# The normal form of a decimal

A decimal in normal form has no zero at its end behind the point. There is one such decimal for each
value, so the normal form is a function of the value alone: amounts of one value have one text, whichever
scales their numbers have.
-/

namespace Coinage

namespace Decimal

theorem eq_of_digits {a b : Decimal} (hm : a.mantissa = b.mantissa) (hs : a.scale = b.scale)
    (hz : a.minusZero = b.minusZero) : a = b := by
  cases a
  cases b
  cases hm
  cases hs
  cases hz
  rfl

theorem sameDigits_iff (a b : Decimal) : a.sameDigits b = true ↔ a.value = b.value ∧ a.scale = b.scale := by
  rw [sameDigits, Bool.and_eq_true, decide_eq_true_eq, decide_eq_true_eq]
  refine and_congr_left fun hs => ⟨fun hm => by rw [value, value, hm, hs], fun hv => ?_⟩
  rw [← Int.cast_inj (α := ℚ), mantissa_eq, mantissa_eq, hv, hs]

theorem unsigned_eq_of_value_eq {a b : Decimal} (hvalue : a.value = b.value) (hscale : a.scale = b.scale) :
    a.unsigned = b.unsigned := by
  have hdigits := (sameDigits_iff a b).2 ⟨hvalue, hscale⟩
  rw [sameDigits, Bool.and_eq_true, decide_eq_true_eq] at hdigits
  exact eq_of_digits hdigits.1 hscale rfl

/-- Digits that end behind the point do not end in a zero. -/
def IsNormal (m : ℤ) (s : ℕ) : Prop :=
  s = 0 ∨ m % 10 ≠ 0

theorem isNormal_dropZeros (s : ℕ) : ∀ m : ℤ, IsNormal (dropZeros m s).1 (dropZeros m s).2 := by
  induction s with
  | zero => intro m; exact Or.inl rfl
  | succ s ih =>
    intro m
    unfold dropZeros
    split
    case isTrue => exact ih (m.tdiv 10)
    case isFalse h => exact Or.inr h

theorem IsNormal.scale_le {m m' : ℤ} {s s' : ℕ} (h' : IsNormal m' s') (heq : (m : ℚ) / 10 ^ s = m' / 10 ^ s') :
    s' ≤ s := by
  by_contra hlt
  rw [not_le] at hlt
  have hpow : (10 : ℚ) ^ s' = 10 ^ s * 10 ^ (s' - s - 1) * 10 := by
    rw [← pow_add, ← pow_succ]
    congr 1
    omega
  have hm : m' = m * 10 ^ (s' - s - 1) * 10 := by
    rw [div_eq_div_iff (by positivity) (by positivity), hpow] at heq
    have : (m' : ℚ) = m * 10 ^ (s' - s - 1) * 10 :=
      mul_right_cancel₀ (by positivity : (10 : ℚ) ^ s ≠ 0) (by linear_combination -heq)
    exact_mod_cast this
  rcases h' with h' | h'
  · omega
  · exact h' (by rw [hm, Int.mul_emod_left])

theorem IsNormal.unique {m m' : ℤ} {s s' : ℕ} (h : IsNormal m s) (h' : IsNormal m' s')
    (heq : (m : ℚ) / 10 ^ s = m' / 10 ^ s') : m = m' ∧ s = s' := by
  obtain rfl : s = s' := le_antisymm (h.scale_le heq.symm) (h'.scale_le heq)
  refine ⟨?_, rfl⟩
  rw [div_left_inj' (by positivity)] at heq
  exact_mod_cast heq

/-- Decimals of one value have one normal form. -/
theorem normalize_eq_of_value_eq {a b : Decimal} (h : a.value = b.value) : a.normalize = b.normalize := by
  rw [← value_normalize a, ← value_normalize b] at h
  have hunique := IsNormal.unique (isNormal_dropZeros a.scale a.mantissa) (isNormal_dropZeros b.scale b.mantissa) h
  exact eq_of_digits hunique.1 hunique.2 rfl

@[simp]
theorem normalize_normalize (d : Decimal) : d.normalize.normalize = d.normalize :=
  normalize_eq_of_value_eq (value_normalize d)

theorem scale_normalize_le (d : Decimal) : d.normalize.scale ≤ d.scale :=
  (dropZeros_bounds d.scale d.mantissa d.natAbs_mantissa_lt).2

theorem scale_normalize_of_integer {d : Decimal} {n : ℤ} (h : d.value = n) : d.normalize.scale = 0 := by
  have hinteger : IsNormal n 0 := Or.inl rfl
  refine (IsNormal.unique (isNormal_dropZeros d.scale d.mantissa) hinteger ?_).2
  rw [pow_zero, div_one, ← h]
  exact dropZeros_value d.scale d.mantissa

end Decimal

end Coinage
