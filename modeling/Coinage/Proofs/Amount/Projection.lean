import Coinage.Proofs.Amount.Basic
import Mathlib.Order.Interval.Set.Basic
/-!
# Decimals as integers

A number is truncated towards zero before its range is checked, so `255.99` still has a place among the unsigned
integers of eight bits. The exception is a number of which only the minus is left: just below zero, where truncation
gives zero, and at a zero that carries a minus, the unsigned types refuse the number all the same, because they look at
its minus and not at what is behind it (`project_truncates_iff`).
-/

namespace Coinage

open RoundingMode MonetaryAmount

namespace IntegerType

/-- The integers of a type. -/
def range (t : IntegerType) : Set ℤ :=
  if t.signed then Set.Ico (-(2 ^ (t.bits - 1))) (2 ^ (t.bits - 1)) else Set.Ico 0 (2 ^ t.bits)

theorem contains_iff_mem_range (t : IntegerType) (n : ℤ) : t.contains n = true ↔ n ∈ t.range := by
  unfold contains range
  split <;> rw [Bool.and_eq_true, decide_eq_true_eq, decide_eq_true_eq, Set.mem_Ico]

theorem zero_mem_range (t : IntegerType) : 0 ∈ t.range := by
  unfold range
  split <;> simp

theorem nonneg_of_mem_range {t : IntegerType} (ht : t.signed = false) {n : ℤ} (h : n ∈ t.range) : 0 ≤ n := by
  rw [range, ht] at h
  exact h.1

/-- A type is found again by its name. -/
theorem ofName?_name {t : IntegerType} (h : t ∈ all) : NumberType.ofName? t.name = some (.integer t) := by
  revert t
  decide

end IntegerType

namespace Decimal

theorem mantissa_trunc (d : Decimal) : d.trunc.mantissa = down.select d.value := by
  have h := d.value_trunc
  rw [value, trunc, pow_zero, div_one] at h
  exact_mod_cast h

theorem isNegative_iff (d : Decimal) : d.isNegative = true ↔ d.value < 0 := by
  rw [isNegative, decide_eq_true_eq, value, div_lt_iff₀ (by positivity), zero_mul, Int.cast_lt_zero]

theorem hasMinus_iff (d : Decimal) : d.hasMinus = true ↔ d.value < 0 ∨ d.minusZero = true := by
  rw [hasMinus, Bool.or_eq_true, isNegative_iff]

theorem value_eq_zero_of_minusZero {d : Decimal} (h : d.minusZero = true) : d.value = 0 :=
  (value_eq_zero_iff d).2 (d.eq_zero_of_minusZero h)

/-- A number is refused if its integral part is out of range, or if it has a minus and the type has no signs. -/
theorem toInteger_eq_ok_iff {d : Decimal} {t : IntegerType} {n : ℤ} :
    d.toInteger t = .ok n ↔ n = down.select d.value ∧ n ∈ t.range ∧ (t.signed = true ∨ d.hasMinus = false) := by
  have hsign : (t.signed || !d.hasMinus) = true ↔ t.signed = true ∨ d.hasMinus = false := by
    rw [Bool.or_eq_true, Bool.not_eq_true']
  unfold toInteger
  dsimp only
  rw [mantissa_trunc]
  split
  case isTrue h =>
    rw [Bool.and_eq_true, IntegerType.contains_iff_mem_range, hsign] at h
    rw [Except.ok.injEq, eq_comm]
    exact (and_iff_left_of_imp fun heq => heq ▸ h).symm
  case isFalse h =>
    rw [Bool.and_eq_true, IntegerType.contains_iff_mem_range, hsign] at h
    exact iff_of_false (by simp) fun hno => h (hno.1 ▸ hno.2)

theorem cause_of_toInteger {d : Decimal} {t : IntegerType} {cause : AmountError} (h : d.toInteger t = .error cause) :
    cause = .unsupportedConversion d t.name := by
  unfold toInteger at h
  dsimp only at h
  split at h <;> cases h
  rfl

/-- Below zero, but not by as much as one, nothing is left of a number when it is truncated. -/
theorem select_down_eq_zero {x : ℚ} (h : -1 < x) (h' : x < 0) : down.select x = 0 := by
  rw [select_down_eq_iff (by simp), Int.cast_zero, abs_zero, abs_of_neg h']
  constructor <;> linarith

end Decimal

/-- The outcome of truncating a number towards zero and looking for the integer among those of a type. -/
structure TruncatesFirst (t : IntegerType) (d : Decimal) (o : Outcome Projected) : Prop where
  eq_ok : down.select d.value ∈ t.range → o = .ok (.integer (down.select d.value))
  eq_error : down.select d.value ∉ t.range → o = .error (.unsupportedConversion d t.name)

theorem TruncatesFirst.eq_ok_of_part {t : IntegerType} {d : Decimal} {o : Outcome Projected} {n : ℤ}
    (h : TruncatesFirst t d o) (hn : down.select d.value = n) (hmem : n ∈ t.range) : o = .ok (.integer n) := by
  subst hn
  exact h.eq_ok hmem

/-- A number that an unsigned type refuses although zero is left of it when it is truncated: it lies between minus one and
zero, or it is a zero that carries a minus. -/
def OnlyMinusLeft (t : IntegerType) (d : Decimal) : Prop :=
  t.signed = false ∧ (-1 < d.value ∧ d.value < 0 ∨ d.minusZero = true)

namespace Decimal

theorem select_down_of_onlyMinusLeft {d : Decimal} {t : IntegerType} (h : OnlyMinusLeft t d) : down.select d.value = 0 := by
  rcases h.2 with ⟨hlow, hneg⟩ | hminus
  · exact select_down_eq_zero hlow hneg
  · rw [value_eq_zero_of_minusZero hminus, select_zero]

theorem project_of_onlyMinusLeft {d : Decimal} {t : IntegerType} (h : OnlyMinusLeft t d) :
    d.project (.integer t) = .error (.unsupportedConversion d t.name) := by
  have hminus : d.hasMinus = true := (hasMinus_iff d).2 (h.2.imp_left And.right)
  rw [project]
  cases ho : d.toInteger t with
  | ok n =>
    obtain ⟨-, -, hsigned | hplain⟩ := toInteger_eq_ok_iff.1 ho
    · exact absurd (h.1.symm.trans hsigned) Bool.false_ne_true
    · exact absurd (hplain.symm.trans hminus) Bool.false_ne_true
  | error cause => rw [cause_of_toInteger ho]; rfl

theorem truncatesFirst_project {d : Decimal} {t : IntegerType} (h : ¬ OnlyMinusLeft t d) :
    TruncatesFirst t d (d.project (.integer t)) where
  eq_ok hmem := by
    -- an integral part in an unsigned type is not below zero, so a minus before it would be all that is left
    have hsign : t.signed = true ∨ d.hasMinus = false := by
      rw [or_iff_not_imp_left, ← Bool.not_eq_true (d.hasMinus), hasMinus_iff, Bool.not_eq_true]
      rintro ht (hneg | hminus)
      · have hpart : (0 : ℚ) ≤ down.select d.value := by exact_mod_cast IntegerType.nonneg_of_mem_range ht hmem
        have hnear := (abs_lt.1 (down.abs_select_sub_lt_one d.value)).2
        exact h ⟨ht, .inl ⟨by linarith, hneg⟩⟩
      · exact h ⟨ht, .inr hminus⟩
    rw [project, toInteger_eq_ok_iff.2 ⟨rfl, hmem, hsign⟩]
    rfl
  eq_error hmem := by
    rw [project]
    cases ho : d.toInteger t with
    | ok n =>
      obtain ⟨rfl, hrange, -⟩ := toInteger_eq_ok_iff.1 ho
      exact absurd hrange hmem
    | error cause => rw [cause_of_toInteger ho]; rfl

end Decimal

/-- The projection of an amount onto an integer type truncates first, unless the type is unsigned and only the minus of the
number is left: it lies between minus one and zero, or it is a zero that carries a minus. Then it is refused although
zero has a place in the type. The error carries the number and the name under which the type is asked for. -/
theorem project_truncates_iff {α : Type} [MonetaryAmount α] (a : α) (t : IntegerType) :
    (TruncatesFirst t (number a) (project a (.integer t)) ↔ ¬ OnlyMinusLeft t (number a)) ∧
    (OnlyMinusLeft t (number a) →
      project a (.integer t) = .error (.unsupportedConversion (number a) t.name) ∧
        down.select (number a).value = 0 ∧ 0 ∈ t.range) ∧
    (t ∈ IntegerType.all → NumberType.ofName? t.name = some (.integer t)) := by
  have hrefused : OnlyMinusLeft t (number a) →
      project a (.integer t) = .error (.unsupportedConversion (number a) t.name) ∧
        down.select (number a).value = 0 ∧ 0 ∈ t.range := fun h =>
    ⟨Decimal.project_of_onlyMinusLeft h, Decimal.select_down_of_onlyMinusLeft h, t.zero_mem_range⟩
  refine ⟨⟨fun htrunc h => ?_, Decimal.truncatesFirst_project⟩, hrefused, IntegerType.ofName?_name⟩
  obtain ⟨herror, hzero, hmem⟩ := hrefused h
  have hok := htrunc.eq_ok (hzero ▸ hmem)
  rw [herror] at hok
  cases hok

/-- `-128.99` has a place among the signed integers of eight bits, and `255.99` among the unsigned ones; a zero that carries
a minus has none there. -/
theorem project_truncates_at_bounds :
    project (Money.mk .euro (.ofDigits (-12899) 2 (by decide))) (.integer ⟨true, 8⟩) = .ok (.integer (-128)) ∧
    project (Money.mk .euro (.ofDigits 25599 2 (by decide))) (.integer ⟨false, 8⟩) = .ok (.integer 255) ∧
    project (Money.mk .euro ((Decimal.ofDigits 0 28 (by decide)).withZeroSign true)) (.integer ⟨false, 8⟩) =
      .error (.unsupportedConversion ((Decimal.ofDigits 0 28 (by decide)).withZeroSign true) "u8") := by
  have hlow := (project_truncates_iff (Money.mk .euro (.ofDigits (-12899) 2 (by decide))) ⟨true, 8⟩).1.2
    fun h => Bool.noConfusion h.1
  have hhigh := (project_truncates_iff (Money.mk .euro (.ofDigits 25599 2 (by decide))) ⟨false, 8⟩).1.2 <| by
    rintro ⟨-, ⟨-, hneg⟩ | hminus⟩
    · have hpos : (0 : ℚ) ≤ (Decimal.ofDigits 25599 2 (by decide)).value := by norm_num
      exact absurd hneg (not_lt.2 hpos)
    · cases hminus
  have hzero := (project_truncates_iff
    (Money.mk .euro ((Decimal.ofDigits 0 28 (by decide)).withZeroSign true)) ⟨false, 8⟩).2.1 ⟨rfl, .inr rfl⟩
  have hlow_part : down.select (Decimal.ofDigits (-12899) 2 (by decide)).value = -128 := by
    rw [← Decimal.mantissa_trunc]
    rfl
  have hhigh_part : down.select (Decimal.ofDigits 25599 2 (by decide)).value = 255 := by
    rw [← Decimal.mantissa_trunc]
    rfl
  refine ⟨hlow.eq_ok_of_part hlow_part ?_, hhigh.eq_ok_of_part hhigh_part ?_, hzero.1⟩
  · rw [← IntegerType.contains_iff_mem_range]
    decide
  · rw [← IntegerType.contains_iff_mem_range]
    decide

/-- A debt of half a euro is no number of eight unsigned bits, although nothing is left of it when it is truncated. -/
theorem project_half_below_zero :
    ¬ TruncatesFirst ⟨false, 8⟩ (.ofDigits (-5) 1 (by decide))
        (project (Money.mk .euro (.ofDigits (-5) 1 (by decide))) (.integer ⟨false, 8⟩)) ∧
      project (Money.mk .euro (.ofDigits (-5) 1 (by decide))) (.integer ⟨false, 8⟩) =
        .error (.unsupportedConversion (.ofDigits (-5) 1 (by decide)) "u8") ∧
      down.select (Decimal.ofDigits (-5) 1 (by decide)).value = 0 ∧ 0 ∈ IntegerType.range ⟨false, 8⟩ := by
  have herror : project (Money.mk .euro (.ofDigits (-5) 1 (by decide))) (.integer ⟨false, 8⟩) =
      .error (.unsupportedConversion (.ofDigits (-5) 1 (by decide)) "u8") := by cbv
  have hzero : down.select (Decimal.ofDigits (-5) 1 (by decide)).value = 0 := by
    refine Decimal.select_down_eq_zero ?_ ?_ <;> norm_num
  refine ⟨fun htrunc => ?_, herror, hzero, IntegerType.zero_mem_range _⟩
  have hok := htrunc.eq_ok (hzero ▸ IntegerType.zero_mem_range _)
  rw [herror] at hok
  cases hok

end Coinage
