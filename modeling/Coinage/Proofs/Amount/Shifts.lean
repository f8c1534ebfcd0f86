import Coinage.Proofs.Amount.Basic
import Coinage.Proofs.Decimal.Checked
/-!
# Shifts

A shift by a power of ten keeps the digits and moves the point; where the point would leave the digits behind, zeros are
appended. Nothing is rounded, so a shift is refused where the result has too many places or is too large for a decimal.
Besides there is a largest power that is multiplied with. Every other number is out of range long before it is reached,
but a zero never is: of all shifts that would be exact, those of a zero by more than 38 zeros are the ones refused.
-/

namespace Coinage

open Decimal

namespace Decimal

variable {d e : Decimal} {n : ℤ}

/-- What is asked of a shift: the exact value, with as many places as are left, or else an overflow if there are too many
of them or the value is too large. -/
structure MovesPoint (d : Decimal) (n : ℤ) (o : Outcome Decimal) : Prop where
  exact : (d.scale : ℤ) - n ≤ maxScale → |d.value| * 10 ^ n < capacity →
    ∃ e, o = .ok e ∧ e.value = d.value * 10 ^ n ∧ (e.scale : ℤ) = max ((d.scale : ℤ) - n) 0
  overflow : maxScale < (d.scale : ℤ) - n ∨ capacity ≤ |d.value| * 10 ^ n → o = .error (.overflow s!"{d}E{n}")

/-! ### The two directions -/

/-- As long as the point stays within the digits or before them, only the number of places counts. -/
theorem shift_of_places {t : ℕ} (ht : (d.scale : ℤ) - n = t) :
    d.shift n =
      if h : t ≤ maxScale then .ok (ofDigits d.mantissa t ⟨d.natAbs_mantissa_lt, h⟩)
      else .error (.overflow s!"{d}E{n}") := by
  unfold shift
  dsimp only
  rw [ht, if_pos (Int.natCast_nonneg t), Int.toNat_natCast]
  by_cases hle : t ≤ maxScale
  · rw [if_pos (by exact_mod_cast hle), dif_pos hle, ofParts?, dif_pos ⟨d.natAbs_mantissa_lt, hle⟩]
  · rw [if_neg (by exact_mod_cast hle), dif_neg hle]

/-- Behind the digits zeros are appended, at most 38 of them. -/
theorem shift_of_zeros {k : ℕ} (hk : n - d.scale = k) (hpos : k ≠ 0) :
    d.shift n =
      if h : k ≤ maxShift ∧ (d.mantissa * 10 ^ k).natAbs < capacity then
        .ok (ofDigits (d.mantissa * 10 ^ k) 0 ⟨h.2, Nat.zero_le _⟩)
      else .error (.overflow s!"{d}E{n}") := by
  have hneg : ¬ 0 ≤ (d.scale : ℤ) - n := by omega
  have hcount : (-((d.scale : ℤ) - n)).toNat = k := by omega
  unfold shift
  dsimp only
  rw [if_neg hneg, hcount]
  by_cases hle : k ≤ maxShift
  · rw [if_pos hle]
    by_cases hrange : (d.mantissa * 10 ^ k).natAbs < capacity
    · rw [dif_pos ⟨hle, hrange⟩, ofParts?, dif_pos ⟨hrange, Nat.zero_le _⟩]
    · rw [dif_neg fun h => hrange h.2, ofParts?, dif_neg fun h => hrange h.1]
  · rw [if_neg hle, dif_neg fun h => hle h.1]

theorem scale_shift (h : d.shift n = .ok e) : (e.scale : ℤ) = max ((d.scale : ℤ) - n) 0 := by
  rcases le_or_gt 0 ((d.scale : ℤ) - n) with hplaces | hzeros
  · obtain ⟨t, ht⟩ := Int.eq_ofNat_of_zero_le hplaces
    rw [shift_of_places ht] at h
    split at h
    case isTrue =>
      cases h
      rw [max_eq_left hplaces]
      exact ht.symm
    case isFalse => cases h
  · obtain ⟨k, hk⟩ := Int.eq_ofNat_of_zero_le (by omega : 0 ≤ n - d.scale)
    rw [shift_of_zeros hk (by omega)] at h
    split at h
    case isTrue =>
      cases h
      rw [max_eq_right hzeros.le]
      rfl
    case isFalse => cases h

theorem abs_value_mul_zpow (d : Decimal) (n : ℤ) : |d.value| * 10 ^ n = d.mantissa.natAbs * 10 ^ (n - d.scale) := by
  rw [abs_value, zpow_sub₀ (by norm_num), zpow_natCast]
  field_simp

theorem abs_value_mul_zpow_lt_iff {k : ℕ} (hk : n - d.scale = k) :
    |d.value| * 10 ^ n < capacity ↔ (d.mantissa * 10 ^ k).natAbs < capacity := by
  rw [abs_value_mul_zpow, hk, zpow_natCast, Int.natAbs_mul, Int.natAbs_pow]
  exact_mod_cast Iff.rfl

/-- The digits themselves are in range, and stay so while places are put behind the point. -/
theorem abs_value_mul_zpow_lt_of_places (h : 0 ≤ (d.scale : ℤ) - n) : |d.value| * 10 ^ n < capacity := by
  have hle : (10 : ℚ) ^ (n - d.scale) ≤ 1 := zpow_le_one_of_nonpos₀ (by norm_num) (by omega)
  have hlt : (d.mantissa.natAbs : ℚ) < capacity := by exact_mod_cast d.natAbs_mantissa_lt
  rw [abs_value_mul_zpow]
  exact (mul_le_of_le_one_right (Nat.cast_nonneg _) hle).trans_lt hlt

/-- A number other than zero is out of range before the largest power is reached. -/
theorem le_maxShift_of_lt (hd : d.value ≠ 0) (h : |d.value| * 10 ^ n < capacity) : n - d.scale ≤ maxShift := by
  by_contra hlarge
  have hone : (1 : ℚ) ≤ d.mantissa.natAbs := by
    rw [Ne, value_eq_zero_iff] at hd
    exact_mod_cast Int.natAbs_pos.2 hd
  have hpow : (10 : ℚ) ^ (39 : ℤ) ≤ 10 ^ (n - d.scale) := by
    push Not at hlarge
    exact zpow_le_zpow_right₀ (by norm_num) hlarge
  rw [abs_value_mul_zpow] at h
  have hlt := ((le_mul_of_one_le_left (by positivity) hone).trans' hpow).trans_lt h
  norm_num at hlt

/-! ### Exactness -/

/-- A shift succeeds just where the result is a decimal of the places that are left and the power is in range. -/
theorem exists_shift_iff :
    (∃ e, d.shift n = .ok e) ↔
      (d.scale : ℤ) - n ≤ maxScale ∧ |d.value| * 10 ^ n < capacity ∧ n - d.scale ≤ maxShift := by
  rcases le_or_gt 0 ((d.scale : ℤ) - n) with hplaces | hzeros
  · obtain ⟨t, ht⟩ := Int.eq_ofNat_of_zero_le hplaces
    have hrest : |d.value| * 10 ^ n < capacity ∧ n - d.scale ≤ maxShift :=
      ⟨abs_value_mul_zpow_lt_of_places hplaces, by omega⟩
    rw [shift_of_places ht, ht, and_iff_left hrest, Nat.cast_le]
    by_cases h : t ≤ maxScale
    · rw [dif_pos h]
      exact iff_of_true ⟨_, rfl⟩ h
    · rw [dif_neg h]
      exact iff_of_false (by simp) h
  · obtain ⟨k, hk⟩ := Int.eq_ofNat_of_zero_le (by omega : 0 ≤ n - d.scale)
    have hfirst : (d.scale : ℤ) - n ≤ maxScale := by omega
    rw [shift_of_zeros hk (by omega), abs_value_mul_zpow_lt_iff hk, hk, and_iff_right hfirst, Nat.cast_le]
    by_cases h : k ≤ maxShift ∧ (d.mantissa * 10 ^ k).natAbs < capacity
    · rw [dif_pos h]
      exact iff_of_true ⟨_, rfl⟩ h.symm
    · rw [dif_neg h]
      exact iff_of_false (by simp) fun hrest => h hrest.symm

theorem cause_of_shift {cause : AmountError} (h : d.shift n = .error cause) : cause = .overflow s!"{d}E{n}" := by
  unfold shift at h
  dsimp only at h
  split at h <;> cases h
  rfl

theorem shift_eq_overflow (h : ¬ ∃ e, d.shift n = .ok e) : d.shift n = .error (.overflow s!"{d}E{n}") := by
  cases hshift : d.shift n with
  | ok e => exact absurd ⟨e, hshift⟩ h
  | error cause => rw [cause_of_shift hshift]

theorem movesPoint_of_le (h : d.value = 0 → n - d.scale ≤ maxShift) : MovesPoint d n (d.shift n) where
  exact := by
    intro hplaces hlt
    have hpower : n - d.scale ≤ maxShift := by
      rcases eq_or_ne d.value 0 with hzero | hne
      · exact h hzero
      · exact le_maxShift_of_lt hne hlt
    obtain ⟨e, he⟩ := exists_shift_iff.2 ⟨hplaces, hlt, hpower⟩
    exact ⟨e, he, value_shift he, scale_shift he⟩
  overflow := by
    intro hout
    apply shift_eq_overflow
    intro hok
    obtain ⟨hplaces, hlt, -⟩ := exists_shift_iff.1 hok
    rcases hout with hout | hout
    · exact absurd hplaces (not_le.2 hout)
    · exact absurd hlt (not_lt.2 hout)

/-- A zero would be in range at every power, but is refused like the others. -/
theorem not_movesPoint_of_lt (hd : d.value = 0) (h : maxShift < n - d.scale) : ¬ MovesPoint d n (d.shift n) := by
  intro hmoves
  have hin : |d.value| * 10 ^ n < capacity := by
    rw [hd, abs_zero, zero_mul]
    norm_num
  obtain ⟨e, he, -⟩ := hmoves.exact (by omega) hin
  exact absurd (exists_shift_iff.1 ⟨e, he⟩).2.2 (not_le.2 h)

end Decimal

namespace Money

theorem number_shift {a b : Money} {n : ℤ} (h : a.shift n = .ok b) :
    b.currency = a.currency ∧ b.number.value = a.number.value * 10 ^ n := by
  obtain ⟨e, he, h⟩ := bind_eq_ok.1 h
  cases pure_eq_ok.1 h
  refine ⟨rfl, ?_⟩
  rw [number_withNumber, value_unsigned]
  exact value_shift he

end Money

/-- A shift is exact where it can be and an overflow elsewhere, but for a zero that is multiplied with a power of more
than 38 zeros: that is an overflow too. On money one shift after the other is the shift by the sum. -/
theorem shift_exact_iff (d : Decimal) (n : ℤ) :
    (MovesPoint d n (d.shift n) ↔ ¬ (d.value = 0 ∧ maxShift < n - d.scale)) ∧
    (d.value = 0 → maxShift < n - d.scale → d.shift n = .error (.overflow s!"{d}E{n}")) ∧
    ∀ (a b c s : Money) (m : ℤ), a.shift m = .ok b → b.shift n = .ok c → a.shift (m + n) = .ok s →
      c.currency = s.currency ∧ c.number.value = s.number.value := by
  refine ⟨⟨?_, ?_⟩, ?_, ?_⟩
  · rintro hmoves ⟨hd, hlarge⟩
    exact not_movesPoint_of_lt hd hlarge hmoves
  · intro h
    apply movesPoint_of_le
    intro hd
    exact not_lt.1 fun hlarge => h ⟨hd, hlarge⟩
  · intro hd hlarge
    apply shift_eq_overflow
    intro hok
    exact absurd (exists_shift_iff.1 hok).2.2 (not_le.2 hlarge)
  · intro a b c s m hb hc hs
    obtain ⟨hb_currency, hb_value⟩ := Money.number_shift hb
    obtain ⟨hc_currency, hc_value⟩ := Money.number_shift hc
    obtain ⟨hs_currency, hs_value⟩ := Money.number_shift hs
    refine ⟨hc_currency.trans (hb_currency.trans hs_currency.symm), ?_⟩
    rw [hc_value, hb_value, hs_value, zpow_add₀ (by norm_num), mul_assoc]

/-- The largest mantissa behind the point and before it, at the largest shift that it bears; a zero with 38 zeros and with
39; and money that is shifted up and down again. -/
theorem shift_exact_iff_at_edge :
    (∃ e, (ofDigits (2 ^ 96 - 1) 28 (by decide)).shift 28 = .ok e ∧ e.value = 2 ^ 96 - 1 ∧ e.scale = 0) ∧
    (∃ e, (ofDigits 0 2 (by decide)).shift 40 = .ok e ∧ e.value = 0 ∧ e.scale = 0) ∧
    (ofDigits 0 2 (by decide)).shift 41 = .error (.overflow "0.00E41") ∧
    ∃ b c s, Money.shift ⟨.euro, ofDigits 15 1 (by decide)⟩ 3 = .ok b ∧ b.shift (-28) = .ok c ∧
      Money.shift ⟨.euro, ofDigits 15 1 (by decide)⟩ (-25) = .ok s ∧ c.number.value = s.number.value := by
  refine ⟨?_, ?_, ?_, ?_⟩
  · have hmoves := (shift_exact_iff (ofDigits (2 ^ 96 - 1) 28 (by decide)) 28).1.2 fun h => by simpa using h.1
    obtain ⟨e, he, hvalue, hscale⟩ := hmoves.exact (by decide) (by norm_num)
    refine ⟨e, he, ?_, by simpa [ofDigits] using hscale⟩
    rw [hvalue, value_ofDigits]
    norm_num
  · have hmoves := (shift_exact_iff (ofDigits 0 2 (by decide)) 40).1.2 fun h => absurd h.2 (by decide)
    obtain ⟨e, he, hvalue, hscale⟩ := hmoves.exact (by decide) (by norm_num)
    exact ⟨e, he, by simpa using hvalue, by simpa [ofDigits] using hscale⟩
  · rw [(shift_exact_iff (ofDigits 0 2 (by decide)) 41).2.1 (by norm_num) (by decide)]
    cbv
  · have hthere : Money.shift ⟨.euro, ofDigits 15 1 (by decide)⟩ 3 = .ok ⟨.euro, ofDigits 1500 0 (by decide)⟩ := by cbv
    have hback : Money.shift ⟨.euro, ofDigits 1500 0 (by decide)⟩ (-28) =
        .ok ⟨.euro, ofDigits 1500 28 (by decide)⟩ := by cbv
    have honce : Money.shift ⟨.euro, ofDigits 15 1 (by decide)⟩ (-25) = .ok ⟨.euro, ofDigits 15 26 (by decide)⟩ := by cbv
    exact ⟨_, _, _, hthere, hback, honce, ((shift_exact_iff zero (-28)).2.2 _ _ _ _ 3 hthere hback honce).2⟩

/-- Nothing times `10 ^ 39` is out of range, although it is nothing. -/
theorem shift_zero_refused :
    zero.shift 39 = .error (.overflow "0E39") ∧ ¬ MovesPoint zero 39 (zero.shift 39) :=
  ⟨by cbv, not_movesPoint_of_lt value_zero (by decide)⟩

end Coinage
