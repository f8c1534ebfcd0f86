import Coinage.Proofs.Decimal.RoundingError
/-!
# Rounding to significant digits

The unit of the last digit grows with the number, so rounding to digits is not one step function but one for each
decade. It keeps the order all the same (`toDigits_mono`): every decade is rounded into itself, its upper end
included. A number of more digits than a context allows becomes a multiple of its last place, unless that is larger
than every decimal or the mode may drop no digit (`RoundsToMultiple`).
-/

namespace Coinage

namespace Decimal

open RoundingMode

/-! ### The order of rounded numbers -/

theorem lastPlace_neg (p : ℕ) (x : ℚ) : lastPlace p (-x) = lastPlace p x := by
  rw [lastPlace, abs_neg, lastPlace]

theorem mirror_eq_unnecessary_iff {mode : RoundingMode} : mode.mirror = unnecessary ↔ mode = unnecessary := by
  cases mode <;> decide

theorem toDigits_neg (mode : RoundingMode) (p : ℕ) (x : ℚ) : toDigits mode p (-x) = -toDigits mode.mirror p x := by
  unfold toDigits
  by_cases h : mode = unnecessary
  · rw [if_pos h, if_pos (mirror_eq_unnecessary_iff.2 h)]
  · rw [if_neg h, if_neg (mt mirror_eq_unnecessary_iff.1 h), lastPlace_neg, neg_div, select_neg, Int.cast_neg, neg_mul]

/-- A rounded number does not leave the decade of the number by its lower end. -/
theorem le_toDigits (mode : RoundingMode) {p : ℕ} (hp : 1 ≤ p) {x : ℚ} (hx : 0 < x) :
    10 ^ (p - 1) * lastPlace p x ≤ toDigits mode p x := by
  have hlow := pow_mul_lastPlace_le hx.ne' hp
  rw [abs_of_pos hx] at hlow
  unfold toDigits
  split
  · exact hlow
  · refine mul_le_mul_of_nonneg_right ?_ (lastPlace_pos p x).le
    have hselect : (10 : ℤ) ^ (p - 1) ≤ mode.select (x / lastPlace p x) :=
      mode.le_select (by push_cast; exact (le_div_iff₀ (lastPlace_pos p x)).2 hlow)
    exact_mod_cast hselect

/-- A rounded number does not pass the upper end of the decade. -/
theorem toDigits_le (mode : RoundingMode) (p : ℕ) (x : ℚ) :
    toDigits mode p x ≤ 10 ^ p * lastPlace p x := by
  have hpos := lastPlace_pos p x
  unfold toDigits
  split
  · have hhigh := (le_abs_self _).trans (abs_div_lastPlace_lt p x).le
    exact (div_le_iff₀ hpos).1 hhigh
  · refine mul_le_mul_of_nonneg_right ?_ hpos.le
    exact_mod_cast (le_abs_self _).trans (abs_select_div_lastPlace_le mode p x)

theorem toDigits_pos (mode : RoundingMode) {p : ℕ} (hp : 1 ≤ p) {x : ℚ} (hx : 0 < x) : 0 < toDigits mode p x :=
  lt_of_lt_of_le (mul_pos (by positivity) (lastPlace_pos p x)) (le_toDigits mode hp hx)

theorem toDigits_zero (mode : RoundingMode) (p : ℕ) : toDigits mode p 0 = 0 :=
  (hasDigits_zero p).toDigits_eq mode

theorem toDigits_neg_of_neg (mode : RoundingMode) {p : ℕ} (hp : 1 ≤ p) {x : ℚ} (hx : x < 0) :
    toDigits mode p x < 0 := by
  have h := toDigits_pos mode.mirror hp (neg_pos.2 hx)
  rw [toDigits_neg, mirror_mirror] at h
  exact neg_pos.1 h

/-- Within a decade the unit is the same, and different decades do not mix. -/
theorem toDigits_le_toDigits_of_pos (mode : RoundingMode) {p : ℕ} (hp : 1 ≤ p) {x y : ℚ} (hx : 0 < x) (hxy : x ≤ y) :
    toDigits mode p x ≤ toDigits mode p y := by
  have hy : 0 < y := hx.trans_le hxy
  rcases (Int.log_mono_right (b := 10) hx hxy).eq_or_lt with hlog | hlog
  · have hplace : lastPlace p x = lastPlace p y := by rw [lastPlace, lastPlace, abs_of_pos hx, abs_of_pos hy, hlog]
    unfold toDigits
    split
    · exact hxy
    · rw [hplace]
      refine mul_le_mul_of_nonneg_right ?_ (lastPlace_pos p y).le
      exact_mod_cast mode.select_mono (div_le_div_of_nonneg_right hxy (lastPlace_pos p y).le)
  · have hplace : lastPlace p x * 10 ≤ lastPlace p y := by
      rw [lastPlace, lastPlace, abs_of_pos hx, abs_of_pos hy, ← zpow_add_one₀ (by norm_num)]
      exact zpow_le_zpow_right₀ (by norm_num) (by omega)
    calc toDigits mode p x ≤ 10 ^ p * lastPlace p x := toDigits_le mode p x
      _ = 10 ^ (p - 1) * (lastPlace p x * 10) := by rw [mul_comm _ (10 : ℚ), ← mul_assoc, ← pow_succ, Nat.sub_add_cancel hp]
      _ ≤ 10 ^ (p - 1) * lastPlace p y := mul_le_mul_of_nonneg_left hplace (by positivity)
      _ ≤ toDigits mode p y := le_toDigits mode hp hy

/-- Rounding to digits keeps the order, across the decades and across zero. -/
theorem toDigits_mono (mode : RoundingMode) {p : ℕ} (hp : 1 ≤ p) : Monotone (toDigits mode p) := by
  intro x y hxy
  rcases lt_trichotomy x 0 with hx | rfl | hx
  · rcases lt_trichotomy y 0 with hy | rfl | hy
    · have h := toDigits_le_toDigits_of_pos mode.mirror hp (neg_pos.2 hy) (neg_le_neg hxy)
      rwa [toDigits_neg, toDigits_neg, mirror_mirror, neg_le_neg_iff] at h
    · rw [toDigits_zero]
      exact (toDigits_neg_of_neg mode hp hx).le
    · exact (toDigits_neg_of_neg mode hp hx).le.trans (toDigits_pos mode hp hy).le
  · rw [toDigits_zero]
    rcases hxy.eq_or_lt with rfl | hy
    · rw [toDigits_zero]
    · exact (toDigits_pos mode hp hy).le
  · exact toDigits_le_toDigits_of_pos mode hp hx hxy

theorem toDigits_ne_zero (mode : RoundingMode) {p : ℕ} (hp : 1 ≤ p) {x : ℚ} (hx : x ≠ 0) : toDigits mode p x ≠ 0 := by
  rcases lt_or_gt_of_ne hx with h | h
  · exact (toDigits_neg_of_neg mode hp h).ne
  · exact (toDigits_pos mode hp h).ne'

/-! ### Outcomes -/

theorem value_ne_zero_of_precision {d : Decimal} (h : 1 < d.precision) : d.value ≠ 0 := by
  intro hd
  rw [precision, (value_eq_zero_iff d).1 hd] at h
  exact absurd (digitCount_le (n := 0) le_rfl (by norm_num)) (not_le.2 h)

/-- Digits that are not rounded up do not carry a decimal out of range. -/
theorem abs_select_unnecessary_le (d : Decimal) (u : ℚ) : |unnecessary.select (d.value / u) * u| ≤ 2 ^ 96 - 1 := by
  rcases eq_or_ne u 0 with rfl | hu
  · norm_num
  · have htrunc : |(unnecessary.select (d.value / u) : ℚ)| ≤ |d.value / u| := abs_select_down_le _
    rw [abs_mul]
    refine le_trans ?_ d.abs_value_le
    rwa [abs_div, le_div_iff₀ (abs_pos.2 hu)] at htrunc

/-- What becomes of a number that has more digits than a context allows, `u` being the unit of the last of them: the
multiple of `u` that the mode selects, or the one of two errors that applies. -/
structure RoundsToMultiple (c : MathContext) (u : ℚ) (d : Decimal) (o : Outcome Decimal) : Prop where
  value_eq : ∀ r, o = .ok r → r.value = c.mode.select (d.value / u) * u
  necessary_iff : o = .error (.roundingNecessary d) ↔ c.mode = unnecessary ∧ ¬ ∃ k : ℤ, d.value = k * u
  overflow_iff : o = .error (.overflow s!"rounding {d} to {c}") ↔ 2 ^ 96 - 1 < |c.mode.select (d.value / u) * u|
  cause_eq : ∀ cause, o = .error cause → cause = .roundingNecessary d ∨ cause = .overflow s!"rounding {d} to {c}"

theorem roundsToMultiple {c : MathContext} {d : Decimal} (hc : c.isUnlimited = false) (h : c.precision < d.precision) :
    RoundsToMultiple c (lastPlace c.precision d.value) d (d.roundToPrecision c) := by
  have hd : d.value ≠ 0 := value_ne_zero_of_precision (by have := (isUnlimited_eq_false_iff.1 hc).1; omega)
  have hkeep : ¬ (c.isUnlimited || d.isZero || decide (d.precision ≤ c.precision)) = true := by
    simp [hc, (isZero_eq_false_iff d).2 hd, h]
  have hsame := c.mode.select_div_mul_eq_iff (x := d.value) (lastPlace_pos c.precision d.value).ne'
  unfold roundToPrecision
  rw [if_neg hkeep]
  cases hcut : d.roundToDigits c.precision c.mode with
  | none =>
    have hlt := (roundToDigits_eq_none_iff h hd).1 hcut
    have hmode : c.mode ≠ unnecessary := by
      intro hmode
      rw [hmode] at hlt
      exact absurd (abs_select_unnecessary_le d _) (not_le.2 hlt)
    exact
      { value_eq := by simp
        necessary_iff := iff_of_false (by simp) fun hno => hmode hno.1
        overflow_iff := iff_of_true rfl hlt
        cause_eq := by simp }
  | some cut =>
    have hsome : d.roundToDigits c.precision c.mode ≠ none := by simp [hcut]
    have hfits := mt (roundToDigits_eq_none_iff h hd).2 hsome
    have hvalue := value_roundToDigits h hd hcut
    rw [← hvalue, ← sameValue_iff] at hsame
    dsimp only
    by_cases hno : c.mode = unnecessary ∧ ¬ cut.sameValue d
    · rw [if_pos hno]
      exact
        { value_eq := by simp
          necessary_iff := iff_of_true rfl ⟨hno.1, mt hsame.2 hno.2⟩
          overflow_iff := iff_of_false (by simp) hfits
          cause_eq := by simp }
    · rw [if_neg hno]
      exact
        { value_eq := by
            rintro r hr
            cases hr
            exact hvalue
          necessary_iff := iff_of_false (by simp) fun h' => hno ⟨h'.1, mt hsame.1 h'.2⟩
          overflow_iff := iff_of_false (by simp) hfits
          cause_eq := by simp }

/-- A context leaves a number of few digits alone and rounds every other one to its last place. No number but zero
becomes zero, a second rounding changes nothing, and a larger number never becomes the smaller one. -/
theorem roundToPrecision_to_digits {c : MathContext} (hlow : 1 ≤ c.precision) (hhigh : c.precision ≤ 27) (d : Decimal) :
    (d.precision ≤ c.precision → d.roundToPrecision c = .ok d) ∧
    (c.precision < d.precision →
      RoundsToMultiple c (10 ^ ((d.precision : ℤ) - c.precision - d.scale)) d (d.roundToPrecision c)) ∧
    ∀ r, d.roundToPrecision c = .ok r →
      (d.value ≠ 0 → r.value ≠ 0) ∧ (∃ r', r.roundToPrecision c = .ok r' ∧ r'.value = r.value) ∧
        ∀ b s : Decimal, d.value ≤ b.value → b.roundToPrecision c = .ok s → r.value ≤ s.value := by
  have hc : c.isUnlimited = false := isUnlimited_eq_false_iff.2 ⟨hlow, hhigh⟩
  refine ⟨fun h => roundToPrecision_eq_self (Or.inr h), fun h => ?_, fun r hr => ⟨fun hd => ?_, ?_, fun b s hle hs => ?_⟩⟩
  · rw [← lastPlace_value (value_ne_zero_of_precision (by omega))]
    exact roundsToMultiple hc h
  · rw [value_roundToPrecision_toDigits hc hr]
    exact toDigits_ne_zero c.mode hlow hd
  · exact (bounded_of_roundToPrecision hr).roundToPrecision
  · rw [value_roundToPrecision_toDigits hc hr, value_roundToPrecision_toDigits hc hs]
    exact toDigits_mono c.mode hlow hle

/-- The largest decimal, which has 29 digits, is smaller than the next number of 27 digits, and that is no decimal. -/
theorem roundToPrecision_max :
    roundToPrecision (ofDigits (2 ^ 96 - 1) 0 (by decide)) ⟨27, .up⟩ =
        .error (.overflow "rounding 79228162514264337593543950335 to precision=27 roundingMode=UP") ∧
      (2 : ℚ) ^ 96 - 1 <
        |(up.select ((ofDigits (2 ^ 96 - 1) 0 (by decide)).value / 10 ^ (2 : ℤ)) : ℚ) * 10 ^ (2 : ℤ)| := by
  have hprecision : (ofDigits (2 ^ 96 - 1) 0 (by decide)).precision = 29 := by cbv
  have hrun : roundToPrecision (ofDigits (2 ^ 96 - 1) 0 (by decide)) ⟨27, .up⟩ =
      .error (.overflow "rounding 79228162514264337593543950335 to precision=27 roundingMode=UP") := by cbv
  have h := (roundToPrecision_to_digits (c := ⟨27, .up⟩) (by decide) (by decide) (ofDigits (2 ^ 96 - 1) 0 (by decide))).2.1
    (by rw [hprecision]; decide)
  rw [hprecision] at h
  exact ⟨hrun, h.overflow_iff.1 (by cbv)⟩

end Decimal

end Coinage
