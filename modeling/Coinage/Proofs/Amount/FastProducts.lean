import Coinage.Proofs.Amount.FastConstruction
import Coinage.Proofs.Decimal.Checked
import Coinage.Proofs.Decimal.DoubleRounding
/-!
# Products and quotients in units

In the wide integers a product or a quotient is rounded half-up once. Where they do not suffice, the
nearest decimal is rounded half-up instead; `TieReached` is the one way in which that tells: the nearest
decimal lies on a tie which the exact number has not reached.
-/

namespace Coinage

namespace FastMoney

open Decimal RoundingMode

/-- The decimal nearest to a number lies halfway between two units, and the number itself is nearer to
zero. -/
def TieReached (x : ℚ) : Prop :=
  ∃ k, nearestValue? x = some k ∧ IsTie (k * 10 ^ scale) ∧ |x| < |k|

/-! ### Integers -/

theorem divideHalfUp_natCast (n : ℕ) {d : ℕ} (hd : 0 < d) : divideHalfUp n d = halfUp.select ((n : ℚ) / d) := by
  have h := roundMagnitude_eq_select halfUp false n hd
  rw [if_neg Bool.false_ne_true] at h
  rw [← h, divideHalfUp, roundMagnitude, stepsAway, ← Int.ofNat_tdiv, ← Int.ofNat_tmod, Int.natAbs_natCast,
    Int.natAbs_natCast, decide_eq_false (Int.not_lt.2 (Int.natCast_nonneg n)),
    decide_eq_false (Int.not_lt.2 (Int.natCast_nonneg d))]
  simp only [beq_self_eq_true, if_true, decide_eq_true_eq]
  split_ifs <;> push_cast <;> rfl

theorem divideHalfUp_neg (n : ℤ) {d : ℤ} (hd : d ≠ 0) : divideHalfUp (-n) d = -divideHalfUp n d := by
  unfold divideHalfUp
  dsimp only
  rw [Int.neg_tdiv, Int.neg_tmod, Int.natAbs_neg]
  by_cases hstep : d.natAbs ≤ 2 * (n.tmod d).natAbs
  · -- a number without a rest takes no step, so the number is not zero and changes its sign
    have hn : n ≠ 0 := by
      rintro rfl
      rw [Int.zero_tmod] at hstep
      omega
    rw [if_pos hstep, if_pos hstep]
    by_cases hneg : n < 0
    · rw [decide_eq_true hneg, decide_eq_false (by omega : ¬ -n < 0)]
      cases decide (d < 0) <;> simp <;> omega
    · rw [decide_eq_false hneg, decide_eq_true (by omega : -n < 0)]
      cases decide (d < 0) <;> simp <;> omega
  · rw [if_neg hstep, if_neg hstep]

theorem divideHalfUp_neg_right (n : ℤ) {d : ℤ} (hd : d ≠ 0) : divideHalfUp n (-d) = -divideHalfUp n d := by
  unfold divideHalfUp
  rw [Int.tdiv_neg, Int.tmod_neg, Int.natAbs_neg]
  by_cases hstep : d.natAbs ≤ 2 * (n.tmod d).natAbs
  · rw [if_pos hstep, if_pos hstep]
    by_cases hneg : d < 0
    · rw [decide_eq_true hneg, decide_eq_false (by omega : ¬ -d < 0)]
      cases decide (n < 0) <;> simp <;> omega
    · rw [decide_eq_false hneg, decide_eq_true (by omega : -d < 0)]
      cases decide (n < 0) <;> simp <;> omega
  · rw [if_neg hstep, if_neg hstep]

/-- The quotient of integers, one step away from zero where the rest is at least half the divisor. -/
theorem divideHalfUp_eq_select (n : ℤ) {d : ℤ} (hd : d ≠ 0) : divideHalfUp n d = halfUp.select ((n : ℚ) / d) := by
  have hselect : ∀ x : ℚ, halfUp.select (-x) = -halfUp.select x := fun x => select_neg halfUp x
  rcases Int.eq_nat_or_neg n with ⟨a, rfl | rfl⟩ <;> rcases Int.eq_nat_or_neg d with ⟨b, rfl | rfl⟩
  all_goals
    have hb : 0 < b := by omega
    have hb' : (b : ℤ) ≠ 0 := by omega
    simp only [divideHalfUp_neg _ hb', divideHalfUp_neg_right _ hb', Int.cast_neg, neg_div,
      div_neg, neg_neg, hselect, Int.cast_natCast, divideHalfUp_natCast a hb]

/-! ### Ties between the number and its nearest decimal -/

/-- With six fractional digits and more, a tie between two units is a number that rounding respects. -/
theorem tie_on_grid {t : ℕ} (ht : scale < t) (n : ℤ) :
    ((n : ℚ) + 1 / 2) / 10 ^ scale * 10 ^ t = (((2 * n + 1) * 5 * 10 ^ (t - scale - 1) : ℤ) : ℚ) := by
  have hpow : (10 : ℚ) ^ t = 10 ^ scale * 10 * 10 ^ (t - scale - 1) := by
    rw [← pow_succ, ← pow_add]
    congr 1
    omega
  rw [hpow]
  push_cast
  field_simp
  ring

/-- With six fractional digits and more, a number and its nearest decimal round to one number of units,
unless a tie is reached. -/
theorem unitsOf_roundedAt_iff {x : ℚ} {t : ℕ} (ht : scale < t) (hk : nearestValue? x = some (roundedAt x t)) :
    unitsOf (roundedAt x t) = unitsOf x ↔ ¬ TieReached x := by
  have hpos : (0 : ℚ) < 10 ^ scale := by positivity
  have hplace : ((10 : ℚ) ^ scale)⁻¹ * 10 ^ t = 10 ^ (t - scale) := by
    rw [inv_mul_eq_div, div_eq_iff hpos.ne', ← pow_add, Nat.sub_add_cancel ht.le]
  have hfollows := follows_roundedAt x (inv_pos.2 hpos) hplace
  rw [div_inv_eq_mul, div_inv_eq_mul] at hfollows
  have habs : ∀ a b : ℚ, |a * 10 ^ scale| < |b * 10 ^ scale| ↔ |a| < |b| := fun a b => by
    rw [abs_mul, abs_mul, mul_lt_mul_iff_left₀ (abs_pos.2 hpos.ne')]
  have hmode : halfUp ≠ unnecessary := by decide
  refine (hfollows.select_eq_iff hmode).trans (not_congr ?_)
  simp only [Displaced, habs]
  constructor
  · rintro (⟨htie, hlt⟩ | ⟨⟨n, hn⟩, hlt⟩)
    · exact ⟨_, hk, htie, hlt⟩
    · -- a tie that is a decimal does not move
      rw [← eq_div_iff hpos.ne'] at hn
      rw [roundedAt_of_eq (hn ▸ tie_on_grid ht n)] at hlt
      exact absurd hlt (lt_irrefl _)
  · rintro ⟨k, hk', htie, hlt⟩
    cases hk.symm.trans hk'
    exact Or.inl ⟨htie, hlt⟩

/-- A number whose decimal has less than six fractional digits is too large to count. -/
theorem not_inRange_of_not_fits {x : ℚ} {t : ℕ} (ht : t ≤ scale) (h : ¬ Fits x (t + 1)) :
    ¬ InRange (unitsOf x) ∧ ¬ InRange (unitsOf (roundedAt x t)) := by
  have hlarge : (2 : ℚ) ^ 96 - 1 / 2 ≤ |x| * 10 ^ (scale + 1) :=
    (le_of_not_fits h).trans (mul_le_mul_of_nonneg_left (pow_le_pow_right₀ (by norm_num) (by omega)) (abs_nonneg x))
  have hnear : |roundedAt x t - x| ≤ 1 / 2 :=
    (abs_roundedAt_sub_le x t).trans (div_le_self (by norm_num) (one_le_pow₀ (by norm_num)))
  have htriangle := abs_sub_abs_le_abs_sub x (roundedAt x t)
  rw [abs_sub_comm] at htriangle
  have hpow : |(10 : ℚ) ^ scale| = 10 ^ 5 := abs_of_pos (by positivity)
  have hpow' : (10 : ℚ) ^ (scale + 1) = 10 ^ 6 := rfl
  rw [hpow'] at hlarge
  constructor <;> refine not_inRange_of_le ?_ <;> rw [abs_mul, hpow] <;> norm_num at hlarge hnear ⊢ <;> linarith

/-- Where a tie is reached the nearest decimal is farther from zero, so it does not come back into range. -/
theorem TieReached.not_inRange {x k : ℚ} (h : TieReached x) (hk : nearestValue? x = some k)
    (hx : ¬ InRange (unitsOf x)) : ¬ InRange (unitsOf k) := by
  obtain ⟨k', hk', -, hlt⟩ := h
  cases hk.symm.trans hk'
  have hmono : ∀ {a b : ℚ}, a ≤ b → unitsOf a ≤ unitsOf b := fun hab =>
    halfUp.select_mono (mul_le_mul_of_nonneg_right hab (by positivity))
  have hzero : unitsOf 0 = 0 := by rw [unitsOf, zero_mul, select_zero]
  have hside := mul_nonneg_of_nearestValue? hk (mul_self_nonneg x)
  unfold InRange at hx ⊢
  rcases lt_trichotomy x 0 with hneg | rfl | hpos
  · have hk₀ : k ≤ 0 := nonpos_of_mul_nonneg_left hside hneg
    rw [abs_of_neg hneg, abs_of_nonpos hk₀, neg_lt_neg_iff] at hlt
    have := hmono hlt.le
    have := hmono hneg.le
    omega
  · rw [hzero] at hx
    omega
  · have hk₀ : 0 ≤ k := nonneg_of_mul_nonneg_left hside hpos
    rw [abs_of_pos hpos, abs_of_nonneg hk₀] at hlt
    have := hmono hlt.le
    have := hmono hpos.le
    omega

/-- Rounding the nearest decimal instead of the number itself is wrong just where that changes an amount
there is, because a tie is reached. -/
theorem countsUnits_detour (currency : Currency) {x : ℚ} {o : Outcome Decimal} (ho : Rounds x o) :
    CountsUnits currency x (o >>= ofDecimal currency) ↔ ¬ InRange (unitsOf x) ∨ ¬ TieReached x := by
  cases o with
  | error cause =>
    have hno : ¬ InRange (unitsOf x) := by
      have hlarge := le_of_not_fits (nearestValue?_eq_none_iff.1 ho.1)
      refine not_inRange_of_le ?_
      rw [abs_mul, abs_of_pos (by positivity : (0 : ℚ) < 10 ^ scale)]
      norm_num [scale] at hlarge ⊢
      linarith
    exact ⟨fun _ => Or.inl hno, fun _ => ⟨hno, ho.2⟩⟩
  | ok d =>
    have hk : nearestValue? x = some d.value := ho
    rw [ok_bind, (countsUnits_ofDecimal currency d).iff_of]
    obtain ⟨t, -, -, hmax, hvalue⟩ := exists_places hk
    rw [hvalue] at hk ⊢
    rcases le_or_gt t scale with hle | hlt
    · obtain ⟨hx, hd⟩ := not_inRange_of_not_fits hle (hmax.resolve_left (by rintro rfl; exact absurd hle (by decide)))
      exact iff_of_true (Or.inr ⟨hx, hd⟩) (Or.inl hx)
    · have hsame := unitsOf_roundedAt_iff hlt hk
      constructor
      · rintro (heq | ⟨hno, -⟩)
        · exact Or.inr (hsame.1 heq.symm)
        · exact Or.inl hno
      · intro h
        by_cases htie : TieReached x
        · have hno := h.resolve_right (not_not.2 htie)
          exact Or.inr ⟨hno, htie.not_inRange hk hno⟩
        · exact Or.inl (hsame.2 htie).symm

/-! ### Products and quotients -/

theorem divideHalfUp_product (a : FastMoney) (n : Decimal) :
    divideHalfUp (a.units * n.mantissa) (10 ^ n.scale) = unitsOf (a.number.value * n.value) := by
  rw [divideHalfUp_eq_select _ (by positivity), unitsOf, number_value, value]
  congr 1
  push_cast
  field_simp

theorem divideHalfUp_quotient (a : FastMoney) {n : Decimal} (hn : n.value ≠ 0) :
    divideHalfUp (a.units * 10 ^ n.scale) n.mantissa = unitsOf (a.number.value / n.value) := by
  have hmantissa : n.mantissa ≠ 0 := mt (value_eq_zero_iff n).2 hn
  rw [divideHalfUp_eq_select _ hmantissa, unitsOf, number_value, value]
  congr 1
  push_cast
  field_simp

/-- Products and quotients are the exact ones rounded half-up once, or an overflow where that is no
amount, just where the wide integers suffice, the result is no amount, or no tie is reached. -/
theorem multiplyBy_divideBy_counts_iff (a : FastMoney) (n : Decimal) :
    (CountsUnits a.currency (a.number.value * n.value) (a.multiplyBy n) ↔
      fitsWide (a.units * n.mantissa) = true ∨ ¬ InRange (unitsOf (a.number.value * n.value)) ∨
        ¬ TieReached (a.number.value * n.value)) ∧
    (n.value ≠ 0 →
      (CountsUnits a.currency (a.number.value / n.value) (a.divideBy n) ↔
        fitsWide (a.units * 10 ^ n.scale) = true ∨ ¬ InRange (unitsOf (a.number.value / n.value)) ∨
          ¬ TieReached (a.number.value / n.value))) := by
  constructor
  · unfold multiplyBy
    by_cases hwide : fitsWide (a.units * n.mantissa) = true
    · rw [if_pos hwide]
      exact iff_of_true (countsUnits_ofUnits _ (a.divideHalfUp_product n) _) (Or.inl hwide)
    · rw [if_neg hwide]
      exact (countsUnits_detour a.currency (rounds_product a.number n)).trans (or_iff_right hwide).symm
  · intro hn
    have hmantissa : n.mantissa ≠ 0 := mt (value_eq_zero_iff n).2 hn
    unfold divideBy
    rw [if_neg (by rwa [isZero_iff])]
    by_cases hwide : fitsWide (a.units * 10 ^ n.scale) = true
    · dsimp only
      rw [if_pos hwide]
      exact iff_of_true (countsUnits_ofUnits _ (a.divideHalfUp_quotient hn) _) (Or.inl hwide)
    · dsimp only
      rw [if_neg hwide]
      exact (countsUnits_detour a.currency (rounds_quotient a.number n hn)).trans (or_iff_right hwide).symm

/-- Seven units by two are three and a half, which is rounded to four. -/
theorem divideBy_seven_two :
    CountsUnits .euro ((7 : ℚ) / 10 ^ 5 / 2)
      (divideBy ⟨.euro, 7, by decide, by decide⟩ (ofDigits 2 0 (by decide))) := by
  have h := (multiplyBy_divideBy_counts_iff ⟨.euro, 7, by decide, by decide⟩ (ofDigits 2 0 (by decide))).2
    (by norm_num)
  rw [number_value, value_ofDigits] at h
  have hcounts := h.2 (Or.inl (by decide))
  norm_num [scale] at hcounts ⊢
  exact hcounts

/-- `(10 ^ 18 + 1)` units by a factor that needs the detour: the exact product is less than half a unit
above `500000000100000000`, and one unit more is counted. So it is with the quotient of `20000000052` units,
which is less than half a unit above `5000000000`. -/
theorem multiplyBy_divideBy_one_more :
    multiplyBy ⟨.euro, 1000000000000000001, by decide, by decide⟩ (ofDigits 5000000000999999999999999999 28 (by decide)) =
      .ok ⟨.euro, 500000000100000001, by decide, by decide⟩ ∧
    unitsOf (1000000000000000001 / 10 ^ 5 * (5000000000999999999999999999 / 10 ^ 28)) = 500000000100000000 ∧
    divideBy ⟨.euro, 20000000052, by decide, by decide⟩ (ofDigits 40000000099999999990000000001 28 (by decide)) =
      .ok ⟨.euro, 5000000001, by decide, by decide⟩ ∧
    unitsOf (20000000052 / 10 ^ 5 / (40000000099999999990000000001 / 10 ^ 28)) = 5000000000 := by
  refine ⟨by cbv, ?_, by cbv, ?_⟩
  · rw [unitsOf, RoundingMode.select, if_pos (by positivity), Int.floor_eq_iff]
    norm_num [scale]
  · rw [unitsOf, RoundingMode.select, if_pos (by positivity), Int.floor_eq_iff]
    norm_num [scale]

end FastMoney

end Coinage
