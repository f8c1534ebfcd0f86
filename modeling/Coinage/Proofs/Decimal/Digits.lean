import Coinage.Rounding.Context
import Coinage.Proofs.Decimal.Value
import Mathlib.Data.Int.Log
/-!
# Significant digits

The place of the last of `p` leading digits of a number is a power of ten, and rounding to `p` digits
is rounding to a multiple of it. `Decimal.roundToPrecision` does that for decimals; its results have at
most `p` digits in front of their trailing zeros, and it leaves every number that has no more alone.
-/

namespace Coinage

namespace Decimal

open RoundingMode

/-- The value of one unit in the last of the `p` leading places of a number. -/
def lastPlace (p : ℕ) (x : ℚ) : ℚ :=
  10 ^ (Int.log 10 |x| + 1 - p)

/-- A number rounded to `p` digits by a mode; the mode that drops no digits leaves it as it is. -/
def toDigits (mode : RoundingMode) (p : ℕ) (x : ℚ) : ℚ :=
  if mode = unnecessary then x else mode.select (x / lastPlace p x) * lastPlace p x

/-- Whether a number has at most `p` digits, its leading and trailing zeros not counted. -/
def HasDigits (p : ℕ) (x : ℚ) : Prop :=
  ∃ k e : ℤ, x = k * 10 ^ e ∧ |k| < 10 ^ p

/-- Whether a number has at most `t` places behind the point. -/
def HasPlaces (t : ℕ) (x : ℚ) : Prop :=
  ∃ n : ℤ, x = n / 10 ^ t

theorem hasPlaces_intCast (t : ℕ) (n : ℤ) : HasPlaces t n :=
  ⟨n * 10 ^ t, by push_cast; rw [mul_div_cancel_right₀ _ (by positivity)]⟩

theorem lastPlace_pos (p : ℕ) (x : ℚ) : 0 < lastPlace p x := by
  unfold lastPlace
  positivity

/-- The last place of a number is read off its decade. -/
theorem lastPlace_eq {x : ℚ} {e : ℤ} (hlow : 10 ^ e ≤ |x|) (hhigh : |x| < 10 ^ (e + 1)) (p : ℕ) :
    lastPlace p x = 10 ^ (e + 1 - p) := by
  have hpos : 0 < |x| := lt_of_lt_of_le (by positivity) hlow
  have hlog : Int.log 10 |x| = e := by
    apply le_antisymm
    · rw [← Int.lt_add_one_iff, ← Int.lt_zpow_iff_log_lt (by norm_num) hpos]
      exact_mod_cast hhigh
    · rw [← Int.zpow_le_iff_le_log (by norm_num) hpos]
      exact_mod_cast hlow
  rw [lastPlace, hlog]

/-- The last of `p` leading places stands before the place `t` behind the point, or behind it. -/
theorem lastPlace_mul_pow (p t : ℕ) (x : ℚ) :
    (∃ i : ℕ, lastPlace p x * 10 ^ t = 10 ^ i) ∨ ∃ i : ℕ, lastPlace p x * 10 ^ t * 10 ^ i = 1 := by
  have hshift : lastPlace p x * 10 ^ t = 10 ^ (Int.log 10 |x| + 1 - p + t) := by
    rw [lastPlace, ← zpow_natCast 10 t, ← zpow_add₀ (by norm_num)]
  rw [hshift]
  rcases Int.eq_nat_or_neg (Int.log 10 |x| + 1 - p + t) with ⟨i, hi | hi⟩ <;> rw [hi]
  · exact Or.inl ⟨i, zpow_natCast 10 i⟩
  · exact Or.inr ⟨i, by rw [← zpow_natCast 10 i, ← zpow_add₀ (by norm_num), neg_add_cancel, zpow_zero]⟩

/-- A number of `t` places is a multiple of every place behind them. -/
theorem div_lastPlace_of_behind {p t i : ℕ} {x : ℚ} {n : ℤ} (hn : x * 10 ^ t = n)
    (hi : lastPlace p x * 10 ^ t * 10 ^ i = 1) : x / lastPlace p x = (n * 10 ^ i : ℤ) := by
  rw [div_eq_iff (lastPlace_pos p x).ne']
  push_cast
  rw [← hn]
  linear_combination (-x) * hi

theorem HasDigits.neg {p : ℕ} {x : ℚ} (h : HasDigits p x) : HasDigits p (-x) := by
  obtain ⟨k, e, rfl, hk⟩ := h
  exact ⟨-k, e, by push_cast; ring, by rwa [abs_neg]⟩

theorem hasDigits_zero (p : ℕ) : HasDigits p 0 :=
  ⟨0, 0, by simp, by simp⟩

theorem HasDigits.mul_pow {p : ℕ} {x : ℚ} (h : HasDigits p x) (n : ℕ) : HasDigits p (x * 10 ^ n) := by
  obtain ⟨k, e, rfl, hk⟩ := h
  refine ⟨k, e + n, ?_, hk⟩
  rw [zpow_add₀ (by norm_num), zpow_natCast, mul_assoc]

/-- A number is cut at its point into parts that have no more digits than it has. -/
theorem HasDigits.parts {p : ℕ} {x : ℚ} (h : HasDigits p x) :
    HasDigits p (down.select x) ∧ HasDigits p (x - down.select x) := by
  obtain ⟨k, e, rfl, hk⟩ := id h
  rcases Int.eq_nat_or_neg e with ⟨n, rfl | rfl⟩
  · have hint : (k : ℚ) * 10 ^ (n : ℤ) = (k * 10 ^ n : ℤ) := by
      rw [zpow_natCast]
      push_cast
      rfl
    rw [hint, select_intCast, sub_self, ← hint]
    exact ⟨h, hasDigits_zero p⟩
  · have hselect : down.select ((k : ℚ) * 10 ^ (-n : ℤ)) = k.tdiv (10 ^ n) := by
      rw [← select_down_div, zpow_neg, zpow_natCast, div_eq_mul_inv]
      push_cast
      rfl
    rw [hselect]
    refine ⟨⟨_, 0, by rw [zpow_zero, mul_one], ?_⟩, k.tmod (10 ^ n), -n, ?_, ?_⟩
    · rw [Int.abs_eq_natAbs, Int.natAbs_tdiv]
      rw [Int.abs_eq_natAbs] at hk
      exact lt_of_le_of_lt (by exact_mod_cast Nat.div_le_self _ _) hk
    · rw [Int.tmod_def, zpow_neg, zpow_natCast]
      push_cast
      field_simp
    · rw [Int.abs_eq_natAbs, Int.natAbs_tmod]
      rw [Int.abs_eq_natAbs] at hk
      exact lt_of_le_of_lt (by exact_mod_cast Nat.mod_le _ _) hk

theorem abs_div_lastPlace_lt (p : ℕ) (x : ℚ) : |x / lastPlace p x| < 10 ^ p := by
  have hlt := Int.lt_zpow_succ_log_self (b := 10) (by norm_num) |x|
  rw [abs_div, abs_of_pos (lastPlace_pos p x), div_lt_iff₀ (lastPlace_pos p x), lastPlace, ← zpow_natCast,
    ← zpow_add₀ (by norm_num)]
  rwa [add_sub_cancel]

theorem abs_select_div_lastPlace_le (mode : RoundingMode) (p : ℕ) (x : ℚ) :
    |mode.select (x / lastPlace p x)| ≤ 10 ^ p := by
  obtain ⟨hlow, hhigh⟩ := abs_lt.1 (abs_div_lastPlace_lt p x)
  exact abs_le.2 ⟨mode.le_select (by push_cast; exact hlow.le), mode.select_le (by push_cast; exact hhigh.le)⟩

/-- Rounding to the last of `p` leading places leaves at most `p` digits: a carry that makes one more
of them leaves a power of ten. -/
theorem hasDigits_select (mode : RoundingMode) {p : ℕ} (hp : 1 ≤ p) (x : ℚ) :
    HasDigits p (mode.select (x / lastPlace p x) * lastPlace p x) := by
  rcases (abs_select_div_lastPlace_le mode p x).lt_or_eq with h | h
  · exact ⟨_, _, rfl, h⟩
  · rw [abs_eq (by positivity)] at h
    have hone : (1 : ℤ) < 10 ^ p := one_lt_pow₀ (by norm_num) (by omega)
    rcases h with h | h
    · refine ⟨1, p + (Int.log 10 |x| + 1 - p), ?_, by rwa [abs_one]⟩
      rw [h, lastPlace, zpow_add₀ (by norm_num : (10 : ℚ) ≠ 0)]
      push_cast
      rw [zpow_natCast, one_mul]
    · refine ⟨-1, p + (Int.log 10 |x| + 1 - p), ?_, by rwa [abs_neg, abs_one]⟩
      rw [h, lastPlace, zpow_add₀ (by norm_num : (10 : ℚ) ≠ 0)]
      push_cast
      rw [zpow_natCast, neg_one_mul, neg_mul]

/-- A number of at most `p` digits is a multiple of its last place. -/
theorem HasDigits.div_lastPlace {p : ℕ} {x : ℚ} (h : HasDigits p x) : ∃ n : ℤ, x / lastPlace p x = n := by
  obtain ⟨k, e, rfl, hk⟩ := h
  rcases eq_or_ne k 0 with rfl | hk₀
  · exact ⟨0, by simp⟩
  have hpos : 0 < |(k : ℚ) * 10 ^ e| := abs_pos.2 (mul_ne_zero (by exact_mod_cast hk₀) (by positivity))
  have hlog : Int.log 10 |(k : ℚ) * 10 ^ e| < p + e := by
    rw [← Int.lt_zpow_iff_log_lt (by norm_num) hpos, abs_mul, abs_of_pos (by positivity : (0 : ℚ) < 10 ^ e)]
    push_cast
    rw [zpow_add₀ (by norm_num), zpow_natCast]
    refine mul_lt_mul_of_pos_right ?_ (by positivity)
    exact_mod_cast hk
  obtain ⟨j, hj⟩ := Int.eq_ofNat_of_zero_le (by omega : 0 ≤ e - (Int.log 10 |(k : ℚ) * 10 ^ e| + 1 - p))
  refine ⟨k * 10 ^ j, ?_⟩
  rw [lastPlace, mul_div_assoc, ← zpow_sub₀ (by norm_num), hj]
  push_cast
  rw [zpow_natCast]

theorem HasDigits.select_lastPlace {p : ℕ} {x : ℚ} (h : HasDigits p x) (mode : RoundingMode) :
    mode.select (x / lastPlace p x) * lastPlace p x = x := by
  obtain ⟨n, hn⟩ := h.div_lastPlace
  exact mode.select_div_mul (lastPlace_pos p x).ne' hn

theorem HasDigits.toDigits_eq {p : ℕ} {x : ℚ} (h : HasDigits p x) (mode : RoundingMode) : toDigits mode p x = x := by
  unfold toDigits
  split
  · rfl
  · exact h.select_lastPlace mode

/-- Dropping digits adds no place: either the last digit stands before the last place, or there is none to drop. -/
theorem HasPlaces.select_lastPlace {t : ℕ} {x : ℚ} (h : HasPlaces t x) (mode : RoundingMode) (p : ℕ) :
    HasPlaces t (mode.select (x / lastPlace p x) * lastPlace p x) := by
  obtain ⟨n, hn⟩ := h
  obtain ⟨i, hi⟩ | ⟨i, hi⟩ := lastPlace_mul_pow p t x
  · refine ⟨mode.select (x / lastPlace p x) * 10 ^ i, ?_⟩
    rw [eq_div_iff (by positivity), mul_assoc, hi]
    push_cast
    rfl
  · have hquot := div_lastPlace_of_behind (by rw [hn, div_mul_cancel₀ _ (by positivity)]) hi
    refine ⟨n, ?_⟩
    rw [mode.select_div_mul (lastPlace_pos p x).ne' hquot, hn]

/-! ### The digits of a decimal -/

theorem one_le_digitCount (n : ℕ) : 1 ≤ digitCount n := by
  unfold digitCount
  split <;> omega

theorem digitCount_bounds {n : ℕ} (hn : n ≠ 0) : 10 ^ (digitCount n - 1) ≤ n ∧ n < 10 ^ digitCount n := by
  induction n using digitCount.induct with
  | case1 n h =>
    rw [digitCount, if_pos h]
    omega
  | case2 n h ih =>
    obtain ⟨hlow, hhigh⟩ := ih (by omega)
    have hone := one_le_digitCount (n / 10)
    rw [digitCount, if_neg h, Nat.add_sub_cancel, pow_succ]
    have hpow : 10 ^ digitCount (n / 10) = 10 ^ (digitCount (n / 10) - 1) * 10 := by
      rw [← pow_succ, Nat.sub_add_cancel hone]
    omega

theorem digitCount_le {n p : ℕ} (hp : 1 ≤ p) (h : n < 10 ^ p) : digitCount n ≤ p := by
  rcases Nat.eq_zero_or_pos n with rfl | hn
  · rw [digitCount, if_pos (by decide)]
    exact hp
  · have hpow : 10 ^ (digitCount n - 1) < 10 ^ p := (digitCount_bounds hn.ne').1.trans_lt h
    have := (Nat.pow_lt_pow_iff_right (by decide)).1 hpow
    omega

theorem lastPlace_value {d : Decimal} (hd : d.value ≠ 0) (p : ℕ) :
    lastPlace p d.value = 10 ^ ((d.precision : ℤ) - p - d.scale) := by
  have hm : d.mantissa.natAbs ≠ 0 := by
    rw [Ne, value_eq_zero_iff] at hd
    omega
  obtain ⟨hlow, hhigh⟩ := digitCount_bounds hm
  have habs : |d.value| = (d.mantissa.natAbs : ℚ) * 10 ^ (-d.scale : ℤ) := by
    rw [value, abs_div, abs_of_pos (by positivity : (0 : ℚ) < 10 ^ d.scale), Nat.cast_natAbs, Int.cast_abs,
      zpow_neg, zpow_natCast, div_eq_mul_inv]
  have hshift : ∀ k : ℕ, (10 : ℚ) ^ ((k : ℤ) - d.scale) = 10 ^ k * 10 ^ (-d.scale : ℤ) := fun k => by
    rw [sub_eq_add_neg, zpow_add₀ (by norm_num), zpow_natCast]
  have hexp : ((d.precision - 1 : ℕ) : ℤ) - d.scale + 1 = (d.precision : ℤ) - d.scale := by
    have : 1 ≤ d.precision := one_le_digitCount _
    omega
  rw [lastPlace_eq (e := ((d.precision - 1 : ℕ) : ℤ) - d.scale), hexp, sub_right_comm]
  · rw [hshift, habs]
    exact mul_le_mul_of_nonneg_right (by exact_mod_cast hlow) (by positivity)
  · rw [hexp, hshift, habs]
    exact mul_lt_mul_of_pos_right (by exact_mod_cast hhigh) (by positivity)

/-- Decimals of one value have their first digit at one place. -/
theorem precision_sub_scale_eq {a b : Decimal} (ha : a.value ≠ 0) (h : a.value = b.value) :
    (a.precision : ℤ) - a.scale = b.precision - b.scale := by
  have hplace := lastPlace_value ha 0
  rw [h, lastPlace_value (h ▸ ha)] at hplace
  have hexp := zpow_right_injective₀ (by norm_num) (by norm_num) hplace
  omega

theorem value_roundToPlaces (d : Decimal) (places : ℕ) (mode : RoundingMode) :
    (d.roundToPlaces places mode).value = mode.select (d.value * 10 ^ places) / 10 ^ places := by
  unfold roundToPlaces
  split
  case isTrue h =>
    have hpow : (10 : ℚ) ^ d.scale = 10 ^ (d.scale - places) * 10 ^ places := by
      rw [← pow_add, Nat.sub_add_cancel h.le]
    have harg : d.value * 10 ^ places = d.mantissa / ((10 ^ (d.scale - places) : ℕ) : ℚ) := by
      rw [value, hpow]
      push_cast
      field_simp
    rw [harg, ← roundQuotient_eq_select _ _ (by positivity)]
    rfl
  case isFalse h =>
    have harg := unitsAt_eq d (not_lt.1 h)
    rw [← harg, select_intCast, harg, mul_div_cancel_right₀ _ (by positivity)]

theorem scale_roundToPlaces_le (d : Decimal) (places : ℕ) (mode : RoundingMode) :
    (d.roundToPlaces places mode).scale ≤ places := by
  unfold roundToPlaces
  split
  · exact le_rfl
  · omega

/-- Digits before the point are replaced by zeros. -/
theorem roundQuotient_mul_eq {d : Decimal} {p : ℕ} (hd : d.value ≠ 0) (h : ¬ d.precision - p ≤ d.scale)
    (mode : RoundingMode) :
    ((mode.roundQuotient d.mantissa (10 ^ (d.precision - p)) * ((10 ^ (d.precision - p - d.scale) : ℕ) : ℤ) : ℤ) : ℚ) =
      mode.select (d.value / lastPlace p d.value) * lastPlace p d.value := by
  have hexp : (d.precision : ℤ) - p - d.scale = ((d.precision - p - d.scale : ℕ) : ℤ) := by omega
  have hpow : (10 : ℚ) ^ (d.precision - p) = 10 ^ d.scale * 10 ^ (d.precision - p - d.scale) := by
    rw [← pow_add]
    congr 1
    omega
  rw [lastPlace_value hd, hexp, zpow_natCast, roundQuotient_eq_select _ _ (by positivity), value, div_div, ← hpow]
  push_cast
  rfl

/-- Rounding to leading digits is rounding to a multiple of the last of them. -/
theorem value_roundToDigits {d r : Decimal} {p : ℕ} {mode : RoundingMode} (hp : p < d.precision)
    (hd : d.value ≠ 0) (h : d.roundToDigits p mode = some r) :
    r.value = mode.select (d.value / lastPlace p d.value) * lastPlace p d.value := by
  unfold roundToDigits at h
  dsimp only at h
  split at h
  case isTrue hle =>
    cases h
    have hexp : (d.precision : ℤ) - p - d.scale = -((d.scale - (d.precision - p) : ℕ) : ℤ) := by omega
    rw [value_roundToPlaces, lastPlace_value hd, hexp, zpow_neg, zpow_natCast, div_inv_eq_mul, div_eq_mul_inv]
  case isFalse hgt =>
    rw [value_ofParts? h, pow_zero, div_one]
    exact_mod_cast roundQuotient_mul_eq hd hgt mode

/-- There is no such rounding just where the multiple is larger than every decimal. -/
theorem roundToDigits_eq_none_iff {d : Decimal} {p : ℕ} {mode : RoundingMode} (hp : p < d.precision)
    (hd : d.value ≠ 0) :
    d.roundToDigits p mode = none ↔
      2 ^ 96 - 1 < |mode.select (d.value / lastPlace p d.value) * lastPlace p d.value| := by
  cases h : d.roundToDigits p mode with
  | some r =>
    rw [← value_roundToDigits hp hd h]
    exact iff_of_false (by simp) (not_lt.2 r.abs_value_le)
  | none =>
    refine iff_of_true rfl ?_
    unfold roundToDigits at h
    dsimp only at h
    split at h
    case isTrue => cases h
    case isFalse hgt =>
      have hcap := (ofParts?_eq_none_iff.1 h).resolve_right (Nat.not_lt_zero _)
      rw [← roundQuotient_mul_eq hd hgt mode, ← Int.cast_abs, Int.abs_eq_natAbs, sub_lt_iff_lt_add]
      exact_mod_cast Nat.lt_succ_of_le hcap

/-! ### Rounding to a context -/

/-- What a context leaves of the numbers that it rounds. -/
def Bounded (c : MathContext) (x : ℚ) : Prop :=
  c.isUnlimited = true ∨ HasDigits c.precision x

theorem Bounded.neg {c : MathContext} {x : ℚ} (h : Bounded c x) : Bounded c (-x) :=
  h.imp_right HasDigits.neg

theorem isUnlimited_eq_false_iff {c : MathContext} :
    c.isUnlimited = false ↔ 1 ≤ c.precision ∧ c.precision ≤ 27 := by
  have h : c.isUnlimited = false ↔ c.precision ≠ 0 ∧ ¬ 28 ≤ c.precision := by
    rw [MathContext.isUnlimited, Bool.or_eq_false_iff, beq_eq_false_iff_ne]
    exact and_congr_right fun _ => decide_eq_false_iff_not
  rw [h]
  omega

theorem roundToPrecision_eq_self {d : Decimal} {c : MathContext} (h : c.isUnlimited = true ∨ d.precision ≤ c.precision) :
    d.roundToPrecision c = .ok d := by
  refine if_pos ?_
  rw [Bool.or_eq_true, Bool.or_eq_true, decide_eq_true_eq]
  exact h.imp_left Or.inl

/-- Under a context with a bound, a result is the number rounded to the last of its leading places. -/
theorem value_roundToPrecision {d r : Decimal} {c : MathContext} (hc : c.isUnlimited = false)
    (h : d.roundToPrecision c = .ok r) :
    r.value = c.mode.select (d.value / lastPlace c.precision d.value) * lastPlace c.precision d.value := by
  unfold roundToPrecision at h
  rw [hc, Bool.false_or] at h
  split at h
  case isTrue hkeep =>
    cases h
    rw [Bool.or_eq_true, isZero_iff, decide_eq_true_eq] at hkeep
    by_cases hd : d.value = 0
    · simp [hd]
    -- the last of so many places lies behind the last digit
    have hle := hkeep.resolve_left hd
    obtain ⟨n, hn⟩ : ∃ n : ℤ, d.value / lastPlace c.precision d.value = n := by
      refine ⟨d.mantissa * 10 ^ (c.precision - d.precision), ?_⟩
      rw [lastPlace_value hd, div_eq_iff (by positivity)]
      push_cast
      rw [mul_assoc, ← zpow_natCast, ← zpow_add₀ (by norm_num), value, div_eq_mul_inv, ← zpow_natCast, ← zpow_neg]
      congr 2
      omega
    exact (c.mode.select_div_mul (lastPlace_pos _ _).ne' hn).symm
  case isFalse hround =>
    simp only [Bool.or_eq_true, isZero_iff, decide_eq_true_eq, not_or, not_le] at hround
    split at h
    case h_1 cut hcut =>
      split at h
      · cases h
      · cases h
        exact value_roundToDigits hround.2 hround.1 hcut
    case h_2 => cases h

/-- A rounded number loses as many places behind the point as it has digits in excess, or all of them. -/
theorem scale_roundToPrecision {d r : Decimal} {c : MathContext} (hc : c.isUnlimited = false) (hd : d.value ≠ 0)
    (h : d.roundToPrecision c = .ok r) : r.scale = d.scale - (d.precision - c.precision) := by
  unfold roundToPrecision at h
  rw [hc, Bool.false_or] at h
  split at h
  case isTrue hkeep =>
    cases h
    rw [Bool.or_eq_true, isZero_iff, decide_eq_true_eq] at hkeep
    have hle := hkeep.resolve_left hd
    omega
  case isFalse hround =>
    simp only [Bool.or_eq_true, decide_eq_true_eq, not_or, not_le] at hround
    split at h
    case h_1 cut hcut =>
      have hscale : cut.scale = d.scale - (d.precision - c.precision) := by
        unfold roundToDigits at hcut
        dsimp only at hcut
        split at hcut
        case isTrue hle =>
          cases hcut
          rw [roundToPlaces, dif_pos (by omega)]
        case isFalse hgt =>
          rw [(ofParts?_eq_some hcut).2]
          omega
      split at h
      · cases h
      · cases h
        exact hscale
    case h_2 => cases h

theorem value_roundToPrecision_unnecessary {d r : Decimal} {c : MathContext} (hmode : c.mode = .unnecessary)
    (h : d.roundToPrecision c = .ok r) : r.value = d.value := by
  unfold roundToPrecision at h
  split at h
  · cases h
    rfl
  · split at h
    case h_1 cut hcut =>
      split at h
      case isTrue => cases h
      case isFalse hsame =>
        cases h
        rwa [not_and, not_not, sameValue_iff, imp_iff_right hmode] at hsame
    case h_2 => cases h

theorem value_roundToPrecision_toDigits {d r : Decimal} {c : MathContext} (hc : c.isUnlimited = false)
    (h : d.roundToPrecision c = .ok r) : r.value = toDigits c.mode c.precision d.value := by
  unfold toDigits
  split
  case isTrue hmode => exact value_roundToPrecision_unnecessary hmode h
  case isFalse => exact value_roundToPrecision hc h

theorem bounded_of_roundToPrecision {d r : Decimal} {c : MathContext} (h : d.roundToPrecision c = .ok r) :
    Bounded c r.value := by
  rcases hc : c.isUnlimited with _ | _
  · rw [value_roundToPrecision hc h]
    exact Or.inr (hasDigits_select _ (isUnlimited_eq_false_iff.1 hc).1 _)
  · exact Or.inl hc

theorem HasPlaces.of_roundToPrecision {t : ℕ} {d r : Decimal} {c : MathContext} (hd : HasPlaces t d.value)
    (h : d.roundToPrecision c = .ok r) : HasPlaces t r.value := by
  cases hc : c.isUnlimited with
  | true =>
    rw [roundToPrecision_eq_self (Or.inl hc)] at h
    cases h
    exact hd
  | false =>
    rw [value_roundToPrecision hc h]
    exact hd.select_lastPlace c.mode c.precision

/-- A number that respects a context is rounded to it without loss, whatever the mode. -/
theorem Bounded.roundToPrecision {d : Decimal} {c : MathContext} (h : Bounded c d.value) :
    ∃ r, d.roundToPrecision c = .ok r ∧ r.value = d.value := by
  unfold Decimal.roundToPrecision
  split
  case isTrue => exact ⟨d, rfl, rfl⟩
  case isFalse hround =>
    simp only [Bool.or_eq_true, isZero_iff, decide_eq_true_eq, not_or, not_le] at hround
    obtain ⟨⟨hc, hd⟩, hp⟩ := hround
    have hsame := (h.resolve_left hc).select_lastPlace c.mode
    have hsome : d.roundToDigits c.precision c.mode ≠ none := by
      rw [Ne, roundToDigits_eq_none_iff hp hd, hsame]
      exact not_lt.2 d.abs_value_le
    obtain ⟨cut, hcut⟩ := Option.ne_none_iff_exists'.1 hsome
    have hvalue : cut.value = d.value := (value_roundToDigits hp hd hcut).trans hsame
    rw [hcut]
    dsimp only
    rw [if_neg (fun hno => hno.2 ((sameValue_iff _ _).2 hvalue))]
    exact ⟨cut, rfl, hvalue⟩

end Decimal

end Coinage
