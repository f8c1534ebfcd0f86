import Coinage.Decimal.Quotient
import Coinage.Proofs.Decimal.Nearest
/-!
# The quotient is the nearest decimal

Long division in steps of several digits gives the decimal nearest to the exact quotient, in one
rounding, although it may have rounded a digit that it gives up again. What carries the proof is the
equation `x * 10 ^ 28 = (magnitude + rest / divisor) * 10 ^ room`, which holds of the exact quotient `x`
at every step.
-/

namespace Coinage

namespace RoundingMode

/-- Rounding half-even by the last digit and by whether anything other than zero stands behind it. -/
theorem select_halfEven_digit (kept : ℕ) {digit : ℕ} (hdigit : digit < 10) {f : ℚ} (hf₀ : 0 ≤ f) (hf₁ : f < 1)
    {sticky : Bool} (hsticky : sticky = true ↔ f ≠ 0) :
    halfEven.select (kept + (digit + f) / 10) =
      ((if decide (5 < digit) || (decide (digit = 5) && (sticky || decide (kept % 2 = 1))) then kept + 1
        else kept : ℕ) : ℤ) := by
  have hnear : ∀ n : ℤ, |(kept : ℚ) + (digit + f) / 10 - n| < 1 / 2 →
      halfEven.select (kept + (digit + f) / 10) = n := fun n => IsNearest.select_eq (Or.inr (Or.inr rfl))
  rcases lt_trichotomy digit 5 with hd | rfl | hd
  · have hd₀ : (0 : ℚ) ≤ digit := by positivity
    have hd₁ : (digit : ℚ) ≤ 4 := by exact_mod_cast Nat.lt_succ_iff.1 hd
    rw [hnear kept (by rw [Int.cast_natCast, abs_lt]; constructor <;> linarith)]
    simp [not_lt.2 hd.le, hd.ne]
  · by_cases hfz : f = 0
    · have hs : sticky = false := by
        rw [← Bool.not_eq_true, hsticky]
        exact not_not.2 hfz
      have hhalf : (kept : ℚ) + ((5 : ℕ) + f) / 10 = ((kept : ℤ) : ℚ) + 1 / 2 := by
        rw [hfz]
        norm_num
      rw [hhalf, select_halfEven_half, hs]
      simp only [Int.even_iff, lt_irrefl, decide_false, decide_true, Bool.false_or, Bool.true_and,
        decide_eq_true_eq]
      split_ifs <;> omega
    · have hs : sticky = true := hsticky.2 hfz
      have hpos : 0 < f := lt_of_le_of_ne hf₀ (Ne.symm hfz)
      rw [hnear (kept + 1) (by push_cast; rw [abs_lt]; constructor <;> linarith), hs]
      simp
  · have hd₀ : (6 : ℚ) ≤ digit := by exact_mod_cast hd
    have hd₁ : (digit : ℚ) ≤ 9 := by exact_mod_cast Nat.lt_succ_iff.1 hdigit
    rw [hnear (kept + 1) (by push_cast; rw [abs_lt]; constructor <;> linarith)]
    simp [hd]

end RoundingMode

namespace Decimal

open RoundingMode

namespace Quotient

/-- What a division may answer of the exact quotient `x`: nothing if not even its integral part fits,
else a magnitude that stands for the decimal nearest to it. -/
def Answers (x : ℚ) : Option Quotient → Prop
  | none => ¬ Fits x 0
  | some q => q.room ≤ maxScale ∧ q.magnitude < capacity ∧
      nearestValue? x = some ((q.magnitude : ℚ) / 10 ^ (maxScale - q.room))

variable {x y : ℚ} {room : ℕ}

theorem scaled_eq (h : x * 10 ^ maxScale = y * 10 ^ room) (hr : room ≤ maxScale) :
    x * 10 ^ (maxScale - room) = y := by
  have hpow : (10 : ℚ) ^ maxScale = 10 ^ (maxScale - room) * 10 ^ room := by
    rw [← pow_add, Nat.sub_add_cancel hr]
  rw [hpow, ← mul_assoc] at h
  exact mul_right_cancel₀ (by positivity) h

theorem eq_mul_of_le (h : x * 10 ^ maxScale = y * 10 ^ room) (hr : maxScale ≤ room) :
    x = y * 10 ^ (room - maxScale) := by
  have hpow : (10 : ℚ) ^ room = 10 ^ (room - maxScale) * 10 ^ maxScale := by
    rw [← pow_add, Nat.sub_add_cancel hr]
  rw [hpow, ← mul_assoc] at h
  exact mul_right_cancel₀ (by positivity) h

theorem not_fits_of_room (h : x * 10 ^ maxScale = y * 10 ^ room) {k : ℕ} (hk : maxScale + k ≤ room)
    (hy : (capacity : ℚ) ≤ y * 10 ^ k) : ¬ Fits x 0 := by
  have hy₀ : 0 ≤ y := by
    by_contra hneg
    have : y * 10 ^ k ≤ 0 := mul_nonpos_of_nonpos_of_nonneg (not_le.1 hneg).le (by positivity)
    have hcap : (0 : ℚ) < capacity := by norm_num [capacity]
    linarith
  refine not_fits_of_capacity_le ?_
  rw [pow_zero, mul_one, eq_mul_of_le h (by omega), abs_of_nonneg (by positivity)]
  refine hy.trans (mul_le_mul_of_nonneg_left ?_ hy₀)
  exact pow_le_pow_right₀ (by norm_num) (by omega)

theorem headroom_spec (magnitude limit : ℕ) (hm : magnitude < capacity) :
    magnitude * 10 ^ headroom magnitude limit < capacity ∧
      (headroom magnitude limit < limit → capacity ≤ magnitude * 10 ^ (headroom magnitude limit + 1)) := by
  induction limit with
  | zero => exact ⟨by simpa [headroom] using hm, by simp [headroom]⟩
  | succ limit ih =>
    unfold headroom
    split
    case isTrue h => exact ⟨h, fun hlt => absurd hlt (lt_irrefl _)⟩
    case isFalse h =>
      refine ⟨ih.1, fun _ => ?_⟩
      rcases (headroom_le magnitude limit).eq_or_lt with heq | hlt
      · rw [heq]
        exact not_lt.1 h
      · exact ih.2 hlt

/-- Giving up the last digit of a magnitude that left the range rounds the exact value once. -/
theorem answers_dropDigit {grown : ℕ} {f : ℚ} (hf₀ : 0 ≤ f) (hf₁ : f < 1)
    (hx : x * 10 ^ maxScale = (grown + f) * 10 ^ room) (hlow : capacity ≤ grown) (hhigh : grown < 2 * capacity)
    {sticky : Bool} (hsticky : sticky = true ↔ f ≠ 0) : Answers x (dropDigit grown room sticky) := by
  have hlow' : (capacity : ℚ) ≤ grown := by exact_mod_cast hlow
  unfold dropDigit
  split
  case isTrue hr => exact not_fits_of_room hx (k := 0) hr (by rw [pow_zero, mul_one]; linarith)
  case isFalse hr =>
    have hroom : room < maxScale := not_le.1 hr
    obtain ⟨t, ht⟩ : ∃ t, maxScale - room = t + 1 := ⟨maxScale - room - 1, by omega⟩
    have hscaled := scaled_eq hx hroom.le
    rw [ht] at hscaled
    have htoo : ¬ Fits x (t + 1) := by
      refine not_fits_of_capacity_le ?_
      have hx₀ : 0 ≤ x := by
        by_contra hneg
        have : x * 10 ^ (t + 1) ≤ 0 := mul_nonpos_of_nonpos_of_nonneg (not_le.1 hneg).le (by positivity)
        have hcap : (0 : ℚ) < capacity := by norm_num [capacity]
        linarith
      rw [abs_of_nonneg hx₀, hscaled]
      linarith
    have hkept : x * 10 ^ t = (grown / 10 : ℕ) + ((grown % 10 : ℕ) + f) / 10 := by
      have hsplit : (grown : ℚ) = (grown / 10 : ℕ) * 10 + (grown % 10 : ℕ) := by
        exact_mod_cast (Nat.div_add_mod' grown 10).symm
      rw [pow_succ, hsplit] at hscaled
      linarith
    have hunits := select_halfEven_digit (grown / 10) (Nat.mod_lt grown (by decide)) hf₀ hf₁ hsticky
    rw [← hkept] at hunits
    have hsmall : (if decide (5 < grown % 10) || (decide (grown % 10 = 5) && (sticky || decide (grown / 10 % 2 = 1)))
        then grown / 10 + 1 else grown / 10) < capacity := by
      have hcap : capacity = 79228162514264337593543950336 := by norm_num [capacity]
      split <;> omega
    refine ⟨hroom, hsmall, ?_⟩
    have hfits : Fits x t := by rwa [Fits, unitsNear, hunits, Int.natAbs_natCast]
    rw [nearestValue?_of_fits (by omega) hfits (Or.inr htoo), roundedAt, unitsNear, hunits, Int.cast_natCast]
    dsimp only
    rw [show maxScale - (room + 1) = t by omega]

/-- The largest magnitude, carried by a rest of at least one half, loses its last digit. -/
theorem answers_dropDigit_carry {f : ℚ} (hf₀ : 1 / 2 ≤ f) (hf₁ : f < 1) (hroom : room ≤ maxScale)
    (hscaled : x * 10 ^ (maxScale - room) = (capacity : ℚ) - 1 + f) (hno : ¬ Fits x (maxScale - room)) :
    Answers x (dropDigit capacity room true) := by
  unfold dropDigit
  split
  case isTrue hr =>
    rw [show maxScale - room = 0 by omega] at hno
    exact hno
  case isFalse hr =>
    obtain ⟨t, ht⟩ : ∃ t, maxScale - room = t + 1 := ⟨maxScale - room - 1, by omega⟩
    rw [ht] at hscaled hno
    have hunits : unitsNear x t = 7922816251426433759354395034 := by
      refine isNearest_halfEven.select_eq ?_
      rw [pow_succ] at hscaled
      norm_num [capacity] at hscaled
      push_cast
      rw [abs_lt]
      constructor <;> linarith
    have hfits : Fits x t := by
      rw [Fits, hunits]
      decide
    refine ⟨not_le.1 hr, by norm_num [capacity], ?_⟩
    rw [nearestValue?_of_fits (by omega) hfits (Or.inr hno), roundedAt, hunits]
    dsimp only
    rw [show maxScale - (room + 1) = t by omega]
    norm_num [capacity]

theorem settle_eq {divisor magnitude rest : ℕ} (hrest : rest < divisor)
    (hscaled : x * 10 ^ (maxScale - room) = (magnitude : ℚ) + rest / divisor) :
    ∃ rounded : ℕ, unitsNear x (maxScale - room) = rounded ∧
      (rounded = magnitude ∨ rounded = magnitude + 1 ∧ divisor ≤ 2 * rest) ∧
      settle divisor magnitude rest room =
        if capacity ≤ rounded then dropDigit rounded room true else some ⟨rounded, room⟩ := by
  refine ⟨if halfEven.stepsAway false magnitude rest divisor then magnitude + 1 else magnitude, ?_, ?_, rfl⟩
  · rw [halfEven.step_eq_select false magnitude hrest, unitsNear, hscaled]
    rfl
  · split_ifs with hstep
    · simp only [stepsAway, Bool.or_eq_true, Bool.and_eq_true, decide_eq_true_eq] at hstep
      omega
    · exact Or.inl rfl

/-- Rounding by the rest is the one rounding of the exact value, also where it leaves the range. -/
theorem answers_settle {divisor magnitude rest : ℕ} (hrest : rest < divisor) (hm : magnitude < capacity)
    (hx : x * 10 ^ maxScale = ((magnitude : ℚ) + rest / divisor) * 10 ^ room) (hroom : room ≤ maxScale)
    (hfull : room = 0 ∨ capacity ≤ magnitude * 10) : Answers x (settle divisor magnitude rest room) := by
  have hscaled := scaled_eq hx hroom
  have hd : (0 : ℚ) < divisor := by exact_mod_cast Nat.zero_lt_of_lt hrest
  have hrest₀ : (0 : ℚ) ≤ rest / divisor := by positivity
  have hrest₁ : (rest : ℚ) / divisor < 1 := by
    rw [div_lt_one hd]
    exact_mod_cast hrest
  obtain ⟨rounded, hunits, hrounded, hsettle⟩ := settle_eq hrest hscaled
  rw [hsettle]
  split
  case isTrue hle =>
    obtain ⟨rfl, hhalf⟩ : rounded = magnitude + 1 ∧ divisor ≤ 2 * rest := by omega
    have hmag : magnitude + 1 = capacity := by omega
    have hhalf' : (1 : ℚ) / 2 ≤ rest / divisor := by
      rw [div_le_div_iff₀ two_pos hd]
      exact_mod_cast (by omega : 1 * divisor ≤ rest * 2)
    have hno : ¬ Fits x (maxScale - room) := by
      rw [Fits, hunits, Int.natAbs_natCast]
      exact not_lt.2 hle
    have hcap : (magnitude : ℚ) = capacity - 1 := by
      rw [← hmag]
      push_cast
      ring
    rw [hcap] at hscaled
    rw [hmag]
    exact answers_dropDigit_carry hhalf' hrest₁ hroom hscaled hno
  case isFalse hlt =>
    have hfits : Fits x (maxScale - room) := by
      rw [Fits, hunits, Int.natAbs_natCast]
      exact not_le.1 hlt
    refine ⟨hroom, not_le.1 hlt, ?_⟩
    rw [nearestValue?_of_fits (Nat.sub_le _ _) hfits ?_, roundedAt, hunits, Int.cast_natCast]
    rcases hfull with rfl | hfull
    · exact Or.inl rfl
    · refine Or.inr (not_fits_of_capacity_le ?_)
      have hfull' : (capacity : ℚ) ≤ magnitude * 10 := by exact_mod_cast hfull
      have hnext : x * 10 ^ (maxScale - room + 1) = (magnitude + rest / divisor) * 10 := by
        rw [pow_succ, ← mul_assoc, hscaled]
      rw [← abs_of_pos (by positivity : (0 : ℚ) < 10 ^ (maxScale - room + 1)), ← abs_mul, hnext,
        abs_of_nonneg (by positivity), add_mul]
      exact hfull'.trans (le_add_of_nonneg_right (by positivity))

theorem stride_le_nine (magnitude rest room : ℕ) : stride magnitude rest room ≤ 9 := by
  unfold stride
  split
  · exact min_le_left _ _
  · exact (headroom_le _ _).trans (min_le_left _ _)

/-- Appending digits to a quotient leaves the value that it stands for. -/
theorem append_digits (magnitude rest : ℕ) {divisor step room : ℕ} (hd : 0 < divisor) (hstep : step ≤ room) :
    ((magnitude : ℚ) + rest / divisor) * 10 ^ room =
      ((magnitude * 10 ^ step + rest * 10 ^ step / divisor : ℕ) +
        ((rest * 10 ^ step % divisor : ℕ) : ℚ) / divisor) * 10 ^ (room - step) := by
  have h := natCast_div_eq (rest * 10 ^ step) hd
  have hpow : (10 : ℚ) ^ room = 10 ^ step * 10 ^ (room - step) := by rw [← pow_add, Nat.add_sub_cancel' hstep]
  push_cast at h
  push_cast
  rw [hpow, ← mul_assoc, add_mul, div_mul_eq_mul_div, h, add_assoc]

theorem grown_lt {divisor magnitude rest step : ℕ} (hrest : rest < divisor) (hstep : step ≤ 9)
    (hlarge : magnitude * 10 ^ step < capacity) :
    magnitude * 10 ^ step + rest * 10 ^ step / divisor < 2 * capacity := by
  have hquot : rest * 10 ^ step / divisor < 10 ^ step := by
    rw [Nat.div_lt_iff_lt_mul (Nat.zero_lt_of_lt hrest), mul_comm]
    exact (Nat.mul_lt_mul_left (by positivity)).2 hrest
  rcases Nat.eq_zero_or_pos magnitude with rfl | hpos
  · have hpow : 10 ^ step ≤ 10 ^ 9 := Nat.pow_le_pow_right (by decide) hstep
    have hcap : 10 ^ 9 < capacity := by norm_num [capacity]
    omega
  · have : 10 ^ step ≤ magnitude * 10 ^ step := Nat.le_mul_of_pos_left _ hpos
    omega

/-- The invariant of long division: the exact quotient is `(magnitude + rest / divisor) * 10 ^ (room - 28)`. -/
theorem answers_develop {divisor : ℕ} (magnitude rest room : ℕ) (sawRest : Bool) (hrest : rest < divisor)
    (hm : magnitude < capacity) (hx : x * 10 ^ maxScale = ((magnitude : ℚ) + rest / divisor) * 10 ^ room) :
    Answers x ((develop divisor magnitude rest room sawRest).map Prod.fst) := by
  have hd : 0 < divisor := Nat.zero_lt_of_lt hrest
  fun_induction develop divisor magnitude rest room sawRest with
  | case1 magnitude rest room sawRest hstop =>
    have hscaled := scaled_eq hx hstop.2
    rw [hstop.1, Nat.cast_zero, zero_div, add_zero] at hscaled
    refine ⟨hstop.2, hm, ?_⟩
    rw [nearestValue?_of_exact (n := magnitude) (Nat.sub_le _ _) (by exact_mod_cast hscaled) (by simpa using hm)]
    rw [← hscaled, mul_div_cancel_right₀ _ (by positivity)]
  | case2 magnitude rest room sawRest hstop step hover =>
    have hstride : step = headroom magnitude (min 9 room) := if_neg hover.1
    have hfull := (headroom_spec magnitude (min 9 room) hm).2 (by omega)
    rw [← hstride] at hfull
    refine not_fits_of_room hx (k := step + 1) (by omega) ?_
    have hfull' : (capacity : ℚ) ≤ magnitude * 10 ^ (step + 1) := by exact_mod_cast hfull
    rw [add_mul]
    exact hfull'.trans (le_add_of_nonneg_right (by positivity))
  | case3 magnitude rest room sawRest hstop inexact step hover hstep =>
    rw [Option.map_map, show (Prod.fst ∘ fun q : Quotient => (q, inexact)) = id from rfl, Option.map_id]
    have hrest₀ : rest ≠ 0 := by
      rintro rfl
      have hstride : step = min 9 (room - maxScale) := if_pos rfl
      omega
    have hroom : room ≤ maxScale := by omega
    refine answers_settle hrest hm hx hroom ?_
    have hstride : step = headroom magnitude (min 9 room) := if_neg hrest₀
    rcases Nat.eq_zero_or_pos room with hr | hr
    · exact Or.inl hr
    · have hfull := (headroom_spec magnitude (min 9 room) hm).2 (by omega)
      rw [← hstride, hstep, zero_add, pow_one] at hfull
      exact Or.inr hfull
  | case4 magnitude rest room sawRest hstop step hover hstep hlarge =>
    have hrest₀ : rest = 0 := by
      by_contra hne
      have hstride : step = headroom magnitude (min 9 room) := if_neg hne
      have := (headroom_spec magnitude (min 9 room) hm).1
      rw [← hstride] at this
      omega
    have hstride : step = min 9 (room - maxScale) := if_pos hrest₀
    refine not_fits_of_room hx (k := step) (by omega) ?_
    have hlarge' : (capacity : ℚ) ≤ magnitude * 10 ^ step := by exact_mod_cast hlarge
    rw [add_mul]
    exact hlarge'.trans (le_add_of_nonneg_right (by positivity))
  | case5 magnitude rest room sawRest hstop inexact step hover hstep hlarge grown left hgrown =>
    rw [Option.map_map, show (Prod.fst ∘ fun q : Quotient => (q, inexact)) = id from rfl, Option.map_id]
    rw [append_digits magnitude rest hd (stride_le _ _ _)] at hx
    have hleft : left < divisor := Nat.mod_lt _ hd
    have hd' : (0 : ℚ) < divisor := by exact_mod_cast hd
    refine answers_dropDigit (by positivity) ?_ hx hgrown ?_ ?_
    · rw [div_lt_one hd']
      exact_mod_cast hleft
    · exact grown_lt hrest (stride_le_nine _ _ _) (not_le.1 hlarge)
    · rw [decide_eq_true_eq, Ne, Ne, div_eq_zero_iff, Nat.cast_eq_zero, or_iff_left hd'.ne']
  | case6 magnitude rest room sawRest hstop inexact step hover hstep hlarge grown left hgrown ih =>
    rw [append_digits magnitude rest hd (stride_le _ _ _)] at hx
    exact ih (Nat.mod_lt _ hd) (not_le.1 hgrown) hx

/-! ### Trailing zeros -/

theorem value_of_dropped {m s count : ℕ} (hs : count ≤ s) (hm : m % 10 ^ count = 0) :
    ((m / 10 ^ count : ℕ) : ℚ) / 10 ^ (s - count) = (m : ℚ) / 10 ^ s := by
  have hdvd : (m : ℚ) = (m / 10 ^ count : ℕ) * 10 ^ count := by
    exact_mod_cast (Nat.div_mul_cancel (Nat.dvd_of_mod_eq_zero hm)).symm
  have hpow : (10 : ℚ) ^ s = 10 ^ (s - count) * 10 ^ count := by rw [← pow_add, Nat.sub_add_cancel hs]
  rw [hpow, hdvd, mul_div_mul_right _ _ (by positivity)]

theorem dropEights_spec (m s : ℕ) : ((dropEights m s).1 : ℚ) / 10 ^ (dropEights m s).2 = (m : ℚ) / 10 ^ s ∧
    (dropEights m s).1 ≤ m ∧ (dropEights m s).2 ≤ s := by
  fun_induction dropEights m s with
  | case1 m s h ih =>
    obtain ⟨hv, hm, hs⟩ := ih
    exact ⟨hv.trans (value_of_dropped h.1 h.2.2), hm.trans (Nat.div_le_self _ _), by omega⟩
  | case2 m s h => exact ⟨rfl, le_rfl, le_rfl⟩

theorem dropOnce_spec (count : ℕ) (digits : ℕ × ℕ) :
    ((dropOnce count digits).1 : ℚ) / 10 ^ (dropOnce count digits).2 = (digits.1 : ℚ) / 10 ^ digits.2 ∧
      (dropOnce count digits).1 ≤ digits.1 ∧ (dropOnce count digits).2 ≤ digits.2 := by
  unfold dropOnce
  split
  case isTrue h => exact ⟨value_of_dropped h.1 h.2, Nat.div_le_self _ _, Nat.sub_le _ _⟩
  case isFalse => exact ⟨rfl, le_rfl, le_rfl⟩

/-- Dropping zeros changes no value. -/
theorem tidy_spec (m s : ℕ) : ((tidy m s).1 : ℚ) / 10 ^ (tidy m s).2 = (m : ℚ) / 10 ^ s ∧
    (tidy m s).1 ≤ m ∧ (tidy m s).2 ≤ s := by
  obtain ⟨hv₈, hm₈, hs₈⟩ := dropEights_spec m s
  obtain ⟨hv₄, hm₄, hs₄⟩ := dropOnce_spec 4 (dropEights m s)
  obtain ⟨hv₂, hm₂, hs₂⟩ := dropOnce_spec 2 (dropOnce 4 (dropEights m s))
  obtain ⟨hv₁, hm₁, hs₁⟩ := dropOnce_spec 1 (dropOnce 2 (dropOnce 4 (dropEights m s)))
  unfold tidy
  refine ⟨?_, by omega, by omega⟩
  rw [hv₁, hv₂, hv₄, hv₈]

end Quotient

theorem sign_mul_abs_value (d : Decimal) : (d.mantissa.sign : ℚ) * |d.value| = d.value := by
  have h : (d.mantissa.sign : ℚ) * d.mantissa.natAbs = d.mantissa := by
    rw [← Int.cast_natCast, ← Int.cast_mul, Int.sign_mul_natAbs]
  rw [abs_value, ← mul_div_assoc, h, value]

theorem sign_eq_one_or (n : ℤ) (hn : n ≠ 0) : n.sign = 1 ∨ n.sign = -1 := by
  rcases lt_or_gt_of_ne hn with h | h
  · exact Or.inr (Int.sign_eq_neg_one_of_neg h)
  · exact Or.inl (Int.sign_eq_one_of_pos h)

theorem div_value_eq (a b : Decimal) (hb : b.value ≠ 0) :
    a.value / b.value = ((a.mantissa.sign * b.mantissa.sign : ℤ) : ℚ) * (|a.value| / |b.value|) := by
  have hsign : (b.mantissa.sign : ℚ)⁻¹ = b.mantissa.sign := by
    rcases sign_eq_one_or b.mantissa (by rwa [Ne, ← value_eq_zero_iff]) with h | h <;> rw [h] <;> norm_num
  calc a.value / b.value
      = (a.mantissa.sign * |a.value|) / (b.mantissa.sign * |b.value|) := by
        rw [sign_mul_abs_value, sign_mul_abs_value]
    _ = a.mantissa.sign * (b.mantissa.sign : ℚ)⁻¹ * (|a.value| / |b.value|) := by
        rw [mul_div_mul_comm, div_eq_mul_inv (a.mantissa.sign : ℚ)]
    _ = _ := by rw [hsign, Int.cast_mul]

theorem nearestValue?_sign_mul {s : ℤ} (hs : s = 1 ∨ s = -1) (x : ℚ) :
    nearestValue? (s * x) = (nearestValue? x).map ((s : ℚ) * ·) := by
  rcases hs with rfl | rfl
  · simp
  · simp only [Int.cast_neg, Int.cast_one, neg_one_mul]
    exact nearestValue?_neg x

/-- Where long division starts: at the integer quotient of the mantissas, with all places still free. -/
theorem abs_quotient_eq (a b : Decimal) (hb : 0 < b.mantissa.natAbs) :
    |a.value| / |b.value| * 10 ^ maxScale =
      ((a.mantissa.natAbs / b.mantissa.natAbs : ℕ) +
        ((a.mantissa.natAbs % b.mantissa.natAbs : ℕ) : ℚ) / b.mantissa.natAbs) * 10 ^ (maxScale + b.scale - a.scale) := by
  have ha := a.scale_le
  have hb' : (b.mantissa.natAbs : ℚ) ≠ 0 := by exact_mod_cast hb.ne'
  have hpow : (10 : ℚ) ^ (maxScale + b.scale - a.scale) * 10 ^ a.scale = 10 ^ maxScale * 10 ^ b.scale := by
    rw [← pow_add, ← pow_add]
    congr 1
    simp only [maxScale]
    omega
  rw [← RoundingMode.natCast_div_eq _ hb, abs_value, abs_value, div_div_div_eq, div_mul_eq_mul_div,
    div_mul_eq_mul_div, div_eq_div_iff (by positivity) hb']
  linear_combination (-(a.mantissa.natAbs : ℚ) * b.mantissa.natAbs) * hpow

/-- A quotient is the decimal nearest to the exact quotient. -/
theorem map_value_div? (a b : Decimal) (hb : b.value ≠ 0) :
    (a.div? b).map value = nearestValue? (a.value / b.value) := by
  unfold div?
  rw [if_neg (by rw [isZero_iff]; exact hb)]
  split
  case isTrue ha =>
    rw [(a.isZero_iff).1 ha, zero_div, ← value_zero, nearestValue?_value, Option.map_some]
  case isFalse ha =>
    have hdivisor : 0 < b.mantissa.natAbs := Int.natAbs_pos.2 (by rwa [Ne, ← value_eq_zero_iff])
    have hans := Quotient.answers_develop _ _ _ false (Nat.mod_lt a.mantissa.natAbs hdivisor)
      ((Nat.div_le_self _ _).trans_lt a.natAbs_mantissa_lt) (abs_quotient_eq a b hdivisor)
    have hsign : a.mantissa.sign * b.mantissa.sign = 1 ∨ a.mantissa.sign * b.mantissa.sign = -1 := by
      rw [← Int.sign_mul]
      refine sign_eq_one_or _ (mul_ne_zero ?_ ?_)
      · rwa [Ne, ← value_eq_zero_iff, ← isZero_iff]
      · rwa [Ne, ← value_eq_zero_iff]
    rw [div_value_eq a b hb, nearestValue?_sign_mul hsign]
    dsimp only
    split
    case h_1 hdev =>
      rw [hdev] at hans
      rw [nearestValue?_eq_none_iff.2 hans, Option.map_none, Option.map_none]
    case h_2 q sawRest hdev =>
      rw [hdev] at hans
      obtain ⟨hroom, hmag, hnear⟩ := hans
      obtain ⟨digits, hdigits, hvalue, hle, hscale⟩ : ∃ digits : ℕ × ℕ,
          (if sawRest then Quotient.tidy q.magnitude (maxScale - q.room)
            else (q.magnitude, maxScale - q.room)) = digits ∧
          (digits.1 : ℚ) / 10 ^ digits.2 = (q.magnitude : ℚ) / 10 ^ (maxScale - q.room) ∧
          digits.1 ≤ q.magnitude ∧ digits.2 ≤ maxScale - q.room := by
        refine ⟨_, rfl, ?_⟩
        split
        · exact Quotient.tidy_spec _ _
        · exact ⟨rfl, le_rfl, le_rfl⟩
      have hmantissa : (a.mantissa.sign * b.mantissa.sign * digits.1).natAbs < capacity := by
        rw [Int.natAbs_mul, Int.natAbs_natCast]
        rcases hsign with h | h <;> rw [h] <;> simpa using hle.trans_lt hmag
      obtain ⟨d, hd, -, -⟩ := exists_ofParts? hmantissa (hscale.trans (Nat.sub_le _ _))
      rw [hnear, hdigits, hd, Option.map_some, Option.map_some, value_ofParts? hd, ← hvalue, Int.cast_mul,
        Int.cast_natCast, mul_div_assoc]

end Decimal

end Coinage
