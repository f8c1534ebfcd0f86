import Coinage.Rounding.Mode
import Mathlib.Data.Rat.Floor
import Mathlib.Tactic
/-!
# Rounding modes on rational numbers

`RoundingMode.select` says which integer a mode takes for a rational number. It is written with floors
and ceilings and knows nothing of digits; `roundQuotient_eq_select` ties the rounding of quotients to
it. Every statement about a rounded decimal goes through this module.
-/

namespace Coinage

namespace RoundingMode

/-- The integer that a mode takes for a rational number. Under the mode that drops no digits it is the
integral part, which is the number itself wherever that mode is allowed to round. -/
def select (mode : RoundingMode) (x : ℚ) : ℤ :=
  match mode with
  | up => if 0 ≤ x then ⌈x⌉ else ⌊x⌋
  | down => if 0 ≤ x then ⌊x⌋ else ⌈x⌉
  | ceiling => ⌈x⌉
  | floor => ⌊x⌋
  | halfUp => if 0 ≤ x then ⌊x + 1 / 2⌋ else ⌈x - 1 / 2⌉
  | halfDown => if 0 ≤ x then ⌈x - 1 / 2⌉ else ⌊x + 1 / 2⌋
  | halfEven => if Even ⌊x + 1 / 2⌋ then ⌊x + 1 / 2⌋ else ⌈x - 1 / 2⌉
  | unnecessary => if 0 ≤ x then ⌊x⌋ else ⌈x⌉

/-- The mode that does to `-x` what this one does to `x`. -/
def mirror : RoundingMode → RoundingMode
  | ceiling => floor
  | floor => ceiling
  | mode => mode

/-- The modes that take the nearest integer wherever there is only one. -/
def IsNearest (mode : RoundingMode) : Prop :=
  mode = halfUp ∨ mode = halfDown ∨ mode = halfEven

/-! ### Between floor and ceiling -/

theorem isNearest_halfEven : halfEven.IsNearest := Or.inr (Or.inr rfl)

theorem isNearest_halfUp : halfUp.IsNearest := Or.inl rfl

theorem floor_add_half_le_ceil (x : ℚ) : ⌊x + 1 / 2⌋ ≤ ⌈x⌉ := by
  have hc := Int.le_ceil x
  have : ⌊x + 1 / 2⌋ < ⌈x⌉ + 1 := by
    rw [Int.floor_lt]
    push_cast
    linarith
  omega

theorem floor_le_ceil_sub_half (x : ℚ) : ⌊x⌋ ≤ ⌈x - 1 / 2⌉ := by
  have hf := Int.floor_le x
  have : ⌊x⌋ - 1 < ⌈x - 1 / 2⌉ := by
    rw [Int.lt_ceil]
    push_cast
    linarith
  omega

theorem ceil_sub_half_le_floor_add_half (x : ℚ) : ⌈x - 1 / 2⌉ ≤ ⌊x + 1 / 2⌋ := by
  rw [Int.ceil_le]
  have := Int.lt_floor_add_one (x + 1 / 2)
  linarith

theorem IsNearest.bounds {mode : RoundingMode} (h : mode.IsNearest) (x : ℚ) :
    ⌈x - 1 / 2⌉ ≤ mode.select x ∧ mode.select x ≤ ⌊x + 1 / 2⌋ := by
  have hle := ceil_sub_half_le_floor_add_half x
  rcases h with rfl | rfl | rfl <;> unfold select <;> dsimp only <;> split <;> omega

theorem select_bounds (mode : RoundingMode) (x : ℚ) :
    ⌊x⌋ ≤ mode.select x ∧ mode.select x ≤ ⌈x⌉ := by
  have hlow := floor_le_ceil_sub_half x
  have hhigh := floor_add_half_le_ceil x
  have hmid := Int.floor_le_ceil x
  by_cases hn : mode.IsNearest
  · have := hn.bounds x
    omega
  · cases mode with
    | halfUp | halfDown | halfEven => simp [IsNearest] at hn
    | ceiling | floor => exact ⟨by simp only [select]; omega, by simp only [select]; omega⟩
    | up | down | unnecessary =>
      simp only [select]
      split <;> omega

@[simp]
theorem select_intCast (mode : RoundingMode) (n : ℤ) : mode.select n = n := by
  have h := mode.select_bounds n
  rw [Int.floor_intCast, Int.ceil_intCast] at h
  omega

@[simp]
theorem select_zero (mode : RoundingMode) : mode.select 0 = 0 := by
  simpa using mode.select_intCast 0

/-- A multiple of the unit `u` is not changed by rounding to a multiple of it. -/
theorem select_div_mul (mode : RoundingMode) {x u : ℚ} {n : ℤ} (hu : u ≠ 0) (h : x / u = n) :
    mode.select (x / u) * u = x := by
  rw [h, select_intCast, ← h, div_mul_cancel₀ _ hu]

/-- Only a multiple of the unit is its own rounding. -/
theorem select_div_mul_eq_iff (mode : RoundingMode) {x u : ℚ} (hu : u ≠ 0) :
    mode.select (x / u) * u = x ↔ ∃ k : ℤ, x = k * u := by
  constructor
  · intro h
    exact ⟨_, h.symm⟩
  · intro ⟨k, hk⟩
    exact mode.select_div_mul hu ((div_eq_iff hu).2 hk)

theorem abs_select_sub_lt_one (mode : RoundingMode) (x : ℚ) : |(mode.select x : ℚ) - x| < 1 := by
  obtain ⟨hlow, hhigh⟩ := mode.select_bounds x
  have hlow' : (⌊x⌋ : ℚ) ≤ mode.select x := by exact_mod_cast hlow
  have hhigh' : (mode.select x : ℚ) ≤ ⌈x⌉ := by exact_mod_cast hhigh
  have hf := Int.lt_floor_add_one x
  have hc := Int.ceil_lt_add_one x
  rw [abs_lt]
  constructor <;> linarith

theorem IsNearest.abs_select_sub_le {mode : RoundingMode} (h : mode.IsNearest) (x : ℚ) :
    |(mode.select x : ℚ) - x| ≤ 1 / 2 := by
  obtain ⟨hlow, hhigh⟩ := h.bounds x
  have hlow' : (⌈x - 1 / 2⌉ : ℚ) ≤ mode.select x := by exact_mod_cast hlow
  have hhigh' : (mode.select x : ℚ) ≤ ⌊x + 1 / 2⌋ := by exact_mod_cast hhigh
  have hf := Int.floor_le (x + 1 / 2)
  have hc := Int.le_ceil (x - 1 / 2)
  rw [abs_le]
  constructor <;> linarith

/-- Of the numbers that lie closer than one half to an integer, a nearest mode takes that integer. -/
theorem IsNearest.select_eq {mode : RoundingMode} (h : mode.IsNearest) {x : ℚ} {n : ℤ}
    (hn : |x - n| < 1 / 2) : mode.select x = n := by
  obtain ⟨hlow, hhigh⟩ := h.bounds x
  rw [abs_lt] at hn
  have hf : ⌊x + 1 / 2⌋ = n := by
    rw [Int.floor_eq_iff]
    constructor <;> linarith
  have hc : ⌈x - 1 / 2⌉ = n := by
    rw [Int.ceil_eq_iff]
    constructor <;> linarith
  omega

/-! ### Symmetry and order -/

theorem floor_add_half_le_succ (x : ℚ) : ⌊x + 1 / 2⌋ ≤ ⌈x - 1 / 2⌉ + 1 := by
  have hf := Int.floor_le (x + 1 / 2)
  have hc := Int.le_ceil (x - 1 / 2)
  have : (⌊x + 1 / 2⌋ : ℚ) ≤ ⌈x - 1 / 2⌉ + 1 := by linarith
  exact_mod_cast this

theorem select_neg (mode : RoundingMode) (x : ℚ) : mode.select (-x) = -mode.mirror.select x := by
  have hfloor : ⌊-x + 1 / 2⌋ = -⌈x - 1 / 2⌉ := by
    rw [← Int.floor_neg]
    congr 1
    ring
  have hceil : ⌈-x - 1 / 2⌉ = -⌊x + 1 / 2⌋ := by
    rw [← Int.ceil_neg]
    congr 1
    ring
  have heven : halfEven.select (-x) = -halfEven.select x := by
    have hle := ceil_sub_half_le_floor_add_half x
    have hsucc := floor_add_half_le_succ x
    simp only [select, hfloor, hceil, Int.even_iff]
    split <;> split <;> omega
  rcases lt_trichotomy x 0 with hx | rfl | hx
  · have h₀ : ¬ 0 ≤ x := not_le.2 hx
    have h₁ : 0 ≤ -x := by linarith
    cases mode with
    | halfEven => exact heven
    | _ => simp only [mirror, select, if_pos h₁, if_neg h₀, hfloor, hceil, Int.floor_neg, Int.ceil_neg]
  · simp
  · have h₀ : 0 ≤ x := hx.le
    have h₁ : ¬ 0 ≤ -x := by linarith
    cases mode with
    | halfEven => exact heven
    | _ => simp only [mirror, select, if_neg h₁, if_pos h₀, hfloor, hceil, Int.floor_neg, Int.ceil_neg]

@[simp]
theorem mirror_mirror (mode : RoundingMode) : mode.mirror.mirror = mode := by
  cases mode <;> rfl

theorem mirror_ne_unnecessary {mode : RoundingMode} (h : mode ≠ unnecessary) : mode.mirror ≠ unnecessary := by
  intro hmirror
  rw [← mirror_mirror mode, hmirror] at h
  exact h rfl

theorem IsNearest.mirror_eq {mode : RoundingMode} (h : mode.IsNearest) : mode.mirror = mode := by
  rcases h with rfl | rfl | rfl <;> rfl

theorem select_nonneg (mode : RoundingMode) {x : ℚ} (hx : 0 ≤ x) : 0 ≤ mode.select x :=
  (Int.floor_nonneg.2 hx).trans (mode.select_bounds x).1

/-- A larger number is never rounded to a smaller integer. -/
theorem select_mono (mode : RoundingMode) {x y : ℚ} (h : x ≤ y) : mode.select x ≤ mode.select y := by
  rcases h.eq_or_lt with rfl | hlt
  · exact le_rfl
  by_cases hn : mode.IsNearest
  · -- the upper candidate of the smaller number is at most the lower candidate of the larger one
    have hx := (hn.bounds x).2
    have hy := (hn.bounds y).1
    have hcross : ⌊x + 1 / 2⌋ ≤ ⌈y - 1 / 2⌉ := by
      have hf := Int.floor_le (x + 1 / 2)
      have hc := Int.le_ceil (y - 1 / 2)
      have : (⌊x + 1 / 2⌋ : ℚ) < ⌈y - 1 / 2⌉ + 1 := by linarith
      exact Int.lt_add_one_iff.1 (by exact_mod_cast this)
    omega
  · have hf := Int.floor_mono h
    have hc := Int.ceil_mono h
    cases mode with
    | ceiling => exact hc
    | floor => exact hf
    | halfUp | halfDown | halfEven => simp [IsNearest] at hn
    | up | down | unnecessary =>
      rcases lt_or_ge x 0 with hx | hx
      · have hx' : ⌈x⌉ ≤ 0 := Int.ceil_le.2 (by exact_mod_cast hx.le)
        have hx'' : ⌊x⌋ ≤ 0 := (Int.floor_le_ceil x).trans hx'
        rcases lt_or_ge y 0 with hy | hy
        · simpa only [select, if_neg (not_le.2 hx), if_neg (not_le.2 hy)]
        · have hy' : 0 ≤ ⌊y⌋ := Int.floor_nonneg.2 hy
          have hy'' : 0 ≤ ⌈y⌉ := hy'.trans (Int.floor_le_ceil y)
          simp only [select, if_neg (not_le.2 hx), if_pos hy]
          omega
      · simpa only [select, if_pos hx, if_pos (hx.trans h)]

/-! No number is rounded across an integer. -/

theorem le_select (mode : RoundingMode) {x : ℚ} {n : ℤ} (h : (n : ℚ) ≤ x) : n ≤ mode.select x := by
  have hmono := mode.select_mono h
  rwa [select_intCast] at hmono

theorem select_le (mode : RoundingMode) {x : ℚ} {n : ℤ} (h : x ≤ n) : mode.select x ≤ n := by
  have hmono := mode.select_mono h
  rwa [select_intCast] at hmono

theorem IsNearest.abs_select {mode : RoundingMode} (h : mode.IsNearest) (x : ℚ) :
    |mode.select x| = mode.select |x| := by
  rcases le_total 0 x with hx | hx
  · rw [abs_of_nonneg hx, abs_of_nonneg (mode.select_nonneg hx)]
  · have hneg := mode.select_neg (-x)
    rw [neg_neg, h.mirror_eq] at hneg
    have hpos := mode.select_nonneg (neg_nonneg.2 hx)
    rw [abs_of_nonpos hx, hneg, abs_neg, abs_of_nonneg hpos]

theorem IsNearest.natAbs_select_le {mode : RoundingMode} (h : mode.IsNearest) {x y : ℚ} (hxy : |x| ≤ |y|) :
    (mode.select x).natAbs ≤ (mode.select y).natAbs := by
  have := mode.select_mono hxy
  rw [← h.abs_select, ← h.abs_select, Int.abs_eq_natAbs, Int.abs_eq_natAbs] at this
  exact_mod_cast this

theorem select_halfEven_half (n : ℤ) : halfEven.select (n + 1 / 2) = if Even n then n else n + 1 := by
  have hf : ⌊(n : ℚ) + 1 / 2 + 1 / 2⌋ = n + 1 := by
    rw [show (n : ℚ) + 1 / 2 + 1 / 2 = ((n + 1 : ℤ) : ℚ) by push_cast; ring, Int.floor_intCast]
  have hc : ⌈(n : ℚ) + 1 / 2 - 1 / 2⌉ = n := by rw [add_sub_cancel_right, Int.ceil_intCast]
  simp only [select, hf, hc, Int.even_iff]
  split_ifs <;> omega

theorem abs_select_down_le (x : ℚ) : |(down.select x : ℚ)| ≤ |x| := by
  rcases le_or_gt 0 x with hx | hx
  · have hfloor : (0 : ℚ) ≤ ⌊x⌋ := by exact_mod_cast Int.floor_nonneg.2 hx
    rw [select, if_pos hx, abs_of_nonneg hfloor, abs_of_nonneg hx]
    exact Int.floor_le x
  · have hceil : (⌈x⌉ : ℚ) ≤ 0 := by exact_mod_cast Int.ceil_le.2 (by exact_mod_cast hx.le)
    rw [select, if_neg (not_le.2 hx), abs_of_nonpos hceil, abs_of_neg hx, neg_le_neg_iff]
    exact Int.le_ceil x

/-- No number is rounded to the other side of zero. -/
theorem select_mul_self_nonneg (mode : RoundingMode) (x : ℚ) : 0 ≤ (mode.select x : ℚ) * x := by
  rcases le_total 0 x with hx | hx
  · exact mul_nonneg (by exact_mod_cast mode.select_nonneg hx) hx
  · have hselect : mode.select x ≤ 0 := mode.select_le (by rwa [Int.cast_zero])
    exact mul_nonneg_of_nonpos_of_nonpos (by exact_mod_cast hselect) hx

/-- What truncation drops lies on the side of zero where the number does. -/
theorem sub_select_down_mul_self_nonneg (x : ℚ) : 0 ≤ (x - down.select x) * x := by
  unfold select
  dsimp only
  split_ifs with h
  · exact mul_nonneg (sub_nonneg.2 (Int.floor_le _)) h
  · exact mul_nonneg_of_nonpos_of_nonpos (sub_nonpos.2 (Int.le_ceil _)) (not_le.1 h).le

/-- An integer stays out of the truncation of what is added to it on its side of zero. -/
theorem select_down_intCast_add {n : ℤ} {y : ℚ} (h : 0 ≤ n * y) : down.select (n + y) = n + down.select y := by
  rcases lt_trichotomy y 0 with hy | rfl | hy
  · have hn : (n : ℚ) ≤ 0 := nonpos_of_mul_nonneg_left h hy
    rw [select, if_neg (by linarith), select, if_neg (not_le.2 hy), Int.ceil_intCast_add]
  · rw [add_zero, select_intCast, select_zero, add_zero]
  · have hn : 0 ≤ (n : ℚ) := nonneg_of_mul_nonneg_left h hy
    rw [select, if_pos (by linarith), select, if_pos hy.le, Int.floor_intCast_add]

theorem select_down_eq_iff_of_nonneg {x : ℚ} (hx : 0 ≤ x) (t : ℤ) : down.select x = t ↔ (t : ℚ) ≤ x ∧ x < t + 1 := by
  rw [select, if_pos hx]
  exact Int.floor_eq_iff

/-- A number is truncated to an integer on its side of zero just where it lies between that integer and
the next one away from zero. -/
theorem select_down_eq_iff {x : ℚ} {t : ℤ} (hside : 0 ≤ x * t) :
    down.select x = t ↔ |(t : ℚ)| ≤ |x| ∧ |x| < |(t : ℚ)| + 1 := by
  rcases lt_trichotomy x 0 with hx | rfl | hx
  · have ht : (t : ℚ) ≤ 0 := nonpos_of_mul_nonneg_right hside hx
    have hneg := select_down_eq_iff_of_nonneg (neg_nonneg.2 hx.le) (-t)
    rw [select_neg, neg_inj, Int.cast_neg] at hneg
    rw [abs_of_nonpos ht, abs_of_neg hx]
    exact hneg
  · rw [select_zero, abs_zero, abs_nonpos_iff, Int.cast_eq_zero]
    exact ⟨fun h => ⟨h.symm, by positivity⟩, fun h => h.1.symm⟩
  · have ht : 0 ≤ (t : ℚ) := nonneg_of_mul_nonneg_right hside hx
    rw [abs_of_nonneg ht, abs_of_pos hx]
    exact select_down_eq_iff_of_nonneg hx.le t

/-! ### The rounding of quotients -/

/-- Floor, ceiling and the two candidates of the nearest modes, read off quotient and remainder. -/
theorem candidates_of_quotient (q : ℕ) {r d : ℕ} (hr : r < d) :
    ⌊(q : ℚ) + r / d⌋ = q ∧ ⌈(q : ℚ) + r / d⌉ = (if 0 < r then (q : ℤ) + 1 else q) ∧
      ⌊(q : ℚ) + r / d + 1 / 2⌋ = (if d ≤ 2 * r then (q : ℤ) + 1 else q) ∧
      ⌈(q : ℚ) + r / d - 1 / 2⌉ = (if d < 2 * r then (q : ℤ) + 1 else q) := by
  have hd : (0 : ℚ) < d := by exact_mod_cast Nat.zero_lt_of_lt hr
  have hlt : (r : ℚ) / d < 1 := by
    rw [div_lt_one hd]
    exact_mod_cast hr
  have hnonneg : (0 : ℚ) ≤ r / d := by positivity
  refine ⟨?_, ?_, ?_, ?_⟩
  · rw [Int.floor_eq_iff]
    push_cast
    constructor <;> linarith
  · rw [Int.ceil_eq_iff]
    split_ifs with h
    · have : (0 : ℚ) < r / d := div_pos (by exact_mod_cast h) hd
      push_cast
      constructor <;> linarith
    · have : r = 0 := by omega
      subst this
      push_cast
      constructor <;> simp
  · rw [Int.floor_eq_iff]
    split_ifs with h
    · have : (1 : ℚ) / 2 ≤ r / d := by
        rw [div_le_div_iff₀ two_pos hd]
        exact_mod_cast (by omega : 1 * d ≤ r * 2)
      push_cast
      constructor <;> linarith
    · have : (r : ℚ) / d < 1 / 2 := by
        rw [div_lt_div_iff₀ hd two_pos]
        exact_mod_cast (by omega : r * 2 < 1 * d)
      push_cast
      constructor <;> linarith
  · rw [Int.ceil_eq_iff]
    split_ifs with h
    · have : (1 : ℚ) / 2 < r / d := by
        rw [div_lt_div_iff₀ two_pos hd]
        exact_mod_cast (by omega : 1 * d < r * 2)
      push_cast
      constructor <;> linarith
    · have : (r : ℚ) / d ≤ 1 / 2 := by
        rw [div_le_div_iff₀ hd two_pos]
        exact_mod_cast (by omega : r * 2 ≤ 1 * d)
      push_cast
      constructor <;> linarith

theorem natCast_div_eq (n : ℕ) {d : ℕ} (hd : 0 < d) :
    (n : ℚ) / d = ((n / d : ℕ) : ℚ) + ((n % d : ℕ) : ℚ) / d := by
  have hd' : (d : ℚ) ≠ 0 := by exact_mod_cast hd.ne'
  rw [eq_comm, add_div' _ _ _ hd', div_left_inj' hd']
  exact_mod_cast Nat.div_add_mod' n d

/-- A magnitude with `r` of `d` parts left over moves one step away from zero just where the mode,
mirrored for a negative value, takes the next integer. -/
theorem step_eq_select (mode : RoundingMode) (negative : Bool) (q : ℕ) {r d : ℕ} (hr : r < d) :
    ((if mode.stepsAway negative q r d then q + 1 else q : ℕ) : ℤ) =
      (if negative then mode.mirror else mode).select ((q : ℚ) + r / d) := by
  obtain ⟨hf, hc, hfh, hch⟩ := candidates_of_quotient q hr
  have hx : (0 : ℚ) ≤ q + r / d := by positivity
  unfold stepsAway
  cases negative <;> cases mode <;>
    simp only [mirror, select, if_pos hx, hf, hc, hfh, hch, Bool.not_true, Bool.not_false, Bool.true_and,
      Bool.false_and, Bool.or_eq_true, Bool.and_eq_true, decide_eq_true_eq, Bool.false_eq_true, if_false,
      if_true, Int.even_iff]
  all_goals split_ifs <;> push_cast <;> omega

theorem roundMagnitude_eq_select (mode : RoundingMode) (negative : Bool) (n : ℕ) {d : ℕ} (hd : 0 < d) :
    (mode.roundMagnitude negative n d : ℤ) =
      (if negative then mode.mirror else mode).select ((n : ℚ) / d) := by
  rw [natCast_div_eq n hd]
  exact mode.step_eq_select negative (n / d) (Nat.mod_lt n hd)

/-- The rounding of a quotient of integers is the integer that the mode takes for it. -/
theorem roundQuotient_eq_select (mode : RoundingMode) (n : ℤ) {d : ℕ} (hd : 0 < d) :
    mode.roundQuotient n d = mode.select ((n : ℚ) / d) := by
  unfold roundQuotient
  rw [roundMagnitude_eq_select mode _ _ hd]
  rcases lt_trichotomy n 0 with hn | rfl | hn
  · have hcast : ((n.natAbs : ℕ) : ℚ) / d = -((n : ℚ) / d) := by
      rw [Nat.cast_natAbs, abs_of_neg hn]
      push_cast
      ring
    rw [hcast, Int.sign_eq_neg_one_of_neg hn, decide_eq_true hn, if_pos rfl, select_neg]
    cases mode <;> simp [mirror]
  · simp
  · have hcast : ((n.natAbs : ℕ) : ℚ) / d = (n : ℚ) / d := by
      rw [Nat.cast_natAbs, abs_of_pos hn]
    rw [hcast, Int.sign_eq_one_of_pos hn, decide_eq_false (not_lt.2 hn.le), one_mul]
    rfl

end RoundingMode

end Coinage
