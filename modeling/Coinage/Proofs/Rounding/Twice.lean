import Coinage.Proofs.Rounding.Select
/-!
# Rounding twice

A number may be rounded before it is rounded to an integer. `Follows` is what a rounding half-even to a
decimal grid keeps of the place of a number among the integers and the ties between them; `Displaced` says
which of the numbers that follow another one a mode rounds to a different integer.
-/

namespace Coinage

namespace RoundingMode

/-- A number halfway between two integers. -/
def IsTie (x : ℚ) : Prop :=
  ∃ n : ℤ, x = n + 1 / 2

/-- `y` is in no other place than `x` among the integers and the ties: it may have moved onto one of them,
but not beyond, and if `x` is a tie it has stayed there or moved to the even neighbour. -/
structure Follows (x y : ℚ) : Prop where
  le_of_le : ∀ n : ℤ, x ≤ n → y ≤ n
  ge_of_ge : ∀ n : ℤ, n ≤ x → n ≤ y
  le_of_lt : ∀ n : ℤ, x < n + 1 / 2 → y ≤ n + 1 / 2
  ge_of_gt : ∀ n : ℤ, n + 1 / 2 < x → n + 1 / 2 ≤ y
  of_tie : IsTie x → y = x ∨ y = halfEven.select x

/-- The mode rounds `y` to another integer than `x`, which `y` follows: `y` has moved onto a place where the
mode decides otherwise. -/
def Displaced (mode : RoundingMode) (x y : ℚ) : Prop :=
  match mode with
  | up => (∃ n : ℤ, y = n) ∧ |y| < |x|
  | down => (∃ n : ℤ, y = n) ∧ |x| < |y|
  | ceiling => (∃ n : ℤ, y = n) ∧ y < x
  | floor => (∃ n : ℤ, y = n) ∧ x < y
  | halfUp => IsTie y ∧ |x| < |y| ∨ IsTie x ∧ |y| < |x|
  | halfDown => IsTie y ∧ |y| < |x| ∨ IsTie x ∧ |x| < |y|
  | halfEven => IsTie y ∧ (Even ⌊|y|⌋ ∧ |y| < |x| ∨ ¬ Even ⌊|y|⌋ ∧ |x| < |y|)
  | unnecessary => y ≠ x

theorem IsTie.neg {x : ℚ} (h : IsTie x) : IsTie (-x) := by
  obtain ⟨n, rfl⟩ := h
  exact ⟨-n - 1, by push_cast; ring⟩

theorem isTie_neg_iff {x : ℚ} : IsTie (-x) ↔ IsTie x :=
  ⟨fun h => neg_neg x ▸ h.neg, IsTie.neg⟩

theorem IsTie.ne_intCast {x : ℚ} (h : IsTie x) (n : ℤ) : x ≠ n := by
  obtain ⟨k, rfl⟩ := h
  intro heq
  have : 2 * k + 1 = 2 * n := by
    have : (2 : ℚ) * k + 1 = 2 * n := by linarith
    exact_mod_cast this
  omega

variable {x y : ℚ}

theorem Follows.neg (h : Follows x y) : Follows (-x) (-y) where
  le_of_le n hn := by
    have := h.ge_of_ge (-n) (by push_cast; linarith)
    push_cast at this
    linarith
  ge_of_ge n hn := by
    have := h.le_of_le (-n) (by push_cast; linarith)
    push_cast at this
    linarith
  le_of_lt n hn := by
    have := h.ge_of_gt (-n - 1) (by push_cast; linarith)
    push_cast at this
    linarith
  ge_of_gt n hn := by
    have := h.le_of_lt (-n - 1) (by push_cast; linarith)
    push_cast at this
    linarith
  of_tie hn := by
    refine (h.of_tie (isTie_neg_iff.1 hn)).imp (fun heq => by rw [heq]) fun heq => ?_
    rw [heq, select_neg, Int.cast_neg]
    rfl

theorem Follows.refl (x : ℚ) : Follows x x where
  le_of_le _ h := h
  ge_of_ge _ h := h
  le_of_lt _ h := h.le
  ge_of_gt _ h := h.le
  of_tie _ := Or.inl rfl

theorem Follows.nonneg (h : Follows x y) (hx : 0 ≤ x) : 0 ≤ y := by
  exact_mod_cast h.ge_of_ge 0 (by exact_mod_cast hx)

/-! ### The two integers around a number -/

theorem Follows.ceil_eq_iff (h : Follows x y) : ⌈y⌉ = ⌈x⌉ ↔ ¬ ((∃ n : ℤ, y = n) ∧ y < x) := by
  have hle : ⌈y⌉ ≤ ⌈x⌉ := Int.ceil_le.2 (h.le_of_le _ (Int.le_ceil x))
  constructor
  · rintro heq ⟨⟨n, rfl⟩, hlt⟩
    rw [Int.ceil_intCast] at heq
    have := Int.le_ceil x
    rw [← heq] at this
    linarith
  · intro hno
    refine le_antisymm hle (Int.ceil_le.2 (le_of_not_gt fun hlt => hno ?_))
    -- the number has passed an integer above the other one, which can only have moved onto it
    have hge := h.ge_of_ge _ hlt.le
    have heq : y = ⌈y⌉ := le_antisymm (Int.le_ceil y) hge
    exact ⟨⟨_, heq⟩, by rw [heq]; exact hlt⟩

theorem Follows.floor_eq_iff (h : Follows x y) : ⌊y⌋ = ⌊x⌋ ↔ ¬ ((∃ n : ℤ, y = n) ∧ x < y) := by
  have hneg := h.neg.ceil_eq_iff
  rw [Int.ceil_neg, Int.ceil_neg, neg_inj, neg_lt_neg_iff] at hneg
  have hint : (∃ n : ℤ, -y = n) ↔ ∃ n : ℤ, y = n :=
    ⟨fun ⟨n, hn⟩ => ⟨-n, by push_cast; linarith⟩, fun ⟨n, hn⟩ => ⟨-n, by push_cast; linarith⟩⟩
  rwa [hint] at hneg

/-! ### The two integers around a tie -/

theorem floor_add_half_lt_of_tie (hy : IsTie y) (h : x < y) : ⌊x + 1 / 2⌋ < ⌊y + 1 / 2⌋ := by
  obtain ⟨n, rfl⟩ := hy
  have hy : ⌊(n : ℚ) + 1 / 2 + 1 / 2⌋ = n + 1 := by
    rw [Int.floor_eq_iff]
    push_cast
    constructor <;> linarith
  rw [hy, Int.floor_lt]
  push_cast
  linarith

theorem Follows.floor_add_half_eq_iff (h : Follows x y) :
    ⌊y + 1 / 2⌋ = ⌊x + 1 / 2⌋ ↔ ¬ (IsTie y ∧ x < y ∨ IsTie x ∧ y < x) := by
  constructor
  · rintro heq (⟨hy, hlt⟩ | ⟨hx, hlt⟩)
    · exact (floor_add_half_lt_of_tie hy hlt).ne heq.symm
    · exact (floor_add_half_lt_of_tie hx hlt).ne heq
  · intro hno
    rw [not_or] at hno
    rcases lt_trichotomy ⌊y + 1 / 2⌋ ⌊x + 1 / 2⌋ with hlt | heq | hgt
    · -- the tie below `x` is the least number with this floor, and `y` lies below it
      have hy := Int.floor_lt.1 hlt
      have hx := Int.floor_le (x + 1 / 2)
      refine absurd ⟨⟨⌊x + 1 / 2⌋ - 1, ?_⟩, by linarith⟩ hno.2
      by_contra hne
      have hgt : ((⌊x + 1 / 2⌋ - 1 : ℤ) : ℚ) + 1 / 2 < x := by
        refine lt_of_le_of_ne ?_ (Ne.symm hne)
        push_cast
        linarith
      have := h.ge_of_gt _ hgt
      push_cast at this
      linarith
    · exact heq
    · have hx := Int.floor_lt.1 hgt
      have hy := Int.floor_le (y + 1 / 2)
      have hle := h.le_of_lt (⌊y + 1 / 2⌋ - 1) (by push_cast; linarith)
      push_cast at hle
      refine absurd ⟨⟨⌊y + 1 / 2⌋ - 1, ?_⟩, by linarith⟩ hno.1
      push_cast
      linarith

theorem Follows.ceil_sub_half_eq_iff (h : Follows x y) :
    ⌈y - 1 / 2⌉ = ⌈x - 1 / 2⌉ ↔ ¬ (IsTie y ∧ y < x ∨ IsTie x ∧ x < y) := by
  have hneg := h.neg.floor_add_half_eq_iff
  have hswap : ∀ z : ℚ, ⌊-z + 1 / 2⌋ = -⌈z - 1 / 2⌉ := fun z => by
    rw [← Int.floor_neg]
    congr 1
    ring
  rwa [hswap, hswap, neg_inj, isTie_neg_iff, isTie_neg_iff, neg_lt_neg_iff, neg_lt_neg_iff] at hneg

/-! ### Half-even -/

theorem abs_sub_select_lt_of_not_tie {mode : RoundingMode} (h : mode.IsNearest) (hx : ¬ IsTie x) :
    |x - mode.select x| < 1 / 2 := by
  have hle := h.abs_select_sub_le x
  rw [abs_sub_comm] at hle
  refine lt_of_le_of_ne hle fun heq => hx ?_
  rcases abs_cases (x - mode.select x) with ⟨habs, -⟩ | ⟨habs, -⟩
  · exact ⟨mode.select x, by linarith⟩
  · exact ⟨mode.select x - 1, by push_cast; linarith⟩

/-- Rounding half-even to an integer is one of the roundings that stay in place. -/
theorem follows_select_halfEven (x : ℚ) : Follows x (halfEven.select x) where
  le_of_le n h := by exact_mod_cast halfEven.select_le h
  ge_of_ge n h := by exact_mod_cast halfEven.le_select h
  le_of_lt n h := by
    have hfloor : ⌊x + 1 / 2⌋ < n + 1 := Int.floor_lt.2 (by push_cast; linarith)
    have : (halfEven.select x : ℚ) ≤ n := by
      exact_mod_cast (isNearest_halfEven.bounds x).2.trans (Int.lt_add_one_iff.1 hfloor)
    linarith
  ge_of_gt n h := by
    have hceil : n < ⌈x - 1 / 2⌉ := Int.lt_ceil.2 (by linarith)
    have : (n : ℚ) + 1 ≤ halfEven.select x := by exact_mod_cast hceil.trans_le (isNearest_halfEven.bounds x).1
    linarith
  of_tie _ := Or.inr rfl

theorem Follows.select_halfEven_eq (h : Follows x y) (hy : ¬ IsTie y) : halfEven.select y = halfEven.select x := by
  by_cases hx : IsTie x
  · rcases h.of_tie hx with heq | heq
    · exact absurd (heq ▸ hx) hy
    · rw [heq, select_intCast]
  · -- neither is a tie, so both lie less than one half from one integer
    have hnear := abs_lt.1 (abs_sub_select_lt_of_not_tie isNearest_halfEven hx)
    have hhigh := h.le_of_lt (halfEven.select x) (by linarith)
    have hlow := h.ge_of_gt (halfEven.select x - 1) (by push_cast; linarith)
    push_cast at hlow
    refine isNearest_halfEven.select_eq (abs_lt.2 ⟨?_, ?_⟩)
    · refine lt_of_le_of_ne (by linarith) fun heq => hy ⟨halfEven.select x - 1, ?_⟩
      push_cast
      linarith
    · refine lt_of_le_of_ne (by linarith) fun heq => hy ⟨halfEven.select x, ?_⟩
      linarith

/-- A number beside the tie to which it has moved is rounded to the integer on its own side. -/
theorem Follows.select_halfEven_of_tie {n : ℤ} (h : Follows x (n + 1 / 2)) :
    (x < n + 1 / 2 → halfEven.select x = n) ∧ ((n : ℚ) + 1 / 2 < x → halfEven.select x = n + 1) := by
  constructor
  · intro hlt
    have hn : (n : ℚ) ≤ x := by
      by_contra hno
      have := h.le_of_le n (by linarith)
      linarith
    exact isNearest_halfEven.select_eq (abs_lt.2 ⟨by linarith, by linarith⟩)
  · intro hgt
    have hn : x ≤ n + 1 := by
      by_contra hno
      have := h.ge_of_ge (n + 1) (by push_cast; linarith)
      push_cast at this
      linarith
    refine isNearest_halfEven.select_eq (abs_lt.2 ⟨?_, ?_⟩) <;> push_cast <;> linarith

theorem Follows.select_halfEven_eq_iff (h : Follows x y) (hx : 0 ≤ x) :
    halfEven.select y = halfEven.select x ↔ ¬ halfEven.Displaced x y := by
  unfold Displaced
  dsimp only
  rw [abs_of_nonneg (h.nonneg hx), abs_of_nonneg hx]
  by_cases hytie : IsTie y
  case neg => exact iff_of_true (h.select_halfEven_eq hytie) fun hno => hytie hno.1
  case pos =>
    obtain ⟨n, rfl⟩ := id hytie
    have hfloor : ⌊(n : ℚ) + 1 / 2⌋ = n := by
      rw [Int.floor_eq_iff]
      constructor <;> linarith
    rw [hfloor]
    rcases lt_trichotomy x (n + 1 / 2) with hlt | rfl | hgt
    · rw [h.select_halfEven_of_tie.1 hlt, select_halfEven_half]
      by_cases heven : Even n
      · rw [if_pos heven]
        refine iff_of_true rfl ?_
        rintro ⟨-, ⟨-, hgt⟩ | ⟨hodd, -⟩⟩
        · exact hgt.not_gt hlt
        · exact hodd heven
      · rw [if_neg heven]
        exact iff_of_false (by omega) fun hno => hno ⟨hytie, Or.inr ⟨heven, hlt⟩⟩
    · refine iff_of_true rfl ?_
      rintro ⟨-, ⟨-, hlt⟩ | ⟨-, hlt⟩⟩ <;> exact lt_irrefl _ hlt
    · rw [h.select_halfEven_of_tie.2 hgt, select_halfEven_half]
      by_cases heven : Even n
      · rw [if_pos heven]
        exact iff_of_false (by omega) fun hno => hno ⟨hytie, Or.inl ⟨heven, hgt⟩⟩
      · rw [if_neg heven]
        refine iff_of_true rfl ?_
        rintro ⟨-, ⟨hno, -⟩ | ⟨-, hlt⟩⟩
        · exact heven hno
        · exact hlt.not_gt hgt

/-! ### Every mode -/

theorem Follows.select_eq_iff_of_nonneg {mode : RoundingMode} (hmode : mode ≠ unnecessary) (h : Follows x y)
    (hx : 0 ≤ x) : mode.select y = mode.select x ↔ ¬ mode.Displaced x y := by
  have hy := h.nonneg hx
  cases mode with
  | halfEven => exact h.select_halfEven_eq_iff hx
  | unnecessary => exact absurd rfl hmode
  | up | ceiling =>
    simp only [select, Displaced, if_pos hx, if_pos hy, abs_of_nonneg hx, abs_of_nonneg hy]
    exact h.ceil_eq_iff
  | down | floor =>
    simp only [select, Displaced, if_pos hx, if_pos hy, abs_of_nonneg hx, abs_of_nonneg hy]
    exact h.floor_eq_iff
  | halfUp =>
    simp only [select, Displaced, if_pos hx, if_pos hy, abs_of_nonneg hx, abs_of_nonneg hy]
    exact h.floor_add_half_eq_iff
  | halfDown =>
    simp only [select, Displaced, if_pos hx, if_pos hy, abs_of_nonneg hx, abs_of_nonneg hy]
    exact h.ceil_sub_half_eq_iff

theorem displaced_neg_iff (mode : RoundingMode) : mode.mirror.Displaced (-x) (-y) ↔ mode.Displaced x y := by
  have hint : (∃ n : ℤ, -y = n) ↔ ∃ n : ℤ, y = n :=
    ⟨fun ⟨n, hn⟩ => ⟨-n, by push_cast; linarith⟩, fun ⟨n, hn⟩ => ⟨-n, by push_cast; linarith⟩⟩
  cases mode <;> simp only [mirror, Displaced, abs_neg, hint, isTie_neg_iff, neg_lt_neg_iff, ne_eq, neg_inj]

/-- A mode that drops digits rounds a number and one that follows it to one integer, unless the second is
displaced. -/
theorem Follows.select_eq_iff {mode : RoundingMode} (hmode : mode ≠ unnecessary) (h : Follows x y) :
    mode.select y = mode.select x ↔ ¬ mode.Displaced x y := by
  rcases le_total 0 x with hx | hx
  · exact h.select_eq_iff_of_nonneg hmode hx
  · have hneg := h.neg.select_eq_iff_of_nonneg (mirror_ne_unnecessary hmode) (neg_nonneg.2 hx)
    rwa [displaced_neg_iff, select_neg, select_neg, neg_inj, mirror_mirror] at hneg

theorem not_displaced_select_of_nonneg {mode : RoundingMode} (hmode : mode ≠ unnecessary) (hx : 0 ≤ x) :
    ¬ mode.Displaced x (mode.select x) := by
  have hselect : (0 : ℚ) ≤ mode.select x := by exact_mod_cast mode.select_nonneg hx
  have hno : ∀ n : ℤ, ¬ IsTie (n : ℚ) := fun n h => h.ne_intCast n rfl
  cases mode with
  | unnecessary => exact absurd rfl hmode
  | up | ceiling =>
    simp only [select, if_pos hx] at hselect
    simp only [select, Displaced, if_pos hx, abs_of_nonneg hx, abs_of_nonneg hselect]
    exact fun h => h.2.not_ge (Int.le_ceil x)
  | down | floor =>
    simp only [select, if_pos hx] at hselect
    simp only [select, Displaced, if_pos hx, abs_of_nonneg hx, abs_of_nonneg hselect]
    exact fun h => h.2.not_ge (Int.floor_le x)
  | halfUp =>
    simp only [select, if_pos hx] at hselect
    simp only [select, Displaced, if_pos hx, abs_of_nonneg hx, abs_of_nonneg hselect]
    rintro (h | ⟨⟨n, rfl⟩, h⟩)
    · exact hno _ h.1
    · rw [add_assoc, add_halves, Int.floor_add_one, Int.floor_intCast] at h
      push_cast at h
      linarith
  | halfDown =>
    simp only [select, if_pos hx] at hselect
    simp only [select, Displaced, if_pos hx, abs_of_nonneg hx, abs_of_nonneg hselect]
    rintro (h | ⟨⟨n, rfl⟩, h⟩)
    · exact hno _ h.1
    · rw [add_sub_cancel_right, Int.ceil_intCast] at h
      linarith
  | halfEven => exact fun h => hno _ h.1

/-- The integer that a mode takes for a number is not displaced from it. -/
theorem not_displaced_select {mode : RoundingMode} (hmode : mode ≠ unnecessary) (x : ℚ) :
    ¬ mode.Displaced x (mode.select x) := by
  rcases le_total 0 x with hx | hx
  · exact not_displaced_select_of_nonneg hmode hx
  · have hneg := not_displaced_select_of_nonneg (mirror_ne_unnecessary hmode) (neg_nonneg.2 hx)
    rwa [select_neg, Int.cast_neg, mirror_mirror, displaced_neg_iff] at hneg

end RoundingMode

end Coinage
