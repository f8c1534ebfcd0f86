import Coinage.Proofs.Decimal.Digits
import Mathlib.Order.Bounds.Basic
/-!
# Rounding to a scale

Digits behind a place are cut by a mode, and a number with fewer digits is padded up to that place, or as far as its
mantissa allows. `PaddedTo` says where padding stops; it is why a second rounding to the same scale finds nothing to
do, and why a result of a smaller scale is a large number.
-/

namespace Coinage

namespace Decimal

open RoundingMode

/-! ### Padding -/

/-- A decimal that was padded from the scale `least`, `s` being wanted: it has that scale unless its digits would
leave the range there, and then the greatest one at which they do not. -/
structure PaddedTo (least s : ℕ) (e : Decimal) : Prop where
  scale_eq : |e.value| * 10 ^ s < 2 ^ 96 → e.scale = s
  isGreatest : 2 ^ 96 ≤ |e.value| * 10 ^ s → IsGreatest {t | least ≤ t ∧ |e.value| * 10 ^ t < 2 ^ 96} e.scale

theorem abs_value_mul_lt (d : Decimal) : |d.value| * 10 ^ d.scale < 2 ^ 96 := by
  rw [abs_value, div_mul_cancel₀ _ (by positivity)]
  exact_mod_cast d.natAbs_mantissa_lt

theorem abs_value_mul_pow_le (d : Decimal) {s t : ℕ} (h : s ≤ t) : |d.value| * 10 ^ s ≤ |d.value| * 10 ^ t :=
  mul_le_mul_of_nonneg_left (pow_le_pow_right₀ (by norm_num) h) (abs_nonneg _)

theorem natAbs_mul_ten_lt_iff (d : Decimal) :
    (d.mantissa * 10).natAbs < capacity ↔ |d.value| * 10 ^ (d.scale + 1) < 2 ^ 96 := by
  rw [abs_value, pow_succ 10, ← mul_assoc, div_mul_cancel₀ _ (by positivity), Int.natAbs_mul]
  exact_mod_cast Iff.rfl

/-- Padding stops where the next digit does not fit. -/
theorem widen_eq_self {d : Decimal} (h : 2 ^ 96 ≤ |d.value| * 10 ^ (d.scale + 1)) (count : ℕ) :
    d.widen count = d := by
  cases count with
  | zero => rfl
  | succ count =>
    have hcap : capacity ≤ (d.mantissa * 10).natAbs := not_lt.1 (mt d.natAbs_mul_ten_lt_iff.1 (not_lt.2 h))
    rw [widen, ofParts?_eq_none_iff.2 (Or.inl hcap)]

/-- One step of padding, where the next digit fits. -/
theorem exists_wider {d : Decimal} (hscale : d.scale < maxScale) (h : |d.value| * 10 ^ (d.scale + 1) < 2 ^ 96) :
    ∃ wider : Decimal, wider.value = d.value ∧ wider.scale = d.scale + 1 ∧
      ∀ count, d.widen (count + 1) = wider.widen count := by
  obtain ⟨wider, hwider, -, hwider_scale⟩ := exists_ofParts? (d.natAbs_mul_ten_lt_iff.2 h) hscale
  refine ⟨wider, ?_, hwider_scale, fun count => by rw [widen, hwider]⟩
  rw [value_ofParts? hwider, pow_succ]
  push_cast
  rw [mul_div_mul_right _ _ (by norm_num), value]

theorem PaddedTo.of_le {least least' s : ℕ} {e : Decimal} (h : PaddedTo least s e) (hle : least' ≤ least) :
    PaddedTo least' s e where
  scale_eq := h.scale_eq
  isGreatest hlarge := by
    obtain ⟨⟨hleast, hfits⟩, hupper⟩ := h.isGreatest hlarge
    refine ⟨⟨hle.trans hleast, hfits⟩, fun t ht => ?_⟩
    rcases le_or_gt least t with htl | htl
    · exact hupper ⟨htl, ht.2⟩
    · omega

theorem PaddedTo.unsigned {least s : ℕ} {e : Decimal} (h : PaddedTo least s e) : PaddedTo least s e.unsigned where
  scale_eq := h.scale_eq
  isGreatest := h.isGreatest

theorem paddedTo_self (d : Decimal) (least : ℕ) : PaddedTo least d.scale d where
  scale_eq _ := rfl
  isGreatest hlarge := absurd d.abs_value_mul_lt (not_lt.2 hlarge)

/-- Padding keeps the value, and it stops at the wanted scale or at the last one at which the digits fit. -/
theorem widen_spec (d : Decimal) (count : ℕ) (h : d.scale + count ≤ maxScale) :
    (d.widen count).value = d.value ∧ PaddedTo d.scale (d.scale + count) (d.widen count) := by
  induction count generalizing d with
  | zero => exact ⟨rfl, paddedTo_self d d.scale⟩
  | succ count ih =>
    rcases lt_or_ge (|d.value| * 10 ^ (d.scale + 1)) (2 ^ 96) with hroom | hfull
    · obtain ⟨wider, hvalue, hscale, hwiden⟩ := exists_wider (by omega) hroom
      obtain ⟨hsame, hpadded⟩ := ih wider (by omega)
      rw [hscale, add_assoc, add_comm 1 count] at hpadded
      rw [hwiden]
      exact ⟨hsame.trans hvalue, hpadded.of_le (Nat.le_succ _)⟩
    · rw [widen_eq_self hfull]
      refine ⟨rfl, fun hfits => ?_, fun _ => ⟨⟨le_rfl, d.abs_value_mul_lt⟩, fun t ht => ?_⟩⟩
      · exact absurd (hfull.trans (d.abs_value_mul_pow_le (by omega))) (not_le.2 hfits)
      · by_contra hlt
        exact absurd (hfull.trans (d.abs_value_mul_pow_le (not_le.1 hlt))) (not_le.2 ht.2)

theorem PaddedTo.scale_le {least s : ℕ} {e : Decimal} (h : PaddedTo least s e) : e.scale ≤ s := by
  rcases lt_or_ge (|e.value| * 10 ^ s) (2 ^ 96) with hfits | hlarge
  · exact (h.scale_eq hfits).le
  · by_contra hlt
    exact absurd (hlarge.trans (e.abs_value_mul_pow_le (not_le.1 hlt).le)) (not_le.2 e.abs_value_mul_lt)

/-- A padded decimal is not padded any further. -/
theorem PaddedTo.widen_eq {least s : ℕ} {e : Decimal} (h : PaddedTo least s e) : e.widen (s - e.scale) = e := by
  rcases lt_or_ge (|e.value| * 10 ^ s) (2 ^ 96) with hfits | hlarge
  · rw [h.scale_eq hfits, Nat.sub_self, widen]
  · obtain ⟨⟨hleast, -⟩, hupper⟩ := h.isGreatest hlarge
    refine widen_eq_self ?_ _
    by_contra hroom
    have := hupper ⟨by omega, not_le.1 hroom⟩
    omega

/-! ### Rounding to a scale -/

theorem roundToScale_eq_ok {d e : Decimal} {n : ℕ} {mode : RoundingMode} (h : d.roundToScale n mode = .ok e) :
    e = ((d.roundToPlaces (min n maxScale) mode).widen
      (min n maxScale - (d.roundToPlaces (min n maxScale) mode).scale)).unsigned := by
  unfold roundToScale at h
  dsimp only at h
  split at h
  · cases h
  · exact (Except.ok.inj h).symm

/-- A cut number is padded up to the place where it was cut. -/
theorem widen_roundToPlaces (d : Decimal) {s : ℕ} (hs : s ≤ maxScale) (mode : RoundingMode) :
    ((d.roundToPlaces s mode).widen (s - (d.roundToPlaces s mode).scale)).value = (d.roundToPlaces s mode).value ∧
      PaddedTo (d.roundToPlaces s mode).scale s ((d.roundToPlaces s mode).widen (s - (d.roundToPlaces s mode).scale)) := by
  have hle := scale_roundToPlaces_le d s mode
  have h := widen_spec (d.roundToPlaces s mode) (s - (d.roundToPlaces s mode).scale) (by omega)
  rwa [Nat.add_sub_cancel' hle] at h

theorem value_roundToScale {d e : Decimal} {n : ℕ} {mode : RoundingMode} (h : d.roundToScale n mode = .ok e) :
    e.value = mode.select (d.value * 10 ^ min n maxScale) / 10 ^ min n maxScale := by
  rw [roundToScale_eq_ok h, value_unsigned, (widen_roundToPlaces d (min_le_right _ _) mode).1, value_roundToPlaces]

/-- Without places behind the point it is the integer that the mode takes. -/
theorem value_roundToScale_zero {d e : Decimal} {mode : RoundingMode} (h : d.roundToScale 0 mode = .ok e) :
    e.value = mode.select d.value := by
  have hvalue := value_roundToScale h
  rwa [Nat.zero_min, pow_zero, mul_one, div_one] at hvalue

/-- What is cut has the wanted scale; what is not is padded from the scale it had. -/
theorem paddedTo_of_roundToScale {d e : Decimal} {n : ℕ} {mode : RoundingMode} (h : d.roundToScale n mode = .ok e) :
    PaddedTo d.scale (min n maxScale) e := by
  rcases le_or_gt d.scale (min n maxScale) with hle | hlt
  · have hpadded := (widen_roundToPlaces d (min_le_right n maxScale) mode).2.unsigned
    rw [← roundToScale_eq_ok h, roundToPlaces, dif_neg (not_lt.2 hle)] at hpadded
    exact hpadded
  · have hcut : (d.roundToPlaces (min n maxScale) mode).scale = min n maxScale := by rw [roundToPlaces, dif_pos hlt]
    have hscale : e.scale = min n maxScale := by
      rw [roundToScale_eq_ok h, scale_unsigned, hcut, Nat.sub_self, widen, hcut]
    exact hscale ▸ paddedTo_self e d.scale

theorem hasPlaces_of_roundToScale {d e : Decimal} {n : ℕ} {mode : RoundingMode} (h : d.roundToScale n mode = .ok e) :
    HasPlaces (min n maxScale) e.value :=
  ⟨_, value_roundToScale h⟩

/-- Cutting changes just the numbers that have a digit to lose. -/
theorem value_roundToPlaces_eq_iff {d : Decimal} {s : ℕ} {mode : RoundingMode} :
    (d.roundToPlaces s mode).value = d.value ↔ HasPlaces s d.value := by
  rw [value_roundToPlaces]
  constructor
  · intro h
    exact ⟨_, h.symm⟩
  · rintro ⟨k, hk⟩
    rw [hk, div_mul_cancel₀ _ (by positivity), select_intCast]

/-- Rounding to a scale is refused by one mode only, and only where a digit would be dropped. -/
theorem roundToScale_eq_error_iff {d : Decimal} {n : ℕ} {mode : RoundingMode} {cause : AmountError} :
    d.roundToScale n mode = .error cause ↔
      cause = .roundingNecessary d ∧ mode = unnecessary ∧ ¬ HasPlaces (min n maxScale) d.value := by
  have hsame : (d.roundToPlaces (min n maxScale) mode).sameValue d = true ↔ HasPlaces (min n maxScale) d.value :=
    (sameValue_iff _ _).trans value_roundToPlaces_eq_iff
  unfold roundToScale
  dsimp only
  split
  case isTrue h =>
    rw [hsame] at h
    rw [Except.error.injEq, eq_comm]
    exact (and_iff_left h).symm
  case isFalse h =>
    rw [hsame] at h
    exact iff_of_false (by simp) fun hno => h hno.2

/-- A mode that drops digits refuses nothing. -/
theorem exists_roundToScale_of_ne {mode : RoundingMode} (hmode : mode ≠ unnecessary) (d : Decimal) (n : ℕ) :
    ∃ e, d.roundToScale n mode = .ok e := by
  cases h : d.roundToScale n mode with
  | error cause => exact absurd (roundToScale_eq_error_iff.1 h).2.1 hmode
  | ok e => exact ⟨e, rfl⟩

theorem HasPlaces.of_scale_le {d : Decimal} {s : ℕ} (h : d.scale ≤ s) : HasPlaces s d.value :=
  ⟨d.unitsAt s, by rw [unitsAt_eq d h, mul_div_cancel_right₀ _ (by positivity)]⟩

/-- No mode changes a number that has no more places than are asked for. -/
theorem HasPlaces.value_roundToScale {d e : Decimal} {n : ℕ} {mode : RoundingMode}
    (hd : HasPlaces (min n maxScale) d.value) (h : d.roundToScale n mode = .ok e) : e.value = d.value := by
  rw [Decimal.value_roundToScale h, ← value_roundToPlaces, value_roundToPlaces_eq_iff.2 hd]

/-- No mode refuses such a number, either. -/
theorem HasPlaces.roundToScale {d : Decimal} {n : ℕ} (hd : HasPlaces (min n maxScale) d.value) (mode : RoundingMode) :
    ∃ e, d.roundToScale n mode = .ok e ∧ e.value = d.value := by
  cases h : d.roundToScale n mode with
  | error cause => exact absurd hd (roundToScale_eq_error_iff.1 h).2.2
  | ok e => exact ⟨e, rfl, hd.value_roundToScale h⟩

/-- The mode that drops no digits rounds to a scale just the numbers that have no digit behind it. -/
theorem roundToScale_unnecessary_iff (d : Decimal) (n : ℕ) :
    (∃ e, d.roundToScale n .unnecessary = .ok e ∧ e.value = d.value) ↔ ∃ k : ℤ, d.value * 10 ^ min n maxScale = k := by
  constructor
  · rintro ⟨e, he, hvalue⟩
    obtain ⟨k, hk⟩ := hasPlaces_of_roundToScale he
    exact ⟨k, by rw [← hvalue, hk, div_mul_cancel₀ _ (by positivity)]⟩
  · rintro ⟨k, hk⟩
    exact HasPlaces.roundToScale ⟨k, by rw [← hk, mul_div_cancel_right₀ _ (by positivity)]⟩ .unnecessary

theorem value_roundToScale_unnecessary {d e : Decimal} {n : ℕ} (h : d.roundToScale n .unnecessary = .ok e) :
    e.value = d.value := by
  by_cases hd : HasPlaces (min n maxScale) d.value
  · exact hd.value_roundToScale h
  · rw [roundToScale_eq_error_iff.2 ⟨rfl, rfl, hd⟩] at h
    cases h

/-- A decimal that was padded to a scale is not changed by rounding it to that scale. -/
theorem PaddedTo.roundToScale {least n : ℕ} {e : Decimal} (h : PaddedTo least (min n maxScale) e)
    (hplain : e.minusZero = false) (mode : RoundingMode) : e.roundToScale n mode = .ok e := by
  have hcut : e.roundToPlaces (min n maxScale) mode = e := dif_neg (not_lt.2 h.scale_le)
  unfold Decimal.roundToScale
  dsimp only
  rw [hcut, if_neg fun hno => hno.2 ((sameValue_iff _ _).2 rfl), h.widen_eq, unsigned_eq_self e hplain]

/-- A second rounding to the same scale finds nothing to do. -/
theorem roundToScale_of_roundToScale {d e : Decimal} {n : ℕ} {mode : RoundingMode} (h : d.roundToScale n mode = .ok e)
    (mode' : RoundingMode) : e.roundToScale n mode' = .ok e := by
  refine (paddedTo_of_roundToScale h).roundToScale ?_ mode'
  rw [roundToScale_eq_ok h]
  rfl

theorem value_le_of_roundToScale {a b d e : Decimal} {n : ℕ} {mode : RoundingMode} (hle : a.value ≤ b.value)
    (ha : a.roundToScale n mode = .ok d) (hb : b.roundToScale n mode = .ok e) : d.value ≤ e.value := by
  rw [value_roundToScale ha, value_roundToScale hb]
  refine div_le_div_of_nonneg_right ?_ (by positivity)
  exact_mod_cast mode.select_mono (mul_le_mul_of_nonneg_right hle (by positivity))

/-- What rounding to `s` places makes of a number: the multiple of the last place that the mode selects, padded. -/
structure RoundsToScale (mode : RoundingMode) (s : ℕ) (d e : Decimal) : Prop where
  value_eq : e.value = mode.select (d.value * 10 ^ s) / 10 ^ s
  value_eq_self : d.scale ≤ s → e.value = d.value
  padded : PaddedTo d.scale s e

theorem roundsToScale {d e : Decimal} {n : ℕ} {mode : RoundingMode} (h : d.roundToScale n mode = .ok e) :
    RoundsToScale mode (min n maxScale) d e where
  value_eq := value_roundToScale h
  value_eq_self hle := (HasPlaces.of_scale_le hle).value_roundToScale h
  padded := paddedTo_of_roundToScale h

/-- Rounding to a scale is refused just for a digit that the mode may not drop. Otherwise it gives the multiple of the
last place that the mode selects, padded as far as its digits fit; doing so twice changes nothing, and a larger number
never becomes the smaller one. -/
theorem roundToScale_rounds_and_pads (d : Decimal) (n : ℕ) (mode : RoundingMode) :
    (∀ cause, d.roundToScale n mode = .error cause ↔
      cause = .roundingNecessary d ∧ mode = unnecessary ∧ ¬ HasPlaces (min n maxScale) d.value) ∧
    ∀ e, d.roundToScale n mode = .ok e →
      RoundsToScale mode (min n maxScale) d e ∧ e.roundToScale n mode = .ok e ∧
        ∀ b f : Decimal, d.value ≤ b.value → b.roundToScale n mode = .ok f → e.value ≤ f.value := by
  constructor
  · intro cause
    exact roundToScale_eq_error_iff
  · intro e he
    refine ⟨roundsToScale he, roundToScale_of_roundToScale he mode, ?_⟩
    intro b f hle hb
    exact value_le_of_roundToScale hle he hb

/-- A number of 26 digits has room for three places out of five. -/
theorem roundToScale_three_of_five :
    roundToScale (ofDigits 12345678901234567890123456 0 (by decide)) 5 halfUp =
        .ok (ofDigits 12345678901234567890123456000 3 (by decide)) ∧
      IsGreatest {t : ℕ | 0 ≤ t ∧ |(ofDigits 12345678901234567890123456000 3 (by decide)).value| * 10 ^ t < 2 ^ 96} 3 := by
  have hrun : roundToScale (ofDigits 12345678901234567890123456 0 (by decide)) 5 halfUp =
      .ok (ofDigits 12345678901234567890123456000 3 (by decide)) := by cbv
  have h := (roundToScale_rounds_and_pads (ofDigits 12345678901234567890123456 0 (by decide)) 5 halfUp).2 _ hrun
  refine ⟨hrun, h.1.padded.isGreatest ?_⟩
  rw [value_ofDigits]
  norm_num [abs_of_pos]

end Decimal

end Coinage
