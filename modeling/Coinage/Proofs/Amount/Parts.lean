import Coinage.Operator.Reference
import Coinage.Proofs.Amount.ContextInvariant
import Coinage.Proofs.Amount.FastConstruction
import Coinage.Proofs.Amount.Projection
import Coinage.Proofs.Decimal.Checked
/-!
# Major and minor parts

The major part of an amount is its number cut at the point. The minor part is what stands behind the point, counted in
minor units and cut again, while the minor units of the whole amount are cut once. Cutting stays on the side of zero
where a number lies, so both ways count alike. Each part is taken up by the representation of the amount, which rounds
what it takes up; but no part has more digits than the number it came from, and that one was taken up before.
-/

namespace Coinage

open Decimal RoundingMode

/-! ### Cutting in parts -/

/-- What stands behind the point of a number, in units of which `10 ^ d` make up one, and cut. -/
def minorCount (d : ℕ) (x : ℚ) : ℤ :=
  down.select ((x - down.select x) * 10 ^ d)

/-- Two numbers lie on one side of zero if a third one lies there with both. -/
theorem mul_nonneg_through {a b c : ℚ} (hab : 0 ≤ a * b) (hbc : 0 ≤ b * c) (hzero : b = 0 → a = 0) : 0 ≤ a * c := by
  by_cases hb : b = 0
  · rw [hzero hb, zero_mul]
  · have hprod : 0 ≤ a * c * b ^ 2 := by
      calc 0 ≤ a * b * (b * c) := mul_nonneg hab hbc
        _ = a * c * b ^ 2 := by ring
    exact nonneg_of_mul_nonneg_left hprod (by positivity)

theorem minorCount_mul_self_nonneg (d : ℕ) (x : ℚ) : 0 ≤ minorCount d x * x := by
  have hpow : (0 : ℚ) < 10 ^ d := by positivity
  refine mul_nonneg_through (down.select_mul_self_nonneg _) ?_ fun h => ?_
  · rw [mul_right_comm]
    exact mul_nonneg (sub_select_down_mul_self_nonneg x) hpow.le
  · rw [minorCount, h, select_zero, Int.cast_zero]

theorem abs_minorCount_lt (d : ℕ) (x : ℚ) : |(minorCount d x : ℚ)| < 10 ^ d := by
  have hfraction : |x - down.select x| < 1 := by
    rw [abs_sub_comm]
    exact down.abs_select_sub_lt_one x
  calc |(minorCount d x : ℚ)| ≤ |x - down.select x| * |10 ^ d| := by
        rw [← abs_mul]
        exact abs_select_down_le _
    _ = |x - down.select x| * 10 ^ d := by rw [abs_of_pos (by positivity : (0 : ℚ) < 10 ^ d)]
    _ < 10 ^ d := mul_lt_of_lt_one_left (by positivity) hfraction

/-- The units before the point and those behind it are the units of the whole number. -/
theorem select_mul_add_minorCount (d : ℕ) (x : ℚ) :
    down.select x * 10 ^ d + minorCount d x = down.select (x * 10 ^ d) := by
  have hside : 0 ≤ (down.select x : ℚ) * (x - down.select x) := by
    refine mul_nonneg_through (down.select_mul_self_nonneg x) ?_ fun h => ?_
    · rw [mul_comm]
      exact sub_select_down_mul_self_nonneg x
    · rw [h, select_zero, Int.cast_zero]
  have hsplit : x * 10 ^ d = ((down.select x * 10 ^ d : ℤ) : ℚ) + (x - down.select x) * 10 ^ d := by
    push_cast
    ring
  rw [hsplit, select_down_intCast_add, minorCount]
  calc (0 : ℚ) ≤ down.select x * (x - down.select x) * (10 ^ d * 10 ^ d) := mul_nonneg hside (by positivity)
    _ = ((down.select x * 10 ^ d : ℤ) : ℚ) * ((x - down.select x) * 10 ^ d) := by
      push_cast
      ring

theorem Decimal.HasDigits.minorCount {p : ℕ} {x : ℚ} (h : HasDigits p x) (d : ℕ) : HasDigits p (minorCount d x) :=
  (h.parts.2.mul_pow d).parts.1

/-! ### The operators and the query -/

theorem value_shiftByDigits {d e : Decimal} {digits : ℕ} (h : shiftByDigits d digits = .ok e) :
    e.value = d.value * 10 ^ digits := by
  unfold shiftByDigits at h
  split at h
  · rw [value_shift h, zpow_natCast]
  · cases h

/-- The major part takes up the number cut at the point. -/
theorem majorPart_eq_ok {a r : Amount} (h : majorPart a = .ok r) :
    ∃ n : Decimal, n.value = down.select a.number.value ∧ MonetaryAmount.withNumber a n = .ok r := by
  obtain ⟨n, hn, h⟩ := bind_eq_ok.1 h
  exact ⟨n, value_roundToScale_zero hn, h⟩

/-- The minor part takes up the minor units behind the point; nothing is lost before they are cut. -/
theorem minorPart_eq_ok {a r : Amount} (h : minorPart a = .ok r) :
    ∃ n : Decimal, n.value = minorCount a.currency.fractionDigits a.number.value ∧
      MonetaryAmount.withNumber a n = .ok r := by
  obtain ⟨fraction, hfraction, h⟩ := bind_eq_ok.1 h
  obtain ⟨shifted, hshifted, h⟩ := bind_eq_ok.1 h
  obtain ⟨n, hn, h⟩ := bind_eq_ok.1 h
  have hexact : fraction.value = a.number.value - down.select a.number.value := by
    have hnear := (rounds_difference a.number a.number.trunc).ok hfraction
    rw [(representable_sub_trunc a.number).nearestValue?, value_trunc] at hnear
    exact (Option.some.inj hnear).symm
  refine ⟨n, ?_, h⟩
  rw [value_roundToScale_zero hn, value_shiftByDigits hshifted, hexact]
  rfl

theorem minorUnits_eq_ok {a : Amount} {units : ℤ} (h : minorUnits a = .ok units) :
    units = down.select (a.number.value * 10 ^ a.currency.fractionDigits) := by
  obtain ⟨shifted, hshifted, h⟩ := bind_eq_ok.1 h
  rw [(toInteger_eq_ok_iff.1 h).1, value_shiftByDigits hshifted]
  rfl

/-! ### What a representation takes up -/

namespace Amount

/-- Amounts under the discipline of their representation alone, without a rounding that is pending. -/
inductive Plain : Amount → Prop
  | money (a : Money) : Plain (.money a)
  | rounded {a : RoundedMoney} : RoundedMoney.Reachable a → a.pending = none → Plain (.rounded a)
  | fast (a : FastMoney) : Plain (.fast a)

/-- Whether the representation of an amount takes up a number as it is. -/
def Keeps : Amount → ℚ → Prop
  | .money _, _ => True
  | .rounded a, x => Bounded a.context x
  | .fast _, x => HasPlaces FastMoney.scale x

variable {a r : Amount}

theorem Plain.keeps_number (h : Plain a) : a.Keeps a.number.value := by
  cases h with
  | money a => trivial
  | rounded ha hp => exact ha.withinContext
  | fast a => exact ⟨a.units, a.number_value⟩

theorem Keeps.select_down {x : ℚ} (h : a.Keeps x) : a.Keeps (down.select x) := by
  cases a with
  | money a => trivial
  | rounded a => exact Or.imp_right (fun hx => (HasDigits.parts hx).1) h
  | fast a => exact hasPlaces_intCast _ _

theorem Keeps.minorCount {x : ℚ} (h : a.Keeps x) (d : ℕ) : a.Keeps (minorCount d x) := by
  cases a with
  | money a => trivial
  | rounded a => exact Or.imp_right (fun hx => HasDigits.minorCount hx d) h
  | fast a => exact hasPlaces_intCast _ _

/-- What is taken up as it is becomes the number of the amount. -/
theorem Plain.value_withNumber (ha : Plain a) {n : Decimal} (hn : a.Keeps n.value)
    (h : MonetaryAmount.withNumber a n = .ok r) :
    r.number.value = n.value ∧ r.currency = a.currency ∧ r.kind = a.kind := by
  cases ha with
  | money a =>
    cases h
    exact ⟨value_unsigned n, rfl, rfl⟩
  | @rounded a _ hp =>
    have hn : Bounded a.context n.value := hn
    obtain ⟨d, hd, hvalue⟩ := hn.roundToPrecision
    have hfinish := (RoundedMoney.finish_eq_ok_of_pending_none hp).2 ⟨d, hd, rfl⟩
    change (a.finish n).map Amount.rounded = .ok r at h
    rw [hfinish] at h
    cases h
    exact ⟨hvalue, rfl, rfl⟩
  | fast a =>
    -- a number of so few places counts whole units, and these are not rounded
    obtain ⟨k, hk⟩ := hn
    have hunits : FastMoney.unitsOf n.value = k := by
      rw [FastMoney.unitsOf, hk, div_mul_cancel₀ _ (by positivity), select_intCast]
    have hcounts := FastMoney.countsUnits_ofDecimal a.currency n
    change (FastMoney.ofDecimal a.currency n).map Amount.fast = .ok r at h
    cases ho : FastMoney.ofDecimal a.currency n with
    | error cause =>
      rw [ho] at h
      cases h
    | ok f =>
      rw [ho] at h hcounts
      cases h
      refine ⟨?_, hcounts.1, rfl⟩
      change f.number.value = n.value
      rw [FastMoney.number_value, hcounts.2, hunits, hk]

/-! ### The parts together -/

/-- Two amounts that are the parts of one before and behind the point, which has so many minor units. -/
structure Parts (a major minor : Amount) (units : ℤ) : Prop where
  recombine : major.number.value * 10 ^ a.currency.fractionDigits + minor.number.value = units
  isInteger : (∃ k : ℤ, major.number.value = k) ∧ ∃ k : ℤ, minor.number.value = k
  signum_major : major.number.signum = 0 ∨ major.number.signum = a.number.signum
  signum_minor : minor.number.signum = 0 ∨ minor.number.signum = a.number.signum
  abs_minor_lt : |minor.number.value| < 10 ^ a.currency.fractionDigits
  kind_eq : major.kind = a.kind ∧ minor.kind = a.kind
  currency_eq : major.currency = a.currency ∧ minor.currency = a.currency

/-- Whatever the representation and its context, major and minor part recombine to the minor units. -/
theorem Plain.parts_recombine (ha : Plain a) {major minor : Amount} {units : ℤ} (hmajor : majorPart a = .ok major)
    (hminor : minorPart a = .ok minor) (hunits : minorUnits a = .ok units) : Parts a major minor units := by
  obtain ⟨n, hn, hmajor⟩ := majorPart_eq_ok hmajor
  obtain ⟨m, hm, hminor⟩ := minorPart_eq_ok hminor
  obtain ⟨hn_value, hn_currency, hn_kind⟩ := ha.value_withNumber (hn ▸ ha.keeps_number.select_down) hmajor
  obtain ⟨hm_value, hm_currency, hm_kind⟩ := ha.value_withNumber (hm ▸ ha.keeps_number.minorCount _) hminor
  rw [hn] at hn_value
  rw [hm] at hm_value
  refine ⟨?_, ⟨⟨_, hn_value⟩, _, hm_value⟩, ?_, ?_, ?_, ⟨hn_kind, hm_kind⟩, hn_currency, hm_currency⟩
  · rw [hn_value, hm_value, minorUnits_eq_ok hunits, ← select_mul_add_minorCount]
    push_cast
    rfl
  · refine signum_of_mul_nonneg ?_ fun h => ?_
    · rw [hn_value]
      exact down.select_mul_self_nonneg _
    · rw [hn_value, h, select_zero, Int.cast_zero]
  · refine signum_of_mul_nonneg ?_ fun h => ?_
    · rw [hm_value]
      exact minorCount_mul_self_nonneg _ _
    · rw [hm_value, h, Coinage.minorCount, select_zero, Int.cast_zero, sub_zero, zero_mul, select_zero, Int.cast_zero]
  · rw [hm_value]
    exact abs_minorCount_lt _ _

/-- A debt of `2.359`, under a context that rounds away from zero, is one of two euros and 35 cents. -/
theorem Plain.parts_recombine_debt :
    Parts (.rounded ⟨⟨.euro, ⟨4, .up⟩, ofDigits (-2359) 3 (by decide)⟩, none⟩)
      (.rounded ⟨⟨.euro, ⟨4, .up⟩, ofDigits (-2) 0 (by decide)⟩, none⟩)
      (.rounded ⟨⟨.euro, ⟨4, .up⟩, ofDigits (-35) 0 (by decide)⟩, none⟩) (-235) := by
  have hreach : RoundedMoney.Reachable ⟨⟨.euro, ⟨4, .up⟩, ofDigits (-2359) 3 (by decide)⟩, none⟩ :=
    .ofContext .euro (ofDigits (-23581) 4 (by decide)) ⟨4, .up⟩ (by cbv)
  exact (Plain.rounded hreach rfl).parts_recombine (by cbv) (by cbv) (by cbv)

end Amount

end Coinage
