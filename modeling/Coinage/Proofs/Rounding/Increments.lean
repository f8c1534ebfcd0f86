import Coinage.Proofs.Amount.Basic
import Coinage.Proofs.Decimal.Checked
import Coinage.Proofs.Decimal.DoubleRounding
import Coinage.Proofs.Decimal.Scale
import Coinage.Rounding.Provider
/-!
# Rounding to cash

An amount is rounded to the multiples of an increment by rounding the number of increments in it. That number is a
quotient, so it is the nearest decimal that the mode sees, and the multiple is a product, which may have more digits
than a decimal. `RoundedToIncrement` says what comes of both; the last rounding, to the places of the currency, finds
nothing left to do.
-/

namespace Coinage

open RoundingMode Decimal

/-! ### The nearest multiple and the nearest decimal -/

/-- How `y` comes of rounding `x` to multiples of `i`: from the decimal nearest to the number of increments, and as the
decimal nearest to the multiple. It is the multiple that the mode selects just if the mode does not see the former
displaced and the latter is that multiple itself. -/
def RoundedToIncrement (mode : RoundingMode) (i x y : ℚ) : Prop :=
  ∃ q, nearestValue? (x / i) = some q ∧ nearestValue? (mode.select q * i) = some y ∧
    (y = mode.select (x / i) * i ↔ ¬ mode.Displaced (x / i) q ∧ Representable (mode.select (x / i) * i))

/-- A number that follows another one is rounded to one of the two integers around that. -/
theorem RoundingMode.Follows.select_bounds {x y : ℚ} (h : Follows x y) (mode : RoundingMode) :
    ⌊x⌋ ≤ mode.select y ∧ mode.select y ≤ ⌈x⌉ :=
  ⟨mode.le_select (h.ge_of_ge _ (Int.floor_le x)), mode.select_le (h.le_of_le _ (Int.le_ceil x))⟩

/-- The decimal nearest to a wrong multiple is never the right one: the number that is rounded lies between the two, and
it is a decimal. -/
theorem Decimal.select_eq_of_nearestValue? {mode : RoundingMode} {i q : ℚ} {a : Decimal} (hi : 0 < i)
    (hq : nearestValue? (a.value / i) = some q)
    (hy : nearestValue? (mode.select q * i) = some (mode.select (a.value / i) * i)) :
    mode.select q = mode.select (a.value / i) := by
  obtain ⟨hlow, hhigh⟩ := (follows_nearestValue? hq).select_bounds mode
  obtain ⟨hlow', hhigh'⟩ := mode.select_bounds (a.value / i)
  have hceil := Int.ceil_le_floor_add_one (a.value / i)
  rcases lt_trichotomy (mode.select q) (mode.select (a.value / i)) with hlt | heq | hgt
  · -- the wrong multiple lies below the number and the right one above it
    have hbelow : (mode.select q : ℚ) * i ≤ a.value := by
      rw [← le_div_iff₀ hi, ← Int.le_floor]
      omega
    have hreached : (mode.select (a.value / i) : ℚ) * i ≤ a.value := nearestValue?_le hy hbelow
    rw [← le_div_iff₀ hi, ← Int.le_floor] at hreached
    omega
  · exact heq
  · have habove : a.value ≤ mode.select q * i := by
      rw [← div_le_iff₀ hi, ← Int.ceil_le]
      omega
    have hreached : a.value ≤ mode.select (a.value / i) * i := le_nearestValue? hy habove
    rw [← div_le_iff₀ hi, ← Int.ceil_le] at hreached
    omega

theorem roundedToIncrement {mode : RoundingMode} (hmode : mode ≠ unnecessary) {a b : Decimal} {i q : ℚ} (hi : 0 < i)
    (hq : nearestValue? (a.value / i) = some q) (hb : nearestValue? (mode.select q * i) = some b.value) :
    RoundedToIncrement mode i a.value b.value := by
  refine ⟨q, hq, hb, ?_⟩
  rw [← (follows_nearestValue? hq).select_eq_iff hmode]
  constructor
  · intro heq
    exact ⟨select_eq_of_nearestValue? hi hq (heq ▸ hb), b, heq⟩
  · rintro ⟨hsame, hmultiple⟩
    rw [hsame] at hb
    exact Option.some.inj (hb.symm.trans hmultiple.nearestValue?)

/-! ### The operator -/

namespace CashRounding

variable (r : CashRounding)

theorem increment_value_pos : 0 < r.increment.value :=
  div_pos (by exact_mod_cast r.increment_pos) (by positivity)

/-- A multiple of the increment has no more places than the increment, so nothing is cut behind them. -/
theorem value_cash {whole steps cash d : Decimal} (hplaces : r.increment.scale ≤ min r.scale maxScale)
    (hwhole : steps.roundToScale 0 r.mode = .ok whole) (hcash : whole.product r.increment = .ok cash)
    (hd : cash.roundToScale r.scale r.mode = .ok d) : d.value = cash.value := by
  have hwhole_scale := (paddedTo_of_roundToScale hwhole).scale_le
  have hcash_scale := scale_product_le hcash
  exact (HasPlaces.of_scale_le (by omega)).value_roundToScale hd

/-- The steps of the operator on money, each of which has to succeed. -/
theorem transform_money_eq_ok_iff {a b : Money} :
    MonetaryAmount.transform a r.operator = .ok b ↔
      ∃ steps whole cash d, a.number.quotient r.increment = .ok steps ∧ steps.roundToScale 0 r.mode = .ok whole ∧
        whole.product r.increment = .ok cash ∧ cash.roundToScale r.scale r.mode = .ok d ∧ a.withNumber d = b := by
  constructor
  · intro h
    obtain ⟨result, hresult, hkind⟩ := bind_eq_ok.1 h
    obtain ⟨steps, hsteps, hresult⟩ := bind_eq_ok.1 hresult
    obtain ⟨whole, hwhole, hresult⟩ := bind_eq_ok.1 hresult
    obtain ⟨cash, hcash, hresult⟩ := bind_eq_ok.1 hresult
    obtain ⟨d, hd, hresult⟩ := bind_eq_ok.1 hresult
    cases hresult
    cases hkind
    exact ⟨steps, whole, cash, d, hsteps, hwhole, hcash, hd, rfl⟩
  · rintro ⟨steps, whole, cash, d, hsteps, hwhole, hcash, hd, rfl⟩
    have hresult : r.operator (.money a) = .ok (.money (a.withNumber d)) :=
      bind_eq_ok.2 ⟨steps, hsteps, bind_eq_ok.2 ⟨whole, hwhole, bind_eq_ok.2 ⟨cash, hcash, bind_eq_ok.2 ⟨d, hd, rfl⟩⟩⟩⟩
    exact bind_eq_ok.2 ⟨_, hresult, rfl⟩

/-- What is rounded is the decimal nearest to the number of increments, and the amount becomes the decimal nearest to
the multiple. -/
theorem nearest_of_transform {a b : Money} (hplaces : r.increment.scale ≤ min r.scale maxScale)
    (h : MonetaryAmount.transform a r.operator = .ok b) :
    b.currency = a.currency ∧ ∃ q, nearestValue? (a.number.value / r.increment.value) = some q ∧
      nearestValue? (r.mode.select q * r.increment.value) = some b.number.value := by
  obtain ⟨steps, whole, cash, d, hsteps, hwhole, hcash, hd, rfl⟩ := r.transform_money_eq_ok_iff.1 h
  refine ⟨rfl, steps.value, (rounds_quotient _ _ r.increment_value_pos.ne').ok hsteps, ?_⟩
  rw [Money.number_withNumber, value_unsigned, r.value_cash hplaces hwhole hcash hd, ← value_roundToScale_zero hwhole]
  exact (rounds_product whole r.increment).ok hcash

/-- Nothing else than a number out of range is refused. -/
theorem exists_transform (hmode : r.mode ≠ unnecessary) {a : Money} {q y : ℚ}
    (hq : nearestValue? (a.number.value / r.increment.value) = some q)
    (hy : nearestValue? (r.mode.select q * r.increment.value) = some y) :
    ∃ b, MonetaryAmount.transform a r.operator = .ok b := by
  obtain ⟨steps, hsteps, rfl⟩ := (rounds_quotient a.number r.increment r.increment_value_pos.ne').exists_eq_ok hq
  obtain ⟨whole, hwhole⟩ := exists_roundToScale_of_ne hmode steps 0
  rw [← value_roundToScale_zero hwhole] at hy
  obtain ⟨cash, hcash, -⟩ := (rounds_product whole r.increment).exists_eq_ok hy
  obtain ⟨d, hd⟩ := exists_roundToScale_of_ne hmode cash r.scale
  exact ⟨_, r.transform_money_eq_ok_iff.2 ⟨steps, whole, cash, d, hsteps, hwhole, hcash, hd, rfl⟩⟩

end CashRounding

/-! ### The standard source -/

namespace StandardRoundings

variable {s s' : StandardRoundings} {c : Currency} {increment : Decimal}

theorem withIncrement_eq_ok (hs : s.withIncrement c.code increment = .ok s') :
    0 < increment.mantissa ∧ s' = { s with increments := (c.code, increment) :: s.increments } := by
  unfold withIncrement at hs
  split at hs
  case isTrue hpos => exact ⟨hpos, (Except.ok.inj hs).symm⟩
  case isFalse => cases hs

/-- The increment that was entered last for a currency is the one its cash is rounded to. -/
theorem cash_withIncrement (hs : s.withIncrement c.code increment = .ok s') :
    ∃ r : CashRounding, s'.cash c = some r.operator ∧ r.increment = increment ∧ r.mode = s.mode ∧
      r.scale = max c.fractionDigits increment.scale := by
  obtain ⟨hpos, rfl⟩ := withIncrement_eq_ok hs
  refine ⟨⟨_, increment, s.mode, hpos⟩, ?_, rfl, rfl, rfl⟩
  rw [cash, List.lookup_cons, beq_self_eq_true]
  dsimp only [CashRounding.make?]
  rw [dif_pos hpos, Option.map_some]

/-- Cash is rounded to the multiple that the mode selects for the exact number of increments just if the mode does not
see the decimal nearest to that number displaced and the multiple is a decimal; and it is refused only where a number
is out of range. -/
theorem cash_multiple_iff (hs : s.withIncrement c.code increment = .ok s') (hmode : s.mode ≠ unnecessary) :
    ∃ op, s'.cash c = some op ∧ ∀ a : Money,
      (∀ b, MonetaryAmount.transform a op = .ok b →
        b.currency = a.currency ∧ RoundedToIncrement s.mode increment.value a.number.value b.number.value) ∧
      ∀ y, RoundedToIncrement s.mode increment.value a.number.value y →
        ∃ b : Money, MonetaryAmount.transform a op = .ok b ∧ b.number.value = y := by
  obtain ⟨r, hcash, rfl, hr_mode, hr_scale⟩ := cash_withIncrement hs
  rw [← hr_mode] at hmode ⊢
  have hplaces : r.increment.scale ≤ min r.scale maxScale :=
    le_min (hr_scale ▸ le_max_right _ _) r.increment.scale_le
  refine ⟨r.operator, hcash, fun a => ⟨fun b hb => ?_, fun y hy => ?_⟩⟩
  · obtain ⟨hcurrency, q, hq, hmultiple⟩ := r.nearest_of_transform hplaces hb
    exact ⟨hcurrency, roundedToIncrement hmode r.increment_value_pos hq hmultiple⟩
  · obtain ⟨q, hq, hmultiple, -⟩ := hy
    obtain ⟨b, hb⟩ := r.exists_transform hmode hq hmultiple
    obtain ⟨-, q', hq', hmultiple'⟩ := r.nearest_of_transform hplaces hb
    obtain rfl : q = q' := Option.some.inj (hq.symm.trans hq')
    exact ⟨b, hb, Option.some.inj (hmultiple'.symm.trans hmultiple)⟩

/-- One euro has thirty-three and a third increments of three cents. -/
theorem cash_multiple_of_three_cents :
    ∃ s op, initial.withIncrement Currency.euro.code (.ofDigits 3 2 (by decide)) = .ok s ∧ s.cash .euro = some op ∧
      MonetaryAmount.transform (⟨.euro, .ofDigits 1 0 (by decide)⟩ : Money) op =
        .ok ⟨.euro, .ofDigits 99 2 (by decide)⟩ ∧
      RoundedToIncrement halfUp (3 / 100) 1 (99 / 100) := by
  have hs : initial.withIncrement Currency.euro.code (.ofDigits 3 2 (by decide)) = .ok _ := rfl
  obtain ⟨op, hop, h⟩ := cash_multiple_iff hs (by decide)
  have hrun : MonetaryAmount.transform (⟨.euro, .ofDigits 1 0 (by decide)⟩ : Money) op =
      .ok ⟨.euro, .ofDigits 99 2 (by decide)⟩ := by
    cases hop
    cbv
  refine ⟨_, op, hs, hop, hrun, ?_⟩
  have hcash := ((h _).1 _ hrun).2
  norm_num at hcash
  exact hcash

/-- An amount just below the middle of two multiples of five cents becomes the upper one: the number of increments in it
has twenty-nine digits, and the decimal nearest to it lies in the middle. -/
theorem cash_displaced :
    ∃ s op, ∃ a b : Money, initial.withIncrement "EUR" (.ofDigits 5 2 (by decide)) = .ok s ∧ s.mode = halfUp ∧
      s.cash .euro = some op ∧ MonetaryAmount.transform a op = .ok b ∧
      a.number.value = 70249999999999999999999999999 / 10 ^ 28 ∧ b.number.value = 141 / 20 ∧
      halfUp.select (a.number.value / (5 / 100)) * (5 / 100 : ℚ) = 7 := by
  refine ⟨_, _, ⟨.euro, .ofDigits 70249999999999999999999999999 28 (by decide)⟩, ⟨.euro, .ofDigits 705 2 (by decide)⟩,
    rfl, rfl, rfl, by cbv, ?_, ?_, ?_⟩
  · norm_num
  · norm_num
  · have hselect : halfUp.select (70249999999999999999999999999 / 10 ^ 28 / (5 / 100)) = 140 := by
      refine isNearest_halfUp.select_eq ?_
      norm_num [abs_lt]
    rw [value_ofDigits]
    push_cast
    rw [hselect]
    norm_num

end StandardRoundings

end Coinage
