import Coinage.Proofs.Amount.Basic
import Coinage.Proofs.Decimal.Scale
/-!
# Counting units

Fast money is made of a decimal by rounding it half-up to five places. The range is checked in two steps: a decimal
that cannot be padded to five places is refused before its mantissa is taken for a number of units. Both steps together
ask only whether the units, rounded once, are in range (`ofDecimal_eq`).
-/

namespace Coinage

namespace FastMoney

open Decimal RoundingMode

/-- The numbers of units that an amount can count. -/
def InRange (n : ℤ) : Prop :=
  -(2 ^ 63) ≤ n ∧ n < 2 ^ 63

/-- A number in units, rounded half-up once. -/
def unitsOf (x : ℚ) : ℤ :=
  halfUp.select (x * 10 ^ scale)

/-- An outcome that is a number in units, rounded half-up once, or an overflow if there are too many. -/
def CountsUnits (currency : Currency) (x : ℚ) : Outcome FastMoney → Prop
  | .ok r => r.currency = currency ∧ r.units = unitsOf x
  | .error cause => ¬ InRange (unitsOf x) ∧ ∃ expression, cause = .overflow expression

theorem inRange_units (a : FastMoney) : InRange a.units :=
  ⟨a.le_units, a.units_lt⟩

theorem not_inRange_of_le {x : ℚ} (h : 2 ^ 63 + 1 ≤ |x * 10 ^ scale|) : ¬ InRange (unitsOf x) := by
  rintro ⟨hlow, hhigh⟩
  have hlow' : (-(2 ^ 63) : ℚ) ≤ unitsOf x := by exact_mod_cast hlow
  have hhigh' : (unitsOf x : ℚ) < 2 ^ 63 := by exact_mod_cast hhigh
  have hnear : |(unitsOf x : ℚ) - x * 10 ^ scale| ≤ 1 / 2 := isNearest_halfUp.abs_select_sub_le _
  rw [abs_le] at hnear
  rcases abs_cases (x * 10 ^ scale) with ⟨habs, -⟩ | ⟨habs, -⟩ <;> rw [habs] at h <;> linarith

theorem ofUnits_eq_ok {n : ℤ} (currency : Currency) (h : InRange n) (expression : String) :
    ofUnits currency n expression = .ok ⟨currency, n, h.1, h.2⟩ := by
  have hbounds : -(2 ^ 63) ≤ n ∧ n < 2 ^ 63 := h
  rw [ofUnits, ofUnits?, dif_pos hbounds]

theorem ofUnits_eq_error {n : ℤ} (currency : Currency) (h : ¬ InRange n) (expression : String) :
    ofUnits currency n expression = .error (.overflow expression) := by
  have hbounds : ¬ (-(2 ^ 63) ≤ n ∧ n < 2 ^ 63) := h
  rw [ofUnits, ofUnits?, dif_neg hbounds]

theorem countsUnits_ofUnits (currency : Currency) {n : ℤ} {x : ℚ} (hn : n = unitsOf x) (expression : String) :
    CountsUnits currency x (ofUnits currency n expression) := by
  by_cases h : InRange n
  · rw [ofUnits_eq_ok currency h]
    exact ⟨rfl, hn⟩
  · rw [ofUnits_eq_error currency h]
    exact ⟨hn ▸ h, expression, rfl⟩

/-- An outcome for one number serves for another just where both round to one amount or to none. -/
theorem CountsUnits.iff_of {currency : Currency} {x y : ℚ} {o : Outcome FastMoney} (h : CountsUnits currency y o) :
    CountsUnits currency x o ↔ unitsOf x = unitsOf y ∨ ¬ InRange (unitsOf x) ∧ ¬ InRange (unitsOf y) := by
  cases o with
  | ok r =>
    have hrange : InRange (unitsOf y) := h.2 ▸ inRange_units r
    refine ⟨fun hx => Or.inl (hx.2.symm.trans h.2), fun hx => ?_⟩
    rcases hx with heq | ⟨-, hno⟩
    · exact ⟨h.1, h.2.trans heq.symm⟩
    · exact absurd hrange hno
  | error cause =>
    refine ⟨fun hx => Or.inr ⟨hx.1, h.1⟩, fun hx => ?_⟩
    rcases hx with heq | ⟨hno, -⟩
    · exact ⟨heq ▸ h.1, h.2⟩
    · exact ⟨hno, h.2⟩

/-! ### Units of a decimal -/

/-- A decimal is rounded to five places; one that cannot be written with as many is far out of range. -/
theorem exists_roundToScale (d : Decimal) :
    ∃ e, d.roundToScale scale mode = .ok e ∧
      (e.scale = scale ∧ e.mantissa = unitsOf d.value ∨ e.scale ≠ scale ∧ ¬ InRange (unitsOf d.value)) := by
  obtain ⟨e, he⟩ := exists_roundToScale_of_ne (by decide : mode ≠ unnecessary) d scale
  have hvalue : e.value = unitsOf d.value / 10 ^ scale := value_roundToScale he
  have hunits : e.value * 10 ^ scale = unitsOf d.value := by rw [hvalue, div_mul_cancel₀ _ (by positivity)]
  refine ⟨e, he, ?_⟩
  by_cases hscale : e.scale = scale
  · have hmantissa := e.mantissa_eq
    rw [hscale, hunits] at hmantissa
    exact Or.inl ⟨hscale, by exact_mod_cast hmantissa⟩
  · -- padding stopped short, so the units need more than 96 bits
    have hlarge : (2 : ℚ) ^ 96 ≤ |e.value| * 10 ^ scale := not_lt.1 (mt (paddedTo_of_roundToScale he).scale_eq hscale)
    have hpow : |(10 : ℚ) ^ scale| = 10 ^ scale := abs_of_pos (by positivity)
    rw [← hpow, ← abs_mul, hunits, ← Int.cast_abs, Int.abs_eq_natAbs] at hlarge
    have hnat : 2 ^ 96 ≤ (unitsOf d.value).natAbs := by exact_mod_cast hlarge
    refine Or.inr ⟨hscale, fun hrange => ?_⟩
    unfold InRange at hrange
    omega

/-- An amount is made of a decimal by counting its units, rounded half-up once. -/
theorem ofDecimal_eq (currency : Currency) (d : Decimal) :
    ofDecimal currency d = ofUnits currency (unitsOf d.value) s!"{d} exceeds the FastMoney range" := by
  obtain ⟨e, he, ⟨hscale, hmantissa⟩ | ⟨hscale, hrange⟩⟩ := exists_roundToScale d
  · rw [ofDecimal, he, ok_bind, if_pos hscale, hmantissa]
  · rw [ofDecimal, he, ok_bind, if_neg hscale, ofUnits_eq_error currency hrange]

/-- The nearest units of a decimal, or an overflow where there are too many. -/
theorem countsUnits_ofDecimal (currency : Currency) (d : Decimal) : CountsUnits currency d.value (ofDecimal currency d) := by
  rw [ofDecimal_eq]
  exact countsUnits_ofUnits currency rfl _

theorem number_value (a : FastMoney) : a.number.value = a.units / 10 ^ scale :=
  value_normalize a.padded

/-- A number of units stays what it is when it is rounded to units. -/
theorem ofDecimal_of_value {a : FastMoney} {d : Decimal} (h : d.value = a.number.value) :
    ofDecimal a.currency d = .ok a := by
  have hunits : unitsOf d.value = a.units := by
    rw [h, unitsOf, number_value, div_mul_cancel₀ _ (by positivity), select_intCast]
  rw [ofDecimal_eq, hunits, ofUnits_eq_ok a.currency (inRange_units a)]

/-! ### Constructions -/

/-- The ways of making fast money of a decimal. -/
inductive Construction
  | ofDecimal (c : Currency) (d : Decimal)
  | withNumber (a : FastMoney) (d : Decimal)
  | ofMoney (a : Money)
  | ofRounded (a : RoundedMoney)

namespace Construction

/-- The outcome of a construction. -/
def make : Construction → Outcome FastMoney
  | ofDecimal c d => FastMoney.ofDecimal c d
  | withNumber a d => MonetaryAmount.withNumber a d
  | ofMoney a => MonetaryAmount.toFast a
  | ofRounded a => MonetaryAmount.toFast a

def currency : Construction → Currency
  | ofDecimal c _ => c
  | withNumber a _ => a.currency
  | ofMoney a => a.currency
  | ofRounded a => a.currency

/-- The decimal that is rounded to units. -/
def number : Construction → Decimal
  | ofDecimal _ d => d
  | withNumber _ d => d
  | ofMoney a => a.number
  | ofRounded a => a.number

theorem make_eq (k : Construction) :
    k.make = ofUnits k.currency (unitsOf k.number.value) s!"{k.number} exceeds the FastMoney range" := by
  cases k <;> exact ofDecimal_eq _ _

end Construction

/-- A construction succeeds just where the number in units, rounded half-up once, is in range, and counts that many; the
only error is an overflow that names the number. So every amount is restored from its own number. -/
theorem construction_rounds_once (k : Construction) :
    ((∃ a, k.make = .ok a) ↔ InRange (unitsOf k.number.value)) ∧
    (∀ a, k.make = .ok a → a.currency = k.currency ∧ a.units = unitsOf k.number.value) ∧
    (∀ cause, k.make = .error cause → cause = .overflow s!"{k.number} exceeds the FastMoney range") ∧
    ∀ a : FastMoney, ofDecimal a.currency a.number = .ok a := by
  have hmake := k.make_eq
  by_cases hrange : InRange (unitsOf k.number.value)
  · rw [ofUnits_eq_ok k.currency hrange] at hmake
    rw [hmake]
    refine ⟨iff_of_true ⟨_, rfl⟩ hrange, fun a ha => ?_, fun cause h => ?_, fun _ => ofDecimal_of_value rfl⟩
    · cases ha
      exact ⟨rfl, rfl⟩
    · cases h
  · rw [ofUnits_eq_error k.currency hrange] at hmake
    rw [hmake]
    refine ⟨iff_of_false (by simp) hrange, fun a ha => ?_, fun cause h => ?_, fun _ => ofDecimal_of_value rfl⟩
    · cases ha
    · cases h
      rfl

/-- Below the smallest amount there is less than half a unit of room. -/
theorem construction_around_min :
    Construction.make (.ofDecimal .euro (ofDigits (-92233720368547758084) 6 (by decide))) = .ok (.min .euro) ∧
      Construction.make (.ofDecimal .euro (ofDigits (-92233720368547758085) 6 (by decide))) =
        .error (.overflow "-92233720368547.758085 exceeds the FastMoney range") ∧
      InRange (unitsOf (-92233720368547758084 / 10 ^ 6)) ∧ ¬ InRange (unitsOf (-92233720368547758085 / 10 ^ 6)) := by
  have hmin := (construction_rounds_once (.ofDecimal .euro (ofDigits (-92233720368547758084) 6 (by decide)))).1
  have hbelow := (construction_rounds_once (.ofDecimal .euro (ofDigits (-92233720368547758085) 6 (by decide)))).1
  have hmake : Construction.make (.ofDecimal .euro (ofDigits (-92233720368547758084) 6 (by decide))) = .ok (.min .euro) := by
    cbv
  have hrefused : Construction.make (.ofDecimal .euro (ofDigits (-92233720368547758085) 6 (by decide))) =
      .error (.overflow "-92233720368547.758085 exceeds the FastMoney range") := by
    cbv
  refine ⟨hmake, hrefused, ?_, ?_⟩
  · have h := hmin.1 ⟨_, hmake⟩
    simpa [Construction.number] using h
  · rw [hrefused] at hbelow
    simpa [Construction.number] using hbelow

end FastMoney

end Coinage
