import Coinage.Proofs.Amount.Basic
import Coinage.Proofs.Decimal.Checked
import Coinage.Proofs.Decimal.Significant
/-!
# Powers

A power is computed by repeated squaring. The base runs ahead of the result, but never further than the power that is
wanted, so no product on the way leaves the decimals as long as that power does not (`KeepsPowers`); and the products of
numbers between -1 and 1 stay there, whether they are rounded or not. Both are instances of one rule about the loop: what
a multiplication and a squaring keep, the whole loop keeps (`SquaringInvariant`). A power of money is the power of its
number, rounded to sixteen digits.
-/

namespace Coinage

open Decimal RoundingMode

namespace Decimal

/-! ### The loop -/

/-- One turn of the loop: the base is multiplied into the result if it is due, and squared if it is needed again. -/
theorem powerFrom_turn {acc next base : Decimal} {e : ℕ} (he : e ≠ 0)
    (hnext : (if e % 2 = 1 then acc.product base else .ok acc) = .ok next) :
    powerFrom acc base e =
      if e / 2 = 0 then .ok next else base.product base >>= fun square => powerFrom next square (e / 2) := by
  rw [powerFrom, if_neg he]
  by_cases hodd : e % 2 = 1
  · rw [if_pos hodd] at hnext
    simp only [hodd, if_true, hnext]
    rfl
  · rw [if_neg hodd] at hnext
    cases hnext
    simp only [hodd, if_false]
    rfl

/-- A property of the result so far, the base and the exponent that is left, which holds on after a multiplication with
the base and after a squaring of it. Neither of the two fails. -/
structure SquaringInvariant (P : Decimal → Decimal → ℕ → Prop) : Prop where
  multiply : ∀ {acc base e}, P acc base (e + 1) → ∃ next, acc.product base = .ok next ∧ P next base e
  square : ∀ {acc base e}, e ≠ 0 → P acc base (2 * e) → ∃ next, base.product base = .ok next ∧ P acc next e

/-- What multiplications and squarings keep holds at the end, when no exponent is left. -/
theorem SquaringInvariant.exists_powerFrom {P : Decimal → Decimal → ℕ → Prop} (h : SquaringInvariant P)
    {acc base : Decimal} {e : ℕ} (hP : P acc base e) : ∃ p last, powerFrom acc base e = .ok p ∧ P p last 0 := by
  induction e using Nat.strong_induction_on generalizing acc base with
  | _ e ih =>
    rcases Nat.eq_zero_or_pos e with rfl | hpos
    · refine ⟨acc, base, ?_, hP⟩
      rw [powerFrom, if_pos rfl]
    -- an odd exponent has the base multiplied into the result, and is even then
    obtain ⟨next, hnext, heven⟩ :
        ∃ next, (if e % 2 = 1 then acc.product base else .ok acc) = .ok next ∧ P next base (2 * (e / 2)) := by
      rcases Nat.mod_two_eq_zero_or_one e with hmod | hmod
      · refine ⟨acc, if_neg (by omega), ?_⟩
        rwa [Nat.mul_div_cancel' (Nat.dvd_of_mod_eq_zero hmod)]
      · have hsplit : e = 2 * (e / 2) + 1 := by omega
        rw [hsplit] at hP
        obtain ⟨next, hproduct, hnext⟩ := h.multiply hP
        exact ⟨next, by rw [if_pos hmod, hproduct], hnext⟩
    rw [powerFrom_turn hpos.ne' hnext]
    by_cases hlast : e / 2 = 0
    · rw [if_pos hlast]
      rw [hlast, mul_zero] at heven
      exact ⟨next, base, rfl, heven⟩
    · obtain ⟨square, hsquare, hhalf⟩ := h.square hlast heven
      rw [if_neg hlast, hsquare, ok_bind]
      exact ih (e / 2) (by omega) hhalf

/-! ### Powers that fit -/

/-- Whether the loop is on the way to a number `x` and meets decimals only: neither a power of the base nor one that is
multiplied into the result needs more digits than a decimal has. -/
structure KeepsPowers (x : ℚ) (acc base : Decimal) (e : ℕ) : Prop where
  result_eq : acc.value * base.value ^ e = x
  powers : ∀ k ≤ e, Representable (base.value ^ k)
  products : ∀ k ≤ e, Representable (acc.value * base.value ^ k)

theorem squaringInvariant_keepsPowers (x : ℚ) : SquaringInvariant (KeepsPowers x) where
  multiply := by
    intro acc base e h
    have hproduct := h.products 1 (by omega)
    rw [pow_one] at hproduct
    obtain ⟨next, hnext, hvalue⟩ := (rounds_product acc base).exists_ok hproduct
    have hpow : ∀ k, next.value * base.value ^ k = acc.value * base.value ^ (k + 1) := by
      intro k
      rw [hvalue, mul_assoc, ← pow_succ']
    refine ⟨next, hnext, ?_, ?_, ?_⟩
    · rw [hpow, h.result_eq]
    · intro k hk
      exact h.powers k (by omega)
    · intro k hk
      rw [hpow]
      exact h.products (k + 1) (by omega)
  square := by
    intro acc base e he h
    have hsquare := h.powers 2 (by omega)
    rw [pow_two] at hsquare
    obtain ⟨next, hnext, hvalue⟩ := (rounds_product base base).exists_ok hsquare
    have hpow : ∀ k, next.value ^ k = base.value ^ (2 * k) := by
      intro k
      rw [hvalue, ← pow_two, ← pow_mul]
    refine ⟨next, hnext, ?_, ?_, ?_⟩
    · rw [hpow, h.result_eq]
    · intro k hk
      rw [hpow]
      exact h.powers (2 * k) (by omega)
    · intro k hk
      rw [hpow]
      exact h.products (2 * k) (by omega)

/-- With a power that is in range all powers below it are. -/
theorem representable_pow {d : Decimal} {n k : ℕ} (hk : k ≤ n) (hplaces : n * d.scale ≤ maxScale)
    (hdigits : d.mantissa.natAbs ^ n < capacity) : Representable (d.value ^ k) := by
  rcases eq_or_ne d.mantissa 0 with hzero | hne
  · rw [(value_eq_zero_iff d).2 hzero]
    rcases Nat.eq_zero_or_pos k with rfl | hpos
    · exact ⟨one, by rw [value_one, pow_zero]⟩
    · exact ⟨zero, by rw [value_zero, zero_pow hpos.ne']⟩
  · have hrange : (d.mantissa ^ k).natAbs < capacity ∧ k * d.scale ≤ maxScale := by
      constructor
      · rw [Int.natAbs_pow]
        exact (Nat.pow_le_pow_right (Int.natAbs_pos.2 hne) hk).trans_lt hdigits
      · exact (Nat.mul_le_mul_right _ hk).trans hplaces
    refine ⟨ofDigits _ _ hrange, ?_⟩
    rw [value_ofDigits, value, div_pow, ← pow_mul, mul_comm d.scale, Int.cast_pow]

/-- A power whose digits and places are in range is exact. -/
theorem exists_power_of_fits {d : Decimal} {n : ℕ} (hplaces : n * d.scale ≤ maxScale)
    (hdigits : d.mantissa.natAbs ^ n < capacity) : ∃ p, d.power n = .ok p ∧ p.value = d.value ^ n := by
  have hstart : KeepsPowers (d.value ^ n) one d n := by
    have hpowers : ∀ k ≤ n, Representable (d.value ^ k) := fun k hk => representable_pow hk hplaces hdigits
    refine ⟨?_, hpowers, ?_⟩
    · rw [value_one, one_mul]
    · intro k hk
      rw [value_one, one_mul]
      exact hpowers k hk
  obtain ⟨p, last, hp, hend⟩ := (squaringInvariant_keepsPowers _).exists_powerFrom hstart
  have hvalue := hend.result_eq
  rw [pow_zero, mul_one] at hvalue
  exact ⟨p, hp, hvalue⟩

/-! ### Powers of numbers between -1 and 1 -/

/-- A product of numbers between -1 and 1 is not rounded out of there. -/
theorem exists_product_of_abs_le_one {a b : Decimal} (ha : |a.value| ≤ 1) (hb : |b.value| ≤ 1) :
    ∃ p, a.product b = .ok p ∧ |p.value| ≤ 1 := by
  have habs : |a.value * b.value| ≤ 1 := by
    rw [abs_mul]
    exact mul_le_one₀ ha (abs_nonneg _) hb
  have hsome : nearestValue? (a.value * b.value) ≠ none := by
    intro hnone
    have hselect : halfEven.select |a.value * b.value| ≤ 1 := halfEven.select_le (by push_cast; exact habs)
    exact absurd ((nearestValue?_eq_none_iff_le.1 hnone).trans hselect) (by norm_num)
  obtain ⟨y, hy⟩ := Option.ne_none_iff_exists'.1 hsome
  obtain ⟨p, hp, rfl⟩ := (rounds_product a b).exists_eq_ok hy
  obtain ⟨hlow, hhigh⟩ := abs_le.1 habs
  refine ⟨p, hp, abs_le.2 ⟨?_, ?_⟩⟩
  · have h := le_nearestValue? (b := one.neg) hy (by rw [value_neg, value_one]; exact hlow)
    rwa [value_neg, value_one] at h
  · have h := nearestValue?_le (b := one) hy (by rw [value_one]; exact hhigh)
    rwa [value_one] at h

theorem squaringInvariant_abs_le_one : SquaringInvariant fun acc base _ => |acc.value| ≤ 1 ∧ |base.value| ≤ 1 where
  multiply := by
    rintro acc base - ⟨hacc, hbase⟩
    obtain ⟨next, hnext, hle⟩ := exists_product_of_abs_le_one hacc hbase
    exact ⟨next, hnext, hle, hbase⟩
  square := by
    rintro acc base - - ⟨hacc, hbase⟩
    obtain ⟨next, hnext, hle⟩ := exists_product_of_abs_le_one hbase hbase
    exact ⟨next, hnext, hacc, hle⟩

/-- A number between -1 and 1 has every power, and it lies there too. -/
theorem exists_power_of_abs_le_one {d : Decimal} (hd : |d.value| ≤ 1) (n : ℕ) :
    ∃ p, d.power n = .ok p ∧ |p.value| ≤ 1 := by
  have hone : |one.value| ≤ 1 := by rw [value_one, abs_one]
  obtain ⟨p, last, hp, hle, -⟩ := squaringInvariant_abs_le_one.exists_powerFrom (e := n) ⟨hone, hd⟩
  exact ⟨p, hp, hle⟩

/-! ### Rounding to a context -/

/-- A mode that may drop digits fails only where the rounded number is larger than every decimal. -/
theorem roundToPrecision_eq_error_iff {c : MathContext} {d : Decimal} {cause : AmountError} (hc : c.isUnlimited = false)
    (hmode : c.mode ≠ unnecessary) :
    d.roundToPrecision c = .error cause ↔
      2 ^ 96 - 1 < |toDigits c.mode c.precision d.value| ∧ cause = .overflow s!"rounding {d} to {c}" := by
  rcases le_or_gt d.precision c.precision with hshort | hlong
  · have hself : d.roundToPrecision c = .ok d := roundToPrecision_eq_self (Or.inr hshort)
    rw [hself, ← value_roundToPrecision_toDigits hc hself]
    exact iff_of_false (fun h => nomatch h) fun h => absurd h.1 (not_lt.2 d.abs_value_le)
  · have hrounds := roundsToMultiple hc hlong
    rw [toDigits, if_neg hmode, ← hrounds.overflow_iff]
    constructor
    · intro h
      rcases hrounds.cause_eq cause h with rfl | rfl
      · exact absurd (hrounds.necessary_iff.1 h).1 hmode
      · exact ⟨h, rfl⟩
    · rintro ⟨h, rfl⟩
      exact h

theorem abs_toDigits_le_one {mode : RoundingMode} {p : ℕ} (hp : 1 ≤ p) {x : ℚ} (hx : |x| ≤ 1) :
    |toDigits mode p x| ≤ 1 := by
  have hdigits : HasDigits p 1 := ⟨1, 0, by norm_num, by rw [abs_one]; exact one_lt_pow₀ (by norm_num) (by omega)⟩
  obtain ⟨hlow, hhigh⟩ := abs_le.1 hx
  refine abs_le.2 ⟨?_, ?_⟩
  · have h := toDigits_mono mode hp hlow
    rwa [hdigits.neg.toDigits_eq] at h
  · have h := toDigits_mono mode hp hhigh
    rwa [hdigits.toDigits_eq] at h

end Decimal

/-! ### Powers of money -/

namespace Money

/-- An outcome that is a number rounded once to sixteen digits, half-even, and an overflow just where the rounded number
is larger than every decimal. -/
structure RoundedOnce (c : Currency) (x : ℚ) (o : Outcome Money) : Prop where
  value_eq : ∀ r, o = .ok r → r.currency = c ∧ r.number.value = toDigits halfEven 16 x
  fails_iff : (∃ cause, o = .error cause) ↔ 2 ^ 96 - 1 < |toDigits halfEven 16 x|
  cause_eq : ∀ cause, o = .error cause → ∃ expression, cause = .overflow expression

variable {a : Money} {n : ℕ} {p : Decimal}

theorem roundedOnce_pow (hp : a.number.power n = .ok p) : RoundedOnce a.currency p.value (a.pow n) := by
  have herror : ∀ cause, a.pow n = .error cause ↔ p.roundToPrecision bound = .error cause := by
    intro cause
    rw [pow, hp, ok_bind, bind_eq_error]
    exact ⟨fun h => h.resolve_right fun ⟨_, _, hpure⟩ => pure_ne_error hpure, Or.inl⟩
  have hfails := fun cause => (herror cause).trans (roundToPrecision_eq_error_iff (c := bound) rfl (by decide))
  refine ⟨?_, ?_, ?_⟩
  · intro r hr
    rw [pow, hp, ok_bind] at hr
    obtain ⟨rounded, hrounded, hr⟩ := bind_eq_ok.1 hr
    cases pure_eq_ok.1 hr
    refine ⟨rfl, ?_⟩
    rw [number_withNumber, value_unsigned]
    exact value_roundToPrecision_toDigits (c := bound) rfl hrounded
  · constructor
    · rintro ⟨cause, h⟩
      exact ((hfails cause).1 h).1
    · intro h
      exact ⟨_, (hfails _).2 ⟨h, rfl⟩⟩
  · intro cause h
    exact ⟨_, ((hfails cause).1 h).2⟩

theorem exists_pow_of_abs_le_one (ha : |a.number.value| ≤ 1) (n : ℕ) : ∃ r, a.pow n = .ok r ∧ |r.number.value| ≤ 1 := by
  obtain ⟨p, hp, hle⟩ := exists_power_of_abs_le_one ha n
  have hpow := roundedOnce_pow hp
  have hrounded : |toDigits halfEven 16 p.value| ≤ 1 := abs_toDigits_le_one (by decide) hle
  cases h : a.pow n with
  | ok r => exact ⟨r, rfl, by rw [(hpow.value_eq r h).2]; exact hrounded⟩
  | error cause => exact absurd ((hpow.fails_iff.1 ⟨cause, h⟩).trans_le hrounded) (by norm_num)

/-- A power whose digits and places are in range is exact, and a power of money is that number rounded once. Powers of
numbers between -1 and 1 never fail, whatever the exponent. -/
theorem powers_exact_where_they_fit (a : Money) (n : ℕ) :
    (n * a.number.scale ≤ maxScale → a.number.mantissa.natAbs ^ n < capacity →
      (∃ p, a.number.power n = .ok p ∧ p.value = a.number.value ^ n) ∧
      RoundedOnce a.currency (a.number.value ^ n) (a.pow n)) ∧
    (|a.number.value| ≤ 1 →
      (∃ p, a.number.power n = .ok p ∧ |p.value| ≤ 1) ∧ ∃ r, a.pow n = .ok r ∧ |r.number.value| ≤ 1) := by
  constructor
  · intro hplaces hdigits
    obtain ⟨p, hp, hvalue⟩ := exists_power_of_fits hplaces hdigits
    have hpow := roundedOnce_pow hp
    rw [hvalue] at hpow
    exact ⟨⟨p, hp, hvalue⟩, hpow⟩
  · intro ha
    exact ⟨exists_power_of_abs_le_one ha n, exists_pow_of_abs_le_one ha n⟩

/-- The largest power of two that a decimal holds, whose base is squared up to `2 ^ 64` on the way; and a number just
below one under the largest exponent. -/
theorem powers_of_two_and_below_one :
    (∃ p, (ofDigits 2 0 (by decide)).power 95 = .ok p ∧ p.value = 2 ^ 95) ∧
    ∃ r, pow ⟨.euro, ofDigits 9999999999999999999999999999 28 (by decide)⟩ 4294967295 = .ok r ∧ |r.number.value| ≤ 1 := by
  have htwo := (powers_exact_where_they_fit ⟨.euro, ofDigits 2 0 (by decide)⟩ 95).1 (by decide) (by decide)
  have hbelow := (powers_exact_where_they_fit ⟨.euro, ofDigits 9999999999999999999999999999 28 (by decide)⟩ 4294967295).2
    (by norm_num [abs_le])
  obtain ⟨p, hp, hvalue⟩ := htwo.1
  exact ⟨⟨p, hp, by simpa using hvalue⟩, hbelow.2⟩

end Money

end Coinage
