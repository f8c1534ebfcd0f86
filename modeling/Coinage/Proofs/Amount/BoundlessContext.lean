import Coinage.Proofs.Amount.ContextInvariant
/-!
# Contexts without a bound

Under a precision of 28 and more nothing is rounded: whatever a decimal operation gives becomes the number of the amount.
What bounds it then is the decimal itself, and a mantissa below `2 ^ 96` may have 29 digits, one more than the least of
these precisions.
-/

namespace Coinage

open Decimal

namespace Decimal

variable {d : Decimal} {p : ℕ}

/-- Digits of a mantissa that need not be counted are zeros at its end. -/
theorem hasDigits_value_iff : HasDigits p d.value ↔ ∃ j : ℕ, 10 ^ j ∣ d.mantissa ∧ |d.mantissa| < 10 ^ (p + j) := by
  constructor
  · intro h
    obtain ⟨k, e, hvalue, hk⟩ := h
    have hmantissa : (d.mantissa : ℚ) = k * 10 ^ (e + d.scale) := by
      rw [mantissa_eq, hvalue, zpow_add₀ (by norm_num), zpow_natCast, mul_assoc]
    rcases Int.eq_nat_or_neg (e + d.scale) with ⟨j, hj | hj⟩
    · rw [hj, zpow_natCast] at hmantissa
      have heq : d.mantissa = k * 10 ^ j := by exact_mod_cast hmantissa
      refine ⟨j, ⟨k, by rw [heq, mul_comm]⟩, ?_⟩
      rw [heq, abs_mul, abs_of_pos (by positivity : (0 : ℤ) < 10 ^ j), pow_add]
      exact mul_lt_mul_of_pos_right hk (by positivity)
    -- the mantissa has places that the number has not, and is the shorter of the two
    · rw [hj, zpow_neg, zpow_natCast, ← div_eq_mul_inv, eq_div_iff (by positivity)] at hmantissa
      have heq : d.mantissa * 10 ^ j = k := by exact_mod_cast hmantissa
      refine ⟨0, one_dvd _, ?_⟩
      rw [← heq, abs_mul, abs_of_pos (by positivity : (0 : ℤ) < 10 ^ j)] at hk
      exact (le_mul_of_one_le_right (abs_nonneg _) (one_le_pow₀ (by norm_num))).trans_lt hk
  · intro h
    obtain ⟨j, ⟨k, hk⟩, hlt⟩ := h
    refine ⟨k, j - d.scale, ?_, ?_⟩
    · rw [value, hk, zpow_sub₀ (by norm_num), zpow_natCast, zpow_natCast]
      push_cast
      ring
    · rw [hk, abs_mul, abs_of_pos (by positivity : (0 : ℤ) < 10 ^ j), pow_add, mul_comm] at hlt
      exact lt_of_mul_lt_mul_right hlt (by positivity)

theorem precision_le_iff (hp : 1 ≤ p) : d.precision ≤ p ↔ d.mantissa.natAbs < 10 ^ p := by
  constructor
  · intro h
    rcases eq_or_ne d.mantissa.natAbs 0 with hzero | hne
    · rw [hzero]
      positivity
    · exact (digitCount_bounds hne).2.trans_le (Nat.pow_le_pow_right (by decide) h)
  · intro h
    exact digitCount_le hp h

theorem natAbs_mantissa_lt_ten_pow (d : Decimal) : d.mantissa.natAbs < 10 ^ 29 :=
  d.natAbs_mantissa_lt.trans (by norm_num)

/-- Of the 29 digits that a decimal may have, the last has to be a zero if 28 are to be enough. -/
theorem hasDigits_twenty_eight_iff :
    HasDigits 28 d.value ↔ d.mantissa.natAbs < 10 ^ 28 ∨ 10 ∣ d.mantissa := by
  rw [hasDigits_value_iff]
  constructor
  · intro h
    obtain ⟨j, hdvd, hlt⟩ := h
    rcases Nat.eq_zero_or_pos j with rfl | hpos
    · left
      rw [Int.abs_eq_natAbs] at hlt
      exact_mod_cast hlt
    · exact Or.inr ((dvd_pow_self 10 hpos.ne').trans hdvd)
  · intro h
    rcases h with h | h
    · refine ⟨0, one_dvd _, ?_⟩
      rw [Int.abs_eq_natAbs]
      exact_mod_cast h
    · refine ⟨1, by rwa [pow_one], ?_⟩
      rw [Int.abs_eq_natAbs]
      exact_mod_cast d.natAbs_mantissa_lt_ten_pow

end Decimal

namespace RoundedMoney

variable {context : MathContext} {a r : RoundedMoney}

/-! ### One operation -/

/-- The decimals that the operations on an amount come down to. -/
inductive Computes (a : RoundedMoney) : Decimal → Prop
  | sum {d : Decimal} (b : RoundedMoney) :
      checkCurrency a.currency b.currency = .ok () → a.number.sum b.number = .ok d → Computes a d
  | difference {d : Decimal} (b : RoundedMoney) :
      checkCurrency a.currency b.currency = .ok () → a.number.difference b.number = .ok d → Computes a d
  | product {d : Decimal} (n : Decimal) : a.number.product n = .ok d → Computes a d
  | quotient {d : Decimal} (n : Decimal) : a.number.quotient n = .ok d → Computes a d
  | neg : Computes a a.number.neg
  | itself : Computes a a.number
  | power {d : Decimal} (exponent : Nat) : a.number.power exponent = .ok d → Computes a d
  | shift {d : Decimal} (n : Int) : a.number.shift n = .ok d → Computes a d
  | integralQuotient {d : Decimal} (n : Decimal) : a.number.integralQuotient n = .ok d → Computes a d
  | remainder {q d : Decimal} (n : Decimal) :
      a.number.integralQuotient n = .ok q → a.number.remainder n = .ok d → Computes a d

/-- The amount with another number, which is not rounded. -/
def holding (a : RoundedMoney) (n : Decimal) : RoundedMoney :=
  { a with number := n.unsigned }

/-- An amount that no rounding touches: its context has no bound, and nothing is pending. -/
structure Boundless (a : RoundedMoney) : Prop where
  isUnlimited : a.context.isUnlimited = true
  pending_eq : a.pending = none
  holding_number : a.holding a.number = a

namespace Boundless

theorem finish_eq (hc : a.context.isUnlimited = true) (hp : a.pending = none) (n : Decimal) :
    a.finish n = .ok (a.holding n) :=
  (finish_eq_ok_of_pending_none hp).2 ⟨n, roundToPrecision_eq_self (Or.inl hc), rfl⟩

theorem exact_eq (hc : a.context.isUnlimited = true) (n : Decimal) (part : String) :
    a.exact n part = .ok (a.holding n) := by
  have hself : n.roundToPrecision ⟨a.context.precision, .down⟩ = .ok n := roundToPrecision_eq_self (Or.inl hc)
  rw [exact, hself, ok_bind, if_pos ((sameValue_iff _ _).2 rfl)]
  rfl

theorem bind_finish_eq_ok (ha : a.Boundless) {x : Outcome Decimal} :
    (x >>= fun d => a.finish d) = .ok r ↔ ∃ d, x = .ok d ∧ r = a.holding d :=
  bind_eq_ok_of_forall (finish_eq ha.isUnlimited ha.pending_eq)

theorem bind_exact_eq_ok (ha : a.Boundless) {x : Outcome Decimal} {part : String} :
    (x >>= fun d => a.exact d part) = .ok r ↔ ∃ d, x = .ok d ∧ r = a.holding d :=
  bind_eq_ok_of_forall fun d => exact_eq ha.isUnlimited d part

theorem divideAndRemainderBy_eq_ok (ha : a.Boundless) {n : Decimal} {quotient rest : RoundedMoney} :
    a.divideAndRemainderBy n = .ok (quotient, rest) ↔
      ∃ q d, a.number.integralQuotient n = .ok q ∧ a.number.remainder n = .ok d ∧
        quotient = a.holding q ∧ rest = a.holding d := by
  constructor
  · intro h
    unfold divideAndRemainderBy at h
    obtain ⟨q, hq, h⟩ := bind_eq_ok.1 h
    rw [exact_eq ha.isUnlimited, ok_bind] at h
    obtain ⟨d, hd, h⟩ := bind_eq_ok.1 h
    rw [exact_eq ha.isUnlimited, ok_bind] at h
    cases pure_eq_ok.1 h
    exact ⟨q, d, hq, hd, rfl, rfl⟩
  · intro h
    obtain ⟨q, d, hq, hd, rfl, rfl⟩ := h
    rw [divideAndRemainderBy, hq, ok_bind, exact_eq ha.isUnlimited, ok_bind, hd, ok_bind, exact_eq ha.isUnlimited]
    rfl

theorem computes_of_arithmetic (ha : a.Boundless) (h : Arithmetic a r) : ∃ d, Computes a d ∧ r = a.holding d := by
  cases h with
  | add b h =>
    obtain ⟨_, hcurrency, h⟩ := bind_eq_ok.1 h
    obtain ⟨d, hd, rfl⟩ := ha.bind_finish_eq_ok.1 h
    exact ⟨d, .sum b hcurrency hd, rfl⟩
  | subtract b h =>
    obtain ⟨_, hcurrency, h⟩ := bind_eq_ok.1 h
    obtain ⟨d, hd, rfl⟩ := ha.bind_finish_eq_ok.1 h
    exact ⟨d, .difference b hcurrency hd, rfl⟩
  | multiplyBy n h =>
    obtain ⟨d, hd, rfl⟩ := ha.bind_finish_eq_ok.1 h
    exact ⟨d, .product n hd, rfl⟩
  | divideBy n h =>
    obtain ⟨d, hd, rfl⟩ := ha.bind_finish_eq_ok.1 h
    exact ⟨d, .quotient n hd, rfl⟩
  | pow exponent h =>
    obtain ⟨d, hd, rfl⟩ := ha.bind_finish_eq_ok.1 h
    exact ⟨d, .power exponent hd, rfl⟩
  | shift n h =>
    obtain ⟨d, hd, rfl⟩ := ha.bind_finish_eq_ok.1 h
    exact ⟨d, .shift n hd, rfl⟩
  | negate h =>
    rw [negate, finish_eq ha.isUnlimited ha.pending_eq] at h
    exact ⟨_, .neg, (Except.ok.inj h).symm⟩
  | plus h =>
    rw [plus, finish_eq ha.isUnlimited ha.pending_eq] at h
    exact ⟨_, .itself, (Except.ok.inj h).symm⟩
  | abs h =>
    unfold MonetaryAmount.abs at h
    split at h
    · cases h
      exact ⟨_, .itself, ha.holding_number.symm⟩
    · have hneg : a.negate = .ok r := h
      rw [negate, finish_eq ha.isUnlimited ha.pending_eq] at hneg
      exact ⟨_, .neg, (Except.ok.inj hneg).symm⟩
  | quotient n h =>
    obtain ⟨q, d, hq, hd, rfl, rfl⟩ := ha.divideAndRemainderBy_eq_ok.1 h
    exact ⟨q, .integralQuotient n hq, rfl⟩
  | rest n h =>
    obtain ⟨q, d, hq, hd, rfl, rfl⟩ := ha.divideAndRemainderBy_eq_ok.1 h
    exact ⟨d, .remainder n hq hd, rfl⟩
  | divideToIntegralBy n h =>
    obtain ⟨q, hq, rfl⟩ := ha.bind_exact_eq_ok.1 h
    exact ⟨q, .integralQuotient n hq, rfl⟩
  | remainderBy n h =>
    obtain ⟨⟨quotient, rest⟩, hparts, h⟩ := bind_eq_ok.1 h
    cases pure_eq_ok.1 h
    obtain ⟨q, d, hq, hd, rfl, rfl⟩ := ha.divideAndRemainderBy_eq_ok.1 hparts
    exact ⟨d, .remainder n hq hd, rfl⟩

theorem arithmetic_of_computes (ha : a.Boundless) {d : Decimal} (h : Computes a d) : Arithmetic a (a.holding d) := by
  cases h with
  | sum b hcurrency hd =>
    apply Arithmetic.add b
    rw [add, hcurrency, ok_bind]
    exact ha.bind_finish_eq_ok.2 ⟨d, hd, rfl⟩
  | difference b hcurrency hd =>
    apply Arithmetic.subtract b
    rw [subtract, hcurrency, ok_bind]
    exact ha.bind_finish_eq_ok.2 ⟨d, hd, rfl⟩
  | product n hd => exact .multiplyBy n (ha.bind_finish_eq_ok.2 ⟨d, hd, rfl⟩)
  | quotient n hd => exact .divideBy n (ha.bind_finish_eq_ok.2 ⟨d, hd, rfl⟩)
  | power exponent hd => exact .pow exponent (ha.bind_finish_eq_ok.2 ⟨d, hd, rfl⟩)
  | shift n hd => exact .shift n (ha.bind_finish_eq_ok.2 ⟨d, hd, rfl⟩)
  | neg => exact .negate (finish_eq ha.isUnlimited ha.pending_eq _)
  | itself => exact .plus (finish_eq ha.isUnlimited ha.pending_eq _)
  | integralQuotient n hd => exact .divideToIntegralBy n (ha.bind_exact_eq_ok.2 ⟨d, hd, rfl⟩)
  | remainder n hq hd => exact .rest n (ha.divideAndRemainderBy_eq_ok.2 ⟨_, d, hq, hd, rfl, rfl⟩)

/-- The results of arithmetic are those of the decimal operations, digit by digit. -/
theorem arithmetic_iff (ha : a.Boundless) : Arithmetic a r ↔ ∃ d, Computes a d ∧ r = a.holding d := by
  refine ⟨ha.computes_of_arithmetic, ?_⟩
  intro h
  obtain ⟨d, hd, rfl⟩ := h
  exact ha.arithmetic_of_computes hd

theorem arithmetic (ha : a.Boundless) (h : Arithmetic a r) : r.Boundless := by
  obtain ⟨d, -, rfl⟩ := ha.computes_of_arithmetic h
  exact ⟨ha.isUnlimited, ha.pending_eq, rfl⟩

end Boundless

/-! ### A whole run -/

/-- The amounts that are made under a context or computed from such amounts. -/
inductive ComputedUnder (context : MathContext) : RoundedMoney → Prop
  | ofContext {r : RoundedMoney} (c : Currency) (d : Decimal) :
      RoundedMoney.ofContext c d context = .ok r → ComputedUnder context r
  | arithmetic {a r : RoundedMoney} : ComputedUnder context a → Arithmetic a r → ComputedUnder context r

theorem isUnlimited_of_le (hc : 28 ≤ context.precision) : context.isUnlimited = true := by
  by_contra hlimited
  have hle := (isUnlimited_eq_false_iff.1 (Bool.eq_false_iff.2 hlimited)).2
  omega

theorem ofContext_eq (hc : 28 ≤ context.precision) (c : Currency) (d : Decimal) :
    ofContext c d context = .ok ⟨⟨c, context, d.unsigned⟩, none⟩ :=
  Boundless.finish_eq (a := ⟨⟨c, context, .zero⟩, none⟩) (isUnlimited_of_le hc) rfl d

theorem ComputedUnder.boundless (hc : 28 ≤ context.precision) (h : ComputedUnder context a) :
    a.Boundless ∧ a.context = context := by
  induction h with
  | ofContext c d h =>
    rw [ofContext_eq hc] at h
    cases h
    exact ⟨⟨isUnlimited_of_le hc, rfl, rfl⟩, rfl⟩
  | arithmetic _ h ih => exact ⟨ih.1.arithmetic h, h.carries.1.trans ih.2⟩

/-- A context of 28 digits and more rounds nothing: an amount takes every decimal, and arithmetic on it gives what the
decimal operations give. Its numbers have up to 29 digits, and more than 28 just where the mantissa is not below `10 ^ 28`;
then 28 do for the value only if the last of them is a zero. -/
theorem keeps_digits_without_bound (hc : 28 ≤ context.precision) :
    (∀ c d, ofContext c d context = .ok ⟨⟨c, context, d.unsigned⟩, none⟩) ∧
    ∀ a, ComputedUnder context a →
      a.context = context ∧
      (∀ r, Arithmetic a r ↔ ∃ d, Computes a d ∧ r = a.holding d) ∧
      a.number.precision ≤ 29 ∧
      (a.number.precision ≤ 28 ↔ a.number.mantissa.natAbs < 10 ^ 28) ∧
      (HasDigits 28 a.number.value ↔ a.number.mantissa.natAbs < 10 ^ 28 ∨ 10 ∣ a.number.mantissa) := by
  refine ⟨ofContext_eq hc, ?_⟩
  intro a ha
  obtain ⟨hboundless, hcontext⟩ := ha.boundless hc
  refine ⟨hcontext, fun r => hboundless.arithmetic_iff, ?_, precision_le_iff (by decide), hasDigits_twenty_eight_iff⟩
  rw [precision_le_iff (by decide)]
  exact a.number.natAbs_mantissa_lt_ten_pow

/-- The largest decimal has 29 digits, the last of which is no zero; for a fifteenth of it 28 do. -/
theorem keeps_digits_without_bound_largest :
    ∃ a r, ComputedUnder .decimal128 a ∧ Arithmetic a r ∧ ¬ HasDigits 28 a.number.value ∧
      r.number.value = (2 ^ 96 - 1) / 15 ∧ HasDigits 28 r.number.value := by
  have hc : 28 ≤ MathContext.decimal128.precision := by decide
  have h := keeps_digits_without_bound hc
  have ha : ComputedUnder .decimal128 _ := .ofContext _ _ (h.1 .euro (ofDigits (2 ^ 96 - 1) 0 (by decide)))
  obtain ⟨-, harithmetic, -, -, hdigits⟩ := h.2 _ ha
  have hr := (harithmetic _).2 ⟨_, .quotient (d := ofDigits 5281877500950955839569596689 0 (by decide))
    (ofDigits 15 0 (by decide)) (by cbv), rfl⟩
  refine ⟨_, _, ha, hr, fun hno => absurd (hdigits.1 hno) (by decide), ?_, ?_⟩
  · change (ofDigits 5281877500950955839569596689 0 (by decide)).value = _
    norm_num
  · exact (h.2 _ (ha.arithmetic hr)).2.2.2.2.2 (Or.inl (by decide))

/-- A number of 29 digits is kept as it is, and the sum of two amounts of 28 digits may have 29. -/
theorem digits_beyond_bound :
    (∃ r, ofContext .euro (ofDigits 10000000000000000000000000001 0 (by decide)) ⟨28, .halfEven⟩ = .ok r ∧
      ¬ HasDigits 28 r.number.value) ∧
    ∃ a b r, ComputedUnder .decimal128 a ∧ HasDigits 28 a.number.value ∧ HasDigits 28 b.number.value ∧
      a.add b = .ok r ∧ ¬ HasDigits 28 r.number.value := by
  have hlong : ¬ HasDigits 28 (ofDigits 10000000000000000000000000001 0 (by decide)).value := by
    rw [hasDigits_twenty_eight_iff]
    decide
  have hadd : add ⟨⟨.euro, .decimal128, ofDigits 5000000000000000000000000000 0 (by decide)⟩, none⟩
      ⟨⟨.euro, .decimal128, ofDigits 5000000000000000000000000001 0 (by decide)⟩, none⟩ =
      .ok ⟨⟨.euro, .decimal128, ofDigits 10000000000000000000000000001 0 (by decide)⟩, none⟩ := by
    cbv
  refine ⟨⟨_, ofContext_eq (by decide) _ _, hlong⟩, _, _, _, ?_, ?_, ?_, hadd, hlong⟩
  · exact .ofContext _ _ (ofContext_eq (by decide) .euro (ofDigits 5000000000000000000000000000 0 (by decide)))
  · exact hasDigits_twenty_eight_iff.2 (by decide)
  · exact hasDigits_twenty_eight_iff.2 (by decide)

end RoundedMoney

end Coinage
