import Coinage.Amount.Order
import Coinage.Proofs.Decimal.Products
import Coinage.Proofs.Rate.Chains
import Coinage.Rate.Conversion
/-!
# Conversion along a chain

A chain converts an amount at once, by the factor composed of its factors, or link by link. The two multiply in
different orders: the composed factor is folded from one over the factors, and only then meets the amount. As long
as the digits of the amount and all the factors together are in range, no product on either way is rounded or loses
a place, so both end with the same digits.
-/

namespace Coinage

open Decimal

namespace RateChain

/-- An amount converted by one link after the other. -/
def convert {α : Type} [MonetaryAmount α] (chain : List ExchangeRate) (a : α) : Except RateError α :=
  chain.foldlM (fun x link => link.apply x) a

/-- The product of the mantissas of the factors. -/
def mantissas (chain : List ExchangeRate) : ℤ :=
  (chain.map fun r => r.factor.mantissa).prod

/-- The sum of the scales of the factors. -/
def scales (chain : List ExchangeRate) : ℕ :=
  (chain.map fun r => r.factor.scale).sum

@[simp]
theorem mantissas_cons (r : ExchangeRate) (rest : List ExchangeRate) :
    mantissas (r :: rest) = r.factor.mantissa * mantissas rest := List.prod_cons

@[simp]
theorem scales_cons (r : ExchangeRate) (rest : List ExchangeRate) :
    scales (r :: rest) = r.factor.scale + scales rest := List.sum_cons

theorem Leads.tail {a b : ExchangeRate} {rest : List ExchangeRate} {base term : Currency}
    (h : Leads (a :: b :: rest) base term) : a.term.code = b.base.code ∧ Leads (b :: rest) b.base term := by
  obtain ⟨hab, hrest⟩ := List.isChain_cons_cons.1 h.connected
  refine ⟨hab, hrest, ?_, ?_⟩
  · rintro first ⟨⟩
    rfl
  · intro last hlast
    exact h.ends last (by rwa [List.getLast?_cons_cons])

/-- Whether digits stay in range when they are multiplied by all the factors of a chain. -/
def KeepsDigitsOf (d : Decimal) (chain : List ExchangeRate) : Prop :=
  KeepsDigits d.mantissa d.scale (chain.map ExchangeRate.factor)

/-! ### The composed factor -/

/-- The factors of a chain multiplied from a number on. -/
theorem foldlM_multiply {chain : List ExchangeRate} {d : Decimal} (h : KeepsDigitsOf d chain) :
    ∃ e, chain.foldlM (fun acc r => multiply acc r.factor) d = .ok e ∧
      e.mantissa = d.mantissa * mantissas chain ∧ e.scale = d.scale + scales chain := by
  induction chain generalizing d with
  | nil => exact ⟨d, rfl, (mul_one _).symm, rfl⟩
  | cons r rest ih =>
    have hproduct := product_of_inRange h.ne_zero (h.factors_ne_zero _ List.mem_cons_self) h.tail.inRange
    obtain ⟨e, he, hmantissa, hscale⟩ := ih (d := (ofDigits _ _ h.tail.inRange).withZeroSign (leavesMinus d r.factor)) h.tail
    refine ⟨e, ?_, ?_, ?_⟩
    · rw [List.foldlM_cons, multiply, hproduct]
      exact he
    · rw [hmantissa, mantissas_cons, ← mul_assoc]
      rfl
    · rw [hscale, scales_cons, ← add_assoc]
      rfl

theorem product_eq_ok {chain : List ExchangeRate} {d : Decimal} (h : KeepsDigitsOf d chain) :
    ∃ e, product chain = .ok e ∧ e.mantissa = mantissas chain ∧ e.scale = scales chain := by
  have hone : KeepsDigitsOf Decimal.one chain := h.of_one
  obtain ⟨e, he, hmantissa, hscale⟩ := foldlM_multiply hone
  exact ⟨e, he, hmantissa.trans (one_mul _), hscale.trans (zero_add _)⟩

end RateChain

open RateChain

namespace ExchangeRate

/-- What a rate makes of money in its base currency. -/
theorem apply_money_eq_ok {r : ExchangeRate} {a : Money} {d : Decimal} (hcode : a.currency.code = r.base.code)
    (hd : a.number.unsigned.product r.factor = .ok d) : r.apply a = .ok ⟨r.term, d.unsigned⟩ := by
  have hsame : (MonetaryAmount.currency a == r.base) = true := Currency.beq_iff.2 hcode
  unfold apply
  dsimp only
  rw [if_pos hsame]
  show Outcome.toRate (Money.multiplyBy ⟨r.term, a.number.unsigned⟩ r.factor) = _
  rw [Money.multiplyBy, hd]
  rfl

/-- Where the digits stay in range, one conversion multiplies mantissas and adds scales. -/
theorem apply_of_inRange {r : ExchangeRate} {a : Money} (hcode : a.currency.code = r.base.code)
    (ha : a.number.mantissa ≠ 0) (hr : r.factor.mantissa ≠ 0)
    (h : (a.number.mantissa * r.factor.mantissa).natAbs < capacity ∧ a.number.scale + r.factor.scale ≤ maxScale) :
    r.apply a = .ok ⟨r.term, ofDigits _ _ h⟩ :=
  apply_money_eq_ok hcode (product_of_inRange (a := a.number.unsigned) ha hr h)

end ExchangeRate

/-! ### Both ways -/

/-- Link by link, a chain leads money in its base currency to its term currency and keeps all digits. -/
theorem RateChain.convert_eq_ok {chain : List ExchangeRate} {base term : Currency} {a : Money} (hne : chain ≠ [])
    (hleads : Leads chain base term) (ha : a.currency.code = base.code) (h : KeepsDigitsOf a.number chain) :
    ∃ x, convert chain a = .ok x ∧ x.currency.code = term.code ∧
      x.number.mantissa = a.number.mantissa * mantissas chain ∧ x.number.scale = a.number.scale + scales chain := by
  induction chain generalizing a base with
  | nil => exact absurd rfl hne
  | cons r rest ih =>
    have hcode : a.currency.code = r.base.code := ha.trans (hleads.starts r rfl).symm
    have happly := ExchangeRate.apply_of_inRange hcode h.ne_zero (h.factors_ne_zero _ List.mem_cons_self) h.tail.inRange
    rw [mantissas_cons, scales_cons, ← mul_assoc, ← add_assoc, convert, List.foldlM_cons, happly, ok_bind]
    cases rest with
    | nil => exact ⟨_, rfl, hleads.ends r rfl, (mul_one _).symm, rfl⟩
    | cons next rest =>
      obtain ⟨hnext, htail⟩ := hleads.tail
      exact ih (List.cons_ne_nil _ _) htail hnext h.tail

/-- A builder that holds base, term and context but no factor of its own composes a rate of every chain that leads
from base to term. Converted by that rate or link by link, money gives one result: the amounts are equal in currency,
value and scale, and hold the exact product. -/
theorem RateBuilder.composed_converts_as_links {b : RateBuilder} {base term : Currency} {context : ConversionContext}
    {chain : List ExchangeRate} {a : Money} (hbase : b.base = some base) (hterm : b.term = some term)
    (hcontext : b.context = some context) (hfactor : b.factor = none) (hne : chain ≠ [])
    (hleads : Leads chain base term) (ha : a.currency.code = base.code) (h : KeepsDigitsOf a.number chain) :
    ∃ b' r composed stepwise, b.setChain chain = .ok b' ∧ b'.create = .ok r ∧ r.chain = chain ∧
      r.apply a = .ok composed ∧ convert chain a = .ok stepwise ∧ (composed == stepwise) = true ∧
      composed.number.mantissa = a.number.mantissa * mantissas chain ∧
      composed.number.scale = a.number.scale + scales chain := by
  obtain ⟨factor, hproduct, hmantissa, hscale⟩ := product_eq_ok h
  obtain ⟨stepwise, hstepwise, hcurrency, hmantissa', hscale'⟩ := convert_eq_ok hne hleads ha h
  have hchoose : chooseFactor { b with chain := chain } = .ok factor := by
    unfold chooseFactor
    dsimp only
    rw [hfactor, List.isEmpty_eq_false_iff.2 hne]
    dsimp only
    rw [if_neg Bool.false_ne_true, hproduct]
    rfl
  have hcreate : create { b with chain := chain } =
      .ok ⟨b.provider, b.rateType, base, term, factor, aggregate chain context, chain⟩ :=
    create_eq_ok_iff.2 ⟨base, term, factor, context, hbase, hterm, hleads.checkEnds_eq_ok, hchoose, hcontext, rfl⟩
  have hrange : (a.number.mantissa * factor.mantissa).natAbs < capacity ∧ a.number.scale + factor.scale ≤ maxScale := by
    rw [hmantissa, hscale, ← hmantissa', ← hscale']
    exact ⟨stepwise.number.natAbs_mantissa_lt, stepwise.number.scale_le⟩
  have hne_zero : factor.mantissa ≠ 0 := by
    rw [hmantissa]
    refine List.prod_ne_zero fun hzero => ?_
    obtain ⟨r, hr, hr_zero⟩ := List.mem_map.1 hzero
    exact h.factors_ne_zero r.factor (List.mem_map_of_mem hr) hr_zero
  have happly := ExchangeRate.apply_of_inRange
    (r := ⟨b.provider, b.rateType, base, term, factor, aggregate chain context, chain⟩) ha h.ne_zero hne_zero hrange
  refine ⟨_, _, _, stepwise, setChain_eq_ok_iff.2 ⟨hleads.connected, rfl⟩, hcreate, rfl, happly, hstepwise, ?_, ?_, ?_⟩
  · show (term == stepwise.currency && Decimal.sameDigits _ stepwise.number) = true
    rw [Currency.beq_iff.2 hcurrency.symm, Bool.true_and, sameDigits, hmantissa', hscale', ← hmantissa, ← hscale]
    exact Bool.and_eq_true_iff.2 ⟨decide_eq_true rfl, decide_eq_true rfl⟩
  · rw [← hmantissa]
    rfl
  · rw [← hscale]
    rfl

/-- `10.00` euros to dollars at `1.25` and back at `0.80`, with all six places of the product. -/
theorem RateBuilder.composed_converts_as_links_there_and_back :
    ∃ b r composed stepwise,
      (((RateBuilder.ofProvider "" .any).setBase .euro).setTerm .euro).setChain
        [{ ExchangeRate.direct .euro .dollar with factor := ofDigits 125 2 (by decide) },
          { ExchangeRate.direct .dollar .euro with factor := ofDigits 80 2 (by decide) }] = .ok b ∧
      b.create = .ok r ∧ r.apply (Money.mk .euro (ofDigits 1000 2 (by decide))) = .ok composed ∧
      convert r.chain (Money.mk .euro (ofDigits 1000 2 (by decide))) = .ok stepwise ∧ (composed == stepwise) = true ∧
      composed.number.mantissa = 10000000 ∧ composed.number.scale = 6 := by
  have hleads : Leads [{ ExchangeRate.direct .euro .dollar with factor := ofDigits 125 2 (by decide) },
      { ExchangeRate.direct .dollar .euro with factor := ofDigits 80 2 (by decide) }] .euro .euro :=
    leads_of_checks (checkLinks_eq_ok_iff.1 rfl) rfl
  obtain ⟨b, r, composed, stepwise, hb, hr, hchain, hcomposed, hstepwise, hequal, hmantissa, hscale⟩ :=
    composed_converts_as_links (b := ((RateBuilder.ofProvider "" .any).setBase .euro).setTerm .euro)
      (a := Money.mk .euro (ofDigits 1000 2 (by decide))) rfl rfl rfl rfl (List.cons_ne_nil _ _) hleads rfl
      ⟨by decide, by simp [ofDigits], by decide, by decide⟩
  exact ⟨b, r, composed, stepwise, hb, hr, hcomposed, hchain ▸ hstepwise, hequal, hmantissa, hscale⟩

end Coinage
