import Coinage.Amount.Order
import Coinage.Proofs.Amount.ContextInvariant
import Coinage.Proofs.Decimal.Normal
import Coinage.Proofs.Stored.Amount
/-!
# A context applied once more

`RoundedMoney.plus` and reading a stored amount back apply the context to a number that respects it. The
value stays as it is. The scale need not: a carry leaves one digit more than the context says, and integral
division keeps numbers with all their zeros, and the excess zeros behind the point are dropped then. Equality
sees the scale, so it tells just these amounts from what they become.
-/

namespace Coinage

namespace Decimal

/-- Whether a context that a number respects leaves its last place where it is. -/
def KeepsScale (c : MathContext) (d : Decimal) : Prop :=
  c.isUnlimited = true ∨ d.value = 0 ∨ d.precision ≤ c.precision ∨ d.scale = 0

variable {c : MathContext} {d r : Decimal}

theorem roundToPrecision_of_value_eq_zero (hd : d.value = 0) : d.roundToPrecision c = .ok d := by
  refine if_pos ?_
  rw [(isZero_iff d).2 hd, Bool.or_true, Bool.true_or]

theorem scale_roundToPrecision_eq_iff (h : d.roundToPrecision c = .ok r) : r.scale = d.scale ↔ KeepsScale c d := by
  cases hc : c.isUnlimited with
  | true =>
    rw [roundToPrecision_eq_self (Or.inl hc)] at h
    cases h
    exact iff_of_true rfl (Or.inl hc)
  | false =>
    by_cases hd : d.value = 0
    · rw [roundToPrecision_of_value_eq_zero hd] at h
      cases h
      exact iff_of_true rfl (Or.inr (Or.inl hd))
    · rw [scale_roundToPrecision hc hd h, KeepsScale, hc]
      simp only [Bool.false_eq_true, hd, false_or]
      omega

/-- Once the excess zeros are gone, the context changes nothing more. -/
theorem keepsScale_of_roundToPrecision (h : d.roundToPrecision c = .ok r) (hvalue : r.value = d.value) :
    KeepsScale c r := by
  cases hc : c.isUnlimited with
  | true => exact Or.inl hc
  | false =>
    by_cases hd : d.value = 0
    · exact Or.inr (Or.inl (hvalue.trans hd))
    · have hscale := scale_roundToPrecision hc hd h
      have hplace := precision_sub_scale_eq hd hvalue.symm
      refine Or.inr (Or.inr ?_)
      omega

theorem exists_roundToPrecision_unsigned (h : d.roundToPrecision c = .ok r) :
    ∃ r', d.unsigned.roundToPrecision c = .ok r' ∧ r'.unsigned = r.unsigned := by
  cases hsign : d.minusZero with
  | false => exact ⟨r, by rw [unsigned_eq_self d hsign, h], rfl⟩
  | true =>
    have hd : d.value = 0 := (value_eq_zero_iff d).2 (d.eq_zero_of_minusZero hsign)
    rw [roundToPrecision_of_value_eq_zero hd] at h
    cases h
    exact ⟨d.unsigned, roundToPrecision_of_value_eq_zero (by rwa [value_unsigned]), rfl⟩

end Decimal

open Decimal

namespace RoundedMoney

theorem beq_iff {a b : RoundedMoney} (hcode : a.currency.code = b.currency.code) (hvalue : a.number.value = b.number.value) :
    (a == b) = true ↔ a.number.scale = b.number.scale := by
  change (a.currency == b.currency && a.number.sameDigits b.number) = true ↔ _
  have hsame : (a.currency == b.currency) = true := Currency.beq_iff.2 hcode
  rw [hsame, Bool.true_and, sameDigits_iff, and_iff_right hvalue]

variable {a r : RoundedMoney}

/-- Making an amount anew of what it consists of is rounding it once more. -/
theorem ofContext_eq_plus (hp : a.pending = none) (h : a.plus = .ok r) :
    ofContext a.currency a.number.unsigned a.context = .ok r := by
  obtain ⟨d, hd, rfl⟩ := (finish_eq_ok_of_pending_none hp).1 h
  obtain ⟨d', hd', hunsigned⟩ := exists_roundToPrecision_unsigned hd
  refine (finish_eq_ok_of_pending_none rfl).2 ⟨d', hd', ?_⟩
  rw [hunsigned, hp]

theorem plus_plus (hp : a.pending = none) (ha : a.WithinContext) (h : a.plus = .ok r) : r.plus = .ok r := by
  obtain ⟨d, hd, rfl⟩ := (finish_eq_ok_of_pending_none hp).1 h
  obtain ⟨e, he, hvalue⟩ := Bounded.roundToPrecision ha
  rw [hd] at he
  cases he
  have hkeeps : KeepsScale a.context d.unsigned :=
    (keepsScale_of_roundToPrecision hd hvalue : KeepsScale a.context d)
  have hbounded : Bounded a.context d.unsigned.value := by
    rw [value_unsigned, hvalue]
    exact ha
  obtain ⟨d', hd', hvalue'⟩ := hbounded.roundToPrecision
  refine (finish_eq_ok_of_pending_none hp).2 ⟨d', hd', ?_⟩
  rw [unsigned_eq_of_value_eq hvalue' ((scale_roundToPrecision_eq_iff hd').2 hkeeps)]
  rfl

/-- The context applied to an amount once more gives an amount of the same value, currency and context, whether
by `plus` or by storing it and reading it back, and a third time changes nothing more. It equals the first amount
just where the last place of the number stays where it is. -/
theorem Reachable.reapplied (h : Reachable a) (hp : a.pending = none) :
    ∃ r, a.plus = .ok r ∧
      (a.FitsWords → (∀ tagged, ofJson tagged (Amount.rounded a).toUntaggedJson = .ok r) ∧
        Amount.ofJson (Amount.rounded a).toJson = .ok (.rounded r)) ∧
      r.currency = a.currency ∧ r.context = a.context ∧ r.pending = none ∧ r.number.value = a.number.value ∧
      r.plus = .ok r ∧ ((r == a) = true ↔ KeepsScale a.context a.number) := by
  obtain ⟨d, hd, hvalue⟩ := Bounded.roundToPrecision h.withinContext
  have hplus : a.plus = .ok { a with number := d.unsigned } := (finish_eq_ok_of_pending_none hp).2 ⟨d, hd, rfl⟩
  have hmade := ofContext_eq_plus hp hplus
  have hscale : d.scale = a.number.scale ↔ KeepsScale a.context a.number := scale_roundToPrecision_eq_iff hd
  refine ⟨{ a with number := d.unsigned }, hplus, fun hfits => ⟨fun tagged => ?_, ?_⟩, rfl, rfl, hp, hvalue,
    plus_plus hp h.withinContext hplus, (beq_iff (a := { a with number := d.unsigned }) (b := a) rfl hvalue).trans hscale⟩
  · rw [ofJson_toUntaggedJson tagged hfits, hmade]
    rfl
  · rw [amount_ofJson_toJson hfits, hmade]
    rfl

/-- `2.50` of seven digits keeps its zero when it is read back. -/
theorem Reachable.reapplied_zero_kept :
    ∃ r, (RoundedMoney.mk ⟨.euro, .decimal32, ofDigits 250 2 (by decide)⟩ none).plus = .ok r ∧
      Amount.ofJson (Amount.rounded ⟨⟨.euro, .decimal32, ofDigits 250 2 (by decide)⟩, none⟩).toJson =
        .ok (.rounded r) ∧
      (r == ⟨⟨.euro, .decimal32, ofDigits 250 2 (by decide)⟩, none⟩) = true := by
  have hreach : Reachable (.mk ⟨.euro, .decimal32, ofDigits 250 2 (by decide)⟩ none) :=
    .ofContext .euro (ofDigits 250 2 (by decide)) .decimal32 (by cbv)
  have hfits : (RoundedMoney.mk ⟨.euro, .decimal32, ofDigits 250 2 (by decide)⟩ none).FitsWords :=
    ⟨⟨by decide, by decide⟩, by decide⟩
  obtain ⟨r, hplus, hjson, -, -, -, -, -, hequal⟩ := Reachable.reapplied hreach rfl
  exact ⟨r, hplus, (hjson hfits).2, hequal.2 (Or.inr (Or.inr (Or.inl (by cbv))))⟩

/-- `9.996` under three digits is `10.00`, one digit more than the context says. Both `plus` and reading it
back give `10.0`, which is not equal. -/
theorem reapplied_carry :
    ∃ a r : RoundedMoney, ofContext .euro (ofDigits 9996 3 (by decide)) ⟨3, .halfUp⟩ = .ok a ∧ a.pending = none ∧
      a.plus = .ok r ∧ ofJson false (Amount.rounded a).toUntaggedJson = .ok r ∧ (r == a) = false :=
  ⟨⟨⟨.euro, ⟨3, .halfUp⟩, ofDigits 1000 2 (by decide)⟩, none⟩, ⟨⟨.euro, ⟨3, .halfUp⟩, ofDigits 100 1 (by decide)⟩, none⟩,
    by cbv, rfl, by cbv, by cbv, by cbv⟩

end RoundedMoney

end Coinage
