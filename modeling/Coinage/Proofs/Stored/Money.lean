import Coinage.Proofs.Amount.Order
import Coinage.Proofs.Stored.Amount
/-!
# Amounts without a context are read back

An amount that keeps every digit comes back with its digits and its scale; only the minus of a zero is not read. An
amount in units is stored as a decimal and rounded to units when it is read, and there is nothing to round.
-/

namespace Coinage

open Json

theorem Currency.fitsWords_euro : Currency.euro.FitsWords :=
  ⟨by rintro _ ⟨⟩; decide, by decide⟩

theorem Currency.fitsWords_dollar : Currency.dollar.FitsWords :=
  ⟨by rintro _ ⟨⟩; decide, by decide⟩

theorem Amount.readRecord_plain (d : Decimal) {c : Currency} (h : c.FitsWords) :
    readRecord plainFieldNames Fields.readPlain {} (.object [("number", d.toJson), ("currency", c.toJson)]) =
      .ok { number := some d.unsigned, currency := some c } :=
  (readRecord_cons (readPlain_number d _) _).trans (readRecord_cons (readPlain_currency h _) [])

namespace Money

theorem ofJson_toUntaggedJson {a : Money} (h : a.currency.FitsWords) :
    ofJson (Amount.money a).toUntaggedJson = .ok ⟨a.currency, a.number.unsigned⟩ := by
  have hread := Amount.readRecord_plain a.number h
  unfold ofJson
  change readRecord _ _ _ (Amount.money a).toUntaggedJson = _ at hread
  rw [hread]
  rfl

theorem amount_ofJson_toJson {a : Money} (h : a.currency.FitsWords) :
    Amount.ofJson (Amount.money a).toJson = .ok (.money ⟨a.currency, a.number.unsigned⟩) := by
  rw [Amount.ofJson, Amount.splitTag_toJson, ok_bind]
  dsimp only [Amount.kind]
  rw [ofJson_toUntaggedJson h]
  rfl

end Money

namespace FastMoney

theorem ofJson_toUntaggedJson {a : FastMoney} (h : a.currency.FitsWords) :
    ofJson (Amount.fast a).toUntaggedJson = .ok a := by
  have hread := Amount.readRecord_plain a.number h
  unfold ofJson
  change readRecord _ _ _ (Amount.fast a).toUntaggedJson = _ at hread
  rw [hread]
  change Decoded.ofOutcome (ofDecimal a.currency a.number.unsigned) = _
  rw [ofDecimal_of_value (Decimal.value_unsigned a.number)]
  rfl

theorem amount_ofJson_toJson {a : FastMoney} (h : a.currency.FitsWords) :
    Amount.ofJson (Amount.fast a).toJson = .ok (.fast a) := by
  rw [Amount.ofJson, Amount.splitTag_toJson, ok_bind]
  dsimp only [Amount.kind]
  rw [ofJson_toUntaggedJson h]
  rfl

end FastMoney

end Coinage
