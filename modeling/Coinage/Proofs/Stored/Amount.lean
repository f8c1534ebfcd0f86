import Coinage.Proofs.Decimal.Written
import Coinage.Stored.Amount
/-!
# Stored amounts are read back

What was stored of a currency, a context or a number is read back as it was, if its natural numbers fit 32
bits. A rounded amount is then made anew of these, so reading it is rounding its number once more.
-/

namespace Coinage

/-- Whether the particulars of a currency are numbers of 32 bits, as every stored one is. -/
structure Currency.FitsWords (c : Currency) : Prop where
  numericCode_lt : ∀ n ∈ c.numericCode, n < 2 ^ 32
  fractionDigits_lt : c.fractionDigits < 2 ^ 32

/-- Whether currency and context of a rounded amount are made of numbers of 32 bits. -/
structure RoundedMoney.FitsWords (a : RoundedMoney) : Prop where
  currency_fits : a.currency.FitsWords
  precision_lt : a.context.precision < 2 ^ 32

theorem Decoded.ofOption_eq_ok {α : Type} {o : Option α} {a : α} : Decoded.ofOption o = .ok a ↔ o = some a := by
  cases o with
  | none => exact iff_of_false (fun h => nomatch h) (fun h => nomatch h)
  | some b => exact ⟨fun h => congrArg some (Except.ok.inj h), fun h => congrArg Except.ok (Option.some.inj h)⟩

namespace Json

theorem asSmallNat_ofNat {n : ℕ} (h : n < 2 ^ 32) : (ofNat n).asSmallNat = .ok n := by
  unfold ofNat asSmallNat toNat?
  dsimp only
  rw [if_pos (Int.natCast_nonneg n), Int.toNat_natCast]
  exact if_pos h

theorem asDecimal_toJson (d : Decimal) : d.toJson.asDecimal = .ok d.unsigned := by
  have hread : Decimal.readLossy (toString d).toList = .ok d.unsigned := by
    change Decimal.readLossy (String.ofList d.written).toList = _
    rw [String.toList_ofList, Decimal.readLossy_written]
  rw [Decimal.toJson, asDecimal, hread]

theorem readRecord_cons {σ : Type} {names : List String} {read : String → Json → σ → Decoded σ} {draft draft' : σ}
    {name : String} {value : Json} (h : read name value draft = .ok draft') (rest : List (String × Json)) :
    readRecord names read draft (.object ((name, value) :: rest)) = readRecord names read draft' (.object rest) := by
  rw [readRecord, List.foldlM_cons, h, ok_bind]
  rfl

theorem readRecord_invariant {σ : Type} {names : List String} {read : String → Json → σ → Decoded σ} {P : σ → Prop}
    (hread : ∀ name value d d', P d → read name value d = .ok d' → P d') {draft d : σ} {j : Json} (hdraft : P draft)
    (h : j.readRecord names read draft = .ok d) : P d := by
  have hstep : ∀ d (field : String × Json) d', P d → read field.1 field.2 d = .ok d' → P d' := fun d field d' =>
    hread field.1 field.2 d d'
  unfold readRecord at h
  split at h
  · exact foldlM_invariant hstep hdraft h
  · obtain ⟨d', hd', h⟩ := bind_eq_ok.1 h
    split at h
    · cases h
    · cases pure_eq_ok.1 h
      exact foldlM_invariant hstep hdraft hd'
  · cases h

end Json

open Json

/-! ### Currencies -/

namespace Currency

theorem make_self (c : Currency) : make c.code c.numericCode c.fractionDigits = .ok c := by
  rw [make, make?, dif_pos c.code_not_blank]

theorem read_numericCode {n : ℕ} (h : n < 2 ^ 32) (f : Fields) :
    Fields.read "numeric_code" (.ofNat n) f = .ok { f with numericCode := some n } :=
  return_eq_ok (asSmallNat_ofNat h) fun part => ({ f with numericCode := some part } : Fields)

theorem read_fractionDigits {n : ℕ} (h : n < 2 ^ 32) (f : Fields) :
    Fields.read "default_fraction_digits" (.ofNat n) f = .ok { f with fractionDigits := some n } :=
  return_eq_ok (asSmallNat_ofNat h) fun part => ({ f with fractionDigits := some part } : Fields)

/-- A currency is read back as it was stored. -/
theorem ofJson_toJson {c : Currency} (h : c.FitsWords) : ofJson c.toJson = .ok c := by
  have hcode : ∀ f : Fields, Fields.read "code" (.string c.code) f = .ok { f with code := some c.code } := fun _ => rfl
  have hread : c.toJson.readRecord fieldNames Fields.read {} =
      .ok ⟨some c.code, c.numericCode, some c.fractionDigits⟩ := by
    unfold toJson
    rw [readRecord_cons (hcode _)]
    cases hnumber : c.numericCode with
    | none =>
      exact readRecord_cons (read_fractionDigits h.fractionDigits_lt _) []
    | some n =>
      have hn := h.numericCode_lt n hnumber
      exact (readRecord_cons (read_numericCode hn _) _).trans
        (readRecord_cons (read_fractionDigits h.fractionDigits_lt _) [])
  rw [ofJson, hread]
  change Decoded.ofOutcome (make c.code c.numericCode c.fractionDigits) = _
  rw [make_self]
  rfl

end Currency

/-! ### Contexts -/

theorem RoundingMode.ofJson_toJson (tagged : Bool) (mode : RoundingMode) : ofJson tagged mode.toJson = .ok mode := by
  cases mode <;> rfl

namespace MathContext

theorem read_precision (tagged : Bool) {n : ℕ} (h : n < 2 ^ 32) (f : Fields) :
    Fields.read tagged "precision" (.ofNat n) f = .ok { f with precision := some n } :=
  return_eq_ok (asSmallNat_ofNat h) fun part => ({ f with precision := some part } : Fields)

theorem read_mode (tagged : Bool) (mode : RoundingMode) (f : Fields) :
    Fields.read tagged "rounding_mode" mode.toJson f = .ok { f with mode := some mode } :=
  return_eq_ok (RoundingMode.ofJson_toJson tagged mode) fun part => ({ f with mode := some part } : Fields)

/-- A context is read back as it was stored. -/
theorem ofJson_toJson (tagged : Bool) {c : MathContext} (h : c.precision < 2 ^ 32) : ofJson tagged c.toJson = .ok c := by
  have hread : c.toJson.readRecord fieldNames (Fields.read tagged) {} = .ok ⟨some c.precision, some c.mode⟩ :=
    (readRecord_cons (read_precision tagged h _) _).trans (readRecord_cons (read_mode tagged c.mode _) [])
  rw [ofJson, hread]
  rfl

end MathContext

/-! ### Amounts -/

namespace Amount

theorem splitTag_toJson (a : Amount) : splitTag a.toJson = .ok (a.kind, a.toUntaggedJson) := by
  cases a <;> rfl

theorem readPlain_number (d : Decimal) (f : Fields) :
    Fields.readPlain "number" d.toJson f = .ok { f with number := some d.unsigned } :=
  return_eq_ok (asDecimal_toJson d) fun part => ({ f with number := some part } : Fields)

theorem readPlain_currency {c : Currency} (h : c.FitsWords) (f : Fields) :
    Fields.readPlain "currency" c.toJson f = .ok { f with currency := some c } :=
  return_eq_ok (Currency.ofJson_toJson h) fun part => ({ f with currency := some part } : Fields)

theorem readBounded_context (tagged : Bool) {c : MathContext} (h : c.precision < 2 ^ 32) (f : Fields) :
    Fields.readBounded tagged "math_context" c.toJson f = .ok { f with context := some c } :=
  return_eq_ok (MathContext.ofJson_toJson tagged h) fun part => ({ f with context := some part } : Fields)

end Amount

namespace RoundedMoney

/-- A rounded amount is read as one made anew of its currency, its number and its context. -/
theorem ofJson_toUntaggedJson (tagged : Bool) {a : RoundedMoney} (h : a.FitsWords) :
    ofJson tagged (Amount.rounded a).toUntaggedJson =
      Decoded.ofOutcome (ofContext a.currency a.number.unsigned a.context) := by
  have hnumber : ∀ f, Amount.Fields.readBounded tagged "number" a.number.toJson f =
      .ok { f with number := some a.number.unsigned } := Amount.readPlain_number a.number
  have hcurrency : ∀ f, Amount.Fields.readBounded tagged "currency" a.currency.toJson f =
      .ok { f with currency := some a.currency } := Amount.readPlain_currency h.currency_fits
  have hread : (Amount.rounded a).toUntaggedJson.readRecord Amount.boundedFieldNames
      (Amount.Fields.readBounded tagged) {} = .ok ⟨some a.number.unsigned, some a.currency, some a.context⟩ := by
    change readRecord _ _ _ (.object a.storedFields) = _
    rw [storedFields, readRecord_cons (hnumber _), readRecord_cons (Amount.readBounded_context tagged h.precision_lt _),
      readRecord_cons (hcurrency _)]
    rfl
  rw [ofJson, hread]
  rfl

theorem amount_ofJson_toJson {a : RoundedMoney} (h : a.FitsWords) :
    Amount.ofJson (Amount.rounded a).toJson =
      (Decoded.ofOutcome (ofContext a.currency a.number.unsigned a.context)).map Amount.rounded := by
  rw [Amount.ofJson, Amount.splitTag_toJson, ok_bind]
  dsimp only [Amount.kind]
  rw [ofJson_toUntaggedJson true h]
  rfl

end RoundedMoney

end Coinage
