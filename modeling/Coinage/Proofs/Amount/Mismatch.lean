import Coinage.Proofs.Amount.Basic
/-!
# Currencies never mix

An operation on two amounts looks at their currencies before anything else, so a mismatch is reported whatever the
numbers are, and no other step reports one: `Unmixed` says that of an outcome, together with what holds of the result.
What an operation with a number gives is of the kind and the currency of the amount. An operator that is pending
could do anything, so rounded amounts are only considered without one.
-/

namespace Coinage

open MonetaryAmount

/-- An outcome with a property, or a failure for another reason than two currencies. -/
def Unmixed {β : Type} (P : β → Prop) : Outcome β → Prop
  | .ok r => P r
  | .error cause => ∀ expected actual, cause ≠ .currencyMismatch expected actual

namespace Unmixed

variable {β γ : Type} {P : β → Prop} {Q : γ → Prop}

theorem imp {P' : β → Prop} {o : Outcome β} (h : Unmixed P o) (himp : ∀ r, P r → P' r) : Unmixed P' o := by
  cases o with
  | ok r => exact himp r h
  | error cause => exact h

theorem bind {o : Outcome γ} {f : γ → Outcome β} (ho : Unmixed Q o) (hf : ∀ x, Q x → Unmixed P (f x)) :
    Unmixed P (o >>= f) := by
  cases o with
  | ok x => exact hf x ho
  | error cause => exact ho

end Unmixed

/-! ### Decimals -/

namespace Decimal

/-- A step of decimal arithmetic, about whose result nothing is claimed. -/
abbrev Plain (o : Outcome Decimal) : Prop :=
  Unmixed (fun _ => True) o

theorem plain_sum (a b : Decimal) : Plain (a.sum b) := by
  unfold sum
  split
  · trivial
  · exact fun _ _ => AmountError.noConfusion

theorem plain_difference (a b : Decimal) : Plain (a.difference b) := by
  unfold difference
  split
  · trivial
  · exact fun _ _ => AmountError.noConfusion

theorem plain_product (a b : Decimal) : Plain (a.product b) := by
  unfold product
  split
  · trivial
  · exact fun _ _ => AmountError.noConfusion

theorem plain_quotient (a b : Decimal) : Plain (a.quotient b) := by
  unfold quotient
  split
  · exact fun _ _ => AmountError.noConfusion
  · split
    · trivial
    · exact fun _ _ => AmountError.noConfusion

theorem plain_remainder (a b : Decimal) : Plain (a.remainder b) := by
  unfold remainder
  split
  · exact fun _ _ => AmountError.noConfusion
  · trivial

theorem plain_integralQuotient (a b : Decimal) : Plain (a.integralQuotient b) := by
  refine (plain_remainder a b).bind fun rest _ => ?_
  refine (plain_difference a rest).bind fun multiple _ => ?_
  exact (plain_quotient multiple b).bind fun _ _ => trivial

theorem plain_roundToPrecision (d : Decimal) (c : MathContext) : Plain (d.roundToPrecision c) := by
  unfold roundToPrecision
  split
  · trivial
  · split
    · split
      · exact fun _ _ => AmountError.noConfusion
      · trivial
    · exact fun _ _ => AmountError.noConfusion

theorem plain_roundToScale (d : Decimal) (scale : ℕ) (mode : RoundingMode) : Plain (d.roundToScale scale mode) := by
  unfold roundToScale
  dsimp only
  split
  · exact fun _ _ => AmountError.noConfusion
  · trivial

end Decimal

open Decimal

/-! ### Operations with a number -/

section Alongside

variable {α : Type} [MonetaryAmount α]

/-- Whether an amount is of the representation and the currency of another one. -/
def Alongside (a r : α) : Prop :=
  kind r = kind a ∧ currency r = currency a

/-- The operations of an amount with a number stay in its representation and its currency, and know of no other. -/
structure StaysAlongside (a : α) : Prop where
  multiplyBy : ∀ n, Unmixed (Alongside a) (MonetaryAmount.multiplyBy a n)
  divideBy : ∀ n, Unmixed (Alongside a) (MonetaryAmount.divideBy a n)
  divideAndRemainderBy : ∀ n,
    Unmixed (fun parts => Alongside a parts.1 ∧ Alongside a parts.2) (MonetaryAmount.divideAndRemainderBy a n)
  divideToIntegralBy : ∀ n, Unmixed (Alongside a) (MonetaryAmount.divideToIntegralBy a n)
  remainderBy : ∀ n, Unmixed (Alongside a) (MonetaryAmount.remainderBy a n)

end Alongside

theorem Money.staysAlongside (a : Money) : StaysAlongside a where
  multiplyBy n := (plain_product a.number n).bind fun _ _ => ⟨rfl, rfl⟩
  divideBy n := (plain_quotient a.number n).bind fun q _ => (plain_roundToPrecision q bound).bind fun _ _ => ⟨rfl, rfl⟩
  divideAndRemainderBy n := (plain_integralQuotient a.number n).bind fun _ _ =>
    (plain_remainder a.number n).bind fun _ _ => ⟨⟨rfl, rfl⟩, rfl, rfl⟩
  divideToIntegralBy n := (plain_integralQuotient a.number n).bind fun _ _ => ⟨rfl, rfl⟩
  remainderBy n := (plain_remainder a.number n).bind fun _ _ => ⟨rfl, rfl⟩

namespace FastMoney

theorem unmixed_ofUnits (a : FastMoney) (units : ℤ) (expression : String) :
    Unmixed (Alongside a) (ofUnits a.currency units expression) := by
  unfold ofUnits ofUnits?
  split
  case h_1 r hr =>
    split at hr
    · cases hr
      exact ⟨rfl, rfl⟩
    · cases hr
  case h_2 => exact fun _ _ => AmountError.noConfusion

theorem unmixed_ofDecimal (a : FastMoney) (d : Decimal) : Unmixed (Alongside a) (ofDecimal a.currency d) := by
  refine (plain_roundToScale d scale mode).bind fun rounded _ => ?_
  split
  · exact unmixed_ofUnits a _ _
  · exact fun _ _ => AmountError.noConfusion

theorem unmixed_ofExact (a : FastMoney) (d : Decimal) : Unmixed (Alongside a) (ofExact a.currency d) :=
  (plain_roundToScale d scale .unnecessary).bind fun exact _ => unmixed_ofDecimal a exact

theorem staysAlongside (a : FastMoney) : StaysAlongside a where
  multiplyBy n := by
    show Unmixed _ (FastMoney.multiplyBy a n)
    unfold FastMoney.multiplyBy
    dsimp only
    split
    · exact unmixed_ofUnits a _ _
    · exact (plain_product a.number n).bind fun d _ => unmixed_ofDecimal a d
  divideBy n := by
    show Unmixed _ (FastMoney.divideBy a n)
    unfold FastMoney.divideBy
    dsimp only
    split
    · exact fun _ _ => AmountError.noConfusion
    · split
      · exact unmixed_ofUnits a _ _
      · exact (plain_quotient a.number n).bind fun d _ => unmixed_ofDecimal a d
  divideAndRemainderBy n := (plain_integralQuotient a.number n).bind fun q _ =>
    (plain_remainder a.number n).bind fun r _ => (unmixed_ofExact a q).bind fun _ hq =>
      (unmixed_ofExact a r).bind fun _ hr => ⟨hq, hr⟩
  divideToIntegralBy n := (plain_integralQuotient a.number n).bind fun q _ => unmixed_ofExact a q
  remainderBy n := (plain_remainder a.number n).bind fun r _ => unmixed_ofExact a r

end FastMoney

namespace RoundedMoney

theorem unmixed_finish {a : RoundedMoney} (hp : a.pending = none) (n : Decimal) : Unmixed (Alongside a) (a.finish n) := by
  refine (plain_roundToPrecision n a.context).bind fun reduced _ => ?_
  rw [hp]
  exact ⟨rfl, rfl⟩

theorem unmixed_exact (a : RoundedMoney) (n : Decimal) (part : String) : Unmixed (Alongside a) (a.exact n part) := by
  refine (plain_roundToPrecision n ⟨a.context.precision, .down⟩).bind fun cut _ => ?_
  split
  · exact ⟨rfl, rfl⟩
  · exact fun _ _ => AmountError.noConfusion

theorem staysAlongside {a : RoundedMoney} (hp : a.pending = none) : StaysAlongside a := by
  have hparts : ∀ n, Unmixed (fun parts => Alongside a parts.1 ∧ Alongside a parts.2) (a.divideAndRemainderBy n) := fun n =>
    (plain_integralQuotient a.number n).bind fun q _ => (unmixed_exact a q _).bind fun _ hq =>
      (plain_remainder a.number n).bind fun r _ => (unmixed_exact a r _).bind fun _ hr => ⟨hq, hr⟩
  exact {
    multiplyBy := fun n => (plain_product a.number n).bind fun d _ => unmixed_finish hp d
    divideBy := fun n => (plain_quotient a.number n).bind fun d _ => unmixed_finish hp d
    divideAndRemainderBy := hparts
    divideToIntegralBy := fun n => (plain_integralQuotient a.number n).bind fun q _ => unmixed_exact a q _
    remainderBy := fun n => (hparts n).bind fun _ h => h.2 }

end RoundedMoney

/-! ### Operations on two amounts -/

/-- An operation on two amounts. -/
inductive PairOperation
  | add
  | subtract
  | multiply
  | divide
  | divideAndRemainder
  | divideToIntegral
  | remainder

/-- The amounts that an operation on two gives: one, or a quotient with its remainder. -/
def PairOperation.apply {α : Type} [MonetaryAmount α] (a b : α) : PairOperation → Outcome (List α)
  | add => (MonetaryAmount.add a b).map fun r => [r]
  | subtract => (MonetaryAmount.subtract a b).map fun r => [r]
  | multiply => (MonetaryAmount.multiply a b).map fun r => [r]
  | divide => (MonetaryAmount.divide a b).map fun r => [r]
  | divideAndRemainder => (MonetaryAmount.divideAndRemainder a b).map fun parts => [parts.1, parts.2]
  | divideToIntegral => (MonetaryAmount.divideToIntegral a b).map fun r => [r]
  | remainder => (MonetaryAmount.remainder a b).map fun r => [r]

/-- An outcome on two amounts that keeps their currencies apart: two codes are refused with both of them, and this
cause has no other reason; and all that comes of it is of the first amount's representation and currency. -/
structure NeverMixes {α : Type} [MonetaryAmount α] (a b : α) (o : Outcome (List α)) : Prop where
  mismatch : (currency a).code ≠ (currency b).code →
    o = .error (.currencyMismatch (currency a).code (currency b).code)
  no_other : ∀ expected actual, o = .error (.currencyMismatch expected actual) → (currency a).code ≠ (currency b).code
  alongside : ∀ results, o = .ok results → ∀ r ∈ results, Alongside a r

theorem checkCurrency_eq_error {c c' : Currency} (h : c.code ≠ c'.code) :
    checkCurrency c c' = .error (.currencyMismatch c.code c'.code) :=
  if_neg (mt Currency.beq_iff.1 h)

namespace NeverMixes

variable {α β : Type} [MonetaryAmount α] {a b : α}

/-- The check comes first, and what comes after it knows of no mismatch. -/
theorem of_check {o : Outcome β} {results : β → List α} (h : Unmixed (fun r => ∀ x ∈ results r, Alongside a x) o) :
    NeverMixes a b ((checkCurrency (currency a) (currency b) >>= fun _ => o).map results) := by
  by_cases hcode : (currency a).code = (currency b).code
  · rw [checkCurrency_eq_ok hcode, ok_bind]
    refine { mismatch := fun hne => absurd hcode hne, no_other := ?_, alongside := ?_ }
    · intro expected actual herr
      cases o with
      | ok r => cases herr
      | error cause => exact absurd (Except.error.inj herr) (h expected actual)
    · intro rs hrs
      cases o with
      | ok r =>
        cases hrs
        exact h
      | error cause => cases hrs
  · rw [checkCurrency_eq_error hcode]
    refine { mismatch := fun _ => rfl, no_other := fun _ _ _ => hcode, alongside := ?_ }
    intro rs hrs
    cases hrs

theorem of_check_single {o : Outcome α} (h : Unmixed (Alongside a) o) :
    NeverMixes a b ((checkCurrency (currency a) (currency b) >>= fun _ => o).map fun r => [r]) :=
  of_check (h.imp fun r hr x hx => by rwa [List.mem_singleton.1 hx])

theorem of_check_pair {o : Outcome (α × α)} (h : Unmixed (fun parts => Alongside a parts.1 ∧ Alongside a parts.2) o) :
    NeverMixes a b ((checkCurrency (currency a) (currency b) >>= fun _ => o).map fun parts => [parts.1, parts.2]) := by
  refine of_check (h.imp fun parts hparts x hx => ?_)
  rcases List.mem_pair.1 hx with rfl | rfl
  · exact hparts.1
  · exact hparts.2

end NeverMixes

theorem Money.neverMixes (a b : Money) (op : PairOperation) : NeverMixes a b (op.apply a b) := by
  cases op with
  | add => exact .of_check_single ((plain_sum a.number b.number).bind fun _ _ => ⟨rfl, rfl⟩)
  | subtract => exact .of_check_single ((plain_difference a.number b.number).bind fun _ _ => ⟨rfl, rfl⟩)
  | multiply => exact .of_check_single (a.staysAlongside.multiplyBy b.number)
  | divide => exact .of_check_single (a.staysAlongside.divideBy b.number)
  | divideAndRemainder => exact .of_check_pair (a.staysAlongside.divideAndRemainderBy b.number)
  | divideToIntegral => exact .of_check_single (a.staysAlongside.divideToIntegralBy b.number)
  | remainder => exact .of_check_single (a.staysAlongside.remainderBy b.number)

theorem FastMoney.neverMixes (a b : FastMoney) (op : PairOperation) : NeverMixes a b (op.apply a b) := by
  cases op with
  | add => exact .of_check_single (a.unmixed_ofUnits _ _)
  | subtract => exact .of_check_single (a.unmixed_ofUnits _ _)
  | multiply => exact .of_check_single (a.staysAlongside.multiplyBy b.number)
  | divide => exact .of_check_single (a.staysAlongside.divideBy b.number)
  | divideAndRemainder => exact .of_check_pair (a.staysAlongside.divideAndRemainderBy b.number)
  | divideToIntegral => exact .of_check_single (a.staysAlongside.divideToIntegralBy b.number)
  | remainder => exact .of_check_single (a.staysAlongside.remainderBy b.number)

theorem RoundedMoney.neverMixes {a : RoundedMoney} (hp : a.pending = none) (b : RoundedMoney) (op : PairOperation) :
    NeverMixes a b (op.apply a b) := by
  have hstays := staysAlongside hp
  cases op with
  | add => exact .of_check_single ((plain_sum a.number b.number).bind fun n _ => unmixed_finish hp n)
  | subtract => exact .of_check_single ((plain_difference a.number b.number).bind fun n _ => unmixed_finish hp n)
  | multiply => exact .of_check_single (hstays.multiplyBy b.number)
  | divide => exact .of_check_single (hstays.divideBy b.number)
  | divideAndRemainder => exact .of_check_pair (hstays.divideAndRemainderBy b.number)
  | divideToIntegral => exact .of_check_single (hstays.divideToIntegralBy b.number)
  | remainder => exact .of_check_single (hstays.remainderBy b.number)

/-! ### The union -/

theorem map_map_eq_map_map {α β γ δ : Type} {o : Outcome α} {f : α → β} {g : β → δ} {f' : α → γ} {g' : γ → δ}
    (h : ∀ x, g (f x) = g' (f' x)) : (o.map f).map g = (o.map f').map g' := by
  cases o with
  | ok x => exact congrArg Except.ok (h x)
  | error cause => rfl

theorem PairOperation.apply_money (a b : Money) (op : PairOperation) :
    op.apply (Amount.money a) (.money b) = (op.apply a b).map (List.map .money) := by
  cases op <;> exact map_map_eq_map_map fun _ => rfl

theorem PairOperation.apply_rounded (a b : RoundedMoney) (op : PairOperation) :
    op.apply (Amount.rounded a) (.rounded b) = (op.apply a b).map (List.map .rounded) := by
  cases op <;> exact map_map_eq_map_map fun _ => rfl

theorem PairOperation.apply_fast (a b : FastMoney) (op : PairOperation) :
    op.apply (Amount.fast a) (.fast b) = (op.apply a b).map (List.map .fast) := by
  cases op <;> exact map_map_eq_map_map fun _ => rfl

/-- An embedding that keeps currencies and tells no more kinds apart keeps what is said of an outcome. -/
theorem NeverMixes.map {α β : Type} [MonetaryAmount α] [MonetaryAmount β] {a b : α} {o : Outcome (List α)} {wrap : α → β}
    (hcurrency : ∀ x, currency (wrap x) = currency x) (hkind : ∀ x, kind (wrap x) = kind x) (h : NeverMixes a b o) :
    NeverMixes (wrap a) (wrap b) (o.map (List.map wrap)) := by
  have hback : ∀ {expected actual}, o.map (List.map wrap) = .error (.currencyMismatch expected actual) →
      o = .error (.currencyMismatch expected actual) := by
    intro expected actual herr
    cases o with
    | ok rs => cases herr
    | error cause => rw [Except.error.inj herr]
  refine { mismatch := ?_, no_other := ?_, alongside := ?_ }
  · rw [hcurrency, hcurrency]
    intro hne
    rw [h.mismatch hne]
    rfl
  · rw [hcurrency, hcurrency]
    exact fun expected actual herr => h.no_other expected actual (hback herr)
  · intro results hok r hr
    cases o with
    | error cause => cases hok
    | ok rs =>
      cases hok
      obtain ⟨x, hx, rfl⟩ := List.mem_map.1 hr
      obtain ⟨hk, hc⟩ := h.alongside rs rfl x hx
      exact ⟨by rw [hkind, hkind, hk], by rw [hcurrency, hcurrency, hc]⟩

namespace Amount

/-- Whether no rounding is pending on an amount. -/
def NoPending : Amount → Prop
  | rounded a => a.pending = none
  | _ => True

theorem neverMixes {a b : Amount} (hp : a.NoPending) (hkind : a.kind = b.kind) (op : PairOperation) :
    NeverMixes a b (op.apply a b) := by
  -- Within one representation the union does what the representation does, and wraps the results.
  cases a with
  | money a =>
    cases b with
    | money b =>
      rw [op.apply_money]
      exact (a.neverMixes b op).map (fun _ => rfl) fun _ => rfl
    | rounded b => cases hkind
    | fast b => cases hkind
  | rounded a =>
    cases b with
    | money b => cases hkind
    | rounded b =>
      rw [op.apply_rounded]
      exact (RoundedMoney.neverMixes hp b op).map (fun _ => rfl) fun _ => rfl
    | fast b => cases hkind
  | fast a =>
    cases b with
    | money b => cases hkind
    | rounded b => cases hkind
    | fast b =>
      rw [op.apply_fast]
      exact (a.neverMixes b op).map (fun _ => rfl) fun _ => rfl

theorem apply_of_kind_ne {a b : Amount} (hkind : a.kind ≠ b.kind) (op : PairOperation) :
    op.apply a b = .error (.unexpectedKind a.kind b.kind) := by
  cases a <;> cases b <;> first | exact absurd rfl hkind | (cases op <;> rfl)

end Amount

/-! ### Comparisons -/

/-- A comparison of two amounts. -/
inductive Comparison
  | less
  | atMost
  | greater
  | atLeast
  | equal
  | different

namespace Comparison

variable {α β : Type} [MonetaryAmount α] [MonetaryAmount β] {a : α} {b : β}

/-- The answer of a comparison of two amounts. -/
def apply (a : α) (b : β) : Comparison → Outcome Bool
  | less => isLessThan a b
  | atMost => isLessThanOrEqualTo a b
  | greater => isGreaterThan a b
  | atLeast => isGreaterThanOrEqualTo a b
  | equal => isEqualTo a b
  | different => isNotEqualTo a b

/-- Whether a comparison holds of two values. -/
def Holds (x y : ℚ) : Comparison → Prop
  | less => x < y
  | atMost => x ≤ y
  | greater => y < x
  | atLeast => y ≤ x
  | equal => x = y
  | different => x ≠ y

theorem apply_of_code_ne (h : (currency a).code ≠ (currency b).code) (c : Comparison) :
    c.apply a b = .error (.currencyMismatch (currency a).code (currency b).code) := by
  have hcheck := checkCurrency_eq_error h
  cases c <;> simp only [apply, isLessThan, isLessThanOrEqualTo, isGreaterThan, isGreaterThanOrEqualTo, isEqualTo,
    isNotEqualTo, hcheck] <;> rfl

theorem apply_of_code_eq (h : (currency a).code = (currency b).code) (c : Comparison) :
    ∃ holds, c.apply a b = .ok holds ∧ (holds = true ↔ c.Holds (number a).value (number b).value) := by
  have hcheck := checkCurrency_eq_ok h
  have hequal : isEqualTo a b = .ok ((number a).sameValue (number b)) := return_eq_ok hcheck _
  cases c with
  | less => exact ⟨_, return_eq_ok hcheck _, lt_iff _ _⟩
  | atMost => exact ⟨_, return_eq_ok hcheck _, le_iff _ _⟩
  | greater => exact ⟨_, return_eq_ok hcheck _, lt_iff _ _⟩
  | atLeast => exact ⟨_, return_eq_ok hcheck _, le_iff _ _⟩
  | equal => exact ⟨_, hequal, sameValue_iff _ _⟩
  | different =>
    refine ⟨_, return_eq_ok hequal _, ?_⟩
    rw [Bool.not_eq_true', ← Bool.not_eq_true, sameValue_iff]
    rfl

theorem apply_eq_mismatch_iff (c : Comparison) {expected actual : String} :
    c.apply a b = .error (.currencyMismatch expected actual) ↔
      (currency a).code ≠ (currency b).code ∧ expected = (currency a).code ∧ actual = (currency b).code := by
  by_cases h : (currency a).code = (currency b).code
  · obtain ⟨holds, hok, -⟩ := apply_of_code_eq h c
    simp [hok, h]
  · simp [apply_of_code_ne h c, h, eq_comm]

end Comparison

/-- Two amounts of two currencies are never combined nor compared, whatever their numbers, and an operation on two of
one currency stays in it; amounts of two representations are compared but never combined. -/
theorem currencies_never_mix :
    (∀ (a b : Money) (op : PairOperation), NeverMixes a b (op.apply a b)) ∧
    (∀ (a b : FastMoney) (op : PairOperation), NeverMixes a b (op.apply a b)) ∧
    (∀ (a b : RoundedMoney) (op : PairOperation), a.pending = none → NeverMixes a b (op.apply a b)) ∧
    (∀ (a b : Amount) (op : PairOperation), a.NoPending → a.kind = b.kind → NeverMixes a b (op.apply a b)) ∧
    (∀ (a b : Amount) (op : PairOperation), a.kind ≠ b.kind →
      op.apply a b = .error (.unexpectedKind a.kind b.kind)) ∧
    ∀ {α β : Type} [MonetaryAmount α] [MonetaryAmount β] (a : α) (b : β) (c : Comparison),
      (∀ expected actual, c.apply a b = .error (.currencyMismatch expected actual) ↔
        (currency a).code ≠ (currency b).code ∧ expected = (currency a).code ∧ actual = (currency b).code) ∧
      ((currency a).code = (currency b).code →
        ∃ holds, c.apply a b = .ok holds ∧ (holds = true ↔ c.Holds (number a).value (number b).value)) := by
  refine ⟨Money.neverMixes, FastMoney.neverMixes, ?_, ?_, ?_, ?_⟩
  · exact fun a b op hp => RoundedMoney.neverMixes hp b op
  · exact fun a b op hp hkind => Amount.neverMixes hp hkind op
  · exact fun a b op hkind => Amount.apply_of_kind_ne hkind op
  · exact fun a b c => ⟨fun _ _ => c.apply_eq_mismatch_iff, fun h => c.apply_of_code_eq h⟩

/-- A euro is not divided by no dollars because they are dollars, and the largest two amounts do not overflow before
their currencies are looked at. -/
theorem currencies_never_mix_zero_divisor :
    PairOperation.divide.apply (RoundedMoney.zero .euro) (.zero .dollar) = .error (.currencyMismatch "EUR" "USD") ∧
    PairOperation.add.apply (Amount.fast (.max .euro)) (.fast (.max .dollar)) =
      .error (.currencyMismatch "EUR" "USD") ∧
    PairOperation.add.apply (Amount.fast (.max .euro)) (.rounded (.zero .dollar)) =
      .error (.unexpectedKind .fast .rounded) ∧
    ∃ holds, Comparison.less.apply (FastMoney.max .euro) (RoundedMoney.zero .euro) = .ok holds := by
  obtain ⟨-, -, hrounded, hamount, hkinds, hcomparison⟩ := currencies_never_mix
  refine ⟨?_, ?_, hkinds _ _ .add (by decide), ?_⟩
  · exact (hrounded (.zero .euro) (.zero .dollar) .divide rfl).mismatch (by decide)
  · exact (hamount (.fast (.max .euro)) (.fast (.max .dollar)) .add trivial rfl).mismatch (by decide)
  · obtain ⟨holds, hok, -⟩ := (hcomparison (FastMoney.max .euro) (RoundedMoney.zero .euro) .less).2 rfl
    exact ⟨holds, hok⟩

end Coinage
