import Coinage.Proofs.Amount.FastProducts
import Coinage.Proofs.Amount.Mismatch
import Coinage.Proofs.Command.RateText
import Coinage.Proofs.Decimal.Normal
import Coinage.Proofs.Decimal.Products
import Coinage.Proofs.Decimal.Scale
import Coinage.Proofs.Rate.Creation
/-!
# Conversions along links

The command converts along the rates that its texts spell. `LeadsAlong` says what the rate is that they are composed to,
`ConvertedBy` what a rate makes of the text of an amount. A single link without a factor of its own is taken as it is and
no rate is built of it: a rate built of it has the same factor, and a zero factor, which loses its places when it is
built, converts every amount alike.
-/

namespace Coinage

open Decimal RateChain RateBuilder

/-! ### Zero factors -/

theorem Decimal.product_of_value_eq_zero (a : Decimal) {f : Decimal} (hf : f.value = 0) : a.product f = .ok zero := by
  have hmul : a.mul? f = some zero := by
    rw [mul?, (isZero_iff f).2 hf, Bool.or_true, Bool.true_or, if_pos rfl]
  rw [product, hmul]

theorem FastMoney.multiplyBy_of_value_eq_zero (a : FastMoney) {f : Decimal} (hf : f.value = 0) :
    a.multiplyBy f = .ok (FastMoney.zero a.currency) := by
  have hexact : a.units * f.mantissa = 0 := by rw [(value_eq_zero_iff f).1 hf, mul_zero]
  have hunits : divideHalfUp 0 (10 ^ f.scale) = 0 := by
    have hpos : ¬ ((10 : ℤ) ^ f.scale).natAbs ≤ 0 := by simp
    unfold divideHalfUp
    dsimp only
    rw [Int.zero_tdiv, Int.zero_tmod, Int.natAbs_zero, mul_zero, if_neg hpos]
  unfold FastMoney.multiplyBy
  dsimp only
  rw [hexact, if_pos (by decide), hunits]
  rfl

/-- The product with a factor of zero is the same for all its scales. -/
theorem Amount.multiplyBy_of_value_eq_zero (a : Amount) {f g : Decimal} (hf : f.value = 0) (hg : g.value = 0) :
    MonetaryAmount.multiplyBy a f = MonetaryAmount.multiplyBy a g := by
  cases a with
  | money a =>
    show (a.multiplyBy f).map Amount.money = (a.multiplyBy g).map Amount.money
    rw [Money.multiplyBy, Money.multiplyBy, product_of_value_eq_zero _ hf, product_of_value_eq_zero _ hg]
  | rounded a =>
    show (a.multiplyBy f).map Amount.rounded = (a.multiplyBy g).map Amount.rounded
    rw [RoundedMoney.multiplyBy, RoundedMoney.multiplyBy, product_of_value_eq_zero _ hf, product_of_value_eq_zero _ hg]
  | fast a =>
    show (a.multiplyBy f).map Amount.fast = (a.multiplyBy g).map Amount.fast
    rw [a.multiplyBy_of_value_eq_zero hf, a.multiplyBy_of_value_eq_zero hg]

/-- Rates with one base and one term convert alike if their factors are the same decimal, or both zero. -/
theorem ExchangeRate.apply_congr {r s : ExchangeRate} (hbase : r.base = s.base) (hterm : r.term = s.term)
    (hfactor : r.factor = s.factor ∨ r.factor.value = 0 ∧ s.factor.value = 0) (a : Amount) : r.apply a = s.apply a := by
  have hmultiply : ∀ x : Amount, MonetaryAmount.multiplyBy x r.factor = MonetaryAmount.multiplyBy x s.factor := by
    intro x
    rcases hfactor with h | ⟨hr, hs⟩
    · rw [h]
    · exact x.multiplyBy_of_value_eq_zero hr hs
  unfold apply
  rw [hbase, hterm, hmultiply]

/-! ### Currencies of converted amounts -/

theorem Unmixed.currency_of_map {α : Type} [MonetaryAmount α] {a : α} {o : Outcome α} {wrap : α → Amount} {x : Amount}
    (ho : Unmixed (Alongside a) o) (hwrap : ∀ y, (wrap y).currency = MonetaryAmount.currency y)
    (h : o.map wrap = .ok x) : x.currency = MonetaryAmount.currency a := by
  obtain ⟨y, rfl, rfl⟩ := map_eq_ok.1 h
  rw [hwrap]
  exact ho.2

theorem Amount.currency_of_multiplyBy {a x : Amount} {n : Decimal} (hp : a.NoPending)
    (h : MonetaryAmount.multiplyBy a n = .ok x) : x.currency = a.currency := by
  cases a with
  | money a => exact (a.staysAlongside.multiplyBy n).currency_of_map (fun _ => rfl) h
  | rounded a => exact ((RoundedMoney.staysAlongside hp).multiplyBy n).currency_of_map (fun _ => rfl) h
  | fast a => exact (a.staysAlongside.multiplyBy n).currency_of_map (fun _ => rfl) h

theorem Amount.NoPending.withCurrency {a : Amount} (hp : a.NoPending) (c : Currency) :
    (MonetaryAmount.withCurrency a c).NoPending := by
  cases a <;> exact hp

theorem ExchangeRate.multiplyBy_of_apply {r : ExchangeRate} {a x : Amount} (h : r.apply a = .ok x) :
    MonetaryAmount.multiplyBy (MonetaryAmount.withCurrency a r.term) r.factor = .ok x := by
  unfold apply at h
  dsimp only at h
  split at h
  case isFalse => cases h
  case isTrue => exact mapError_eq_ok.1 h

theorem ExchangeRate.currency_of_apply {r : ExchangeRate} {a x : Amount} (hp : a.NoPending) (h : r.apply a = .ok x) :
    x.currency = r.term := by
  rw [Amount.currency_of_multiplyBy (hp.withCurrency r.term) (multiplyBy_of_apply h)]
  cases a <;> rfl

/-! ### Numbers of converted amounts -/

/-- What the number of an amount becomes when it is multiplied by a factor, as the representation keeps the product: with
every digit of the nearest decimal, with the digits that the context leaves of that, or in units. Units are counted of
the product itself where the wide integers hold it, and of the nearest decimal elsewhere. -/
inductive TimesFactor (f : Decimal) : Amount → Amount → Prop
  | money {a b : Money} : nearestValue? (a.number.value * f.value) = some b.number.value →
      TimesFactor f (.money a) (.money b)
  | rounded {a b : RoundedMoney} {product kept : Decimal} : nearestValue? (a.number.value * f.value) = some product.value →
      product.roundToPrecision a.context = .ok kept → b.number.value = kept.value → TimesFactor f (.rounded a) (.rounded b)
  | fast {a b : FastMoney} : FastMoney.fitsWide (a.units * f.mantissa) = true →
      b.units = FastMoney.unitsOf (a.number.value * f.value) → TimesFactor f (.fast a) (.fast b)
  | detour {a b : FastMoney} {product : ℚ} : FastMoney.fitsWide (a.units * f.mantissa) = false →
      nearestValue? (a.number.value * f.value) = some product → b.units = FastMoney.unitsOf product →
      TimesFactor f (.fast a) (.fast b)

theorem Amount.timesFactor_of_multiplyBy {a x : Amount} {f : Decimal} (hp : a.NoPending)
    (h : MonetaryAmount.multiplyBy a f = .ok x) : TimesFactor f a x := by
  cases a with
  | money a =>
    obtain ⟨b, hb, rfl⟩ := map_eq_ok.1 h
    obtain ⟨product, hproduct, hb⟩ := bind_eq_ok.1 hb
    cases pure_eq_ok.1 hb
    have hvalue := (rounds_product _ _).ok hproduct
    exact .money hvalue
  | rounded a =>
    obtain ⟨b, hb, rfl⟩ := map_eq_ok.1 h
    obtain ⟨product, hproduct, hb⟩ := bind_eq_ok.1 hb
    obtain ⟨kept, hkept, rfl⟩ := (RoundedMoney.finish_eq_ok_of_pending_none hp).1 hb
    exact .rounded ((rounds_product _ _).ok hproduct) hkept rfl
  | fast a =>
    obtain ⟨b, hb, rfl⟩ := map_eq_ok.1 h
    change a.multiplyBy f = .ok b at hb
    unfold FastMoney.multiplyBy at hb
    dsimp only at hb
    split at hb
    case isTrue hwide =>
      have hcounts := FastMoney.countsUnits_ofUnits a.currency (a.divideHalfUp_product f) s!"{a} * {f}"
      rw [hb] at hcounts
      exact .fast hwide hcounts.2
    case isFalse hwide =>
      obtain ⟨product, hproduct, hb⟩ := bind_eq_ok.1 hb
      have hcounts := FastMoney.countsUnits_ofDecimal a.currency product
      rw [hb] at hcounts
      exact .detour (Bool.eq_false_iff.2 hwide) ((rounds_product _ _).ok hproduct) hcounts.2

/-- The number does not change on the way into the other currency. -/
theorem TimesFactor.of_withCurrency {a x : Amount} {f : Decimal} {c : Currency}
    (h : TimesFactor f (MonetaryAmount.withCurrency a c) x) : TimesFactor f a x := by
  cases a with
  | money a =>
    cases h with
    | money hproduct => exact .money hproduct
  | rounded a =>
    cases h with
    | rounded hproduct hkept hx => exact .rounded hproduct hkept hx
  | fast a =>
    cases h with
    | fast hwide hx => exact .fast hwide hx
    | detour hwide hproduct hx => exact .detour hwide hproduct hx

theorem ExchangeRate.timesFactor_of_apply {r : ExchangeRate} {a x : Amount} (hp : a.NoPending) (h : r.apply a = .ok x) :
    TimesFactor r.factor a x :=
  (Amount.timesFactor_of_multiplyBy (hp.withCurrency r.term) (multiplyBy_of_apply h)).of_withCurrency

namespace Command

variable {links : List ExchangeRate} {factor : Option String} {rate : ExchangeRate} {settings : Settings} {value : String}
  {rounded : Bool} {kind : AmountKind} {input output : Amount}

/-! ### The rate -/

/-- A builder for rates from the base of one link to the term of another one. -/
def builderFrom (first last : ExchangeRate) : RateBuilder :=
  ((RateBuilder.ofProvider provider .other).setBase first.base).setTerm last.term

/-- The rate that a builder makes of links, with a factor of its own or the product of theirs. -/
def buildAlong (links : List ExchangeRate) (factor : Option String) : Result ExchangeRate :=
  match links.head?, links.getLast? with
  | some first, some last => do
    let chained ← ofRate ((builderFrom first last).setChain links)
    match factor with
    | some text => do
      let given ← ofOutcome (Numeric.ofText text)
      ofRate (chained.setFactor given).create
    | none => ofRate chained.create
  | _, _ => .error .noRate

theorem composeRate_singleton (link : ExchangeRate) : composeRate [link] none = .ok link := rfl

/-- All other links, and a single one with a factor of its own, are given to a builder. -/
theorem composeRate_eq_buildAlong (h : ¬ (links.length = 1 ∧ factor.isNone)) :
    composeRate links factor = buildAlong links factor := by
  unfold composeRate buildAlong
  cases links.head? with
  | none => rfl
  | some first =>
    cases links.getLast? with
    | none => rfl
    | some last =>
      dsimp only
      rw [if_neg h]
      cases factor <;> simp [builderFrom]

/-- The factor of a rate along links: a given one, or the product of theirs. -/
inductive FactorAlong (links : List ExchangeRate) : Option String → Decimal → Prop
  | given {text : String} {d : Decimal} : Numeric.ofText text = .ok d → FactorAlong links (some text) d
  | product {d : Decimal} : productValue? links = some d.value → FactorAlong links none d

/-- What the rate is that links are composed to. -/
structure LeadsAlong (links : List ExchangeRate) (factor : Option String) (rate : ExchangeRate) : Prop where
  connected : Connected links
  starts : ∃ first, links.head? = some first ∧ rate.base = first.base
  ends : ∃ last, links.getLast? = some last ∧ rate.term = last.term
  factor_along : FactorAlong links factor rate.factor

theorem LeadsAlong.value_eq_prod (h : LeadsAlong links factor rate) (hfactor : factor = none)
    (hexact : ∀ before, before <+: links → Representable (before.map fun r => r.factor.value).prod) :
    rate.factor.value = (links.map fun r => r.factor.value).prod := by
  have hproduct := productValue?_eq_prod hexact
  cases h.factor_along with
  | given => cases hfactor
  | product hvalue => exact Option.some.inj (hvalue.symm.trans hproduct)

theorem leadsAlong_of_buildAlong (h : buildAlong links factor = .ok rate) : LeadsAlong links factor rate := by
  unfold buildAlong at h
  split at h
  case h_2 => cases h
  case h_1 first last hfirst hlast =>
    obtain ⟨chained, hchained, h⟩ := bind_eq_ok.1 h
    obtain ⟨hconnected, rfl⟩ := setChain_eq_ok_iff.1 (ofRate_eq_ok.1 hchained)
    cases factor with
    | none =>
      have hcreate := ofRate_eq_ok.1 h
      have hproduct := (derivedFactor?_of_create hcreate rfl).2
      obtain ⟨base, term, d, context, hbase, hterm, -, -, -, rfl⟩ := create_eq_ok_iff.1 hcreate
      cases hbase
      cases hterm
      exact ⟨hconnected, ⟨first, hfirst, rfl⟩, ⟨last, hlast, rfl⟩, .product hproduct⟩
    | some text =>
      obtain ⟨given, hgiven, h⟩ := bind_eq_ok.1 h
      obtain ⟨base, term, d, context, hbase, hterm, -, hchoose, -, rfl⟩ := create_eq_ok_iff.1 (ofRate_eq_ok.1 h)
      cases hbase
      cases hterm
      cases hchoose
      exact ⟨hconnected, ⟨first, hfirst, rfl⟩, ⟨last, hlast, rfl⟩, .given (ofOutcome_eq_ok.1 hgiven)⟩

theorem leadsAlong_of_composeRate (h : composeRate links factor = .ok rate) : LeadsAlong links factor rate := by
  by_cases hsingle : links.length = 1 ∧ factor.isNone
  · obtain ⟨link, rfl⟩ := List.length_eq_one_iff.1 hsingle.1
    cases Option.isNone_iff_eq_none.1 hsingle.2
    rw [composeRate_singleton] at h
    cases h
    have hproduct : productValue? [rate] = some rate.factor.value := by
      simp [productValue?, nearestValue?_value]
    exact ⟨List.isChain_singleton _, ⟨_, rfl, rfl⟩, ⟨_, rfl, rfl⟩, .product hproduct⟩
  · rw [composeRate_eq_buildAlong hsingle] at h
    exact leadsAlong_of_buildAlong h

/-- Several links that do not connect are refused, whatever the factor. -/
theorem composeRate_of_not_connected (factor : Option String) (hlength : 2 ≤ links.length) (h : ¬ Connected links) :
    ∃ i a b, BreaksBetween links i a b ∧
      composeRate links factor = .error (.refused (.invalidChain (i + 1) (.disconnected a.term.code b.base.code))) := by
  have hsingle : ¬ (links.length = 1 ∧ factor.isNone) := by omega
  rcases eq_nil_or_exists_ends links with rfl | ⟨first, last, hfirst, hlast⟩
  · exact absurd List.isChain_nil h
  cases hset : (builderFrom first last).setChain links with
  | ok chained => exact absurd (setChain_eq_ok_iff.1 hset).1 h
  | error cause =>
    obtain ⟨i, a, b, hbreak, rfl⟩ := setChain_eq_error hset
    refine ⟨i, a, b, hbreak, ?_⟩
    rw [composeRate_eq_buildAlong hsingle]
    unfold buildAlong
    rw [hfirst, hlast]
    dsimp only
    rw [hset]
    rfl

/-- The product of one factor is that factor, or zero without its places. -/
theorem exists_product_singleton (link : ExchangeRate) :
    ∃ d, RateChain.product [link] = .ok d ∧ (link.factor = d ∨ link.factor.value = 0 ∧ d.value = 0) := by
  have hfold : RateChain.product [link] = multiply .one link.factor := by
    rw [RateChain.product, List.foldlM_cons]
    cases multiply .one link.factor <;> rfl
  rw [hfold, multiply]
  by_cases hzero : link.factor.value = 0
  · rw [Decimal.product_of_value_eq_zero _ hzero]
    exact ⟨_, rfl, Or.inr ⟨hzero, value_zero⟩⟩
  · have hmantissa : link.factor.mantissa ≠ 0 := mt (value_eq_zero_iff _).2 hzero
    have hrange : (Decimal.one.mantissa * link.factor.mantissa).natAbs < capacity ∧
        Decimal.one.scale + link.factor.scale ≤ maxScale := by
      show (1 * link.factor.mantissa).natAbs < capacity ∧ 0 + link.factor.scale ≤ maxScale
      rw [one_mul, zero_add]
      exact ⟨link.factor.natAbs_mantissa_lt, link.factor.scale_le⟩
    rw [product_of_inRange (by decide) hmantissa hrange]
    refine ⟨_, rfl, Or.inl (eq_of_digits (one_mul _).symm (zero_add _).symm ?_)⟩
    -- neither of the two is a zero, which alone could carry a minus
    have hplain : ∀ {d : Decimal}, d.mantissa ≠ 0 → d.minusZero = false :=
      fun hd => Bool.eq_false_iff.2 fun hminus => hd (Decimal.eq_zero_of_minusZero _ hminus)
    rw [hplain hmantissa, hplain]
    show 1 * link.factor.mantissa ≠ 0
    rwa [one_mul]

/-- One link can always be given to a builder. The factor is the link's own, or another zero. -/
theorem exists_buildAlong_singleton (link : ExchangeRate) :
    ∃ built, buildAlong [link] none = .ok built ∧ built.chain = [link] ∧ built.base = link.base ∧ built.term = link.term ∧
      (link.factor = built.factor ∨ link.factor.value = 0 ∧ built.factor.value = 0) := by
  obtain ⟨d, hd, hfactor⟩ := exists_product_singleton link
  have hset : (builderFrom link link).setChain [link] = .ok { builderFrom link link with chain := [link] } :=
    setChain_eq_ok_iff.2 ⟨List.isChain_singleton _, rfl⟩
  have hbuild : buildAlong [link] none = ofRate (create { builderFrom link link with chain := [link] }) := by
    show (ofRate ((builderFrom link link).setChain [link]) >>= fun chained => ofRate chained.create) = _
    rw [hset]
    rfl
  have hends : checkEnds [link] link.base link.term = .ok () := by simp [checkEnds_of_ends]
  have hchoose : chooseFactor { builderFrom link link with chain := [link] } = .ok d :=
    chooseFactor_eq_ok_iff.2 (.derived rfl (List.cons_ne_nil _ _) hd)
  have hcreate := create_eq_ok_iff.2 ⟨link.base, link.term, d, _, rfl, rfl, hends, hchoose, rfl, rfl⟩
  exact ⟨_, hbuild.trans (ofRate_eq_ok.2 hcreate), rfl, rfl, rfl, hfactor⟩

/-! ### The results -/

/-- What a rate converts an amount to, rounded to the minor unit of its term currency if wanted. -/
def outputBy (settings : Settings) (rounded : Bool) (rate : ExchangeRate) (input : Amount) : Result Amount :=
  if rounded then do
    let rounding ← ofOutcome ((roundings settings).rounding rate.term)
    ofRate (rate.applyRounded input rounding)
  else ofRate (rate.apply input)

/-- What a rate makes of the text of an amount: the amount in its base currency, and the one that it converts to. -/
def resultsBy (settings : Settings) (value : String) (rounded : Bool) (kind : AmountKind) (rate : ExchangeRate) :
    Result (Amount × Amount) := do
  let input ← makeAmount settings kind rate.base value
  let output ← outputBy settings rounded rate input
  return (input, output)

theorem convert_eq (settings : Settings) (value : String) (rates : List String) (factor : Option String) (rounded : Bool)
    (kind : AmountKind) :
    convert settings value rates factor rounded kind = do
      let links ← rates.mapM parseRate
      let rate ← composeRate links factor
      let results ← resultsBy settings value rounded kind rate
      return { results := [results.1, results.2], rate := some rate } := by
  cases rounded <;> simp [convert, resultsBy, outputBy]

/-- The amount that a number is in a representation. -/
inductive Represents (context : MathContext) (c : Currency) (d : Decimal) : AmountKind → Amount → Prop
  | money : Represents context c d .money (.money (.ofNumber c d))
  | rounded {a : RoundedMoney} : RoundedMoney.ofContext c d context = .ok a → Represents context c d .rounded (.rounded a)
  | fast {a : FastMoney} : FastMoney.ofDecimal c d = .ok a → Represents context c d .fast (.fast a)

theorem represents_of_makeAmount {c : Currency} {a : Amount} (h : makeAmount settings kind c value = .ok a) :
    ∃ d, Numeric.ofText value = .ok d ∧ Represents settings.mathContext c d kind a := by
  obtain ⟨d, hd, h⟩ := bind_eq_ok.1 (ofOutcome_eq_ok.1 h)
  refine ⟨d, hd, ?_⟩
  cases kind with
  | money =>
    cases pure_eq_ok.1 h
    exact .money
  | rounded =>
    obtain ⟨r, hr, h⟩ := bind_eq_ok.1 h
    cases pure_eq_ok.1 h
    exact .rounded hr
  | fast =>
    obtain ⟨f, hf, h⟩ := bind_eq_ok.1 h
    cases pure_eq_ok.1 h
    exact .fast hf

theorem Represents.noPending {context : MathContext} {c : Currency} {d : Decimal} {a : Amount}
    (h : Represents context c d kind a) : a.NoPending := by
  cases h with
  | money => trivial
  | rounded hr => exact (RoundedMoney.finish_eq_ok hr).2.2
  | fast => trivial

/-- How the two results of a conversion come about. -/
structure ConvertedBy (settings : Settings) (value : String) (rounded : Bool) (kind : AmountKind) (rate : ExchangeRate)
    (input output : Amount) : Prop where
  input_eq : ∃ d, Numeric.ofText value = .ok d ∧ Represents settings.mathContext rate.base d kind input
  output_eq : ∃ converted, rate.apply input = .ok converted ∧ converted.currency = rate.term ∧
    if rounded then
      MonetaryAmount.transform converted (PlaceRounding.ofCurrency rate.term settings.currencyRounding).operator =
        .ok output
    else output = converted

theorem convertedBy_of_resultsBy (h : resultsBy settings value rounded kind rate = .ok (input, output)) :
    ConvertedBy settings value rounded kind rate input output := by
  obtain ⟨a, hinput, h⟩ := bind_eq_ok.1 h
  obtain ⟨x, houtput, h⟩ := bind_eq_ok.1 h
  cases pure_eq_ok.1 h
  obtain ⟨d, hd, hrepresents⟩ := represents_of_makeAmount hinput
  refine ⟨⟨d, hd, hrepresents⟩, ?_⟩
  cases rounded with
  | false =>
    have happly := ofRate_eq_ok.1 houtput
    exact ⟨output, happly, ExchangeRate.currency_of_apply hrepresents.noPending happly, rfl⟩
  | true =>
    obtain ⟨rounding, hrounding, h⟩ := bind_eq_ok.1 houtput
    obtain ⟨converted, happly, htransform⟩ := bind_eq_ok.1 (ofRate_eq_ok.1 h)
    cases ofOutcome_eq_ok.1 hrounding
    exact ⟨converted, happly, ExchangeRate.currency_of_apply hrepresents.noPending happly, mapError_eq_ok.1 htransform⟩

/-- The input times the factor is the number of the output, as the representation keeps it; it is rounded to the places
of the term currency if that is wanted, and kept once more. -/
theorem ConvertedBy.times_factor (h : ConvertedBy settings value rounded kind rate input output) :
    ∃ converted, TimesFactor rate.factor input converted ∧
      if rounded then
        ∃ cut : Decimal, cut.value =
          settings.currencyRounding.select (converted.number.value * 10 ^ min rate.term.fractionDigits maxScale) /
            10 ^ min rate.term.fractionDigits maxScale ∧
          MonetaryAmount.withNumber converted cut = .ok output
      else output = converted := by
  obtain ⟨d, -, hrepresents⟩ := h.input_eq
  obtain ⟨converted, happly, -, houtput⟩ := h.output_eq
  refine ⟨converted, ExchangeRate.timesFactor_of_apply hrepresents.noPending happly, ?_⟩
  cases rounded with
  | false => exact houtput
  | true =>
    obtain ⟨result, hresult, hkind⟩ := bind_eq_ok.1 houtput
    obtain ⟨cut, hcut, hresult⟩ := bind_eq_ok.1 hresult
    split at hkind
    case isFalse => cases hkind
    case isTrue =>
      cases hkind
      exact ⟨cut, value_roundToScale hcut, hresult⟩

theorem resultsBy_congr {r s : ExchangeRate} (hbase : r.base = s.base) (hterm : r.term = s.term)
    (happly : ∀ a : Amount, r.apply a = s.apply a) :
    resultsBy settings value rounded kind r = resultsBy settings value rounded kind s := by
  have houtput : ∀ a, outputBy settings rounded r a = outputBy settings rounded s a := by
    intro a
    simp only [outputBy, ExchangeRate.applyRounded, hterm, happly]
  simp only [resultsBy, hbase, houtput]

/-! ### Commands -/

theorem convert_eq_ok {report : Report} {rates : List String}
    (h : convert settings value rates factor rounded kind = .ok report) :
    ∃ links rate input output, List.Forall₂ Spells rates links ∧ composeRate links factor = .ok rate ∧
      resultsBy settings value rounded kind rate = .ok (input, output) ∧ report = ⟨[input, output], some rate⟩ := by
  rw [convert_eq] at h
  obtain ⟨links, hlinks, h⟩ := bind_eq_ok.1 h
  obtain ⟨rate, hrate, h⟩ := bind_eq_ok.1 h
  obtain ⟨⟨input, output⟩, hresults, h⟩ := bind_eq_ok.1 h
  cases pure_eq_ok.1 h
  have hspells := mapM_eq_ok.1 hlinks
  simp only [parseRate_eq_ok_iff] at hspells
  exact ⟨links, rate, input, output, hspells, hrate, hresults, rfl⟩

theorem convert_of_spells {rates : List String} (h : List.Forall₂ Spells rates links) :
    convert settings value rates factor rounded kind = do
      let rate ← composeRate links factor
      let results ← resultsBy settings value rounded kind rate
      return { results := [results.1, results.2], rate := some rate } := by
  have hlinks : rates.mapM parseRate = .ok links := by
    rw [mapM_eq_ok]
    simpa only [parseRate_eq_ok_iff] using h
  rw [convert_eq, hlinks, ok_bind]

/-- A conversion that succeeds reports the rate that its links lead along, with the given factor or the product of theirs,
and as its results the amount in the base of that rate and what the rate makes of it. Several links that do not connect
are refused where they come apart. A single link without a factor is not given to a builder, but with the rate that a
builder makes of it the results would be the same, and so would be the value of the factor. -/
theorem convert_along_links (settings : Settings) (value : String) (rates : List String) (factor : Option String)
    (rounded : Bool) (kind : AmountKind) :
    (∀ report, convert settings value rates factor rounded kind = .ok report →
      ∃ links rate input output, report = ⟨[input, output], some rate⟩ ∧ List.Forall₂ Spells rates links ∧
        LeadsAlong links factor rate ∧ ConvertedBy settings value rounded kind rate input output ∧
        (factor = none → (∀ before, before <+: links → Representable (before.map fun r => r.factor.value).prod) →
          rate.factor.value = (links.map fun r => r.factor.value).prod)) ∧
    (∀ links, List.Forall₂ Spells rates links → 2 ≤ links.length → ¬ Connected links →
      ∃ i a b, BreaksBetween links i a b ∧ convert settings value rates factor rounded kind =
        .error (.refused (.invalidChain (i + 1) (.disconnected a.term.code b.base.code)))) ∧
    ∀ link, List.Forall₂ Spells rates [link] → factor = none →
      ∃ built, buildAlong [link] none = .ok built ∧ built.chain = [link] ∧ built.base = link.base ∧
        built.term = link.term ∧ built.factor.value = link.factor.value ∧
        convert settings value rates none rounded kind =
          (resultsBy settings value rounded kind built).map fun results => ⟨[results.1, results.2], some link⟩ := by
  refine ⟨?_, ?_, ?_⟩
  · intro report h
    obtain ⟨links, rate, input, output, hlinks, hrate, hresults, hreport⟩ := convert_eq_ok h
    have hleads := leadsAlong_of_composeRate hrate
    refine ⟨links, rate, input, output, hreport, hlinks, hleads, convertedBy_of_resultsBy hresults, ?_⟩
    intro hfactor hexact
    exact hleads.value_eq_prod hfactor hexact
  · intro links hlinks hlength hconnected
    obtain ⟨i, a, b, hbreak, hcompose⟩ := composeRate_of_not_connected factor hlength hconnected
    refine ⟨i, a, b, hbreak, ?_⟩
    rw [convert_of_spells hlinks, hcompose]
    rfl
  · intro link hlink hfactor
    obtain ⟨built, hbuilt, hchain, hbase, hterm, hsame⟩ := exists_buildAlong_singleton link
    have hvalue : built.factor.value = link.factor.value := by
      rcases hsame with h | ⟨hlink_zero, hbuilt_zero⟩
      · rw [h]
      · rw [hlink_zero, hbuilt_zero]
    have hresults : resultsBy settings value rounded kind link = resultsBy settings value rounded kind built :=
      resultsBy_congr hbase.symm hterm.symm (ExchangeRate.apply_congr hbase.symm hterm.symm hsame)
    refine ⟨built, hbuilt, hchain, hbase, hterm, hvalue, ?_⟩
    rw [convert_of_spells hlink, composeRate_singleton, ok_bind, hresults]
    cases resultsBy settings value rounded kind built <;> rfl

/-- From euros to dollars and back, two links that do not connect, and a zero factor. -/
theorem convert_along_links_there_and_back :
    (∃ report rate, convert {} "100" ["EUR:USD:1.25", "USD:EUR:0.84"] none true .fast = .ok report ∧
      report.rate = some rate ∧ rate.base = .euro ∧ rate.term = .euro ∧ rate.factor.value = 21 / 20) ∧
    (∃ cause, convert {} "100" ["EUR:USD:1.25", "EUR:USD:1.25"] (some "2") false .money = .error (.refused cause) ∧
      cause = .invalidChain 1 (.disconnected "USD" "EUR")) ∧
    ∃ built, buildAlong [linkOf .euro .dollar (ofDigits 0 2 (by decide))] none = .ok built ∧ built.factor.value = 0 ∧
      convert {} "100" ["EUR:USD:0.00"] none false .rounded =
        (resultsBy {} "100" false .rounded built).map fun results =>
          ⟨[results.1, results.2], some (linkOf .euro .dollar (ofDigits 0 2 (by decide)))⟩ := by
  have hforth : Spells "EUR:USD:1.25" (linkOf .euro .dollar (ofDigits 125 2 (by decide))) :=
    parseRate_eq_ok_iff.1 rfl
  have hback : Spells "USD:EUR:0.84" (linkOf .dollar .euro (ofDigits 84 2 (by decide))) :=
    parseRate_eq_ok_iff.1 rfl
  have hzero : Spells "EUR:USD:0.00" (linkOf .euro .dollar (ofDigits 0 2 (by decide))) :=
    parseRate_eq_ok_iff.1 rfl
  refine ⟨?_, ?_, ?_⟩
  · obtain ⟨report, hreport⟩ : ∃ report, convert {} "100" ["EUR:USD:1.25", "USD:EUR:0.84"] none true .fast = .ok report := by
      have hok : (convert {} "100" ["EUR:USD:1.25", "USD:EUR:0.84"] none true .fast).isOk = true := rfl
      revert hok
      cases convert {} "100" ["EUR:USD:1.25", "USD:EUR:0.84"] none true .fast <;> simp [Except.isOk, Except.toBool]
    obtain ⟨links, rate, input, output, rfl, hlinks, hleads, -⟩ := (convert_along_links _ _ _ _ _ _).1 report hreport
    cases List.right_unique_forall₂' rightUnique_spells hlinks (.cons hforth (.cons hback .nil))
    obtain ⟨_, ⟨⟩, hbase⟩ := hleads.starts
    obtain ⟨_, ⟨⟩, hterm⟩ := hleads.ends
    refine ⟨_, rate, hreport, rfl, hbase, hterm, ?_⟩
    cases hleads.factor_along with
    | product hvalue =>
      have hproduct : product [linkOf .euro .dollar (ofDigits 125 2 (by decide)),
          linkOf .dollar .euro (ofDigits 84 2 (by decide))] = .ok (ofDigits 10500 4 (by decide)) := rfl
      rw [← map_value_product, hproduct] at hvalue
      rw [← Option.some.inj hvalue]
      norm_num
  · obtain ⟨i, a, b, hbreak, hconvert⟩ :=
      (convert_along_links {} "100" ["EUR:USD:1.25", "EUR:USD:1.25"] (some "2") false .money).2.1 _
        (.cons hforth (.cons hforth .nil)) le_rfl (by decide)
    refine ⟨_, hconvert, ?_⟩
    cases i with
    | zero =>
      cases hbreak.left_eq
      cases hbreak.right_eq
      rfl
    | succ i => simpa using hbreak.right_eq
  · obtain ⟨built, hbuilt, -, -, -, hvalue, hconvert⟩ :=
      (convert_along_links {} "100" ["EUR:USD:0.00"] none false .rounded).2.2 _ (.cons hzero .nil) rfl
    exact ⟨built, hbuilt, by simpa [linkOf] using hvalue, hconvert⟩

end Command

end Coinage
