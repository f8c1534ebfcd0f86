import Coinage.Proofs.Decimal.Checked
import Coinage.Proofs.Rate.Chains
/-!
# What a builder makes

A builder holds of each part what was given last, and the last chain that connects; `RateBuilder.run_eq_given` follows
the calls one by one. `RateBuilder.Makes` says once what it makes of that: the rate, or the first thing that stands
against it, in the order in which they count. Between calls a builder may be asked for rates at any time; a session
shows that this neither changes it nor any later answer.
-/

namespace Coinage

open Decimal

/-! ### The factor of a chain -/

namespace RateChain

instance (chain : List ExchangeRate) : Decidable (Connected chain) :=
  inferInstanceAs (Decidable (chain.IsChain _))

/-- The product of the factors from the first to the last, to the nearest decimal after each of them; `none` where
there is no such decimal. -/
def productValue? (chain : List ExchangeRate) : Option ℚ :=
  chain.foldlM (fun x r => nearestValue? (x * r.factor.value)) 1

theorem map_value_multiply (a b : Decimal) : (multiply a b).toOption.map value = nearestValue? (a.value * b.value) := by
  rw [← map_value_mul?, multiply, Decimal.product]
  cases a.mul? b <;> rfl

theorem multiply_eq_error_iff {a b : Decimal} {cause : AmountError} :
    multiply a b = .error cause ↔ nearestValue? (a.value * b.value) = none ∧ cause = .overflow s!"{a} * {b}" := by
  rw [← map_value_mul?, multiply, Decimal.product]
  cases a.mul? b with
  | none => exact ⟨fun h => ⟨rfl, (Except.error.inj h).symm⟩, fun h => congrArg Except.error h.2.symm⟩
  | some d => exact iff_of_false (fun h => nomatch h) (fun h => nomatch h.1)

theorem map_value_foldlM_multiply (chain : List ExchangeRate) (d : Decimal) :
    (chain.foldlM (fun acc r => multiply acc r.factor) d).toOption.map value =
      chain.foldlM (fun x r => nearestValue? (x * r.factor.value)) d.value := by
  induction chain generalizing d with
  | nil => rfl
  | cons r rest ih =>
    rw [List.foldlM_cons, List.foldlM_cons, ← map_value_multiply]
    cases multiply d r.factor with
    | error cause => rfl
    | ok e => exact ih e

theorem map_value_product (chain : List ExchangeRate) : (product chain).toOption.map value = productValue? chain := by
  rw [product, map_value_foldlM_multiply, productValue?]
  norm_num [value, Decimal.one]

/-- Where no product on the way has to be rounded, the product is exact. -/
theorem productValue?_eq_prod {chain : List ExchangeRate}
    (h : ∀ before, before <+: chain → Representable (before.map fun r => r.factor.value).prod) :
    productValue? chain = some (chain.map fun r => r.factor.value).prod := by
  induction chain using List.reverseRecOn with
  | nil => rfl
  | append_singleton before link ih =>
    have hbefore := ih fun shorter hshorter => h shorter (hshorter.trans (List.prefix_append before [link]))
    have hproduct := h _ (List.prefix_refl _)
    rw [List.map_append, List.prod_append, List.map_singleton, List.prod_singleton] at hproduct ⊢
    rw [productValue?] at hbefore ⊢
    rw [List.foldlM_append, hbefore]
    simp [hproduct.nearestValue?]

/-- A product is refused at the first factor that leads out of range, and the refusal shows it. -/
theorem product_eq_error_iff {chain : List ExchangeRate} {cause : AmountError} :
    product chain = .error cause ↔
      ∃ before link after acc, chain = before ++ link :: after ∧ product before = .ok acc ∧
        nearestValue? (acc.value * link.factor.value) = none ∧ cause = .overflow s!"{acc} * {link.factor}" := by
  unfold product
  rw [foldlM_eq_error]
  simp only [multiply_eq_error_iff]

end RateChain

open RateChain

namespace RateBuilder

/-! ### What calls leave in a builder -/

/-- The base that a call gives. -/
def Call.base? : Call → Option Currency
  | setBase c => some c
  | _ => none

def Call.term? : Call → Option Currency
  | setTerm c => some c
  | _ => none

def Call.factor? : Call → Option Decimal
  | setFactor d => some d
  | _ => none

def Call.context? : Call → Option ConversionContext
  | setContext c => some c
  | _ => none

/-- The chain that a call gives, if it is accepted. -/
def Call.chain? : Call → Option (List ExchangeRate)
  | setChain chain => if Connected chain then some chain else none
  | _ => none

/-- What calls gave last of a part. -/
def last? {α : Type} (part? : Call → Option α) (calls : List Call) : Option α :=
  (calls.filterMap part?).getLast?

@[simp]
theorem last?_concat {α : Type} (part? : Call → Option α) (calls : List Call) (call : Call) :
    last? part? (calls ++ [call]) = (part? call).or (last? part? calls) := by
  rw [last?, List.filterMap_append, List.getLast?_append]
  cases h : part? call <;> simp [last?, h]

/-- The builder that holds of each part what calls gave last, and what another one holds where they gave nothing. -/
def given (b : RateBuilder) (calls : List Call) : RateBuilder :=
  { b with
    base := (last? Call.base? calls).or b.base
    term := (last? Call.term? calls).or b.term
    factor := (last? Call.factor? calls).or b.factor
    context := (last? Call.context? calls).or b.context
    chain := (last? Call.chain? calls).getD b.chain }

theorem given_nil (b : RateBuilder) : b.given [] = b := rfl

/-- One more call. -/
theorem after_given (b : RateBuilder) (calls : List Call) (call : Call) :
    (b.given calls).after call = b.given (calls ++ [call]) := by
  cases call with
  | setBase | setTerm | setFactor | setContext =>
    simp [given, after, setBase, setTerm, setFactor, setContext, Call.base?, Call.term?, Call.factor?,
      Call.context?, Call.chain?]
  | setChain chain =>
    by_cases hconnected : Connected chain
    · rw [after_setChain_of_connected hconnected]
      simp [given, hconnected, Call.base?, Call.term?, Call.factor?, Call.context?, Call.chain?]
    · rw [after_eq_self hconnected]
      simp [given, hconnected, Call.base?, Call.term?, Call.factor?, Call.context?, Call.chain?]

theorem run_concat (b : RateBuilder) (calls : List Call) (call : Call) :
    b.run (calls ++ [call]) = (b.run calls).after call :=
  List.foldl_concat after b call calls

/-- Only what was given last counts. -/
theorem run_eq_given (b : RateBuilder) (calls : List Call) : b.run calls = b.given calls := by
  induction calls using List.reverseRecOn with
  | nil => exact (given_nil b).symm
  | append_singleton calls call ih => rw [run_concat, ih, after_given]

/-! ### What a builder makes of what it holds -/

/-- The factor that counts: the builder's own, and only without one the product of its chain. -/
inductive Chooses (b : RateBuilder) : Decimal → Prop
  | own {d : Decimal} : b.factor = some d → Chooses b d
  | derived {d : Decimal} : b.factor = none → b.chain ≠ [] → product b.chain = .ok d → Chooses b d

theorem chooseFactor_of_some {b : RateBuilder} {d : Decimal} (h : b.factor = some d) : b.chooseFactor = .ok d := by
  rw [chooseFactor, h]

theorem chooseFactor_of_none {b : RateBuilder} (h : b.factor = none) :
    b.chooseFactor = if b.chain = [] then .error (.incomplete .factor) else (product b.chain).toRate := by
  rw [chooseFactor, h]
  simp only [List.isEmpty_iff]

theorem chooseFactor_eq_ok_iff {b : RateBuilder} {d : Decimal} : b.chooseFactor = .ok d ↔ b.Chooses d := by
  cases hfactor : b.factor with
  | some own =>
    rw [chooseFactor_of_some hfactor]
    constructor
    · rintro ⟨⟩
      exact .own hfactor
    · rintro (h | ⟨h, -, -⟩)
      · cases hfactor.symm.trans h
        rfl
      · cases hfactor.symm.trans h
  | none =>
    rw [chooseFactor_of_none hfactor]
    constructor
    · intro h
      split_ifs at h with hchain
      exact .derived hfactor hchain (mapError_eq_ok.1 h)
    · rintro (h | ⟨-, hchain, h⟩)
      · cases hfactor.symm.trans h
      · rw [if_neg hchain, h]
        rfl

/-- What stands against a factor: there is neither one nor a chain, or the product of the chain leaves the range. -/
inductive Lacks (b : RateBuilder) : RateError → Prop
  | missing : b.factor = none → b.chain = [] → Lacks b (.incomplete .factor)
  | overflow (before : List ExchangeRate) (link : ExchangeRate) (after : List ExchangeRate) (acc : Decimal) :
      b.factor = none → b.chain = before ++ link :: after → product before = .ok acc →
      nearestValue? (acc.value * link.factor.value) = none → Lacks b (.amount (.overflow s!"{acc} * {link.factor}"))

theorem chooseFactor_eq_error_iff {b : RateBuilder} {cause : RateError} :
    b.chooseFactor = .error cause ↔ b.Lacks cause := by
  cases hfactor : b.factor with
  | some own =>
    rw [chooseFactor_of_some hfactor]
    refine iff_of_false (fun h => nomatch h) ?_
    rintro (⟨h, -⟩ | ⟨-, -, -, -, h, -, -, -⟩) <;> cases hfactor.symm.trans h
  | none =>
    rw [chooseFactor_of_none hfactor]
    constructor
    · intro h
      split_ifs at h with hchain
      · cases h
        exact .missing hfactor hchain
      · obtain ⟨refusal, hproduct, rfl⟩ := mapError_eq_error.1 h
        obtain ⟨before, link, after, acc, hsplit, hbefore, hover, rfl⟩ := product_eq_error_iff.1 hproduct
        exact .overflow before link after acc hfactor hsplit hbefore hover
    · rintro (⟨-, hchain⟩ | ⟨before, link, after, acc, -, hsplit, hbefore, hover⟩)
      · rw [if_pos hchain]
      · have hne : b.chain ≠ [] := by simp [hsplit]
        rw [if_neg hne, product_eq_error_iff.2 ⟨before, link, after, acc, hsplit, hbefore, hover, rfl⟩]
        rfl

/-- What a builder makes of what it holds. The causes are in the order in which they count: each one requires that
those before it do not hold. -/
inductive Makes (b : RateBuilder) : Except RateError ExchangeRate → Prop
  | noBase : b.base = none → Makes b (.error (.incomplete .base))
  | noTerm {base : Currency} : b.base = some base → b.term = none → Makes b (.error (.incomplete .term))
  | badEnds {base term : Currency} {cause : RateError} : b.base = some base → b.term = some term →
      BadEnds b.chain base term cause → Makes b (.error cause)
  | noFactor {base term : Currency} {cause : RateError} : b.base = some base → b.term = some term →
      StartsAt b.chain base → EndsAt b.chain term → b.Lacks cause → Makes b (.error cause)
  | noContext {base term : Currency} {factor : Decimal} : b.base = some base → b.term = some term →
      StartsAt b.chain base → EndsAt b.chain term → b.Chooses factor → b.context = none →
      Makes b (.error (.incomplete .context))
  | rate {base term : Currency} {factor : Decimal} {context : ConversionContext} :
      b.base = some base → b.term = some term → StartsAt b.chain base → EndsAt b.chain term → b.Chooses factor →
      b.context = some context →
      Makes b (.ok ⟨b.provider, b.rateType, base, term, factor, aggregate b.chain context, b.chain⟩)

theorem create_eq_error_iff {b : RateBuilder} {cause : RateError} :
    b.create = .error cause ↔
      b.base = none ∧ cause = .incomplete .base ∨ ∃ base, b.base = some base ∧
        (b.term = none ∧ cause = .incomplete .term ∨ ∃ term, b.term = some term ∧
          (BadEnds b.chain base term cause ∨ (StartsAt b.chain base ∧ EndsAt b.chain term) ∧
            (b.Lacks cause ∨ ∃ factor, b.Chooses factor ∧ b.context = none ∧ cause = .incomplete .context))) := by
  unfold create
  simp only [bind_eq_error, need_eq_ok_iff, need_eq_error_iff, Unique.exists_iff, PUnit.default_eq_unit,
    checkEnds_eq_ok_iff, checkEnds_eq_error_iff, chooseFactor_eq_ok_iff, chooseFactor_eq_error_iff, pure_ne_error,
    and_false, exists_false, or_false]

/-- A builder makes exactly one thing of what it holds. -/
theorem create_eq_iff {b : RateBuilder} {answer : Except RateError ExchangeRate} : b.create = answer ↔ b.Makes answer := by
  cases answer with
  | error cause =>
    rw [create_eq_error_iff]
    constructor
    · rintro (⟨hbase, rfl⟩ | ⟨base, hbase, ⟨hterm, rfl⟩ | ⟨term, hterm, hends | ⟨⟨hstart, hend⟩, hfactor⟩⟩⟩)
      · exact .noBase hbase
      · exact .noTerm hbase hterm
      · exact .badEnds hbase hterm hends
      · rcases hfactor with hfactor | ⟨factor, hfactor, hcontext, rfl⟩
        · exact .noFactor hbase hterm hstart hend hfactor
        · exact .noContext hbase hterm hstart hend hfactor hcontext
    · intro h
      cases h with
      | noBase hbase => exact .inl ⟨hbase, rfl⟩
      | noTerm hbase hterm => exact .inr ⟨_, hbase, .inl ⟨hterm, rfl⟩⟩
      | badEnds hbase hterm hends => exact .inr ⟨_, hbase, .inr ⟨_, hterm, .inl hends⟩⟩
      | noFactor hbase hterm hstart hend hfactor =>
        exact .inr ⟨_, hbase, .inr ⟨_, hterm, .inr ⟨⟨hstart, hend⟩, .inl hfactor⟩⟩⟩
      | noContext hbase hterm hstart hend hfactor hcontext =>
        exact .inr ⟨_, hbase, .inr ⟨_, hterm, .inr ⟨⟨hstart, hend⟩, .inr ⟨_, hfactor, hcontext, rfl⟩⟩⟩⟩
  | ok r =>
    rw [create_eq_ok_iff]
    simp only [checkEnds_eq_ok_iff, chooseFactor_eq_ok_iff]
    constructor
    · rintro ⟨base, term, factor, context, hbase, hterm, ⟨hstart, hend⟩, hfactor, hcontext, rfl⟩
      exact .rate hbase hterm hstart hend hfactor hcontext
    · rintro ⟨⟩
      exact ⟨_, _, _, _, ‹_›, ‹_›, ⟨‹_›, ‹_›⟩, ‹_›, ‹_›, rfl⟩

/-- Without a factor of its own, a builder makes a rate with the product of its chain, which is what the rate derives
from its chain. -/
theorem derivedFactor?_of_create {b : RateBuilder} {r : ExchangeRate} (hr : b.create = .ok r) (hfactor : b.factor = none) :
    r.derivedFactor? = some r.factor ∧ productValue? r.chain = some r.factor.value := by
  obtain ⟨base, term, factor, context, -, -, -, hchoose, -, rfl⟩ := create_eq_ok_iff.1 hr
  rcases chooseFactor_eq_ok_iff.1 hchoose with hown | ⟨-, hchain, hproduct⟩
  · cases hfactor.symm.trans hown
  · refine ⟨?_, ?_⟩
    · rw [ExchangeRate.derivedFactor?, if_neg (by simpa using hchain), hproduct]
      rfl
    · rw [← map_value_product, hproduct]
      rfl

/-! ### Sessions -/

/-- What is done with a builder: a call, or asking it for a rate. -/
inductive Action where
  | call (c : Call)
  | create

/-- The call of an action. -/
def Action.call? : Action → Option Call
  | call c => some c
  | create => none

/-- The calls among actions. -/
def callsOf (actions : List Action) : List Call :=
  actions.filterMap Action.call?

/-- The builder that is left of one after actions, and the answers that they got. -/
def session (b : RateBuilder) : List Action → RateBuilder × List (Except RateError ExchangeRate)
  | [] => (b, [])
  | .call c :: rest => session (b.after c) rest
  | .create :: rest => ((session b rest).1, b.create :: (session b rest).2)

theorem session_append (b : RateBuilder) (before after : List Action) :
    b.session (before ++ after) =
      (((b.session before).1.session after).1, (b.session before).2 ++ ((b.session before).1.session after).2) := by
  induction before generalizing b with
  | nil => rfl
  | cons action rest ih =>
    cases action with
    | call c => exact ih (b.after c)
    | create =>
      rw [List.cons_append, session, ih, session]
      rfl

/-- Only the calls count for what is left of a builder. -/
theorem session_fst (b : RateBuilder) (actions : List Action) : (b.session actions).1 = b.run (callsOf actions) := by
  induction actions generalizing b with
  | nil => rfl
  | cons action rest ih =>
    cases action with
    | call c => exact ih (b.after c)
    | create => exact ih b

/-- Wherever in a session a rate is asked for, the answer is what a builder makes that holds of each part what was
given last, and of the chains the last one that connects. The session goes on as if the rate had not been asked for.
If no factor was given, the rate has the product of its chain, and derives it again. -/
theorem session_create (start : Start) (before after : List Action) :
    (start.builder.session before).1 = start.builder.given (callsOf before) ∧
    ∃ answer,
      start.builder.session (before ++ .create :: after) =
        (((start.builder.given (callsOf before)).session after).1,
          (start.builder.session before).2 ++ answer :: ((start.builder.given (callsOf before)).session after).2) ∧
      (∀ other, (start.builder.given (callsOf before)).Makes other ↔ other = answer) ∧
      ∀ r, answer = .ok r → (start.builder.given (callsOf before)).factor = none →
        r.derivedFactor? = some r.factor ∧ productValue? r.chain = some r.factor.value := by
  have hleft : (start.builder.session before).1 = start.builder.given (callsOf before) := by
    rw [session_fst, run_eq_given]
  refine ⟨hleft, (start.builder.given (callsOf before)).create, ?_, fun other => ?_, fun r hr hfactor => ?_⟩
  · rw [session_append, hleft, session]
  · rw [← create_eq_iff, eq_comm]
  · exact derivedFactor?_of_create hr hfactor

/-- Calls for a rate from euros to dollars and back. The second base counts, and the second chain does not. -/
def thereAndBack : List Call :=
  [.setChain [.direct .euro .dollar, .direct .dollar .euro], .setBase .dollar, .setBase .euro, .setTerm .euro,
    .setChain [.direct .euro .dollar, .direct .euro .dollar]]

/-- Asked for twice, the rate is the same. -/
theorem session_create_there_and_back :
    ∃ r : ExchangeRate,
      ((Start.ofProvider "" .any).builder.session (thereAndBack.map .call ++ [.create, .create])).2 = [.ok r, .ok r] ∧
      r.chain = [.direct .euro .dollar, .direct .dollar .euro] ∧ r.derivedFactor? = some r.factor := by
  have hcreate : ((Start.ofProvider "" .any).builder.given thereAndBack).create =
      .ok ⟨"", .any, .euro, .euro, .one, { provider := "", rateType := .any },
        [.direct .euro .dollar, .direct .dollar .euro]⟩ := by rfl
  obtain ⟨-, answer, hsession, hmakes, hderived⟩ :=
    session_create (.ofProvider "" .any) (thereAndBack.map .call ++ [.create]) []
  have hanswer := (hmakes _).1 (create_eq_iff.1 hcreate)
  refine ⟨_, ?_, rfl, (hderived _ hanswer.symm rfl).1⟩
  rw [← List.singleton_append, ← List.append_assoc, hsession, ← hanswer]
  rfl

end RateBuilder

end Coinage
