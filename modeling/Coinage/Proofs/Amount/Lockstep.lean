import Coinage.Proofs.Amount.FastProducts
import Coinage.Proofs.Decimal.Digits
import Coinage.Proofs.Decimal.Normal
/-!
# Runs in lockstep

Sums, differences and changes of sign lead from whole numbers of units to whole numbers of units. As long as
those stay in the range of 64 bits, a decimal holds each of them with at most five fractional digits and at
most nineteen digits in all (`HoldsUnits`). So no decimal on the way is rounded, not even to a context of
nineteen digits, and the three representations show one value, one sign and one text. `TracksUnits` says what
that takes of a representation, and `TracksUnits.run` is the induction over a run.
-/

namespace Coinage

open Decimal

/-- An operation that leads from units to units. -/
inductive UnitStep where
  | add (b : FastMoney)
  | subtract (b : FastMoney)
  | negate
  | abs

namespace UnitStep

/-- Whether the operand, if there is one, is of a given currency. -/
def InCurrency (c : Currency) : UnitStep → Prop
  | add b | subtract b => b.currency.code = c.code
  | negate | abs => True

theorem InCurrency.of_code_eq {c c' : Currency} {s : UnitStep} (h : s.InCurrency c) (hc : c.code = c'.code) :
    s.InCurrency c' := by
  cases s with
  | add b | subtract b => exact Eq.trans h hc
  | negate | abs => trivial

/-- The exact number of units behind a step. -/
def exact (n : ℤ) : UnitStep → ℤ
  | add b => n + b.units
  | subtract b => n - b.units
  | negate => -n
  | abs => |n|

variable {α : Type} [MonetaryAmount α]

/-- The step in a representation into which `convert` takes the operand. -/
def apply (convert : FastMoney → Outcome α) (a : α) : UnitStep → Outcome α
  | add b => do MonetaryAmount.add a (← convert b)
  | subtract b => do MonetaryAmount.subtract a (← convert b)
  | negate => MonetaryAmount.negate a
  | abs => MonetaryAmount.abs a

/-- A run of steps from an amount on. -/
def run (convert : FastMoney → Outcome α) (a : FastMoney) (steps : List UnitStep) : Outcome α := do
  steps.foldlM (apply convert) (← convert a)

/-- The exact number of units behind a run. -/
def exactRun (n : ℤ) (steps : List UnitStep) : ℤ :=
  steps.foldl exact n

end UnitStep

/-! ### Decimals that hold units -/

/-- A decimal that holds a number of units, without more fractional digits than units have. -/
structure HoldsUnits (n : ℤ) (d : Decimal) : Prop where
  value_eq : d.value = n / 10 ^ FastMoney.scale
  scale_le : d.scale ≤ FastMoney.scale

namespace HoldsUnits

variable {n k : ℤ} {a b : Decimal}

theorem number (a : FastMoney) : HoldsUnits a.units a.number :=
  ⟨FastMoney.number_value a, scale_normalize_le a.padded⟩

theorem unsigned (h : HoldsUnits n a) : HoldsUnits n a.unsigned :=
  ⟨h.value_eq, h.scale_le⟩

theorem neg (h : HoldsUnits n a) : HoldsUnits (-n) a.neg :=
  ⟨by rw [value_neg, h.value_eq, Int.cast_neg, neg_div], h.scale_le⟩

theorem representable (hn : FastMoney.InRange n) : Representable (n / 10 ^ FastMoney.scale) := by
  refine ⟨ofDigits n FastMoney.scale ⟨?_, by decide⟩, rfl⟩
  unfold FastMoney.InRange at hn
  simp only [capacity]
  omega

/-- Units in range are not rounded by an operation that rounds to the nearest decimal. -/
theorem of_rounds {x : ℚ} {o : Outcome Decimal} (ho : Rounds x o) (hx : x = n / 10 ^ FastMoney.scale)
    (hn : FastMoney.InRange n) (hscale : ∀ d, o = .ok d → d.scale ≤ FastMoney.scale) :
    ∃ d, o = .ok d ∧ HoldsUnits n d := by
  obtain ⟨d, hd, hvalue⟩ := ho.exists_ok (hx ▸ representable hn)
  exact ⟨d, hd, hvalue.trans hx, hscale d hd⟩

theorem sum (ha : HoldsUnits n a) (hb : HoldsUnits k b) (h : FastMoney.InRange (n + k)) :
    ∃ d, a.sum b = .ok d ∧ HoldsUnits (n + k) d := by
  refine of_rounds (rounds_sum a b) ?_ h fun d hd => (scale_sum_le hd).trans (max_le ha.scale_le hb.scale_le)
  rw [ha.value_eq, hb.value_eq, Int.cast_add, add_div]

theorem difference (ha : HoldsUnits n a) (hb : HoldsUnits k b) (h : FastMoney.InRange (n - k)) :
    ∃ d, a.difference b = .ok d ∧ HoldsUnits (n - k) d := by
  refine of_rounds (rounds_difference a b) ?_ h fun d hd => (scale_difference_le hd).trans (max_le ha.scale_le hb.scale_le)
  rw [ha.value_eq, hb.value_eq, Int.cast_sub, sub_div]

/-- Units of 64 bits have at most nineteen digits. -/
theorem precision_le (h : HoldsUnits n a) (hn : FastMoney.InRange n) : a.precision ≤ 19 := by
  have hunits : a.mantissa * 10 ^ (FastMoney.scale - a.scale) = n := by
    have := unitsAt_eq a h.scale_le
    rw [h.value_eq, div_mul_cancel₀ _ (by positivity)] at this
    exact_mod_cast this
  have hle : a.mantissa.natAbs ≤ n.natAbs := by
    rw [← hunits, Int.natAbs_mul]
    exact Nat.le_mul_of_pos_right _ (Int.natAbs_pos.2 (by positivity))
  unfold FastMoney.InRange at hn
  refine digitCount_le (by decide) (hle.trans_lt ?_)
  norm_num
  omega

end HoldsUnits

/-! ### Representations that hold units -/

/-- What it takes to keep up with units: amounts that hold a number of units, of the currency of the run, are
led to such amounts. -/
structure TracksUnits {α : Type} [MonetaryAmount α] (c : Currency) (convert : FastMoney → Outcome α)
    (Holds : ℤ → α → Prop) : Prop where
  value_eq {n : ℤ} {a : α} : Holds n a → (MonetaryAmount.number a).value = n / 10 ^ FastMoney.scale
  converted {b : FastMoney} : b.currency.code = c.code → ∃ a, convert b = .ok a ∧ Holds b.units a
  add {n k : ℤ} {a b : α} : Holds n a → Holds k b → FastMoney.InRange (n + k) →
    ∃ r, MonetaryAmount.add a b = .ok r ∧ Holds (n + k) r
  subtract {n k : ℤ} {a b : α} : Holds n a → Holds k b → FastMoney.InRange (n - k) →
    ∃ r, MonetaryAmount.subtract a b = .ok r ∧ Holds (n - k) r
  negate {n : ℤ} {a : α} : Holds n a → FastMoney.InRange (-n) →
    ∃ r, MonetaryAmount.negate a = .ok r ∧ Holds (-n) r

namespace TracksUnits

open UnitStep

variable {α : Type} [MonetaryAmount α] {c : Currency} {convert : FastMoney → Outcome α} {Holds : ℤ → α → Prop}

theorem isPositiveOrZero_iff (h : TracksUnits c convert Holds) {n : ℤ} {a : α} (ha : Holds n a) :
    MonetaryAmount.isPositiveOrZero a = true ↔ 0 ≤ n := by
  rw [MonetaryAmount.isPositiveOrZero, decide_eq_true_iff, MonetaryAmount.signum, signum_nonneg_iff, h.value_eq ha,
    le_div_iff₀ (by positivity), zero_mul, Int.cast_nonneg_iff]

/-- One step that stays in range keeps up with the units. -/
theorem step (h : TracksUnits c convert Holds) {n : ℤ} {a : α} {s : UnitStep} (ha : Holds n a) (hs : s.InCurrency c)
    (hrange : FastMoney.InRange (s.exact n)) : ∃ r, s.apply convert a = .ok r ∧ Holds (s.exact n) r := by
  cases s with
  | add b =>
    obtain ⟨x, hx, hb⟩ := h.converted hs
    obtain ⟨r, hr, hholds⟩ := h.add ha hb hrange
    exact ⟨r, by rw [apply, hx, ok_bind, hr], hholds⟩
  | subtract b =>
    obtain ⟨x, hx, hb⟩ := h.converted hs
    obtain ⟨r, hr, hholds⟩ := h.subtract ha hb hrange
    exact ⟨r, by rw [apply, hx, ok_bind, hr], hholds⟩
  | negate => exact h.negate ha hrange
  | abs =>
    unfold apply MonetaryAmount.abs
    rcases le_or_gt 0 n with hn | hn
    · rw [if_pos ((h.isPositiveOrZero_iff ha).2 hn), UnitStep.exact, abs_of_nonneg hn]
      exact ⟨a, rfl, ha⟩
    · rw [if_neg (by rw [h.isPositiveOrZero_iff ha]; omega), UnitStep.exact, abs_of_neg hn]
      rw [UnitStep.exact, abs_of_neg hn] at hrange
      exact h.negate ha hrange

theorem foldlM (h : TracksUnits c convert Holds) (steps : List UnitStep) {n : ℤ} {a : α} (ha : Holds n a)
    (hs : ∀ s ∈ steps, s.InCurrency c) (hrange : ∀ before, before <+: steps → FastMoney.InRange (exactRun n before)) :
    ∃ r, steps.foldlM (apply convert) a = .ok r ∧ Holds (exactRun n steps) r := by
  induction steps generalizing n a with
  | nil => exact ⟨a, rfl, ha⟩
  | cons s rest ih =>
    obtain ⟨b, hb, hholds⟩ := h.step ha (hs s List.mem_cons_self) (hrange [s] ⟨rest, rfl⟩)
    obtain ⟨r, hr, hr'⟩ := ih hholds (fun t ht => hs t (List.mem_cons_of_mem s ht)) fun before hbefore =>
      hrange (s :: before) ((List.cons_prefix_cons).2 ⟨rfl, hbefore⟩)
    exact ⟨r, by rw [List.foldlM_cons, hb, ok_bind, hr], hr'⟩

/-- A run whose exact results all stay in range keeps up with the units. -/
theorem run (h : TracksUnits c convert Holds) {a : FastMoney} {steps : List UnitStep} (ha : a.currency.code = c.code)
    (hs : ∀ s ∈ steps, s.InCurrency c)
    (hrange : ∀ before, before <+: steps → FastMoney.InRange (exactRun a.units before)) :
    ∃ r, UnitStep.run convert a steps = .ok r ∧ Holds (exactRun a.units steps) r := by
  obtain ⟨x, hx, hholds⟩ := h.converted ha
  obtain ⟨r, hr, hr'⟩ := h.foldlM steps hholds hs hrange
  exact ⟨r, by rw [UnitStep.run, hx, ok_bind, hr], hr'⟩

end TracksUnits

/-! ### The three representations -/

namespace FastMoney

/-- An amount of a currency that counts a number of units. -/
structure Holds (c : Currency) (n : ℤ) (a : FastMoney) : Prop where
  code_eq : a.currency.code = c.code
  units_eq : a.units = n

theorem exists_ofUnits {c : Currency} {n : ℤ} {a : FastMoney} (ha : a.currency.code = c.code) (hn : InRange n)
    (expression : String) : ∃ r, ofUnits a.currency n expression = .ok r ∧ Holds c n r :=
  ⟨_, ofUnits_eq_ok a.currency hn expression, ha, rfl⟩

theorem tracksUnits (c : Currency) : TracksUnits c Except.ok (Holds c) where
  value_eq {n a} h := by rw [← h.units_eq]; exact number_value a
  converted {b} hb := ⟨b, rfl, hb, rfl⟩
  add {n k a b} ha hb hrange := by
    change ∃ r, FastMoney.add a b = .ok r ∧ _
    rw [FastMoney.add, checkCurrency_eq_ok (ha.code_eq.trans hb.code_eq.symm), ok_bind, ha.units_eq, hb.units_eq]
    exact exists_ofUnits ha.code_eq hrange _
  subtract {n k a b} ha hb hrange := by
    change ∃ r, FastMoney.subtract a b = .ok r ∧ _
    rw [FastMoney.subtract, checkCurrency_eq_ok (ha.code_eq.trans hb.code_eq.symm), ok_bind, ha.units_eq, hb.units_eq]
    exact exists_ofUnits ha.code_eq hrange _
  negate {n a} ha hrange := by
    change ∃ r, FastMoney.negate a = .ok r ∧ _
    rw [FastMoney.negate, ha.units_eq]
    exact exists_ofUnits ha.code_eq hrange _

/-- A step out of the range is an overflow. -/
theorem step_eq_overflow {a : FastMoney} {s : UnitStep} (hs : s.InCurrency a.currency)
    (hrange : ¬ InRange (s.exact a.units)) : ∃ expression, s.apply Except.ok a = .error (.overflow expression) := by
  cases s with
  | add b =>
    refine ⟨s!"{a} + {b}", ?_⟩
    change FastMoney.add a b = _
    have hrange' : ¬ InRange (a.units + b.units) := hrange
    rw [FastMoney.add, checkCurrency_eq_ok hs.symm, ok_bind, ofUnits_eq_error _ hrange']
  | subtract b =>
    refine ⟨s!"{a} - {b}", ?_⟩
    change FastMoney.subtract a b = _
    have hrange' : ¬ InRange (a.units - b.units) := hrange
    rw [FastMoney.subtract, checkCurrency_eq_ok hs.symm, ok_bind, ofUnits_eq_error _ hrange']
  | negate => exact ⟨_, ofUnits_eq_error _ hrange _⟩
  | abs =>
    have hsign := (tracksUnits a.currency).isPositiveOrZero_iff (n := a.units) (a := a) ⟨rfl, rfl⟩
    rcases le_or_gt 0 a.units with hn | hn
    · rw [UnitStep.exact, abs_of_nonneg hn] at hrange
      exact absurd (inRange_units a) hrange
    · rw [UnitStep.exact, abs_of_neg hn] at hrange
      refine ⟨s!"-({a})", ?_⟩
      change MonetaryAmount.abs a = _
      rw [MonetaryAmount.abs, if_neg (by rw [hsign]; omega)]
      exact ofUnits_eq_error _ hrange _

/-- A step succeeds only in range. -/
theorem step_eq_ok {c : Currency} {n : ℤ} {a f : FastMoney} {s : UnitStep} (ha : Holds c n a) (hs : s.InCurrency c)
    (h : s.apply Except.ok a = .ok f) : InRange (s.exact n) ∧ Holds c (s.exact n) f := by
  have hrange : InRange (s.exact n) := by
    by_contra hrange
    rw [← ha.units_eq] at hrange
    obtain ⟨expression, herror⟩ := step_eq_overflow (hs.of_code_eq ha.code_eq.symm) hrange
    rw [herror] at h
    cases h
  obtain ⟨r, hr, hholds⟩ := (tracksUnits c).step ha hs hrange
  rw [h] at hr
  cases hr
  exact ⟨hrange, hholds⟩

theorem foldlM_eq_ok {c : Currency} {n : ℤ} {a f : FastMoney} {steps : List UnitStep} (ha : Holds c n a)
    (hs : ∀ s ∈ steps, s.InCurrency c) (h : steps.foldlM (UnitStep.apply Except.ok) a = .ok f) :
    (∀ before, before <+: steps → InRange (UnitStep.exactRun n before)) ∧ Holds c (UnitStep.exactRun n steps) f := by
  have hn : InRange n := ha.units_eq ▸ inRange_units a
  induction steps generalizing n a with
  | nil =>
    cases h
    refine ⟨fun before hbefore => ?_, ha⟩
    rwa [List.prefix_nil.1 hbefore]
  | cons s rest ih =>
    rw [List.foldlM_cons] at h
    obtain ⟨b, hb, hrest⟩ := bind_eq_ok.1 h
    obtain ⟨hrange, hholds⟩ := step_eq_ok ha (hs s List.mem_cons_self) hb
    obtain ⟨hprefixes, hf⟩ := ih hholds (fun t ht => hs t (List.mem_cons_of_mem s ht)) hrest hrange
    refine ⟨fun before hbefore => ?_, hf⟩
    rcases List.prefix_cons_iff.1 hbefore with rfl | ⟨others, rfl, hothers⟩
    · exact hn
    · exact hprefixes others hothers

/-- A run succeeds just where all its exact results are in range, and then holds the last of them. -/
theorem run_eq_ok {a f : FastMoney} {steps : List UnitStep} (hs : ∀ s ∈ steps, s.InCurrency a.currency)
    (h : UnitStep.run Except.ok a steps = .ok f) :
    (∀ before, before <+: steps → InRange (UnitStep.exactRun a.units before)) ∧
      Holds a.currency (UnitStep.exactRun a.units steps) f :=
  foldlM_eq_ok ⟨rfl, rfl⟩ hs h

/-- A run fails at a step that leaves the range, with an overflow. -/
theorem run_eq_error {a : FastMoney} {steps : List UnitStep} {cause : AmountError}
    (hs : ∀ s ∈ steps, s.InCurrency a.currency) (h : UnitStep.run Except.ok a steps = .error cause) :
    ∃ before step after f, steps = before ++ step :: after ∧ UnitStep.run Except.ok a before = .ok f ∧
      ¬ InRange (step.exact f.units) ∧ step.apply Except.ok f = .error cause ∧
      ∃ expression, cause = .overflow expression := by
  obtain ⟨before, step, after, f, rfl, hbefore, hfails⟩ := foldlM_eq_error.1 h
  have hf := (run_eq_ok (fun s hs' => hs s (List.mem_append_left _ hs')) hbefore).2
  have hstep : step.InCurrency f.currency :=
    (hs step (List.mem_append_right _ List.mem_cons_self)).of_code_eq hf.code_eq.symm
  have hrange : ¬ InRange (step.exact f.units) := fun hrange => by
    obtain ⟨r, hr, -⟩ := (tracksUnits f.currency).step (n := f.units) ⟨rfl, rfl⟩ hstep hrange
    rw [hr] at hfails
    cases hfails
  obtain ⟨expression, hoverflow⟩ := step_eq_overflow hstep hrange
  rw [hoverflow] at hfails
  cases hfails
  exact ⟨before, step, after, f, rfl, hbefore, hrange, hoverflow, expression, rfl⟩

end FastMoney

/-- Money of a currency whose number holds a number of units. -/
structure Money.Holds (c : Currency) (n : ℤ) (a : Money) : Prop where
  code_eq : a.currency.code = c.code
  number_holds : HoldsUnits n a.number

theorem Money.tracksUnits (c : Currency) :
    TracksUnits c (fun a => .ok (MonetaryAmount.toMoney a)) (Money.Holds c) where
  value_eq h := h.number_holds.value_eq
  converted {b} hb := ⟨_, rfl, hb, HoldsUnits.unsigned (.number b)⟩
  add {n k a b} ha hb hrange := by
    obtain ⟨d, hd, hholds⟩ := ha.number_holds.sum hb.number_holds hrange
    refine ⟨a.withNumber d, ?_, ha.code_eq, hholds.unsigned⟩
    change Money.add a b = _
    rw [Money.add, checkCurrency_eq_ok (ha.code_eq.trans hb.code_eq.symm), ok_bind, hd]
    rfl
  subtract {n k a b} ha hb hrange := by
    obtain ⟨d, hd, hholds⟩ := ha.number_holds.difference hb.number_holds hrange
    refine ⟨a.withNumber d, ?_, ha.code_eq, hholds.unsigned⟩
    change Money.subtract a b = _
    rw [Money.subtract, checkCurrency_eq_ok (ha.code_eq.trans hb.code_eq.symm), ok_bind, hd]
    rfl
  negate {n a} ha hrange := ⟨_, rfl, ha.code_eq, ha.number_holds.neg.unsigned⟩

/-- A rounded amount of a currency and a context, with no rounding pending, whose number holds a number of
units. -/
structure RoundedMoney.Holds (c : Currency) (context : MathContext) (n : ℤ) (a : RoundedMoney) : Prop where
  code_eq : a.currency.code = c.code
  context_eq : a.context = context
  pending_eq : a.pending = none
  number_holds : HoldsUnits n a.number

namespace RoundedMoney

variable {c : Currency} {context : MathContext} (hcontext : context.precision = 0 ∨ 19 ≤ context.precision)

include hcontext

/-- A context of nineteen digits leaves units as they are, whatever its mode. -/
theorem roundToPrecision_units {n : ℤ} {d : Decimal} (h : HoldsUnits n d) (hn : FastMoney.InRange n) :
    d.roundToPrecision context = .ok d := by
  apply roundToPrecision_eq_self
  rcases hcontext with h₀ | h₁₉
  · left
    rw [MathContext.isUnlimited, h₀]
    rfl
  · exact Or.inr ((h.precision_le hn).trans h₁₉)

theorem finish_units {n k : ℤ} {a : RoundedMoney} {d : Decimal} (ha : Holds c context k a) (h : HoldsUnits n d)
    (hn : FastMoney.InRange n) : ∃ r, a.finish d = .ok r ∧ Holds c context n r := by
  have hround : d.roundToPrecision a.context = .ok d := by
    rw [ha.context_eq]
    exact roundToPrecision_units hcontext h hn
  exact ⟨_, (finish_eq_ok_of_pending_none ha.pending_eq).2 ⟨d, hround, rfl⟩, ha.code_eq, ha.context_eq, ha.pending_eq,
    h.unsigned⟩

theorem tracksUnits (c : Currency) :
    TracksUnits c (fun a => MonetaryAmount.toRounded a context) (Holds c context) where
  value_eq h := h.number_holds.value_eq
  converted {b} hb := by
    have hblank : Holds c context 0 { currency := b.currency, context := context, number := .zero } :=
      ⟨hb, rfl, rfl, ⟨by simp, Nat.zero_le _⟩⟩
    exact finish_units hcontext hblank (.number b) (FastMoney.inRange_units b)
  add {n k a b} ha hb hrange := by
    obtain ⟨d, hd, hholds⟩ := ha.number_holds.sum hb.number_holds hrange
    obtain ⟨r, hr, hr'⟩ := finish_units hcontext ha hholds hrange
    refine ⟨r, ?_, hr'⟩
    change RoundedMoney.add a b = _
    rw [RoundedMoney.add, checkCurrency_eq_ok (ha.code_eq.trans hb.code_eq.symm), ok_bind, hd, ok_bind, hr]
  subtract {n k a b} ha hb hrange := by
    obtain ⟨d, hd, hholds⟩ := ha.number_holds.difference hb.number_holds hrange
    obtain ⟨r, hr, hr'⟩ := finish_units hcontext ha hholds hrange
    refine ⟨r, ?_, hr'⟩
    change RoundedMoney.subtract a b = _
    rw [RoundedMoney.subtract, checkCurrency_eq_ok (ha.code_eq.trans hb.code_eq.symm), ok_bind, hd, ok_bind, hr]
  negate {n a} ha hrange := finish_units hcontext ha ha.number_holds.neg hrange

end RoundedMoney

/-! ### What the runs show -/

/-- How every amount is written: the number without superfluous zeros, and the code. -/
def writtenAmount (c : Currency) (d : Decimal) : String :=
  s!"{d.normalize} {c}"

theorem writtenAmount_congr {c c' : Currency} {d d' : Decimal} (hc : c.code = c'.code) (hd : d.value = d'.value) :
    writtenAmount c d = writtenAmount c' d' := by
  have hcode : toString c = toString c' := hc
  rw [writtenAmount, writtenAmount, normalize_eq_of_value_eq hd, hcode]

theorem FastMoney.toString_eq (a : FastMoney) : toString a = writtenAmount a.currency a.number := by
  rw [writtenAmount, FastMoney.number, normalize_normalize]
  rfl

/-- Two amounts of one value, one sign and one text, neither of which comes before the other. -/
structure Alike {α β : Type} [MonetaryAmount α] [MonetaryAmount β] [ToString α] [ToString β] (a : α) (b : β) : Prop where
  value_eq : (MonetaryAmount.number a).value = (MonetaryAmount.number b).value
  signum_eq : MonetaryAmount.signum a = MonetaryAmount.signum b
  text_eq : toString a = toString b
  compareTo_eq : MonetaryAmount.compareTo a b = .eq

theorem alike_of_value_eq {α β : Type} [MonetaryAmount α] [MonetaryAmount β] [ToString α] [ToString β] {a : α} {b : β}
    (hcode : (MonetaryAmount.currency a).code = (MonetaryAmount.currency b).code)
    (hvalue : (MonetaryAmount.number a).value = (MonetaryAmount.number b).value)
    (ha : toString a = writtenAmount (MonetaryAmount.currency a) (MonetaryAmount.number a))
    (hb : toString b = writtenAmount (MonetaryAmount.currency b) (MonetaryAmount.number b)) : Alike a b := by
  refine ⟨hvalue, signum_eq_of_value_eq hvalue, ?_, ?_⟩
  · rw [ha, hb, writtenAmount_congr hcode hvalue]
  · have hsame : (MonetaryAmount.currency a).compare (MonetaryAmount.currency b) = .eq := by
      rw [Currency.compare, hcode]
      simp [compareOfLessAndEq]
    rw [MonetaryAmount.compareTo, hsame, compare_eq_compare_value, compare_eq_iff_eq.2 hvalue]
    rfl

/-- The three representations run in lockstep. As long as the run in units has not failed, it holds the exact
number of units, money and rounded amounts have not failed either, under no bound or one of nineteen digits
and more, and all three are alike. The run in units fails just at the first step whose exact result leaves
the range, with an overflow. -/
theorem representations_in_lockstep (a : FastMoney) (steps : List UnitStep) (context : MathContext)
    (hcontext : context.precision = 0 ∨ 19 ≤ context.precision) (hs : ∀ s ∈ steps, s.InCurrency a.currency) :
    ((∃ f, UnitStep.run Except.ok a steps = .ok f) ↔
      ∀ before, before <+: steps → FastMoney.InRange (UnitStep.exactRun a.units before)) ∧
    (∀ f, UnitStep.run Except.ok a steps = .ok f →
      f.units = UnitStep.exactRun a.units steps ∧
        ∃ m r, UnitStep.run (fun x => .ok (MonetaryAmount.toMoney x)) a steps = .ok m ∧
          UnitStep.run (fun x => MonetaryAmount.toRounded x context) a steps = .ok r ∧
          Alike f m ∧ Alike f r ∧ Alike m r) ∧
    (∀ cause, UnitStep.run Except.ok a steps = .error cause →
      ∃ before step after f, steps = before ++ step :: after ∧ UnitStep.run Except.ok a before = .ok f ∧
        ¬ FastMoney.InRange (step.exact f.units) ∧ step.apply Except.ok f = .error cause ∧
        ∃ expression, cause = .overflow expression) := by
  refine ⟨⟨?_, ?_⟩, ?_, fun cause h => FastMoney.run_eq_error hs h⟩
  · rintro ⟨f, h⟩
    exact (FastMoney.run_eq_ok hs h).1
  · intro hrange
    obtain ⟨f, hf, -⟩ := (FastMoney.tracksUnits a.currency).run rfl hs hrange
    exact ⟨f, hf⟩
  · intro f h
    obtain ⟨hrange, hf⟩ := FastMoney.run_eq_ok hs h
    obtain ⟨m, hm, hm'⟩ := (Money.tracksUnits a.currency).run rfl hs hrange
    obtain ⟨r, hr, hr'⟩ := (RoundedMoney.tracksUnits hcontext a.currency).run rfl hs hrange
    have hfast := (FastMoney.tracksUnits a.currency).value_eq hf
    have hmoney := (Money.tracksUnits a.currency).value_eq hm'
    have hrounded := (RoundedMoney.tracksUnits hcontext a.currency).value_eq hr'
    refine ⟨hf.units_eq, m, r, hm, hr, ?_, ?_, ?_⟩
    · exact alike_of_value_eq (hf.code_eq.trans hm'.code_eq.symm) (hfast.trans hmoney.symm) f.toString_eq rfl
    · exact alike_of_value_eq (hf.code_eq.trans hr'.code_eq.symm) (hfast.trans hrounded.symm) f.toString_eq rfl
    · exact alike_of_value_eq (hm'.code_eq.trans hr'.code_eq.symm) (hmoney.trans hrounded.symm) rfl rfl

/-- From the smallest amount up by one unit and to the other sign: the largest amount, in all three
representations. One unit more overflows. -/
theorem representations_in_lockstep_smallest :
    (∃ f m r, UnitStep.run Except.ok (.min .euro) [.add ⟨.euro, 1, by decide, by decide⟩, .negate] = .ok f ∧
      UnitStep.run (fun x => .ok (MonetaryAmount.toMoney x)) (.min .euro)
        [.add ⟨.euro, 1, by decide, by decide⟩, .negate] = .ok m ∧
      UnitStep.run (fun x => MonetaryAmount.toRounded x ⟨19, .unnecessary⟩) (.min .euro)
        [.add ⟨.euro, 1, by decide, by decide⟩, .negate] = .ok r ∧
      f.units = 2 ^ 63 - 1 ∧ Alike f m ∧ Alike f r ∧ Alike m r) ∧
    ¬ ∃ f, UnitStep.run Except.ok (.min .euro) [.add ⟨.euro, 1, by decide, by decide⟩, .negate,
      .add ⟨.euro, 1, by decide, by decide⟩] = .ok f := by
  constructor
  · have h := (representations_in_lockstep (.min .euro) [.add ⟨.euro, 1, by decide, by decide⟩, .negate]
      ⟨19, .unnecessary⟩ (Or.inr le_rfl) (by simp [UnitStep.InCurrency, FastMoney.min])).2.1
      ⟨.euro, 2 ^ 63 - 1, by decide, by decide⟩ (by rfl)
    obtain ⟨hunits, m, r, hm, hr, hfm, hfr, hmr⟩ := h
    exact ⟨_, m, r, rfl, hm, hr, rfl, hfm, hfr, hmr⟩
  · have h := (representations_in_lockstep (.min .euro) [.add ⟨.euro, 1, by decide, by decide⟩, .negate,
      .add ⟨.euro, 1, by decide, by decide⟩] ⟨19, .unnecessary⟩ (Or.inr le_rfl)
      (by simp [UnitStep.InCurrency, FastMoney.min])).1
    rw [h]
    intro hrange
    exact absurd (hrange _ List.prefix_rfl).2 (by decide)

end Coinage
