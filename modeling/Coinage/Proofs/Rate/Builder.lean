import Coinage.Proofs.Amount.Basic
import Coinage.Rate.Builder
import Mathlib.Data.List.Chain
/-!
# Runs of a builder

Calls bring a builder from one state to the next. A chain whose links do not connect is refused with the
number of the first link that does not, and leaves the builder as it is. `RateBuilder.create_eq_ok_iff` says
once what a rate is made of.
-/

namespace Coinage

namespace RateChain

/-- Whether each link starts where the one before it ends. -/
def Connected (chain : List ExchangeRate) : Prop :=
  chain.IsChain fun a b => a.term.code = b.base.code

/-- Whether a chain comes apart first between the link `i`, which is `a`, and the next one, which is `b`. -/
structure BreaksBetween (chain : List ExchangeRate) (i : ℕ) (a b : ExchangeRate) : Prop where
  left_eq : chain[i]? = some a
  right_eq : chain[i + 1]? = some b
  connected_before : Connected (chain.take (i + 1))
  apart : a.term.code ≠ b.base.code

theorem BreaksBetween.cons {c first : ExchangeRate} {rest : List ExchangeRate} {i : ℕ} {a b : ExchangeRate}
    (h : BreaksBetween (first :: rest) i a b) (hc : c.term.code = first.base.code) :
    BreaksBetween (c :: first :: rest) (i + 1) a b where
  left_eq := h.left_eq
  right_eq := h.right_eq
  connected_before := List.isChain_cons_cons.2 ⟨hc, h.connected_before⟩
  apart := h.apart

theorem checkLinksFrom_eq_ok_iff (chain : List ExchangeRate) (link : ℕ) :
    checkLinksFrom link chain = .ok () ↔ Connected chain := by
  induction chain generalizing link with
  | nil => exact iff_of_true rfl List.isChain_nil
  | cons a rest ih =>
    cases rest with
    | nil => exact iff_of_true rfl (List.isChain_singleton a)
    | cons b rest =>
      unfold checkLinksFrom Connected
      rw [List.isChain_cons_cons]
      split
      case isTrue h => exact (ih (link + 1)).trans (and_iff_right (Currency.beq_iff.1 h)).symm
      case isFalse h =>
        rw [Currency.beq_iff] at h
        exact iff_of_false (fun hno => nomatch hno) (fun hno => h hno.1)

theorem checkLinks_eq_ok_iff {chain : List ExchangeRate} : checkLinks chain = .ok () ↔ Connected chain :=
  checkLinksFrom_eq_ok_iff chain 0

theorem breaksBetween_of_checkLinksFrom {chain : List ExchangeRate} {link : ℕ} {cause : RateError}
    (h : checkLinksFrom link chain = .error cause) :
    ∃ i a b, BreaksBetween chain i a b ∧
      cause = .invalidChain (link + i + 1) (.disconnected a.term.code b.base.code) := by
  induction chain generalizing link with
  | nil => cases h
  | cons a rest ih =>
    cases rest with
    | nil => cases h
    | cons b rest =>
      unfold checkLinksFrom at h
      split at h
      case isTrue hab =>
        obtain ⟨i, c, d, hbreak, rfl⟩ := ih h
        refine ⟨i + 1, c, d, hbreak.cons (Currency.beq_iff.1 hab), ?_⟩
        rw [Nat.add_right_comm link 1 i, Nat.add_assoc link i 1]
      case isFalse hab =>
        cases h
        exact ⟨0, a, b, ⟨rfl, rfl, List.isChain_singleton a, mt Currency.beq_iff.2 hab⟩, rfl⟩

/-- A chain, if it has links, starts at a base and ends at a term. -/
structure Leads (chain : List ExchangeRate) (base term : Currency) : Prop where
  connected : Connected chain
  starts : ∀ first ∈ chain.head?, first.base.code = base.code
  ends : ∀ last ∈ chain.getLast?, last.term.code = term.code

/-- Whether a chain, if it has links, starts at a base. -/
def StartsAt (chain : List ExchangeRate) (base : Currency) : Prop :=
  ∀ first ∈ chain.head?, first.base.code = base.code

/-- Whether a chain, if it has links, ends at a term. -/
def EndsAt (chain : List ExchangeRate) (term : Currency) : Prop :=
  ∀ last ∈ chain.getLast?, last.term.code = term.code

/-- What is wrong with the ends of a chain: first its start counts, then its end. -/
inductive BadEnds (chain : List ExchangeRate) (base term : Currency) : RateError → Prop
  | start (first : ExchangeRate) : chain.head? = some first → first.base.code ≠ base.code →
      BadEnds chain base term (.invalidChain 0 (.wrongStart first.base.code base.code))
  | finish (last : ExchangeRate) : StartsAt chain base → chain.getLast? = some last → last.term.code ≠ term.code →
      BadEnds chain base term (.invalidChain (chain.length - 1) (.wrongEnd last.term.code term.code))

/-- The ends of a chain that has links are compared with base and term, the start before the end. -/
theorem checkEnds_of_ends {chain : List ExchangeRate} {base term : Currency} {first last : ExchangeRate}
    (hfirst : chain.head? = some first) (hlast : chain.getLast? = some last) :
    checkEnds chain base term =
      if first.base.code = base.code then
        if last.term.code = term.code then .ok ()
        else .error (.invalidChain (chain.length - 1) (.wrongEnd last.term.code term.code))
      else .error (.invalidChain 0 (.wrongStart first.base.code base.code)) := by
  unfold checkEnds
  rw [hfirst, hlast]
  by_cases hstart : first.base.code = base.code
  · by_cases hend : last.term.code = term.code
    · simp only [Currency.beq_iff.2 hstart, Currency.beq_iff.2 hend, if_pos hstart, if_pos hend, Bool.not_true,
        Bool.false_eq_true, if_false]
    · simp only [Currency.beq_iff.2 hstart, Bool.eq_false_iff.2 (mt Currency.beq_iff.1 hend), if_pos hstart,
        if_neg hend, Bool.not_true, Bool.not_false, Bool.false_eq_true, if_false, if_true]
  · simp only [Bool.eq_false_iff.2 (mt Currency.beq_iff.1 hstart), if_neg hstart, Bool.not_false, if_true]

/-- Every chain has ends, or no links. -/
theorem eq_nil_or_exists_ends (chain : List ExchangeRate) :
    chain = [] ∨ ∃ first last, chain.head? = some first ∧ chain.getLast? = some last := by
  cases chain with
  | nil => exact .inl rfl
  | cons a rest => exact .inr ⟨a, _, rfl, List.getLast?_eq_some_getLast (List.cons_ne_nil a rest)⟩

theorem checkEnds_eq_ok_iff {chain : List ExchangeRate} {base term : Currency} :
    checkEnds chain base term = .ok () ↔ StartsAt chain base ∧ EndsAt chain term := by
  rcases eq_nil_or_exists_ends chain with rfl | ⟨first, last, hfirst, hlast⟩
  · exact iff_of_true rfl ⟨fun _ h => (nomatch h), fun _ h => (nomatch h)⟩
  · rw [checkEnds_of_ends hfirst hlast, StartsAt, EndsAt, hfirst, hlast]
    simp only [Option.mem_def, Option.some.injEq, forall_eq']
    split_ifs with hstart hend <;> simp [*]

theorem checkEnds_eq_error_iff {chain : List ExchangeRate} {base term : Currency} {cause : RateError} :
    checkEnds chain base term = .error cause ↔ BadEnds chain base term cause := by
  rcases eq_nil_or_exists_ends chain with rfl | ⟨first, last, hfirst, hlast⟩
  · exact iff_of_false (fun h => nomatch h) (by rintro (⟨_, h, _⟩ | ⟨_, _, h, _⟩) <;> cases h)
  · rw [checkEnds_of_ends hfirst hlast]
    have hstarts : StartsAt chain base ↔ first.base.code = base.code := by
      rw [StartsAt, hfirst]
      simp only [Option.mem_def, Option.some.injEq, forall_eq']
    constructor
    · intro h
      split_ifs at h with hstart hend
      · cases h
        exact .finish last (hstarts.2 hstart) hlast hend
      · cases h
        exact .start first hfirst hstart
    · rintro (⟨first', hfirst', hstart⟩ | ⟨last', hstart, hlast', hend⟩)
      · cases hfirst.symm.trans hfirst'
        rw [if_neg hstart]
      · cases hlast.symm.trans hlast'
        rw [if_pos (hstarts.1 hstart), if_neg hend]

theorem leads_of_checks {chain : List ExchangeRate} {base term : Currency} (hlinks : Connected chain)
    (hends : checkEnds chain base term = .ok ()) : Leads chain base term :=
  ⟨hlinks, (checkEnds_eq_ok_iff.1 hends).1, (checkEnds_eq_ok_iff.1 hends).2⟩

theorem Leads.checkEnds_eq_ok {chain : List ExchangeRate} {base term : Currency} (h : Leads chain base term) :
    checkEnds chain base term = .ok () :=
  checkEnds_eq_ok_iff.2 ⟨h.starts, h.ends⟩

end RateChain

open RateChain

namespace RateBuilder

/-! ### Calls -/

/-- A call that brings a builder into another state. -/
inductive Call where
  | setBase (c : Currency)
  | setTerm (c : Currency)
  | setFactor (d : Decimal)
  | setContext (c : ConversionContext)
  | setChain (chain : List ExchangeRate)

/-- The rates that a call hands to the builder. -/
def Call.rates : Call → List ExchangeRate
  | setChain chain => chain
  | _ => []

/-- The builder after a call, whether or not the call was refused. -/
def after (b : RateBuilder) : Call → RateBuilder
  | .setBase c => b.setBase c
  | .setTerm c => b.setTerm c
  | .setFactor d => b.setFactor d
  | .setContext c => b.setContext c
  | .setChain chain => ((putChain chain).run.run b).2

/-- The builder after one call after the other. -/
def run (b : RateBuilder) (calls : List Call) : RateBuilder :=
  calls.foldl after b

/-- The links are checked before the chain is set. -/
theorem run_putChain (b : RateBuilder) (chain : List ExchangeRate) :
    (putChain chain).run.run b =
      match checkLinks chain with
      | .ok () => (.ok (), { b with chain := chain })
      | .error cause => (.error cause, b) := by
  unfold putChain liftExcept
  cases checkLinks chain <;> rfl

theorem run_putChain_of_connected {chain : List ExchangeRate} (h : Connected chain) (b : RateBuilder) :
    (putChain chain).run.run b = (.ok (), { b with chain := chain }) := by
  rw [run_putChain, checkLinks_eq_ok_iff.2 h]

theorem run_putChain_of_error {chain : List ExchangeRate} {cause : RateError} (h : checkLinks chain = .error cause)
    (b : RateBuilder) : (putChain chain).run.run b = (.error cause, b) := by
  rw [run_putChain, h]

theorem setChain_eq (b : RateBuilder) (chain : List ExchangeRate) :
    b.setChain chain = (checkLinks chain).map fun _ => { b with chain := chain } := by
  rw [setChain, run_putChain]
  cases checkLinks chain <;> rfl

theorem setChain_eq_ok_iff {b b' : RateBuilder} {chain : List ExchangeRate} :
    b.setChain chain = .ok b' ↔ Connected chain ∧ b' = { b with chain := chain } := by
  rw [setChain_eq, map_eq_ok, ← checkLinks_eq_ok_iff]
  exact ⟨fun ⟨_, hlinks, hb'⟩ => ⟨hlinks, hb'.symm⟩, fun ⟨hlinks, hb'⟩ => ⟨(), hlinks, hb'.symm⟩⟩

theorem setChain_eq_error_iff {b : RateBuilder} {chain : List ExchangeRate} {cause : RateError} :
    b.setChain chain = .error cause ↔ checkLinks chain = .error cause := by
  rw [setChain_eq, map_eq_error]

theorem setChain_eq_error {b : RateBuilder} {chain : List ExchangeRate} {cause : RateError}
    (h : b.setChain chain = .error cause) :
    ∃ i a b, BreaksBetween chain i a b ∧ cause = .invalidChain (i + 1) (.disconnected a.term.code b.base.code) := by
  have hbreak := breaksBetween_of_checkLinksFrom (setChain_eq_error_iff.1 h)
  simp only [Nat.zero_add] at hbreak
  exact hbreak

theorem need_eq_ok_iff {α : Type} {part : RateField} {o : Option α} {a : α} :
    need part o = .ok a ↔ o = some a := by
  cases o with
  | none => exact iff_of_false (fun h => nomatch h) (fun h => nomatch h)
  | some a' => exact ⟨fun h => congrArg some (Except.ok.inj h), fun h => congrArg Except.ok (Option.some.inj h)⟩

theorem need_eq_error_iff {α : Type} {part : RateField} {o : Option α} {cause : RateError} :
    need part o = .error cause ↔ o = none ∧ cause = .incomplete part := by
  cases o with
  | none => exact ⟨fun h => ⟨rfl, (Except.error.inj h).symm⟩, fun h => congrArg Except.error h.2.symm⟩
  | some a => exact iff_of_false (fun h => nomatch h) (fun h => nomatch h.1)

/-- What a rate is made of. -/
theorem create_eq_ok_iff {b : RateBuilder} {r : ExchangeRate} :
    b.create = .ok r ↔
      ∃ base term factor context, b.base = some base ∧ b.term = some term ∧
        checkEnds b.chain base term = .ok () ∧ b.chooseFactor = .ok factor ∧ b.context = some context ∧
        r = ⟨b.provider, b.rateType, base, term, factor, aggregate b.chain context, b.chain⟩ := by
  unfold create
  simp only [bind_eq_ok, need_eq_ok_iff, pure_eq_ok]
  constructor
  · rintro ⟨base, hbase, term, hterm, ⟨⟩, hends, factor, hfactor, context, hcontext, rfl⟩
    exact ⟨base, term, factor, context, hbase, hterm, hends, hfactor, hcontext, rfl⟩
  · rintro ⟨base, term, factor, context, hbase, hterm, hends, hfactor, hcontext, rfl⟩
    exact ⟨base, hbase, term, hterm, (), hends, factor, hfactor, context, hcontext, rfl⟩

end RateBuilder

end Coinage
