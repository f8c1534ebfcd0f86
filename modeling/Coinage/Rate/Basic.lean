import Coinage.Currency.Basic
import Coinage.Decimal.Checked
import Coinage.Rate.Context
import Coinage.Rate.Error
/-!
# Exchange rates

A rate is a factor from a base into a term currency. A derived rate carries the rates it was composed
from: its chain starts at its base, ends at its term, and each link starts where the one before it
ends.
-/

namespace Coinage

/-- A factor from one currency into another, with the rates that it was composed from. -/
structure ExchangeRate where
  provider : String
  rateType : RateType
  base : Currency
  term : Currency
  factor : Decimal
  context : ConversionContext
  chain : List ExchangeRate

namespace ExchangeRate

/-- Whether the rate was composed of others. -/
def isDerived (r : ExchangeRate) : Bool :=
  !r.chain.isEmpty

instance : ToString ExchangeRate where
  toString r := s!"{r.base}/{r.term} {r.factor} ({r.context})"

/-! ### Equality

Currencies count by code and factors by value, at every depth of the chains. -/

mutual

/-- Whether two rates are equal. -/
def same : ExchangeRate → ExchangeRate → Bool
  | ⟨provider, rateType, base, term, factor, context, chain⟩, other =>
    provider == other.provider && decide (rateType = other.rateType) && base == other.base &&
      term == other.term && factor.sameValue other.factor && decide (context = other.context) &&
      sameChain chain other.chain

/-- Whether two chains are equal link by link. -/
def sameChain : List ExchangeRate → List ExchangeRate → Bool
  | [], [] => true
  | a :: as, b :: bs => same a b && sameChain as bs
  | _, _ => false

end

instance : BEq ExchangeRate := ⟨same⟩

end ExchangeRate

/-! ### Chains -/

namespace RateChain

/-- Refuses a chain in which a link does not start where the one before it ends; `link` is the number
of the first link. -/
def checkLinksFrom (link : Nat) : List ExchangeRate → Except RateError Unit
  | a :: b :: rest =>
    if a.term == b.base then checkLinksFrom (link + 1) (b :: rest)
    else .error (.invalidChain (link + 1) (.disconnected a.term.code b.base.code))
  | _ => .ok ()

/-- Refuses a chain in which a link does not start where the one before it ends. -/
def checkLinks (chain : List ExchangeRate) : Except RateError Unit :=
  checkLinksFrom 0 chain

/-- Refuses a chain that does not lead from the base to the term. -/
def checkEnds (chain : List ExchangeRate) (base term : Currency) : Except RateError Unit :=
  match chain.head?, chain.getLast? with
  | some first, some last =>
    if !(first.base == base) then .error (.invalidChain 0 (.wrongStart first.base.code base.code))
    else if !(last.term == term) then
      .error (.invalidChain (chain.length - 1) (.wrongEnd last.term.code term.code))
    else .ok ()
  | _, _ => .ok ()

/-- Whether the product of two factors, if it comes to zero, carries a minus: their signs differ, and
one of them has a mantissa of more than 32 bits. -/
def leavesMinus (a b : Decimal) : Bool :=
  a.signum * b.signum == -1 && (decide (2 ^ 32 ≤ a.mantissa.natAbs) || decide (2 ^ 32 ≤ b.mantissa.natAbs))

/-- The product of two factors. -/
def multiply (a b : Decimal) : Outcome Decimal := do
  return (← a.product b).withZeroSign (leavesMinus a b)

/-- The product of the factors of a chain, from the first to the last. -/
def product (chain : List ExchangeRate) : Outcome Decimal :=
  chain.foldlM (fun acc r => multiply acc r.factor) Decimal.one

end RateChain

/-- The factor that follows from the chain of a derived rate, if it is in range. -/
def ExchangeRate.derivedFactor? (r : ExchangeRate) : Option Decimal :=
  if r.chain.isEmpty then none else (RateChain.product r.chain).toOption

end Coinage
