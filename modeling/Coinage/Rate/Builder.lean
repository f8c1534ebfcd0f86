import Coinage.Rate.Basic
/-!
# Making exchange rates

A builder collects the parts of a rate in any order, each as often as wanted, and makes rates of what
it holds at the time. Making a rate does not change the builder. A chain is only taken if its links
connect; whether it leads from base to term is seen when a rate is made.
-/

namespace Coinage

/-- The parts of a rate that are given so far. -/
structure RateBuilder where
  provider : String := ""
  rateType : RateType := .any
  base : Option Currency := none
  term : Option Currency := none
  factor : Option Decimal := none
  context : Option ConversionContext := none
  chain : List ExchangeRate := []

namespace RateBuilder

/-- A builder for rates of a provider, whose context names it. -/
def ofProvider (provider : String) (rateType : RateType) : RateBuilder :=
  { provider := provider, rateType := rateType,
    context := some { provider := provider, rateType := rateType } }

/-- A builder that holds all parts of a rate. -/
def ofRate (r : ExchangeRate) : RateBuilder :=
  { provider := r.provider, rateType := r.rateType, base := some r.base, term := some r.term,
    factor := some r.factor, context := some r.context, chain := r.chain }

def setBase (b : RateBuilder) (c : Currency) : RateBuilder :=
  { b with base := some c }

def setTerm (b : RateBuilder) (c : Currency) : RateBuilder :=
  { b with term := some c }

/-- The builder with a factor of its own, which counts more than that of a chain. -/
def setFactor (b : RateBuilder) (d : Decimal) : RateBuilder :=
  { b with factor := some d }

def setContext (b : RateBuilder) (c : ConversionContext) : RateBuilder :=
  { b with context := some c }

/-- A call on a builder that may be refused. What it has set until then stays set. -/
abbrev Building := ExceptT RateError (StateM RateBuilder)

/-- Sets another chain, if its links connect. -/
def putChain (chain : List ExchangeRate) : Building Unit := do
  liftExcept (RateChain.checkLinks chain)
  modify fun b => { b with chain := chain }

/-- The builder with another chain, if its links connect. -/
def setChain (b : RateBuilder) (chain : List ExchangeRate) : Except RateError RateBuilder :=
  match (putChain chain).run.run b with
  | (.ok (), changed) => .ok changed
  | (.error cause, _) => .error cause

/-- The context of a rate with a chain: attributes of a link count more than those of the links
before it and less than its own, and the oldest instant of a link stands in for a missing one. -/
def aggregate (chain : List ExchangeRate) (c : ConversionContext) : ConversionContext :=
  if chain.isEmpty then c
  else
    let inherited := chain.foldl (fun a r => a.merge r.context.attributes) Attributes.empty
    { c with
      attributes := inherited.merge c.attributes
      timestamp := c.timestamp.or (Instant.earliest? (chain.filterMap fun r => r.context.timestamp)) }

def need {α : Type} (part : RateField) : Option α → Except RateError α
  | some a => .ok a
  | none => .error (.incomplete part)

/-- The factor of the rate: the builder's own, or the product of the chain. -/
def chooseFactor (b : RateBuilder) : Except RateError Decimal :=
  match b.factor with
  | some d => .ok d
  | none => if b.chain.isEmpty then .error (.incomplete .factor) else (RateChain.product b.chain).toRate

def create (b : RateBuilder) : Except RateError ExchangeRate := do
  let base ← need .base b.base
  let term ← need .term b.term
  RateChain.checkEnds b.chain base term
  let factor ← b.chooseFactor
  let context ← need .context b.context
  return {
    provider := b.provider, rateType := b.rateType, base := base, term := term, factor := factor,
    context := aggregate b.chain context, chain := b.chain }

end RateBuilder

end Coinage
