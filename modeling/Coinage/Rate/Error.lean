import Coinage.Error
/-!
# What can go wrong with exchange rates

The causes for which a rate cannot be made or applied, and their wording.
-/

namespace Coinage

/-- What a rate cannot do without. -/
inductive RateField where
  | base
  | term
  | factor
  | context
deriving DecidableEq, Repr

/-- The name of a part in messages. -/
def RateField.name : RateField → String
  | base => "base"
  | term => "term"
  | factor => "factor"
  | context => "context"

/-- How a chain of rates is broken. The currencies are given by their codes. -/
inductive ChainFault where
  /-- A link does not start where the one before it ends. -/
  | disconnected (term base : String)
  | wrongStart (start base : String)
  | wrongEnd (finish term : String)
deriving DecidableEq, Repr

def ChainFault.message : ChainFault → String
  | disconnected term base => s!"term {term} of the previous rate does not match base {base}"
  | wrongStart start base => s!"chain starts at {start}, rate base is {base}"
  | wrongEnd finish term => s!"chain ends at {finish}, rate term is {term}"

/-- Why a rate cannot be made or applied. -/
inductive RateError where
  /-- A part was never given. -/
  | incomplete (part : RateField)
  /-- The chain is broken at a link. -/
  | invalidChain (link : Nat) (fault : ChainFault)
  /-- The amount is not in the base currency. -/
  | currencyMismatch (expected actual : String)
  /-- The arithmetic is refused. -/
  | amount (cause : AmountError)
deriving DecidableEq, Repr

def RateError.message : RateError → String
  | incomplete part => "Incomplete exchange rate: " ++ part.name ++ " is not set"
  | invalidChain link fault => s!"Invalid rate chain at link {link}: " ++ fault.message
  | currencyMismatch expected actual => s!"Currency mismatch: expected {expected}, got {actual}"
  | amount cause => cause.message

/-- A refusal among rates as a refusal among amounts. -/
def RateError.toAmountError : RateError → AmountError
  | amount cause => cause
  | currencyMismatch expected actual => .currencyMismatch expected actual
  | other => .invalidArgument (.refused other.message)

/-- An outcome among amounts as one among rates. -/
def Outcome.toRate {α : Type} (o : Outcome α) : Except RateError α :=
  o.mapError .amount

end Coinage
