import Coinage.Stored.Rate
/-!
# Reports

What a command answers: amounts, and the rate that was applied if there was one.
-/

namespace Coinage

/-- The answer of a command. -/
structure Report where
  results : List Amount
  rate : Option ExchangeRate := none

namespace Report

def lines (r : Report) : List String :=
  r.results.map toString ++ (r.rate.map fun rate => s!"rate: {rate}").toList

def toJson (r : Report) : Json :=
  .object (("results", .array (r.results.map Amount.toJson)) ::
    (r.rate.map fun rate => ("rate", ExchangeRate.toJson rate)).toList)

end Report

end Coinage
