import Coinage.Rate.Conversion
import Coinage.Stored.Amount
/-!
# Stored rates

How exchange rates and conversions are stored, and how they are read back. A chain is stored with all
rates of it, at every depth; a stored rate whose chain is broken is refused, as a builder would refuse
it.
-/

namespace Coinage

/-! ### Contexts -/

def RateType.toJson (t : RateType) : Json :=
  .string t.name

def RateType.ofJson (j : Json) : Decoded RateType := do
  Decoded.ofOption (RateType.ofName? (← j.asWord false))

def Attributes.toJson (a : Attributes) : Json :=
  .object (a.entries.map fun (key, value) => (key, .string value))

def Attributes.ofJson : Json → Decoded Attributes
  | .object fields =>
    fields.foldlM (fun a (field : String × Json) => do return a.insert field.1 (← field.2.asText)) .empty
  | _ => .error .form

def Instant.ofJson (j : Json) : Decoded Instant := do
  Decoded.ofOption (Instant.ofText? (← j.asText))

namespace ConversionContext

/-- The stored form of a context. What it lacks is left out. -/
def toJson (c : ConversionContext) : Json :=
  .object ([("provider", .string c.provider), ("rate_type", c.rateType.toJson)] ++
    (c.timestamp.map fun t => ("timestamp", Json.string (toString t))).toList ++
    (if c.attributes.isEmpty then [] else [("attributes", c.attributes.toJson)]))

/-- The fields of a context read so far. -/
structure Fields where
  provider : Option String := none
  rateType : Option RateType := none
  timestamp : Option Instant := none
  attributes : Attributes := .empty

def fieldNames : List String := ["provider", "rate_type", "timestamp", "attributes"]

def Fields.read (name : String) (value : Json) (f : Fields) : Decoded Fields :=
  if name = "provider" then return { f with provider := some (← value.asText) }
  else if name = "rate_type" then return { f with rateType := some (← RateType.ofJson value) }
  else if name = "timestamp" then
    match value with
    | .null => return { f with timestamp := none }
    | _ => return { f with timestamp := some (← Instant.ofJson value) }
  else if name = "attributes" then return { f with attributes := ← Attributes.ofJson value }
  else return f

def ofJson (j : Json) : Decoded ConversionContext := do
  let f ← j.readRecord fieldNames Fields.read {}
  let provider ← Decoded.ofOption f.provider
  return {
    provider := provider, rateType := ← Decoded.ofOption f.rateType,
    timestamp := f.timestamp, attributes := f.attributes }

end ConversionContext

/-! ### Rates -/

namespace ExchangeRate

mutual

def toJson : ExchangeRate → Json
  | ⟨provider, rateType, base, term, factor, context, chain⟩ =>
    .object ([("provider", .string provider), ("rate_type", rateType.toJson), ("base", base.toJson),
      ("term", term.toJson), ("factor", factor.toJson), ("context", context.toJson)] ++
      (if chain.isEmpty then [] else [("chain", .array (chainToJson chain))]))

/-- The stored forms of the links of a chain. -/
def chainToJson : List ExchangeRate → List Json
  | [] => []
  | r :: rest => toJson r :: chainToJson rest

end

/-- The fields of a rate read so far. -/
structure Fields where
  provider : Option String := none
  rateType : Option RateType := none
  base : Option Currency := none
  term : Option Currency := none
  factor : Option Decimal := none
  context : Option ConversionContext := none
  chain : List ExchangeRate := []

def fieldNames : List String :=
  ["provider", "rate_type", "base", "term", "factor", "context", "chain"]

/-- Reads one field that is not the chain. -/
def Fields.read (name : String) (value : Json) (f : Fields) : Decoded Fields :=
  if name = "provider" then return { f with provider := some (← value.asText) }
  else if name = "rate_type" then return { f with rateType := some (← RateType.ofJson value) }
  else if name = "base" then return { f with base := some (← Currency.ofJson value) }
  else if name = "term" then return { f with term := some (← Currency.ofJson value) }
  else if name = "factor" then return { f with factor := some (← value.asDecimal) }
  else if name = "context" then return { f with context := some (← ConversionContext.ofJson value) }
  else return f

/-- The rate that the fields make up, if its chain connects and leads from base to term. -/
def Fields.finish (f : Fields) : Decoded ExchangeRate := do
  let provider ← Decoded.ofOption f.provider
  let rateType ← Decoded.ofOption f.rateType
  let base ← Decoded.ofOption f.base
  let term ← Decoded.ofOption f.term
  let factor ← Decoded.ofOption f.factor
  let context ← Decoded.ofOption f.context
  Decoded.ofRate (RateChain.checkLinks f.chain)
  Decoded.ofRate (RateChain.checkEnds f.chain base term)
  return ⟨provider, rateType, base, term, factor, context, f.chain⟩

mutual

def ofJson : Json → Decoded ExchangeRate
  | .object fields => do (← readFields fields {}).finish
  | .array items => do (← readItems fieldNames items {}).finish
  | _ => .error .form

/-- Reads the named fields of a rate. -/
def readFields : List (String × Json) → Fields → Decoded Fields
  | [], f => return f
  | (name, value) :: rest, f => do
    if name = "chain" then readFields rest { f with chain := ← chainOfJson value }
    else readFields rest (← f.read name value)

/-- Reads the fields of a rate that stand in a list. -/
def readItems : List String → List Json → Fields → Decoded Fields
  | _, [], f => return f
  | [], _ :: _, _ => .error .form
  | name :: names, value :: rest, f => do
    if name = "chain" then readItems names rest { f with chain := ← chainOfJson value }
    else readItems names rest (← f.read name value)

def chainOfJson : Json → Decoded (List ExchangeRate)
  | .array items => linksOfJson items
  | _ => .error .form

/-- The links of the stored forms of a chain. -/
def linksOfJson : List Json → Decoded (List ExchangeRate)
  | [] => return []
  | item :: rest => do
    let r ← ofJson item
    return r :: (← linksOfJson rest)

end

end ExchangeRate

/-! ### Conversions -/

namespace Conversion

def toJson (c : Conversion) : Json :=
  .object [("input", c.input.toJson), ("output", c.output.toJson), ("rate", c.rate.toJson)]

/-- The fields of a conversion read so far. -/
structure Fields where
  input : Option Amount := none
  output : Option Amount := none
  rate : Option ExchangeRate := none

def fieldNames : List String := ["input", "output", "rate"]

def Fields.read (name : String) (value : Json) (f : Fields) : Decoded Fields :=
  if name = "input" then return { f with input := some (← Amount.ofJson value) }
  else if name = "output" then return { f with output := some (← Amount.ofJson value) }
  else if name = "rate" then return { f with rate := some (← ExchangeRate.ofJson value) }
  else return f

def ofJson (j : Json) : Decoded Conversion := do
  let f ← j.readRecord fieldNames Fields.read {}
  let input ← Decoded.ofOption f.input
  let output ← Decoded.ofOption f.output
  return ⟨input, output, ← Decoded.ofOption f.rate⟩

end Conversion

end Coinage
