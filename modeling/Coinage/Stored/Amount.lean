import Coinage.Amount.Basic
import Coinage.Stored.Decoding
/-!
# Stored amounts

How currencies, contexts and amounts are stored, and how they are read back. Numbers are stored as
text, so no digit is lost. Reading goes through the same checks and roundings as making an amount. A
pending rounding is not stored.

Where a word in the stored form tells the representation, a mode in it is read less strictly: `tagged`
says so.
-/

namespace Coinage

/-! ### Currencies -/

def Currency.toJson (c : Currency) : Json :=
  .object (("code", .string c.code) ::
    ((c.numericCode.map fun n => ("numeric_code", Json.ofNat n)).toList ++
      [("default_fraction_digits", Json.ofNat c.fractionDigits)]))

namespace Currency

/-- The fields of a currency read so far. -/
structure Fields where
  code : Option String := none
  numericCode : Option Nat := none
  fractionDigits : Option Nat := none

def fieldNames : List String := ["code", "numeric_code", "default_fraction_digits"]

def Fields.read (name : String) (value : Json) (f : Fields) : Decoded Fields :=
  if name = "code" then return { f with code := some (← value.asText) }
  else if name = "numeric_code" then
    match value with
    | .null => return { f with numericCode := none }
    | _ => return { f with numericCode := some (← value.asSmallNat) }
  else if name = "default_fraction_digits" then return { f with fractionDigits := some (← value.asSmallNat) }
  else return f

def ofJson (j : Json) : Decoded Currency := do
  let f ← j.readRecord fieldNames Fields.read {}
  let code ← Decoded.ofOption f.code
  let digits ← Decoded.ofOption f.fractionDigits
  Decoded.ofOutcome (make code f.numericCode digits)

end Currency

/-! ### Contexts -/

def RoundingMode.toJson (mode : RoundingMode) : Json :=
  .string mode.name

def RoundingMode.ofJson (tagged : Bool) (j : Json) : Decoded RoundingMode := do
  Decoded.ofOption (RoundingMode.ofName? (← j.asWord tagged))

def MathContext.toJson (c : MathContext) : Json :=
  .object [("precision", Json.ofNat c.precision), ("rounding_mode", c.mode.toJson)]

namespace MathContext

/-- The fields of a context read so far. -/
structure Fields where
  precision : Option Nat := none
  mode : Option RoundingMode := none

def fieldNames : List String := ["precision", "rounding_mode"]

def Fields.read (tagged : Bool) (name : String) (value : Json) (f : Fields) : Decoded Fields :=
  if name = "precision" then return { f with precision := some (← value.asSmallNat) }
  else if name = "rounding_mode" then return { f with mode := some (← RoundingMode.ofJson tagged value) }
  else return f

def ofJson (tagged : Bool) (j : Json) : Decoded MathContext := do
  let f ← j.readRecord fieldNames (Fields.read tagged) {}
  return ⟨← Decoded.ofOption f.precision, ← Decoded.ofOption f.mode⟩

end MathContext

/-! ### Amounts -/

/-- The stored form of a number. -/
def Decimal.toJson (d : Decimal) : Json :=
  .string (toString d)

/-- The stored form of a representation. -/
def AmountKind.toJson (kind : AmountKind) : Json :=
  .string kind.tag

/-- The representation of a stored form. -/
def AmountKind.ofJson (j : Json) : Decoded AmountKind := do
  Decoded.ofOption (AmountKind.ofTag? (← j.asWord false))

/-- The stored fields of an amount that keeps every digit. -/
def Money.storedFields (a : Money) : List (String × Json) :=
  [("number", a.number.toJson), ("currency", a.currency.toJson)]

def RoundedMoney.storedFields (a : RoundedMoney) : List (String × Json) :=
  [("number", a.number.toJson), ("math_context", a.context.toJson), ("currency", a.currency.toJson)]

/-- The stored fields of an amount in units. -/
def FastMoney.storedFields (a : FastMoney) : List (String × Json) :=
  [("number", a.number.toJson), ("currency", a.currency.toJson)]

namespace Amount

/-- The fields of an amount read so far. -/
structure Fields where
  number : Option Decimal := none
  currency : Option Currency := none
  context : Option MathContext := none

/-- The names of the fields of an amount without a context. -/
def plainFieldNames : List String := ["number", "currency"]

def boundedFieldNames : List String := ["number", "math_context", "currency"]

/-- Reads one field of an amount without a context. -/
def Fields.readPlain (name : String) (value : Json) (f : Fields) : Decoded Fields :=
  if name = "number" then return { f with number := some (← value.asDecimal) }
  else if name = "currency" then return { f with currency := some (← Currency.ofJson value) }
  else return f

/-- Reads one field of an amount with a context. -/
def Fields.readBounded (tagged : Bool) (name : String) (value : Json) (f : Fields) : Decoded Fields :=
  if name = "math_context" then return { f with context := some (← MathContext.ofJson tagged value) }
  else readPlain name value f

end Amount

/-- The amount that keeps every digit of a stored form. -/
def Money.ofJson (j : Json) : Decoded Money := do
  let f ← j.readRecord Amount.plainFieldNames Amount.Fields.readPlain {}
  let number ← Decoded.ofOption f.number
  return ⟨← Decoded.ofOption f.currency, number⟩

/-- The rounded amount of a stored form. -/
def RoundedMoney.ofJson (tagged : Bool) (j : Json) : Decoded RoundedMoney := do
  let f ← j.readRecord Amount.boundedFieldNames (Amount.Fields.readBounded tagged) {}
  let number ← Decoded.ofOption f.number
  let context ← Decoded.ofOption f.context
  Decoded.ofOutcome (RoundedMoney.ofContext (← Decoded.ofOption f.currency) number context)

/-- The amount in units of a stored form. -/
def FastMoney.ofJson (j : Json) : Decoded FastMoney := do
  let f ← j.readRecord Amount.plainFieldNames Amount.Fields.readPlain {}
  let number ← Decoded.ofOption f.number
  Decoded.ofOutcome (FastMoney.ofDecimal (← Decoded.ofOption f.currency) number)

namespace Amount

/-- The stored fields of an amount, without the word for its representation. -/
def storedFields : Amount → List (String × Json)
  | money a => a.storedFields
  | rounded a => a.storedFields
  | fast a => a.storedFields

def toJson (a : Amount) : Json :=
  .object (("type", a.kind.toJson) :: a.storedFields)

/-- The stored form of an amount whose representation is known where it is read. -/
def toUntaggedJson (a : Amount) : Json :=
  .object a.storedFields

/-- The word for the representation, and the rest of the stored form. -/
def splitTag : Json → Decoded (AmountKind × Json)
  | .object fields => do
    let tag ← Decoded.ofOption ((Json.object fields).field? "type")
    let kind ← Decoded.ofOption (AmountKind.ofTag? (← tag.asText))
    return (kind, .object (fields.filter fun f => f.1 != "type"))
  | .array (tag :: items) => do
    let kind ← Decoded.ofOption (AmountKind.ofTag? (← tag.asText))
    return (kind, .array items)
  | _ => .error .form

def ofJson (j : Json) : Decoded Amount := do
  let (kind, rest) ← splitTag j
  match kind with
  | .money => return .money (← Money.ofJson rest)
  | .rounded => return .rounded (← RoundedMoney.ofJson true rest)
  | .fast => return .fast (← FastMoney.ofJson rest)

end Amount

end Coinage
