import Coinage.Amount.Kind
import Coinage.Decimal.Numeral
import Coinage.Decimal.Written
/-!
# What can go wrong

The causes for which an operation on amounts is refused, and their wording. Every operation of the
library that can fail returns one of these causes; the words are written here and nowhere else.
-/

namespace Coinage

/-- The three families of roundings that can be asked for. -/
inductive RoundingFamily where
  | currency
  | cash
  | custom
deriving DecidableEq, Repr

def RoundingFamily.name : RoundingFamily → String
  | currency => "currency"
  | cash => "cash"
  | custom => "custom"

/-- Why an argument is refused. -/
inductive ArgumentFault where
  /-- The text is no number. -/
  | numeral (text : String) (cause : NumeralError)
  /-- The floating-point number is infinite or not a number. -/
  | notFinite (written : String)
  | roundingMode (text : String)
  | blankCode
  /-- A cash increment is zero or negative. -/
  | increment (value : Decimal)
  /-- The cash increment of a currency is zero or negative. -/
  | incrementFor (code : String) (value : Decimal)
  | noRounding (family : RoundingFamily) (key : String)
  /-- A currency has more fraction digits than can be shifted. -/
  | fractionDigits (digits : Nat)
  /-- An operator gives a reason of its own. -/
  | refused (reason : String)
deriving DecidableEq, Repr

def ArgumentFault.message : ArgumentFault → String
  | numeral text cause => s!"Invalid number '{text}': " ++ cause.message
  | notFinite written => s!"Non-finite number: {written}"
  | roundingMode text => s!"Unknown rounding mode: {text}"
  | blankCode => "Currency code must not be empty"
  | increment value => s!"Cash increment must be positive, got {value}"
  | incrementFor code value => s!"Cash increment for {code} must be positive, got {value}"
  | noRounding family key => "No " ++ family.name ++ s!" rounding available for {key}"
  | fractionDigits digits => s!"{digits} fraction digits"
  | refused reason => reason

/-- Why an operation on amounts is refused. -/
inductive AmountError where
  | invalidArgument (fault : ArgumentFault)
  /-- The operands carry different currencies. -/
  | currencyMismatch (expected actual : String)
  | divisionByZero
  /-- The value of an expression is out of range. -/
  | overflow (expression : String)
  /-- The value has no place in the wanted number type. -/
  | unsupportedConversion (value : Decimal) (target : String)
  /-- A digit other than zero would have been dropped. -/
  | roundingNecessary (value : Decimal)
  /-- An amount has another representation than the one that is needed. -/
  | unexpectedKind (expected actual : AmountKind)
  | unknownCurrency (code : String)
deriving DecidableEq, Repr

def AmountError.message : AmountError → String
  | invalidArgument fault => "Invalid argument: " ++ fault.message
  | currencyMismatch expected actual => s!"Currency mismatch: expected {expected}, got {actual}"
  | divisionByZero => "Division by zero"
  | overflow expression => s!"Arithmetic overflow: {expression}"
  | unsupportedConversion value target => s!"Unsupported conversion of {value} to {target}"
  | roundingNecessary value =>
    s!"Rounding necessary: {value} is not exact at the requested precision"
  | unexpectedKind expected actual =>
    s!"Unexpected amount representation: expected {expected}, got {actual}"
  | unknownCurrency code => s!"Unknown currency: {code}"

/-- What an operation on amounts gives: a value, or the cause of its refusal. -/
abbrev Outcome (α : Type) := Except AmountError α

end Coinage
