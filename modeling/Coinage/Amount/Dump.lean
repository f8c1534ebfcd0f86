import Coinage.Amount.Basic
import Coinage.Text.Literal
/-!
# Amounts laid open

One-line texts that show every field of an amount or a currency, for diagnosis. A pending rounding is
only said to be there.
-/

namespace Coinage

/-- A record with named fields on one line. -/
def dumpRecord (name : String) (fields : List (String × String)) : String :=
  name ++ " \x7b " ++ ", ".intercalate (fields.map fun (field, value) => field ++ ": " ++ value) ++ " \x7d"

/-- A number that may be missing. -/
def dumpOptional : Option Nat → String
  | some n => s!"Some({n})"
  | none => "None"

def Currency.dump (c : Currency) : String :=
  dumpRecord "CurrencyUnit"
    [("code", Text.literal c.code), ("numeric_code", dumpOptional c.numericCode),
     ("default_fraction_digits", toString c.fractionDigits)]

/-- The name of a mode in camel case. -/
def RoundingMode.dump : RoundingMode → String
  | up => "Up"
  | down => "Down"
  | ceiling => "Ceiling"
  | floor => "Floor"
  | halfUp => "HalfUp"
  | halfDown => "HalfDown"
  | halfEven => "HalfEven"
  | unnecessary => "Unnecessary"

def MathContext.dump (c : MathContext) : String :=
  dumpRecord "MathContext" [("precision", toString c.precision), ("rounding_mode", c.mode.dump)]

/-- All of an amount that keeps every digit. -/
def Money.dump (a : Money) : String :=
  dumpRecord "Money" [("number", toString a.number), ("currency", a.currency.dump)]

def RoundedMoney.dump (a : RoundedMoney) : String :=
  dumpRecord "RoundedMoney"
    [("number", toString a.number), ("math_context", a.context.dump), ("currency", a.currency.dump),
     ("pending_rounding", if a.pending.isSome then "true" else "false")]

/-- All of an amount in units. -/
def FastMoney.dump (a : FastMoney) : String :=
  dumpRecord "FastMoney" [("scaled_value", toString a.units), ("currency", a.currency.dump)]

/-- All of an amount, with the word for its representation. -/
def Amount.dump : Amount → String
  | money a => "Money(" ++ a.dump ++ ")"
  | rounded a => "Rounded(" ++ a.dump ++ ")"
  | fast a => "Fast(" ++ a.dump ++ ")"

end Coinage
