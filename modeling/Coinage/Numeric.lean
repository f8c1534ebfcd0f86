import Coinage.Error
import Coinage.Binary.Shortest
import Coinage.Text.Blank
/-!
# Numbers from outside

The forms in which a number may be given, and the decimal that each of them means. A text is taken
with all its digits or refused, unless it has an exponent: the digits before that are rounded where they
do not fit. A floating-point number means its shortest decimal.
-/

namespace Coinage

/-- A number as it is given. -/
inductive Numeric where
  | text (s : String)
  | integer (n : Int)
  | float (format : Binary.Format) (bits : Nat)
  | decimal (d : Decimal)
deriving DecidableEq, Repr

namespace Numeric

/-- The decimal that a text denotes, blanks at its ends aside. -/
def ofText (s : String) : Outcome Decimal :=
  match Decimal.read (Text.trim s.toList) with
  | .ok d => .ok d
  | .error cause => .error (.invalidArgument (.numeral s cause))

/-- The decimal that an integer is, if it is in range. -/
def ofInteger (n : Int) : Outcome Decimal :=
  match Decimal.ofInt? n with
  | some d => .ok d
  | none => .error (.overflow s!"{n}")

/-- The decimal that a floating-point number means: its shortest one, without the fractional digits
that do not fit. -/
def ofFloat (format : Binary.Format) (bits : Nat) : Outcome Decimal :=
  let value := Binary.decode format bits
  let text := Binary.written format value
  if value.isFinite then
    match Decimal.readRounded text with
    | .ok d => .ok d
    | .error _ => .error (.overflow (String.ofList text))
  else .error (.invalidArgument (.notFinite (String.ofList text)))

/-- The decimal that a given number means. -/
def toDecimal : Numeric → Outcome Decimal
  | text s => ofText s
  | integer n => ofInteger n
  | float format bits => ofFloat format bits
  | decimal d => .ok d

end Numeric

end Coinage
