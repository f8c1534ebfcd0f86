import Coinage.Error
import Coinage.Text.Blank
/-!
# Currencies

A currency is known by its code alone: two currencies of one code are equal, whatever else is said of
them, and they are ordered by code. A code that is blank is no code, and the type holds none.
-/

namespace Coinage

structure Currency where
  /-- The code, with its case. -/
  code : String
  /-- The number of the currency in ISO 4217, if it has one. -/
  numericCode : Option Nat
  /-- How many digits the minor unit stands behind the point. -/
  fractionDigits : Nat
  code_not_blank : Text.isAllBlank code = false

namespace Currency

/-- The currency of a code with its particulars, if the code is not blank. -/
def make? (code : String) (numericCode : Option Nat) (fractionDigits : Nat) : Option Currency :=
  if h : Text.isAllBlank code = false then some ⟨code, numericCode, fractionDigits, h⟩ else none

/-- The currency of a code with its particulars; a blank code is refused. -/
def make (code : String) (numericCode : Option Nat) (fractionDigits : Nat) : Outcome Currency :=
  match make? code numericCode fractionDigits with
  | some c => .ok c
  | none => .error (.invalidArgument .blankCode)

instance : BEq Currency where
  beq a b := a.code == b.code

instance : ToString Currency := ⟨code⟩

/-- The order of currencies, by code. -/
def compare (a b : Currency) : Ordering :=
  compareOfLessAndEq a.code b.code

/-- A currency that is described only in part; the rest has a usual value. -/
structure Draft where
  code : String
  numericCode : Option Nat := none
  fractionDigits : Nat := 2

def Draft.build (d : Draft) : Outcome Currency :=
  make d.code d.numericCode d.fractionDigits

end Currency

def checkCurrency (expected actual : Currency) : Outcome Unit :=
  if expected == actual then .ok () else .error (.currencyMismatch expected.code actual.code)

end Coinage
