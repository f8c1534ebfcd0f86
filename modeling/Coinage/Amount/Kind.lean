/-!
# Representations of amounts

The three ways in which an amount can hold its number.
-/

namespace Coinage

/-- The representation behind an amount. -/
inductive AmountKind where
  /-- A decimal that keeps every digit. -/
  | money
  /-- A decimal that is rounded to a precision after every operation. -/
  | rounded
  /-- A 64-bit integer that counts units of `10 ^ (-5)`. -/
  | fast
deriving DecidableEq, Repr

namespace AmountKind

/-- The name of the representation in messages. -/
def name : AmountKind → String
  | money => "Money"
  | rounded => "RoundedMoney"
  | fast => "FastMoney"

/-- The word that marks the representation in stored amounts. -/
def tag : AmountKind → String
  | money => "Money"
  | rounded => "Rounded"
  | fast => "Fast"

/-- All representations, in their order. -/
def all : List AmountKind := [money, rounded, fast]

/-- The representation that a stored word marks. -/
def ofTag? (s : String) : Option AmountKind :=
  all.find? fun kind => kind.tag == s

/-- The place of a representation in their order. -/
def rank : AmountKind → Nat
  | money => 0
  | rounded => 1
  | fast => 2

instance : ToString AmountKind := ⟨name⟩

end AmountKind

end Coinage
