import Coinage.Error
import Coinage.Binary.Format
/-!
# Decimals as other numbers

A decimal as an integer of a given width, as a floating-point number or as text. Integers are
truncated towards zero; a value outside of the wanted type is refused, never clipped, and an unsigned
type refuses every decimal with a minus: fractions just below zero too, and a zero that carries one.
-/

namespace Coinage

structure IntegerType where
  signed : Bool
  bits : Nat
deriving DecidableEq, Repr

namespace IntegerType

def name (t : IntegerType) : String :=
  (if t.signed then "i" else "u") ++ toString t.bits

/-- Whether an integer has a place in the type. -/
def contains (t : IntegerType) (n : Int) : Bool :=
  if t.signed then decide (-(2 ^ (t.bits - 1)) ≤ n) && decide (n < 2 ^ (t.bits - 1))
  else decide (0 ≤ n) && decide (n < 2 ^ t.bits)

/-- The integer types with a name. -/
def all : List IntegerType :=
  [⟨true, 8⟩, ⟨true, 16⟩, ⟨true, 32⟩, ⟨true, 64⟩, ⟨true, 128⟩,
   ⟨false, 8⟩, ⟨false, 16⟩, ⟨false, 32⟩, ⟨false, 64⟩, ⟨false, 128⟩]

/-- The 64-bit signed integers. -/
def int64 : IntegerType := ⟨true, 64⟩

end IntegerType

/-- A number type that decimals can be projected onto. -/
inductive NumberType where
  | integer (t : IntegerType)
  | float (format : Binary.Format)
  | decimal
  | text
deriving DecidableEq, Repr

def NumberType.ofName? (s : String) : Option NumberType :=
  if s = "f64" then some (.float Binary.double)
  else if s = "f32" then some (.float Binary.single)
  else if s = "Decimal" then some .decimal
  else if s = "String" then some .text
  else (IntegerType.all.find? fun t => t.name == s).map .integer

/-- A value of one of the number types. -/
inductive Projected where
  | integer (n : Int)
  | float (format : Binary.Format) (bits : Nat)
  | decimal (d : Decimal)
  | text (s : String)
deriving Repr

namespace Decimal

/-- The value truncated towards zero, if it has a place in the type. -/
def toInteger (d : Decimal) (t : IntegerType) : Outcome Int :=
  let n := d.trunc.mantissa
  if t.contains n && (t.signed || !d.hasMinus) then .ok n
  else .error (.unsupportedConversion d t.name)

/-- The floating-point number nearest to a natural number. -/
def floatOfNat (n : Nat) : Float :=
  Float.ofBits (Binary.nearest Binary.double n 1).toUInt64

/-- The value as a double: the integral part and the fraction are converted by themselves, and their
sum is rounded to the places of the decimal. A zero keeps its minus only if it has places: a decimal without
places goes by way of the integers, among which there is one zero. -/
def toFloat (d : Decimal) : Float :=
  let magnitude := d.mantissa.natAbs
  let unit := 10 ^ d.scale
  let integral := floatOfNat (magnitude / unit)
  let fraction := floatOfNat (magnitude % unit) / floatOfNat unit
  let value :=
    if d.scale = 0 || fraction == 0 then integral
    else ((integral + fraction) * floatOfNat unit).round / floatOfNat unit
  if d.isNegative || d.minusZero && d.scale != 0 then -value else value

def toFloatBits (d : Decimal) (format : Binary.Format) : Nat :=
  if format = Binary.single then d.toFloat.toFloat32.toBits.toNat else d.toFloat.toBits.toNat

def project (d : Decimal) : NumberType → Outcome Projected
  | .integer t => (d.toInteger t).map .integer
  | .float format => .ok (.float format (d.toFloatBits format))
  | .decimal => .ok (.decimal d)
  | .text => .ok (.text (toString d))

end Decimal

end Coinage
