import Coinage.Powers
/-!
# Binary floating point

The bit patterns of the two binary interchange formats: what number a pattern stands for, and which
pattern is nearest to a given quotient. All arithmetic is on natural numbers. A product or quotient of
patterns is the pattern nearest to the exact one.
-/

namespace Coinage

namespace Binary

/-- A binary interchange format. -/
structure Format where
  /-- Bits of the fraction field. -/
  fractionBits : Nat
  /-- Bits of the exponent field. -/
  exponentBits : Nat
deriving DecidableEq, Repr

def double : Format := ⟨52, 11⟩

def single : Format := ⟨23, 8⟩

namespace Format

/-- The value of the exponent field that stands for infinities and not-a-numbers. -/
def specialExponent (f : Format) : Nat :=
  2 ^ f.exponentBits - 1

/-- The smallest exponent of the last bit is `-bias`. -/
def bias (f : Format) : Nat :=
  2 ^ (f.exponentBits - 1) - 2 + f.fractionBits

/-- The pattern of positive infinity, above those of all positive numbers. -/
def infinity (f : Format) : Nat :=
  f.specialExponent * 2 ^ f.fractionBits

end Format

/-- What a bit pattern stands for. A finite one is `magnitude * 2 ^ (exponent - bias)`. -/
inductive Value where
  | notANumber
  | infinite (negative : Bool)
  | finite (negative : Bool) (magnitude exponent : Nat)
deriving DecidableEq, Repr

/-- The value of a bit pattern. -/
def decode (f : Format) (bits : Nat) : Value :=
  let fraction := bits % 2 ^ f.fractionBits
  let exponent := bits / 2 ^ f.fractionBits % 2 ^ f.exponentBits
  let negative := bits / 2 ^ (f.fractionBits + f.exponentBits) % 2 == 1
  if exponent = f.specialExponent then if fraction = 0 then .infinite negative else .notANumber
  else if exponent = 0 then .finite negative fraction 0
  else .finite negative (2 ^ f.fractionBits + fraction) (exponent - 1)

/-- The pattern of the positive value nearest to `n / d`, a tie going to the even pattern; patterns
above the largest finite one stand for infinity. -/
def nearest (f : Format) (n d : Nat) : Nat :=
  if n = 0 then 0
  else
    let lead : Int := (n.log2 : Int) - d.log2 - f.fractionBits
    let unit := fun (e : Int) => (n * 2 ^ (-e).toNat, d * 2 ^ e.toNat)
    let lead := if (unit lead).1 / (unit lead).2 < 2 ^ f.fractionBits then lead - 1 else lead
    let e := max lead (-(f.bias : Int))
    let (p, q) := unit e
    let magnitude := p / q
    let rest := p % q
    let rounded :=
      if q < 2 * rest ∨ (2 * rest = q ∧ magnitude % 2 = 1) then magnitude + 1 else magnitude
    min ((e + f.bias).toNat * 2 ^ f.fractionBits + rounded) f.infinity

/-! ### Arithmetic on patterns -/

/-- The value of the pattern of a positive finite number, as a numerator and a denominator. -/
def fraction (f : Format) (bits : Nat) : Nat × Nat :=
  match decode f bits with
  | .finite _ magnitude exponent => (magnitude * 2 ^ exponent, 2 ^ f.bias)
  | _ => (0, 1)

/-- The pattern nearest to the product of two positive finite numbers. -/
def multiply (f : Format) (a b : Nat) : Nat :=
  nearest f ((fraction f a).1 * (fraction f b).1) ((fraction f a).2 * (fraction f b).2)

/-- The pattern nearest to the quotient of two positive finite numbers. -/
def divide (f : Format) (a b : Nat) : Nat :=
  nearest f ((fraction f a).1 * (fraction f b).2) ((fraction f a).2 * (fraction f b).1)

end Binary

end Coinage
