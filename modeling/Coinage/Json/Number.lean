import Coinage.Json.Basic
import Coinage.Binary.Format
import Coinage.Decimal.Numeral
/-!
# JSON numbers

Digits alone are an integer as long as it fits 64 bits. Every other number is a double, and not always
the nearest one: its leading digits, as many as fit 64 bits, become a double, which is then multiplied
with or divided by the double nearest to a power of ten. Each of these steps rounds.
-/

namespace Coinage

namespace Json

/-- The leading digits of a number, and the power of ten that they are to be multiplied with. -/
structure Scaled where
  significand : Nat
  exponent : Int

def maxSignificand : Nat := 2 ^ 64 - 1

/-- Takes digits to the end of a significand as long as it stays in range; gives the rest of them. -/
def takeDigits (significand : Nat) : List Nat → Nat × List Nat
  | [] => (significand, [])
  | digit :: rest =>
    if significand * 10 + digit ≤ maxSignificand then takeDigits (significand * 10 + digit) rest
    else (significand, digit :: rest)

/-- The leading digits of a number with digits before the point, behind it, and an exponent. Digits
before the point that are not taken still count; behind the point the taking starts anew. -/
def Scaled.ofDigits (whole fraction : List Nat) (exponent : Int) : Scaled :=
  let (significand, left) := takeDigits 0 whole
  let (extended, dropped) := takeDigits significand fraction
  ⟨extended, exponent + left.length - (fraction.length - dropped.length : Nat)⟩

/-- The largest power of ten that a double is multiplied with or divided by at once. -/
def maxPower : Nat := 308

/-- The double nearest to a power of ten. -/
def powerOfTen (n : Nat) : Nat :=
  Binary.nearest Binary.double (10 ^ n) 1

/-- A positive double divided by a power of ten, in steps of the largest one. -/
def divideByPower (bits n : Nat) : Nat :=
  if bits = 0 then 0
  else if n ≤ maxPower then Binary.divide Binary.double bits (powerOfTen n)
  else divideByPower (Binary.divide Binary.double bits (powerOfTen maxPower)) (n - maxPower)
termination_by n
decreasing_by
  have : 0 < maxPower := by decide
  omega

/-- The double that a number without its sign becomes, unless it is too large for one. -/
def Scaled.toDouble? (s : Scaled) : Option Nat :=
  let bits := Binary.nearest Binary.double s.significand 1
  if bits = 0 then some 0
  else if s.exponent < 0 then some (divideByPower bits (-s.exponent).toNat)
  else if s.exponent ≤ maxPower then
    let product := Binary.multiply Binary.double bits (powerOfTen s.exponent.toNat)
    if product < Binary.double.infinity then some product else none
  else none

/-- Digits as numbers; none are no digits. -/
def digits? (s : List Char) : Option (List Nat) :=
  if s.isEmpty then none else s.mapM Decimal.digitValue?

def ofDigits (digits : List Nat) : Nat :=
  digits.foldl (fun n digit => 10 * n + digit) 0

/-- The integer that digits with a sign stand for. -/
def signedDigits? (s : List Char) : Option Int :=
  let (negative, body) := Decimal.splitSign s
  (digits? body).map fun digits => Decimal.withSign negative (ofDigits digits)

/-- An exponent behind its letter; nothing stands for zero. -/
def exponent? : List Char → Option Int
  | [] => some 0
  | c :: rest => if c = 'e' ∨ c = 'E' then signedDigits? rest else none

/-- The double of a scaled number with a sign. -/
def realOfScaled? (negative : Bool) (s : Scaled) : Option Json :=
  s.toDouble?.map fun bits => real (if negative then 2 ^ 63 + bits else bits)

/-- The number that a text is. A zero with a minus is no integer. -/
def number? (s : List Char) : Option Json := do
  let (negative, body) := Decimal.splitSign s
  let isDigit := fun c => (Decimal.digitValue? c).isSome
  let whole ← digits? (body.takeWhile isDigit)
  match body.dropWhile isDigit with
  | [] =>
    let n := ofDigits whole
    if n ≤ (if negative then 2 ^ 63 else maxSignificand) ∧ ¬ (negative ∧ n = 0) then
      return integer (Decimal.withSign negative n)
    else realOfScaled? negative (.ofDigits whole [] 0)
  | '.' :: rest =>
    let fraction ← digits? (rest.takeWhile isDigit)
    realOfScaled? negative (.ofDigits whole fraction (← exponent? (rest.dropWhile isDigit)))
  | rest => realOfScaled? negative (.ofDigits whole [] (← exponent? rest))

end Json

end Coinage
