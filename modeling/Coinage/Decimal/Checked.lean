import Coinage.Error
import Coinage.Decimal.Quotient
/-!
# Decimal arithmetic with causes

The operations on decimals with a cause for each refusal: a division by zero, or the expression whose
value is out of range. Integral division, shifts by powers of ten and powers are built from them.
-/

namespace Coinage

namespace Decimal

def sum (a b : Decimal) : Outcome Decimal :=
  match a.add? b with
  | some d => .ok d
  | none => .error (.overflow s!"{a} + {b}")

def difference (a b : Decimal) : Outcome Decimal :=
  match a.sub? b with
  | some d => .ok d
  | none => .error (.overflow s!"{a} - {b}")

def product (a b : Decimal) : Outcome Decimal :=
  match a.mul? b with
  | some d => .ok d
  | none => .error (.overflow s!"{a} * {b}")

/-- The quotient by a divisor that is not zero. -/
def quotient (a b : Decimal) : Outcome Decimal :=
  if b.isZero then .error .divisionByZero
  else
    match a.div? b with
    | some d => .ok d
    | none => .error (.overflow s!"{a} / {b}")

/-- The remainder by a divisor that is not zero; its sign is that of the dividend. -/
def remainder (a b : Decimal) : Outcome Decimal :=
  if b.isZero then .error .divisionByZero else .ok (a.rem b)

/-- The quotient truncated towards zero, at scale 0: what the remainder leaves of the dividend,
divided. -/
def integralQuotient (a b : Decimal) : Outcome Decimal := do
  let rest ← a.remainder b
  let multiple ← a.difference rest
  let q ← multiple.quotient b
  return q.trunc

/-- The largest power of ten that a shift multiplies with has this exponent, also for a zero. -/
def maxShift : Nat := 38

/-- The value times `10 ^ n`, exactly: the digits stay and the point moves; where it would move
beyond the last digit, zeros are appended. -/
def shift (d : Decimal) (n : Int) : Outcome Decimal :=
  let scale : Int := d.scale - n
  let shifted :=
    if 0 ≤ scale then
      if scale ≤ maxScale then ofParts? d.mantissa scale.toNat else none
    else if (-scale).toNat ≤ maxShift then ofParts? (d.mantissa * 10 ^ (-scale).toNat) 0
    else none
  match shifted with
  | some e => .ok e
  | none => .error (.overflow s!"{d}E{n}")

/-- Multiplies `acc` with `base ^ exponent` by repeated squaring, the low bit of the exponent
first. -/
def powerFrom (acc base : Decimal) (exponent : Nat) : Outcome Decimal :=
  if exponent = 0 then .ok acc
  else do
    let acc ← if exponent % 2 = 1 then acc.product base else .ok acc
    if exponent / 2 = 0 then return acc
    let square ← base.product base
    powerFrom acc square (exponent / 2)
termination_by exponent
decreasing_by omega

def power (d : Decimal) (exponent : Nat) : Outcome Decimal :=
  powerFrom one d exponent

end Decimal

end Coinage
