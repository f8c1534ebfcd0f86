import Coinage.Decimal.Arithmetic
import Coinage.Decimal.Places
/-!
# Reading decimals

A numeral is an optional sign and digits with at most one point among them; once there is a digit,
underscores may stand anywhere. The exact reader takes a numeral only if all of its digits fit. The
rounding reader drops fractional digits that do not fit and rounds half up by the first of them. A
numeral with an exponent is a rounded numeral and a shift. Where a shift needs more places than there
are, `Decimal.read` refuses the text and `Decimal.readLossy` rounds once more.
-/

namespace Coinage

/-- Why a text is not a decimal. -/
inductive NumeralError where
  | empty
  | noDigits
  | secondPoint
  /-- An underscore before the first digit. -/
  | leadingSeparator
  | unknownCharacter
  /-- The digits before the point are out of range. -/
  | tooManyDigits
  /-- Rounding by the first dropped digit left the range. -/
  | roundedOutOfRange
  /-- Neither a numeral nor a numeral with an exponent. -/
  | notANumeral
  /-- An exponent asks for more places than a decimal can have. -/
  | scaleExceeded (places : Nat)
  /-- The shifted value is out of range. -/
  | outOfRange
deriving DecidableEq, Repr

def NumeralError.message : NumeralError → String
  | empty => "Invalid decimal: empty"
  | noDigits => "Invalid decimal: no digits found"
  | secondPoint => "Invalid decimal: two decimal points"
  | leadingSeparator => "Invalid decimal: must start lead with a number"
  | unknownCharacter => "Invalid decimal: unknown character"
  | tooManyDigits => "Invalid decimal: overflow from too many digits"
  | roundedOutOfRange => "Invalid decimal: overflow from mantissa after rounding"
  | notANumeral => "Failed to parse"
  | scaleExceeded places => s!"Scale exceeds the maximum precision allowed: {places} > 28"
  | outOfRange => "Number exceeds maximum value that can be represented."

namespace Decimal

/-! ### Digits one by one -/

def digitValue? (c : Char) : Option Nat :=
  if '0' ≤ c ∧ c ≤ '9' then some (c.toNat - '0'.toNat) else none

/-- What has been read of a numeral behind its sign. -/
structure Reading where
  /-- The digits taken so far, as a number. -/
  magnitude : Nat := 0
  /-- How many of them stand after the point. -/
  places : Nat := 0
  sawPoint : Bool := false
  sawDigit : Bool := false
  /-- Whether a fractional digit did not fit. No further digit counts then. -/
  isFull : Bool := false

/-- The reading with one more digit, which fits. -/
def Reading.append (r : Reading) (digit : Nat) : Reading :=
  { r with
    magnitude := r.magnitude * 10 + digit
    places := if r.sawPoint then r.places + 1 else r.places
    sawDigit := true }

/-- One more character of a numeral that has to fit with all its digits: nothing at all may follow
the last possible place. -/
def Reading.stepExact? (r : Reading) (c : Char) : Option Reading :=
  if r.places = maxScale then none
  else
    match digitValue? c with
    | some digit => if r.magnitude * 10 + digit < capacity then some (r.append digit) else none
    | none =>
      if c = '.' then if r.sawPoint then none else some { r with sawPoint := true }
      else if c = '_' ∧ r.sawDigit then some r
      else none

/-- A number is short if its digits but the last one are below this: a tenth of what 64 bits hold, with
a margin. -/
def shortLimit : Nat := (2 ^ 64 - 1) / 10 - 255

/-- Whether the digits taken so far are a short number. -/
def Reading.isShort (r : Reading) : Bool :=
  decide (r.magnitude / 10 < shortLimit)

/-- The reading behind an underscore. Right behind the last possible place of a short number it
stands for a zero that is dropped, so the digits behind it no longer round the number. -/
def Reading.skipSeparator (r : Reading) : Reading :=
  if r.places = maxScale ∧ r.isShort then { r with isFull := true } else r

/-- The reading behind the first fractional digit that does not fit: rounded half up by it, with one
place less where a carry leaves the range. Without a place to give up the numeral is refused at once,
whatever follows. -/
def Reading.drop (r : Reading) (digit : Nat) : Except NumeralError Reading :=
  if digit < 5 then .ok { r with isFull := true }
  else if r.magnitude + 1 < capacity then .ok { r with magnitude := r.magnitude + 1, isFull := true }
  else if r.places = 0 then .error .roundedOutOfRange
  else .ok { r with magnitude := (r.magnitude + 1 + 4) / 10, places := r.places - 1, isFull := true }

/-- One more character of a numeral whose fractional digits may be dropped. -/
def Reading.step (r : Reading) (c : Char) : Except NumeralError Reading :=
  match digitValue? c with
  | some digit =>
    if r.isFull then .ok r
    else if r.places < maxScale ∧ r.magnitude * 10 + digit < capacity then .ok (r.append digit)
    else if r.sawPoint then r.drop digit
    else .error .tooManyDigits
  | none =>
    if c = '.' then if r.sawPoint then .error .secondPoint else .ok { r with sawPoint := true }
    else if c = '_' then if r.sawDigit then .ok r.skipSeparator else .error .leadingSeparator
    else .error .unknownCharacter

/-- A text without its sign, and whether the sign was a minus. -/
def splitSign : List Char → Bool × List Char
  | '-' :: rest => (true, rest)
  | '+' :: rest => (false, rest)
  | rest => (false, rest)

/-- A signed magnitude as an integer. -/
def withSign (negative : Bool) (magnitude : Nat) : Int :=
  if negative then -(magnitude : Int) else magnitude

/-! ### Numerals -/

/-- The numeral that a text is, if all of its digits fit. -/
def readExact? (s : List Char) : Option Decimal :=
  let (negative, body) := splitSign s
  match body.foldlM Reading.stepExact? {} with
  | none => none
  | some r => if r.sawDigit then ofParts? (withSign negative r.magnitude) r.places else none

/-- The numeral that a text is, without the fractional digits that do not fit. -/
def readRounded (s : List Char) : Except NumeralError Decimal :=
  if s.isEmpty then .error .empty
  else
    let (negative, body) := splitSign s
    match body.foldlM Reading.step {} with
    | .error e => .error e
    | .ok r =>
      if !r.sawDigit then .error .noDigits
      else
        match ofParts? (withSign negative r.magnitude) r.places with
        | some d => .ok d
        | none => .error .roundedOutOfRange

/-! ### Exponents -/

/-- A digit string as a number below `2 ^ 32`; a plus may stand before it. -/
def readExponent? (s : List Char) : Option Nat :=
  let digits := match s with
    | '+' :: rest => rest
    | _ => s
  if digits.isEmpty then none
  else
    match digits.foldlM (fun n c => (digitValue? c).map (n * 10 + ·)) 0 with
    | none => none
    | some n => if n < 2 ^ 32 then some n else none

/-- The value shifted to the right: more places, the same digits. -/
def shiftRight (d : Decimal) (places : Nat) : Except NumeralError Decimal :=
  if maxScale < places then .error (.scaleExceeded places)
  else
    match ofParts? d.mantissa (d.scale + places) with
    | some shifted => .ok shifted
    | none => .error (.scaleExceeded (d.scale + places))

/-- The value shifted to the right and rounded half up to the places that there are. A value below zero
that is rounded to zero leaves its minus. -/
def shiftRightLossy (d : Decimal) (places : Nat) : Except NumeralError Decimal :=
  if maxScale < places then .error (.scaleExceeded places)
  else
    match (d.roundToPlaces (maxScale - places) .halfUp).shiftRight places with
    | .ok shifted => .ok (shifted.withZeroSign d.isNegative)
    | .error e => .error e

/-- The value shifted to the left: fewer places as far as there are any, else a multiple without
superfluous zeros. -/
def shiftLeft (d : Decimal) (places : Nat) : Except NumeralError Decimal :=
  if places ≤ d.scale then
    .ok (ofDigits d.mantissa (d.scale - places)
      ⟨d.natAbs_mantissa_lt, Nat.le_trans (Nat.sub_le _ _) d.scale_le⟩)
  else if maxScale < places then .error (.scaleExceeded places)
  else
    match ofInt? (10 ^ places) with
    | none => .error .outOfRange
    | some factor =>
      match d.mul? factor with
      | some shifted => .ok shifted.normalize
      | none => .error .outOfRange

/-- The value of a numeral with an exponent; `shiftDown` shifts it by an exponent below zero. -/
def readScientific (shiftDown : Decimal → Nat → Except NumeralError Decimal) (s : List Char) :
    Except NumeralError Decimal :=
  match s.span (fun c => c != 'e' && c != 'E') with
  | (_, []) => .error .notANumeral
  | (base, _ :: exponent) =>
    match readRounded base with
    | .error e => .error e
    | .ok d =>
      match exponent with
      | '-' :: digits =>
        match readExponent? digits with
        | some places => shiftDown d places
        | none => .error .notANumeral
      | digits =>
        match readExponent? digits with
        | some places => d.shiftLeft places
        | none => .error .notANumeral

/-- The value of a text: a numeral whose digits all fit, or a rounded one with an exponent. -/
def read (s : List Char) : Except NumeralError Decimal :=
  match readExact? s with
  | some d => .ok d
  | none => readScientific shiftRight s

/-- The value of a text whose last fractional digits may be dropped: a numeral, or one with an
exponent. -/
def readLossy (s : List Char) : Except NumeralError Decimal :=
  match readRounded s with
  | .ok d => .ok d
  | .error _ => readScientific shiftRightLossy s

end Decimal

end Coinage
