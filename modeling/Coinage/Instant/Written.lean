import Coinage.Instant.Basic
import Coinage.Decimal.Numeral
import Coinage.Text.Blank
/-!
# Instants as text

Instants are written as RFC 3339 has them, in UTC with the letter `Z`, and with as few groups of three
fractional digits as are exact. The reader takes any offset, one or two digits where two are usual,
and blanks between the parts.
-/

namespace Coinage

namespace Instant

/-- A number with zeros in front up to a width. -/
def zeroPadded (width n : Nat) : String :=
  let digits := Nat.toDigits 10 n
  String.ofList (List.replicate (width - digits.length) '0' ++ digits)

/-- A year: four digits, or a sign and at least four. -/
def writtenYear (year : Int) : String :=
  if 0 ≤ year ∧ year ≤ 9999 then zeroPadded 4 year.toNat
  else (if year < 0 then "-" else "+") ++ zeroPadded 4 year.natAbs

def writtenFraction (nanoseconds : Nat) : String :=
  if nanoseconds = 0 then ""
  else if nanoseconds % 1000000 = 0 then "." ++ zeroPadded 3 (nanoseconds / 1000000)
  else if nanoseconds % 1000 = 0 then "." ++ zeroPadded 6 (nanoseconds / 1000)
  else "." ++ zeroPadded 9 nanoseconds

def written (t : Instant) : String :=
  let days := Int.fdiv t.seconds 86400
  let second := (t.seconds - days * 86400).toNat
  let date := Date.ofDays days
  let leap := if 1000000000 ≤ t.nanoseconds then 1 else 0
  writtenYear date.year ++ "-" ++ zeroPadded 2 date.month ++ "-" ++ zeroPadded 2 date.day ++ "T" ++
    zeroPadded 2 (second / 3600) ++ ":" ++ zeroPadded 2 (second / 60 % 60) ++ ":" ++
    zeroPadded 2 (second % 60 + leap) ++ writtenFraction (t.nanoseconds - leap * 1000000000) ++ "Z"

instance : ToString Instant := ⟨written⟩

/-! ### Reading -/

/-- A text without the blanks at its start. -/
def skipBlanks (s : List Char) : List Char :=
  s.dropWhile Text.isBlank

/-- Up to `most` digits at the start of a text as a number, at least one, and what follows. -/
def readDigits (most : Nat) (s : List Char) : Option (Nat × List Char) :=
  let digits := (s.take most).takeWhile fun c => (Decimal.digitValue? c).isSome
  if digits.isEmpty then none
  else some (digits.foldl (fun n c => n * 10 + (Decimal.digitValue? c).getD 0) 0, s.drop digits.length)

/-- A field of at most two digits within limits, blanks before it aside. -/
def readField (least most : Nat) (s : List Char) : Option (Nat × List Char) := do
  let (n, rest) ← readDigits 2 (skipBlanks s)
  if least ≤ n ∧ n ≤ most then return (n, rest) else none

/-- A mark at the start of a text, blanks before it aside; gives what follows. -/
def readMark (mark : Char) (s : List Char) : Option (List Char) :=
  match skipBlanks s with
  | c :: rest => if c = mark then some rest else none
  | [] => none

/-- A year: up to four digits, or a sign and any number of digits. -/
def readYear (s : List Char) : Option (Int × List Char) :=
  match skipBlanks s with
  | '-' :: rest => (readDigits rest.length rest).map fun (n, left) => (-(n : Int), left)
  | '+' :: rest => (readDigits rest.length rest).map fun (n, left) => ((n : Int), left)
  | rest => (readDigits 4 rest).map fun (n, left) => ((n : Int), left)

/-- The fraction of a second, to nine digits; further ones are dropped. -/
def readFraction (s : List Char) : Option (Nat × List Char) :=
  match s with
  | '.' :: rest => do
    let (n, left) ← readDigits 9 rest
    let given := rest.length - left.length
    return (n * 10 ^ (9 - given), left.dropWhile fun c => (Decimal.digitValue? c).isSome)
  | _ => some (0, s)

/-- Two digits at the start of a text as a number. -/
def readPair (s : List Char) : Option (Nat × List Char) :=
  match s with
  | a :: b :: rest => do
    let tens ← Decimal.digitValue? a
    let ones ← Decimal.digitValue? b
    return (10 * tens + ones, rest)
  | _ => none

/-- The offset from UTC in seconds: `Z`, `UTC`, or hours and minutes with a sign. -/
def readOffset (s : List Char) : Option (Int × List Char) :=
  match s with
  | c :: rest =>
    if c = 'Z' ∨ c = 'z' then some (0, rest)
    else if (s.take 3).map Char.toUpper = ['U', 'T', 'C'] then some (0, s.drop 3)
    else if c = '+' ∨ c = '-' ∨ c = '−' then do
      let (hours, rest) ← readPair rest
      let (minutes, left) ← readPair (rest.dropWhile fun c => c == ':' || Text.isBlank c)
      let seconds : Int := hours * 3600 + minutes * 60
      if minutes < 60 ∧ seconds < 86400 then return (if c = '+' then seconds else -seconds, left) else none
    else none
  | [] => none

/-- The first year that a date can have. -/
def firstYear : Int := -262143

/-- The last year that a date can have. -/
def lastYear : Int := 262142

def yearInRange (year : Int) : Bool :=
  decide (firstYear ≤ year) && decide (year ≤ lastYear)

/-- Whether the instant lies, in UTC, in a year that a date can have. -/
def isInRange (t : Instant) : Bool :=
  decide ((Date.mk firstYear 1 1).toDays * 86400 ≤ t.seconds) &&
    decide (t.seconds < (Date.mk (lastYear + 1) 1 1).toDays * 86400)

def ofText? (s : String) : Option Instant := do
  let (year, rest) ← readYear s.toList
  let rest ← readMark '-' rest
  let (month, rest) ← readField 1 12 rest
  let rest ← readMark '-' rest
  let (day, rest) ← readField 1 31 rest
  let rest ← match rest with
    | c :: rest => if c = 'T' ∨ c = 't' ∨ c = ' ' then some rest else none
    | [] => none
  let (hour, rest) ← readField 0 23 rest
  let rest ← readMark ':' rest
  let (minute, rest) ← readField 0 59 rest
  let rest ← readMark ':' rest
  let (second, rest) ← readField 0 60 rest
  let (fraction, rest) ← readFraction rest
  let (offset, rest) ← readOffset (skipBlanks rest)
  let date : Date := ⟨year, month, day⟩
  if yearInRange year ∧ date.isValid ∧ (skipBlanks rest).isEmpty then
    let leap := second / 60
    let ofDay : Int := hour * 3600 + minute * 60 + (second - leap)
    let instant : Instant := ⟨date.toDays * 86400 + ofDay - offset, fraction + leap * 1000000000⟩
    if instant.isInRange then return instant else none
  else none

end Instant

end Coinage
