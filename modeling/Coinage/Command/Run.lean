import Coinage.Command.Report
import Coinage.Currency.Registry
import Coinage.Numeric
import Coinage.Rate.Builder
import Coinage.Settings
/-!
# Commands

The three commands: calculating with two numbers, rounding an amount, and converting an amount along
one or more rates. They take their arguments as texts and look up currencies among the known ones.
-/

namespace Coinage

namespace Command

/-- Why a command fails. -/
inductive Failure where
  /-- The code names no known currency. -/
  | currency (code : String) (cause : AmountError)
  | refused (cause : RateError)
  /-- A rate is not written as base, term and factor. -/
  | malformedRate (link : String)
  | scaleWithCash
  | noRate
deriving DecidableEq, Repr

/-- The wording of a failure, the immediate reason last. -/
def Failure.messages : Failure → List String
  | currency code cause => [s!"Cannot use currency '{code}'", cause.message]
  | refused cause => [cause.message]
  | malformedRate link => [s!"Rate '{link}' is not of the form BASE:TERM:FACTOR"]
  | scaleWithCash => ["--scale and --cash cannot be combined"]
  | noRate => ["At least one --rate is required"]

/-- The refusal that a failure goes back to, if it is one. -/
def Failure.cause? : Failure → Option RateError
  | currency _ cause => some (.amount cause)
  | refused cause => some cause
  | _ => none

/-- What a command gives. -/
abbrev Result (α : Type) := Except Failure α

/-- An outcome among amounts. -/
def ofOutcome {α : Type} (o : Outcome α) : Result α :=
  o.mapError fun e => .refused (.amount e)

/-- An outcome among rates. -/
def ofRate {α : Type} (o : Except RateError α) : Result α :=
  o.mapError .refused

def currency (code : String) : Result Currency :=
  match Currency.Registry.standard.get code with
  | .ok handle => .ok handle.unit
  | .error cause => .error (.currency code cause)

/-- The amount that a text gives, in the wanted representation. -/
def makeAmount (settings : Settings) (kind : AmountKind) (c : Currency) (value : String) : Result Amount :=
  ofOutcome do
    let d ← Numeric.ofText value
    match kind with
    | .money => return .money (.ofNumber c d)
    | .rounded => return .rounded (← RoundedMoney.ofContext c d settings.mathContext)
    | .fast => return .fast (← FastMoney.ofDecimal c d)

/-! ### Calculating -/

inductive Operation where
  | add
  | sub
  | mul
  | div
  | rem
  | divrem
deriving DecidableEq, Repr

namespace Operation

def all : List Operation := [add, sub, mul, div, rem, divrem]

def name : Operation → String
  | add => "add"
  | sub => "sub"
  | mul => "mul"
  | div => "div"
  | rem => "rem"
  | divrem => "divrem"

def ofName? (s : String) : Option Operation :=
  all.find? fun op => op.name == s

end Operation

/-- Combines two numbers in one currency. The right one is an amount for sums and differences, and a
plain number otherwise. -/
def calculate (settings : Settings) (left : String) (op : Operation) (right code : String) (kind : AmountKind) :
    Result Report := do
  let c ← currency code
  let a ← makeAmount settings kind c left
  match op with
  | .add =>
    let b ← makeAmount settings kind c right
    return { results := [← ofOutcome (MonetaryAmount.add a b)] }
  | .sub =>
    let b ← makeAmount settings kind c right
    return { results := [← ofOutcome (MonetaryAmount.subtract a b)] }
  | .mul =>
    let n ← ofOutcome (Numeric.ofText right)
    return { results := [← ofOutcome (MonetaryAmount.multiplyBy a n)] }
  | .div =>
    let n ← ofOutcome (Numeric.ofText right)
    return { results := [← ofOutcome (MonetaryAmount.divideBy a n)] }
  | .rem =>
    let n ← ofOutcome (Numeric.ofText right)
    return { results := [← ofOutcome (MonetaryAmount.remainderBy a n)] }
  | .divrem =>
    let n ← ofOutcome (Numeric.ofText right)
    let (quotient, rest) ← ofOutcome (MonetaryAmount.divideAndRemainderBy a n)
    return { results := [quotient, rest] }

/-! ### Rounding -/

def roundings (settings : Settings) : Roundings :=
  ⟨[settings.roundings.toSource]⟩

/-- The rounding that is asked for: to a number of places, to the cash unit, or to the minor unit. -/
def chooseRounding (settings : Settings) (c : Currency) (scale : Option Int) (mode : Option String)
    (cash : Bool) : Result Operator :=
  match scale, cash with
  | some _, true => .error .scaleWithCash
  | some places, false => do
    let mode ← match mode with
      | some text => ofOutcome (RoundingMode.ofText text)
      | none => pure settings.currencyRounding
    return (PlaceRounding.ofScale places mode).operator
  | none, true => ofOutcome ((roundings settings).cash c)
  | none, false => ofOutcome ((roundings settings).rounding c)

def round (settings : Settings) (value code : String) (scale : Option Int) (mode : Option String) (cash : Bool) :
    Result Report := do
  let c ← currency code
  let number ← ofOutcome (Numeric.ofText value)
  let rounding ← chooseRounding settings c scale mode cash
  let rounded ← ofOutcome (MonetaryAmount.transform (Money.ofNumber c number) rounding)
  return { results := [.money rounded] }

/-! ### Converting -/

/-- The provider that rates given as texts have. -/
def provider : String := "cli"

/-- The parts of a text between colons. -/
def splitColons (s : List Char) : List (List Char) :=
  match s with
  | [] => [[]]
  | c :: rest =>
    if c = ':' then [] :: splitColons rest
    else
      match splitColons rest with
      | part :: parts => (c :: part) :: parts
      | [] => [[c]]

/-- The rate that a text gives as base, term and factor. -/
def parseRate (link : String) : Result ExchangeRate :=
  match splitColons link.toList with
  | [base, term, factor] => do
    let b ← currency (String.ofList base)
    let t ← currency (String.ofList term)
    let d ← ofOutcome (Numeric.ofText (String.ofList factor))
    ofRate (((RateBuilder.ofProvider provider .other).setBase b).setTerm t |>.setFactor d).create
  | _ => .error (.malformedRate link)

/-- The rate that links lead along, with a factor of its own or the product of theirs. A single link
without such a factor is that rate itself. -/
def composeRate (links : List ExchangeRate) (factor : Option String) : Result ExchangeRate :=
  match links.head?, links.getLast? with
  | some first, some last =>
    if links.length = 1 ∧ factor.isNone then .ok first
    else do
      let builder := ((RateBuilder.ofProvider provider .other).setBase first.base).setTerm last.term
      let chained ← ofRate (builder.setChain links)
      let complete ← match factor with
        | some text => do pure (chained.setFactor (← ofOutcome (Numeric.ofText text)))
        | none => pure chained
      ofRate complete.create
  | _, _ => .error .noRate

/-- Converts an amount along rates, and rounds it to the minor unit of its new currency if wanted. -/
def convert (settings : Settings) (value : String) (rates : List String) (factor : Option String)
    (rounded : Bool) (kind : AmountKind) : Result Report := do
  let links ← rates.mapM parseRate
  let rate ← composeRate links factor
  let input ← makeAmount settings kind rate.base value
  let output ←
    if rounded then do
      let rounding ← ofOutcome ((roundings settings).rounding rate.term)
      ofRate (rate.applyRounded input rounding)
    else ofRate (rate.apply input)
  return { results := [input, output], rate := some rate }

end Command

end Coinage
