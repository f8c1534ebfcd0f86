import Coinage.Operator.Reference
import Coinage.Instant.Basic
/-!
# Sources of roundings

A source answers which rounding a currency has, now or at an instant, and which roundings go by a
name. The standard source derives the rounding of a currency from its fraction digits; increments for
cash, roundings that were valid in the past and named roundings can be entered in it.
-/

namespace Coinage

/-- Something that can be asked for roundings. A source that does not tell times apart answers for
every instant what it answers for now. -/
structure RoundingSource where
  name : String
  rounding : Currency → Option Operator
  cash : Currency → Option Operator
  custom : String → Option Operator
  customIds : List String
  roundingAt : Currency → Instant → Option Operator := fun c _ => rounding c
  cashAt : Currency → Instant → Option Operator := fun c _ => cash c

/-- Words in ascending order, each once. -/
def sortedOnce (words : List String) : List String :=
  (words.eraseDups).mergeSort fun a b => decide (a ≤ b)

/-- A rounding that was valid for a currency until an instant. -/
structure PastRounding where
  code : String
  validUntil : Instant
  operator : Operator

/-- The standard source. -/
structure StandardRoundings where
  /-- The mode of the roundings that are derived from a currency. -/
  mode : RoundingMode := PlaceRounding.defaultMode
  /-- The smallest cash unit of a currency, where one was entered; the latest entry first. -/
  increments : List (String × Decimal) := []
  /-- Past roundings, those that ended first in front; of one instant, the first entered in front. -/
  past : List PastRounding := []
  /-- Named roundings, the latest entry first. -/
  named : List (String × Operator) := []

namespace StandardRoundings

/-- The smallest Swiss coin is worth 0.05. -/
def swissIncrement : String × Decimal :=
  ("CHF", .ofDigits 5 2 (by decide))

/-- The source that knows the smallest Swiss coin and nothing else. -/
def initial : StandardRoundings :=
  { increments := [swissIncrement] }

/-- The source with another mode. -/
def withMode (s : StandardRoundings) (mode : RoundingMode) : StandardRoundings :=
  { s with mode := mode }

/-- The source with an increment for a currency, which has to be positive. -/
def withIncrement (s : StandardRoundings) (code : String) (increment : Decimal) : Outcome StandardRoundings :=
  if 0 < increment.mantissa then .ok { s with increments := (code, increment) :: s.increments }
  else .error (.invalidArgument (.incrementFor code increment))

/-- Enters a named rounding, in place of an earlier one of that name. -/
def registerCustom (s : StandardRoundings) (id : String) (op : Operator) : StandardRoundings :=
  { s with named := (id, op) :: s.named }

/-- Puts an entry behind those that end no later than it. -/
def insertPast (entry : PastRounding) : List PastRounding → List PastRounding
  | [] => [entry]
  | other :: rest =>
    if entry.validUntil.isBefore other.validUntil then entry :: other :: rest
    else other :: insertPast entry rest

/-- Enters a rounding that was valid for a currency until an instant. -/
def registerPast (s : StandardRoundings) (code : String) (validUntil : Instant) (op : Operator) :
    StandardRoundings :=
  { s with past := insertPast ⟨code, validUntil, op⟩ s.past }

/-- The rounding to the minor unit of a currency. -/
def rounding (s : StandardRoundings) (c : Currency) : Operator :=
  (PlaceRounding.ofCurrency c s.mode).operator

/-- The rounding of a currency at an instant: the one among the past ones that ended first after it,
else the present one. -/
def roundingAt (s : StandardRoundings) (c : Currency) (t : Instant) : Operator :=
  match s.past.find? fun entry => entry.code == c.code && t.isBefore entry.validUntil with
  | some entry => entry.operator
  | none => s.rounding c

/-- The rounding to the smallest cash unit of a currency, or to its minor unit where no other is
known. -/
def cash (s : StandardRoundings) (c : Currency) : Option Operator :=
  match s.increments.lookup c.code with
  | some increment =>
    (CashRounding.make? (max c.fractionDigits increment.scale) increment s.mode).map CashRounding.operator
  | none => some (s.rounding c)

/-- The rounding that was entered last under a name. -/
def custom (s : StandardRoundings) (id : String) : Option Operator :=
  s.named.lookup id

/-- All names under which a rounding was entered, in ascending order. -/
def customIds (s : StandardRoundings) : List String :=
  sortedOnce (s.named.map Prod.fst)

/-- What can be asked of the standard source. -/
def toSource (s : StandardRoundings) : RoundingSource where
  name := "DEFAULT"
  rounding c := some (s.rounding c)
  cash := s.cash
  custom := s.custom
  customIds := s.customIds
  roundingAt c t := some (s.roundingAt c t)

end StandardRoundings

/-! ### Several sources -/

/-- Sources that are asked one after the other. -/
structure Roundings where
  sources : List RoundingSource

namespace Roundings

/-- The standard source alone. -/
def standard : Roundings :=
  ⟨[StandardRoundings.initial.toSource]⟩

/-- The sources with one more, which is asked last. -/
def withSource (r : Roundings) (s : RoundingSource) : Roundings :=
  ⟨r.sources ++ [s]⟩

/-- The names of the sources, in the order in which they are asked. -/
def names (r : Roundings) : List String :=
  r.sources.map RoundingSource.name

/-- The answer of the first source that has one. -/
def firstAnswer (r : Roundings) (family : RoundingFamily) (key : String)
    (ask : RoundingSource → Option Operator) : Outcome Operator :=
  match r.sources.findSome? ask with
  | some op => .ok op
  | none => .error (.invalidArgument (.noRounding family key))

def rounding (r : Roundings) (c : Currency) : Outcome Operator :=
  r.firstAnswer .currency c.code fun s => s.rounding c

def roundingAt (r : Roundings) (c : Currency) (t : Instant) : Outcome Operator :=
  r.firstAnswer .currency c.code fun s => s.roundingAt c t

def cash (r : Roundings) (c : Currency) : Outcome Operator :=
  r.firstAnswer .cash c.code fun s => s.cash c

def cashAt (r : Roundings) (c : Currency) (t : Instant) : Outcome Operator :=
  r.firstAnswer .cash c.code fun s => s.cashAt c t

def custom (r : Roundings) (id : String) : Outcome Operator :=
  r.firstAnswer .custom id fun s => s.custom id

/-- The names that any source knows, in ascending order. -/
def customIds (r : Roundings) : List String :=
  sortedOnce (r.sources.flatMap RoundingSource.customIds)

/-- The operator that rounds every amount by its own currency. -/
def perCurrency (r : Roundings) : Operator := fun a => do
  let op ← r.rounding a.currency
  op a

end Roundings

end Coinage
