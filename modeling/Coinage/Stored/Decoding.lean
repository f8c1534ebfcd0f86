import Coinage.Json.Basic
import Coinage.Binary.Shortest
import Coinage.Decimal.Numeral
import Coinage.Rate.Error
/-!
# Reading stored values

What the readers of stored amounts and rates share. A record is read field by field in the order in
which the fields stand, and the first fault is the one that is reported; fields that are not known are
passed over. A record may also be given as the list of its fields. A value either has not the form
that is asked for, or it has and is refused by the rules of the domain.
-/

namespace Coinage

/-- Why a stored value cannot be read. -/
inductive DecodeError where
  /-- The value has not the form that is asked for. -/
  | form
  /-- The value has the form and breaks a rule. -/
  | refused (cause : RateError)
deriving DecidableEq, Repr

/-- What reading a stored value gives. -/
abbrev Decoded (α : Type) := Except DecodeError α

namespace Decoded

/-- A value that may be missing. -/
def ofOption {α : Type} : Option α → Decoded α
  | some a => .ok a
  | none => .error .form

/-- An outcome among amounts. -/
def ofOutcome {α : Type} (o : Outcome α) : Decoded α :=
  o.mapError fun e => .refused (.amount e)

/-- An outcome among rates. -/
def ofRate {α : Type} (o : Except RateError α) : Decoded α :=
  o.mapError .refused

end Decoded

namespace Json

def asText (j : Json) : Decoded String :=
  Decoded.ofOption j.toText?

/-- The value as a natural number below `2 ^ 32`. -/
def asSmallNat (j : Json) : Decoded Nat :=
  match j.toNat? with
  | some n => if n < 2 ^ 32 then .ok n else .error .form
  | none => .error .form

/-- The word for one of several choices: the word alone, or as the one name of a record that holds
nothing. Where a word has told the form of what is read (`tagged`), an empty record counts as nothing
too. -/
def asWord (tagged : Bool) : Json → Decoded String
  | string s => .ok s
  | object [(name, null)] => .ok name
  | object [(name, object [])] => if tagged then .ok name else .error .form
  | _ => .error .form

/-- The decimal that a double means: its shortest one, without the fractional digits that do not fit. -/
def decimalOfDouble (bits : Nat) : Decoded Decimal :=
  match Decimal.readRounded (Binary.written Binary.double (Binary.decode Binary.double bits)) with
  | .ok d => .ok d
  | .error _ => .error .form

/-- The value as a decimal: a text, without the fractional digits that do not fit, or a number. -/
def asDecimal : Json → Decoded Decimal
  | string s =>
    match Decimal.readLossy s.toList with
    | .ok d => .ok d
    | .error _ => .error .form
  | integer n => Decoded.ofOption (Decimal.ofInt? n)
  | real bits => decimalOfDouble bits
  | _ => .error .form

/-- Reads the fields of a record one after the other into a draft of it; `names` are the fields in the
order in which a list of them has to stand. -/
def readRecord {σ : Type} (names : List String) (read : String → Json → σ → Decoded σ) (draft : σ) :
    Json → Decoded σ
  | object fields => fields.foldlM (fun d (field : String × Json) => read field.1 field.2 d) draft
  | array items => do
    let d ← (names.zip items).foldlM (fun d (field : String × Json) => read field.1 field.2 d) draft
    if names.length < items.length then .error .form else return d
  | _ => .error .form

end Json

end Coinage
