import Coinage.Rounding.Provider
/-!
# Settings

What can be set from outside: the usual context, the mode of currency roundings, and the log. Each
setting is a named variable whose text is parsed. Both loaders go through the variables in one order; the
strict one stops at the first text that does not parse, the lenient one leaves such a setting as it is.
-/

namespace Coinage

/-- The layout of log lines. -/
inductive LogFormat where
  | text
  | json
deriving DecidableEq, Repr

def LogFormat.name : LogFormat → String
  | text => "text"
  | json => "json"

/-- Why the text of a setting does not parse. -/
inductive SettingFault where
  | noDigits
  | notADigit
  | tooLarge
  | roundingMode (text : String)
  /-- The text is given with ASCII letters in lower case. -/
  | logFormat (lowered : String)
deriving DecidableEq, Repr

def SettingFault.message : SettingFault → String
  | noDigits => "cannot parse integer from empty string"
  | notADigit => "invalid digit found in string"
  | tooLarge => "number too large to fit in target type"
  | roundingMode text => (AmountError.invalidArgument (.roundingMode text)).message
  | logFormat lowered => s!"Unknown log format: {lowered}"

structure Settings where
  precision : Nat := MathContext.decimal64.precision
  rounding : RoundingMode := MathContext.decimal64.mode
  currencyRounding : RoundingMode := .halfUp
  logFormat : LogFormat := .text
  logLevel : String := "info"
deriving DecidableEq, Repr

namespace Settings

/-- Digits as a number below `limit`, read one by one. -/
def readBounded (limit : Nat) (n : Nat) : List Char → Except SettingFault Nat
  | [] => .ok n
  | c :: rest =>
    match Decimal.digitValue? c with
    | none => .error .notADigit
    | some digit => if n * 10 + digit < limit then readBounded limit (n * 10 + digit) rest else .error .tooLarge

/-- A natural number below `2 ^ 32`; a plus may stand before it. -/
def parsePrecision (s : String) : Except SettingFault Nat :=
  match s.toList with
  | [] => .error .noDigits
  | ['+'] => .error .notADigit
  | '+' :: digits => readBounded (2 ^ 32) 0 digits
  | digits => readBounded (2 ^ 32) 0 digits

def parseMode (s : String) : Except SettingFault RoundingMode :=
  match RoundingMode.ofText? s with
  | some mode => .ok mode
  | none => .error (.roundingMode s)

/-- The layout of a given name, in any case; `pretty` is another name of the text layout. -/
def parseLogFormat (s : String) : Except SettingFault LogFormat :=
  let lowered := String.ofList (s.toList.map Char.toLower)
  if lowered = "text" ∨ lowered = "pretty" then .ok .text
  else if lowered = "json" then .ok .json
  else .error (.logFormat lowered)

/-- The variables whose text is parsed. -/
inductive Variable where
  | precision
  | rounding
  | currencyRounding
  | logFormat
deriving DecidableEq, Repr

namespace Variable

def key : Variable → String
  | precision => "TENDER_DEFAULT_PRECISION"
  | rounding => "TENDER_DEFAULT_ROUNDING"
  | currencyRounding => "TENDER_CURRENCY_ROUNDING"
  | logFormat => "TENDER_LOG_FORMAT"

/-- The variables in the order in which they are read. -/
def all : List Variable := [precision, rounding, currencyRounding, logFormat]

/-- The settings with one of them set from a text. -/
def assign (v : Variable) (raw : String) (s : Settings) : Except SettingFault Settings :=
  match v with
  | precision => (parsePrecision raw).map fun n => { s with precision := n }
  | rounding => (parseMode raw).map fun mode => { s with rounding := mode }
  | currencyRounding => (parseMode raw).map fun mode => { s with currencyRounding := mode }
  | logFormat => (parseLogFormat raw).map fun format => { s with logFormat := format }

end Variable

/-- A setting whose text does not parse. -/
structure Rejection where
  setting : Variable
  raw : String
  fault : SettingFault
deriving DecidableEq, Repr

def Rejection.message (r : Rejection) : String :=
  s!"Invalid value '{r.raw}' for " ++ r.setting.key ++ ": " ++ r.fault.message

/-- The variable that is taken as it is. -/
def logLevelKey : String := "LOG_LEVEL"

/-- The names of all variables that settings are read from. -/
def keys : List String :=
  Variable.all.map Variable.key ++ [logLevelKey]

def assignLogLevel (lookup : String → Option String) (s : Settings) : Settings :=
  match lookup logLevelKey with
  | some level => { s with logLevel := level }
  | none => s

/-- Settings in the making. A rejection ends it, and what has been set until then stays set. -/
abbrev Loading := ExceptT Rejection (StateM Settings)

/-- Sets one variable, if it is given. Whether a text that does not parse ends the loading is decided by
`onRejection`; otherwise the variable counts as not given. -/
def loadVariable (onRejection : Rejection → Except Rejection Unit) (lookup : String → Option String)
    (v : Variable) : Loading Unit := do
  match lookup v.key with
  | none => return
  | some raw =>
    match v.assign raw (← get) with
    | .ok s => set s
    | .error fault => liftExcept (onRejection ⟨v, raw, fault⟩)

/-- Sets all variables that are given, one after the other. -/
def load (onRejection : Rejection → Except Rejection Unit) (lookup : String → Option String) : Loading Unit := do
  Variable.all.forM (loadVariable onRejection lookup)
  modify (assignLogLevel lookup)

/-- The settings of some variables, or the first text that does not parse. -/
def loadStrict (lookup : String → Option String) : Except Rejection Settings :=
  match (load .error lookup).run.run {} with
  | (.ok (), s) => .ok s
  | (.error r, _) => .error r

/-- The settings of some variables, those that do not parse aside. -/
def loadLenient (lookup : String → Option String) : Settings :=
  ((load (fun _ => .ok ()) lookup).run.run {}).2

/-! ### Validity -/

/-- Why settings that parse are not usable. -/
inductive Flaw where
  | precision (given : Nat)
  | currencyRounding
  | logLevel
deriving DecidableEq, Repr

def maxPrecision : Nat := 28

def Flaw.message : Flaw → String
  | precision given => s!"Default precision {given} exceeds the supported maximum of {maxPrecision}"
  | currencyRounding => "Currency rounding cannot be UNNECESSARY"
  | logLevel => "Log level cannot be empty"

def flaw? (s : Settings) : Option Flaw :=
  if maxPrecision < s.precision then some (.precision s.precision)
  else if s.currencyRounding = .unnecessary then some .currencyRounding
  else if s.logLevel.isEmpty then some .logLevel
  else none

/-- The usual context. -/
def mathContext (s : Settings) : MathContext :=
  ⟨s.precision, s.rounding⟩

/-- The standard source of roundings, with the mode that is set. -/
def roundings (s : Settings) : StandardRoundings :=
  StandardRoundings.initial.withMode s.currencyRounding

end Settings

end Coinage
