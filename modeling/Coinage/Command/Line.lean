import Coinage.Command.Run
import Coinage.Json.Writer
/-!
# Command lines

The words of a command line as options and operands. An option's value follows it as a word of its
own or is attached to it; a word that starts with a dash is an option wherever it stands, until two
dashes alone end the options. Every option may be given once, except for those that form a list.

A word that asks for help ends the reading: what stands behind it does not matter, and what is missing
neither. What stands before it has to keep the rules.
-/

namespace Coinage

namespace Command

/-- An option that a command knows. -/
structure OptionSpec where
  long : String
  short : Option Char := none
  takesValue : Bool := true
  repeatable : Bool := false
  /-- The words that may be its value. -/
  accepts : String → Bool := fun _ => true

/-- What may stand behind the name of a command. -/
structure CommandSpec where
  options : List OptionSpec
  /-- For each operand in turn, the words that it may be. -/
  operands : List (String → Bool)

/-- What a word, or an option with its value, says. -/
inductive Item where
  | operand (word : String)
  | flag (name : String)
  | value (name word : String)
deriving DecidableEq, Repr

/-- Why the words are no command. -/
inductive LineFault where
  /-- The words break the rules of the command line. -/
  | usage
  /-- The words ask for help. -/
  | help
deriving DecidableEq, Repr

/-- Whether a word is read as an option. A dash alone is a word like any other. -/
def looksLikeOption (word : List Char) : Bool :=
  match word with
  | ['-'] => false
  | '-' :: _ => true
  | _ => false

def findLong (specs : List OptionSpec) (name : String) : Option OptionSpec :=
  specs.find? fun spec => spec.long == name

def findShort (specs : List OptionSpec) (name : Char) : Option OptionSpec :=
  specs.find? fun spec => spec.short == some name

/-- What a word says of the options. -/
inductive WordReading where
  | items (items : List Item)
  /-- The value of the option is the next word. -/
  | awaits (items : List Item) (name : String)
  /-- The word asks for help, behind some items. -/
  | help (items : List Item)
  | unknown

/-- Reads a long option, given without its dashes. -/
def readLong (specs : List OptionSpec) (body : List Char) : WordReading :=
  let name := String.ofList (body.takeWhile (· != '='))
  let attached := match body.dropWhile (· != '=') with
    | _ :: value => some (String.ofList value)
    | [] => none
  match findLong specs name, attached with
  | none, _ => if name = "help" ∧ attached.isNone then .help [] else .unknown
  | some spec, some value => if spec.takesValue then .items [.value spec.long value] else .unknown
  | some spec, none => if spec.takesValue then .awaits [] spec.long else .items [.flag spec.long]

/-- Reads short options, given without their dash: flags, and at the end perhaps an option with its
value, an equals sign between them or not. -/
def readShort (specs : List OptionSpec) : List Char → WordReading
  | [] => .items []
  | c :: rest =>
    match findShort specs c with
    | none => if c = 'h' then .help [] else .unknown
    | some spec =>
      if spec.takesValue then
        match rest with
        | [] => .awaits [] spec.long
        | '=' :: value => .items [.value spec.long (String.ofList value)]
        | value => .items [.value spec.long (String.ofList value)]
      else
        match readShort specs rest with
        | .items items => .items (.flag spec.long :: items)
        | .awaits items name => .awaits (.flag spec.long :: items) name
        | .help items => .help (.flag spec.long :: items)
        | .unknown => .unknown

def readWord (specs : List OptionSpec) (word : String) : WordReading :=
  match word.toList with
  | '-' :: '-' :: body => readLong specs body
  | ['-'] => .items [.operand word]
  | '-' :: body => readShort specs body
  | _ => .items [.operand word]

/-! ### Items -/

def operandWords (items : List Item) : List String :=
  items.filterMap fun
    | .operand word => some word
    | _ => none

/-- The values of an option among some items. -/
def values (items : List Item) (name : String) : List String :=
  items.filterMap fun
    | .value n word => if n = name then some word else none
    | _ => none

def hasFlag (items : List Item) (name : String) : Bool :=
  items.contains (.flag name)

/-- How often an option is given. -/
def occurrences (items : List Item) (name : String) : Nat :=
  items.countP fun
    | .operand _ => false
    | .flag n => n == name
    | .value n _ => n == name

/-- Whether some items keep the rules of an option: its values are accepted, and it is given once
unless it forms a list. -/
def OptionSpec.admits (spec : OptionSpec) (items : List Item) : Bool :=
  (spec.repeatable || decide (occurrences items spec.long ≤ 1)) && (values items spec.long).all spec.accepts

/-- Whether words may be the first operands of a command. -/
def admitOperands : List (String → Bool) → List String → Bool
  | _, [] => true
  | [], _ :: _ => false
  | accepts :: specs, word :: words => accepts word && admitOperands specs words

/-- Whether some items keep the rules of a command. There may be too few of them. -/
def CommandSpec.admits (spec : CommandSpec) (items : List Item) : Bool :=
  spec.options.all (fun option => option.admits items) && admitOperands spec.operands (operandWords items)

/-! ### Words -/

/-- Reads the words of a command behind the items `taken`. -/
def readWords (spec : CommandSpec) (taken : List Item) : List String → Except LineFault (List Item)
  | [] => .ok taken
  | word :: rest =>
    if word = "--" then .ok (taken ++ rest.map .operand)
    else
      match readWord spec.options word with
      | .unknown => .error .usage
      | .help items => .error (if spec.admits (taken ++ items) then .help else .usage)
      | .items items => readWords spec (taken ++ items) rest
      | .awaits items name =>
        match rest with
        | [] => .error .usage
        | value :: rest =>
          if looksLikeOption value.toList then .error .usage
          else readWords spec (taken ++ items ++ [.value name value]) rest

/-- Reads the words of a command and checks that they keep its rules. -/
def readItems (spec : CommandSpec) (words : List String) : Except LineFault (List Item) := do
  let items ← readWords spec [] words
  if spec.admits items then return items else .error .usage

/-! ### Invocations -/

/-- A command with its arguments. -/
inductive Invocation where
  | calculate (left : String) (op : Operation) (right code : String) (kind : AmountKind)
  | round (value code : String) (scale : Option Int) (mode : Option String) (cash : Bool)
  | convert (value : String) (rates : List String) (factor : Option String) (rounded : Bool) (kind : AmountKind)
deriving DecidableEq, Repr

/-- The option that asks for a report as JSON. -/
def jsonOption : OptionSpec := { long := "json", takesValue := false }

def currencyOption : OptionSpec := { long := "currency", short := some 'c' }

/-- The words for the representations. -/
def kindWord : AmountKind → String
  | .money => "money"
  | .rounded => "rounded"
  | .fast => "fast"

def kindOfWord? (word : String) : Option AmountKind :=
  AmountKind.all.find? fun kind => kindWord kind == word

/-- An integer of 32 bits; a sign may stand before it. -/
def parseScale (s : String) : Option Int :=
  let (negative, digits) := Decimal.splitSign s.toList
  if digits.isEmpty then none
  else
    match digits.foldlM (fun n c => (Decimal.digitValue? c).map (10 * n + ·)) 0 with
    | none => none
    | some n =>
      let value := Decimal.withSign negative n
      if -(2 ^ 31) ≤ value ∧ value < 2 ^ 31 then some value else none

/-- The option that names a representation. -/
def kindOption : OptionSpec :=
  { long := "kind", short := some 'k', accepts := fun word => (kindOfWord? word).isSome }

/-- The option that names a number of places. -/
def scaleOption : OptionSpec :=
  { long := "scale", accepts := fun word => (parseScale word).isSome }

/-- An operand that may be any word. -/
def anyWord : String → Bool := fun _ => true

/-- What a calculation is made of. -/
def calcSpec : CommandSpec where
  options := [jsonOption, currencyOption, kindOption]
  operands := [anyWord, fun word => (Operation.ofName? word).isSome, anyWord]

def roundSpec : CommandSpec where
  options := [jsonOption, currencyOption, scaleOption, { long := "mode" }, { long := "cash", takesValue := false }]
  operands := [anyWord]

def convertSpec : CommandSpec where
  options :=
    [jsonOption, { long := "rate", short := some 'r', repeatable := true }, { long := "factor" },
      { long := "round", takesValue := false }, kindOption]
  operands := [anyWord]

/-- The code of the currency that is used where none is given. -/
def defaultCode : String := "EUR"

/-- The code of the currency that is asked for. -/
def readCode (items : List Item) : String :=
  (values items "currency").head?.getD defaultCode

/-- The representation that is asked for. -/
def readKind (items : List Item) : Except LineFault AmountKind :=
  match values items "kind" with
  | word :: _ =>
    match kindOfWord? word with
    | some kind => .ok kind
    | none => .error .usage
  | [] => .ok .money

/-- The number of places that is asked for. -/
def readScale (items : List Item) : Except LineFault (Option Int) :=
  match values items "scale" with
  | word :: _ =>
    match parseScale word with
    | some places => .ok (some places)
    | none => .error .usage
  | [] => .ok none

/-- Reads the words of a calculation. -/
def readCalc (words : List String) : Except LineFault (Bool × Invocation) := do
  let items ← readItems calcSpec words
  let kind ← readKind items
  match operandWords items with
  | [left, op, right] =>
    match Operation.ofName? op with
    | some op => return (hasFlag items "json", .calculate left op right (readCode items) kind)
    | none => .error .usage
  | _ => .error .usage

def readRound (words : List String) : Except LineFault (Bool × Invocation) := do
  let items ← readItems roundSpec words
  let scale ← readScale items
  match operandWords items with
  | [value] =>
    return (hasFlag items "json",
      .round value (readCode items) scale (values items "mode").head? (hasFlag items "cash"))
  | _ => .error .usage

def readConvert (words : List String) : Except LineFault (Bool × Invocation) := do
  let items ← readItems convertSpec words
  let kind ← readKind items
  match operandWords items, values items "rate" with
  | [value], rate :: rates =>
    return (hasFlag items "json",
      .convert value (rate :: rates) (values items "factor").head? (hasFlag items "round") kind)
  | _, _ => .error .usage

/-- What comes of asking for help with some words: there is help for the program and for each of its
commands, itself among them. -/
def askHelp : List String → LineFault
  | [] => .help
  | [name] => if ["calc", "round", "convert", "help"].contains name then .help else .usage
  | _ => .usage

/-- Reads the words behind the name of a command; tells whether its report is wanted as JSON. -/
def readCommand (name : String) (words : List String) : Except LineFault (Bool × Invocation) :=
  if name = "calc" then readCalc words
  else if name = "round" then readRound words
  else if name = "convert" then readConvert words
  else if name = "help" then .error (askHelp words)
  else .error .usage

/-- Reads a command line; tells whether its report is wanted as JSON. Before the name of the command
only that option may stand, once. -/
def readLine (json : Bool) : List String → Except LineFault (Bool × Invocation)
  | [] => .error .usage
  | word :: rest =>
    match readWord [jsonOption] word with
    | .items [.operand name] => (readCommand name rest).map fun (more, invocation) => (json || more, invocation)
    | .items [.flag _] => if json then .error .usage else readLine true rest
    | .help _ => .error .help
    | _ => .error .usage

def Invocation.run (settings : Settings) : Invocation → Result Report
  | calculate left op right code kind => Command.calculate settings left op right code kind
  | round value code scale mode cash => Command.round settings value code scale mode cash
  | convert value rates factor rounded kind => Command.convert settings value rates factor rounded kind

/-! ### The program -/

/-- How a run of the program ends. -/
structure Exit where
  code : Nat
  output : String := ""
  errors : String := ""
deriving DecidableEq, Repr

/-- Lines, each ended. -/
def endLines (lines : List String) : String :=
  String.join (lines.map (· ++ "\n"))

/-- A text whose lines are moved to the right by four blanks. -/
def indentLines (s : String) : String :=
  "    " ++ String.ofList (s.toList.flatMap fun c => if c = '\n' then '\n' :: List.replicate 4 ' ' else [c])

/-- A failed run: the message and what caused it. -/
def failWith : List String → Exit
  | [] => { code := 1, errors := "Error: \n" }
  | [message] => { code := 1, errors := s!"Error: {message}\n" }
  | message :: causes =>
    { code := 1, errors := s!"Error: {message}\n\nCaused by:\n" ++ endLines (causes.map indentLines) }

/-- A failed run because of the settings. -/
def failSettings (message : String) : Exit :=
  failWith [s!"Configuration error: {message}"]

def render (json : Bool) (r : Report) : String :=
  if json then r.toJson.pretty ++ "\n" else endLines r.lines

/-- Runs the program. The settings are read and checked before the words are looked at. -/
def execute (lookup : String → Option String) (words : List String) : Exit :=
  match Settings.loadStrict lookup with
  | .error rejection => failSettings rejection.message
  | .ok settings =>
    match settings.flaw? with
    | some flaw => failSettings flaw.message
    | none =>
      match readLine false words with
      | .error .help => { code := 0 }
      | .error .usage => { code := 2, errors := "error: the command line is not understood\n" }
      | .ok (json, invocation) =>
        match invocation.run settings with
        | .ok report => { code := 0, output := render json report }
        | .error failure => failWith failure.messages

end Command

end Coinage
