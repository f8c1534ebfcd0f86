import Coinage.Json.Basic
import Coinage.Binary.Shortest
/-!
# Writing JSON

Two layouts of one value: compact, without any blanks, and indented by two blanks for each level. An
empty array or object is written on one line in both. In strings only the quote, the backslash and
the control characters are escaped.
-/

namespace Coinage

namespace Json

/-- The lower-case hexadecimal digits of a control character, two of them. -/
def controlDigits (n : Nat) : List Char :=
  let digits := Nat.toDigits 16 n
  List.replicate (2 - digits.length) '0' ++ digits

/-- A character as it stands between the quotes. -/
def escape (c : Char) : List Char :=
  if c = '"' then ['\\', '"']
  else if c = '\\' then ['\\', '\\']
  else if c = '\n' then ['\\', 'n']
  else if c = '\r' then ['\\', 'r']
  else if c = '\t' then ['\\', 't']
  else if c.toNat = 8 then ['\\', 'b']
  else if c.toNat = 12 then ['\\', 'f']
  else if c.toNat < 32 then ['\\', 'u', '0', '0'] ++ controlDigits c.toNat
  else [c]

def quote (s : String) : String :=
  String.ofList ('"' :: s.toList.flatMap escape ++ ['"'])

/-- A double by its shortest decimal; the exponent tells it from an integer. -/
def writeReal (bits : Nat) : String :=
  String.ofList (Binary.written Binary.double (Binary.decode Binary.double bits) ++ ['e', '0'])

/-- Texts with a comma between them. -/
def joinWith (separator : String) : List String → String
  | [] => ""
  | [s] => s
  | s :: rest => s ++ separator ++ joinWith separator rest

mutual

/-- The value without blanks. -/
def compact : Json → String
  | null => "null"
  | bool b => if b then "true" else "false"
  | integer n => toString n
  | real bits => writeReal bits
  | string s => quote s
  | array items => "[" ++ joinWith "," (compactItems items) ++ "]"
  | object fields => "\x7b" ++ joinWith "," (compactFields fields) ++ "\x7d"

/-- The items of an array without blanks. -/
def compactItems : List Json → List String
  | [] => []
  | item :: rest => compact item :: compactItems rest

/-- The fields of an object without blanks. -/
def compactFields : List (String × Json) → List String
  | [] => []
  | (name, value) :: rest => (quote name ++ ":" ++ compact value) :: compactFields rest

end

/-- The blanks in front of a line at some depth. -/
def indent (depth : Nat) : String :=
  String.ofList (List.replicate (2 * depth) ' ')

/-- Lines between two brackets, or the brackets alone. -/
def block (opening closing : String) (depth : Nat) : List String → String
  | [] => opening ++ closing
  | lines =>
    opening ++ "\n" ++ joinWith ",\n" (lines.map fun l => indent (depth + 1) ++ l) ++ "\n" ++ indent depth ++
      closing

mutual

/-- The value on indented lines, at some depth. -/
def indented (depth : Nat) : Json → String
  | null => "null"
  | bool b => if b then "true" else "false"
  | integer n => toString n
  | real bits => writeReal bits
  | string s => quote s
  | array items => block "[" "]" depth (indentedItems (depth + 1) items)
  | object fields => block "\x7b" "\x7d" depth (indentedFields (depth + 1) fields)

def indentedItems (depth : Nat) : List Json → List String
  | [] => []
  | item :: rest => indented depth item :: indentedItems depth rest

def indentedFields (depth : Nat) : List (String × Json) → List String
  | [] => []
  | (name, value) :: rest =>
    (quote name ++ ": " ++ indented depth value) :: indentedFields depth rest

end

/-- The value on indented lines. -/
def pretty (j : Json) : String :=
  indented 0 j

end Json

end Coinage
