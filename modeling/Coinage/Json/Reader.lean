import Coinage.Json.Number
/-!
# Reading JSON

A recursive reader over characters. Each step of it takes some characters and leaves the rest. The
bound that it counts down falls at most twice for each character, so twice the length is enough.
-/

namespace Coinage

namespace Json

/-- A text without the blanks that may stand between tokens. -/
def skipBlanks (s : List Char) : List Char :=
  s.dropWhile fun c => c == ' ' || c == '\n' || c == '\t' || c == '\r'

/-- The value of a hexadecimal digit. -/
def hexValue? (c : Char) : Option Nat :=
  if '0' ≤ c ∧ c ≤ '9' then some (c.toNat - '0'.toNat)
  else if 'a' ≤ c ∧ c ≤ 'f' then some (c.toNat - 'a'.toNat + 10)
  else if 'A' ≤ c ∧ c ≤ 'F' then some (c.toNat - 'A'.toNat + 10)
  else none

/-- The value of hexadecimal digits. -/
def hexNumber? (s : List Char) : Option Nat :=
  s.foldlM (fun n c => (hexValue? c).map (16 * n + ·)) 0

/-- The character behind a backslash that stands for one letter. -/
def simpleEscape? (c : Char) : Option Char :=
  if c = '"' ∨ c = '\\' ∨ c = '/' then some c
  else if c = 'b' then some (Char.ofNat 8)
  else if c = 'f' then some (Char.ofNat 12)
  else if c = 'n' then some '\n'
  else if c = 'r' then some '\r'
  else if c = 't' then some '\t'
  else none

/-- The characters up to the closing quote, and what follows it. -/
def readChars : List Char → Option (List Char × List Char)
  | '"' :: rest => some ([], rest)
  | '\\' :: 'u' :: a :: b :: c :: d :: '\\' :: 'u' :: e :: f :: g :: h :: rest => do
    let high ← hexNumber? [a, b, c, d]
    let low ← hexNumber? [e, f, g, h]
    let (tail, left) ← readChars rest
    if 0xD800 ≤ high ∧ high < 0xDC00 ∧ 0xDC00 ≤ low ∧ low < 0xE000 then
      return (Char.ofNat (0x10000 + (high - 0xD800) * 0x400 + (low - 0xDC00)) :: tail, left)
    else return (Char.ofNat high :: Char.ofNat low :: tail, left)
  | '\\' :: 'u' :: a :: b :: c :: d :: rest => do
    let code ← hexNumber? [a, b, c, d]
    let (tail, left) ← readChars rest
    return (Char.ofNat code :: tail, left)
  | '\\' :: c :: rest => do
    let escaped ← simpleEscape? c
    let (tail, left) ← readChars rest
    return (escaped :: tail, left)
  | c :: rest => do
    let (tail, left) ← readChars rest
    return (c :: tail, left)
  | [] => none

/-- Whether a character can stand in a number. -/
def isNumberChar (c : Char) : Bool :=
  ('0' ≤ c && c ≤ '9') || c == '-' || c == '+' || c == '.' || c == 'e' || c == 'E'

/-- A given word at the start of a text, and what follows it. -/
def readWord (word : List Char) (value : Json) (s : List Char) : Option (Json × List Char) :=
  if word.isPrefixOf s then some (value, s.drop word.length) else none

mutual

/-- One value at the start of a text, and what follows it. -/
def readValue : Nat → List Char → Option (Json × List Char)
  | 0, _ => none
  | fuel + 1, s =>
    match skipBlanks s with
    | '"' :: rest => (readChars rest).map fun (chars, left) => (string (String.ofList chars), left)
    | '[' :: rest =>
      match skipBlanks rest with
      | ']' :: left => some (array [], left)
      | rest => (readItems fuel rest).map fun (items, left) => (array items, left)
    | '\x7b' :: rest =>
      match skipBlanks rest with
      | '\x7d' :: left => some (object [], left)
      | rest => (readFields fuel rest).map fun (fields, left) => (object fields, left)
    | 'n' :: rest => readWord ['n', 'u', 'l', 'l'] null ('n' :: rest)
    | 't' :: rest => readWord ['t', 'r', 'u', 'e'] (bool true) ('t' :: rest)
    | 'f' :: rest => readWord ['f', 'a', 'l', 's', 'e'] (bool false) ('f' :: rest)
    | rest => (number? (rest.takeWhile isNumberChar)).map fun n => (n, rest.dropWhile isNumberChar)

/-- The items of an array up to its closing bracket. -/
def readItems : Nat → List Char → Option (List Json × List Char)
  | 0, _ => none
  | fuel + 1, s => do
    let (item, rest) ← readValue fuel s
    match skipBlanks rest with
    | ',' :: rest => (readItems fuel rest).map fun (items, left) => (item :: items, left)
    | ']' :: left => some ([item], left)
    | _ => none

/-- The fields of an object up to its closing brace. -/
def readFields : Nat → List Char → Option (List (String × Json) × List Char)
  | 0, _ => none
  | fuel + 1, s => do
    match skipBlanks s with
    | '"' :: rest =>
      let (name, rest) ← readChars rest
      match skipBlanks rest with
      | ':' :: rest =>
        let (value, rest) ← readValue fuel rest
        match skipBlanks rest with
        | ',' :: rest =>
          (readFields fuel rest).map fun (fields, left) => ((String.ofList name, value) :: fields, left)
        | '\x7d' :: left => some ([(String.ofList name, value)], left)
        | _ => none
      | _ => none
    | _ => none

end

/-- The value that a text is, blanks at its ends aside. -/
def ofText? (s : String) : Option Json :=
  match readValue (2 * s.length + 2) s.toList with
  | some (value, rest) => if (skipBlanks rest).isEmpty then some value else none
  | none => none

end Json

end Coinage
