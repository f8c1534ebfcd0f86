/-!
# JSON values

Values as they stand in a text: the fields of an object keep their order, and a number is an integer
of 64 bits or a double.
-/

namespace Coinage

inductive Json where
  | null
  | bool (b : Bool)
  /-- An integer, with a sign or without one, of 64 bits. -/
  | integer (n : Int)
  /-- Any other number, as the bit pattern of a double. -/
  | real (bits : Nat)
  | string (s : String)
  | array (items : List Json)
  | object (fields : List (String × Json))
deriving Inhabited

namespace Json

/-- The value of a field, the last one if the name is repeated. -/
def field? (name : String) : Json → Option Json
  | object fields => (fields.reverse.find? fun f => f.1 == name).map Prod.snd
  | _ => none

/-- A natural number, for a small non-negative integer. -/
def toNat? : Json → Option Nat
  | integer n => if 0 ≤ n then some n.toNat else none
  | _ => none

def toText? : Json → Option String
  | string s => some s
  | _ => none

def toItems? : Json → Option (List Json)
  | array items => some items
  | _ => none

instance : Coe String Json := ⟨string⟩

instance : Coe Bool Json := ⟨bool⟩

instance : Coe Int Json := ⟨integer⟩

def ofNat (n : Nat) : Json :=
  integer n

end Json

end Coinage
