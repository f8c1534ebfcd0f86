import Coinage.Currency.Iso
/-!
# Currency registries

A registry holds one unit under each code, the one that was registered first; units are never replaced
and never removed. A handle is a unit together with a serial number that tells apart units which were
made separately: handles that a registry gives out for a code all have one serial number.
-/

namespace Coinage

namespace Currency

/-- A currency together with the number of its making. -/
structure Handle where
  unit : Currency
  serial : Nat

/-- Whether two handles are of one making. -/
def Handle.isSame (a b : Handle) : Bool :=
  a.serial == b.serial

/-- The units registered so far under their codes, the latest first. -/
structure Registry where
  entries : List (String × Handle) := []

namespace Registry

/-- A registry without units. -/
def empty : Registry := {}

/-- A registry of the known currencies, numbered from `firstSerial` on. -/
def ofIso (firstSerial : Nat) : Registry where
  entries := iso.zipIdx.map fun (unit, i) => (unit.code, ⟨unit, firstSerial + i⟩)

/-- The registry that is asked where no other is named. -/
def standard : Registry := ofIso 0

/-- The unit registered under a code. -/
def get? (r : Registry) (code : String) : Option Handle :=
  r.entries.lookup code

def contains (r : Registry) (code : String) : Bool :=
  (r.get? code).isSome

/-- The unit registered under a code; a code that is not registered is refused. -/
def get (r : Registry) (code : String) : Outcome Handle :=
  match r.get? code with
  | some h => .ok h
  | none => .error (.unknownCurrency code)

/-- Registers a unit unless its code has one already, and gives the unit of that code. -/
def register (r : Registry) (h : Handle) : Handle × Registry :=
  match r.get? h.unit.code with
  | some present => (present, r)
  | none => (h, ⟨(h.unit.code, h) :: r.entries⟩)

/-- A call on a registry that may be refused. What it has registered until then stays registered. -/
abbrev Registering := ExceptT AmountError (StateM Registry)

/-- Builds a unit and registers it, under a new serial number. -/
def enter (d : Draft) (serial : Nat) : Registering Handle := do
  let unit ← liftExcept d.build
  modifyGet fun r => r.register ⟨unit, serial⟩

/-- The unit that was built, or the one that its code had, and the registry after that. -/
def buildAndRegister (r : Registry) (d : Draft) (serial : Nat) : Outcome (Handle × Registry) :=
  match (enter d serial).run.run r with
  | (.ok h, after) => .ok (h, after)
  | (.error cause, _) => .error cause

/-- All registered codes, in ascending order. -/
def codes (r : Registry) : List String :=
  (r.entries.map Prod.fst).mergeSort fun a b => decide (a ≤ b)

/-- How many units are registered. -/
def size (r : Registry) : Nat :=
  r.entries.length

def isEmpty (r : Registry) : Bool :=
  r.entries.isEmpty

end Registry

end Currency

end Coinage
