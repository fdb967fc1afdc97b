import LooseData.Tag.Parser

set_option autoImplicit false

/-! # Registries that live side by side

A program works with several registries, each known by its number, and one shared registry that
every parser without a registry of its own uses. The shared registry is made when it is first
needed and starts with the library's handlers; discarding it makes the next use start afresh.

The handlers of a registry are in a table that the registry refers to by an address, so a change of
a registry is seen by every registry that refers to the same table.
-/

namespace LooseData.Tag

/-- Tables of handlers by their addresses, and registries by their numbers. -/
structure Registries where
  tables : Array (CaselessMap Value)
  /-- The address of the table that each registry refers to. -/
  all : Array Nat
  /-- The number of the shared registry, once it is made. -/
  shared : Option Nat

namespace Registries

/-- No registries. -/
def empty : Registries := ⟨#[], #[], none⟩

/-- A change of registries. -/
abbrev Change (α : Type) := Edit Registries α

/-- The registry with a number. -/
def registry (rs : Registries) (number : Nat) : Registry :=
  match rs.all[number]? with
  | some address => ⟨rs.tables.getD address (.empty true)⟩
  | none => .empty

/-- The registries with one more, which refers to a new table. -/
def extend (rs : Registries) (r : Registry) : Registries :=
  { rs with tables := rs.tables.push r.handlers, all := rs.all.push rs.tables.size }

/-- The registries after the table that one of them refers to has been replaced. -/
def write (rs : Registries) (number : Nat) (r : Registry) : Registries :=
  match rs.all[number]? with
  | some address => { rs with tables := rs.tables.setIfInBounds address r.handlers }
  | none => rs

/-- Add a registry; its number is returned. -/
def add (r : Registry) : Change Nat := modifyGet fun rs => (rs.all.size, rs.extend r)

/-- The number of the shared registry, which is made if it does not exist. -/
def sharedNumber : Change Nat := do
  match (← get).shared with
  | some number => pure number
  | none => do
    let number ← add Registry.standard
    modify fun rs => { rs with shared := some number }
    pure number

/-- Discard the shared registry. -/
def resetShared : Change Unit := modify fun rs => { rs with shared := none }

/-- Apply a change to the registry with a number. -/
def change {α : Type} (number : Nat) (x : Registry.Change α) : Change α := fun rs =>
  let (done, r) := x.run (rs.registry number)
  (done, rs.write number r)

/-- Add a copy of the registry with a number. -/
def copy (number : Nat) : Change Nat := do
  let r ← ((← get).registry number).copy
  add r

/-- The number of a registry of one's own, or else of the shared one. -/
def numberOf (own : Option Nat) : Change Nat :=
  match own with
  | some number => pure number
  | none => sharedNumber

/-- Evaluate a value with the handlers of a registry of one's own, or else of the shared one. -/
def evaluate (p : Parser) (functions : Functions) (own : Option Nat) (v : Value) :
    Change Value := do
  let number ← numberOf own
  p.evaluate functions ((← get).registry number) v

end Registries

end LooseData.Tag
