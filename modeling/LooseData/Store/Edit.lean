import LooseData.Edit
import LooseData.Layer.Assign
import LooseData.Layer.Select
import LooseData.Store

set_option autoImplicit false

/-! # Changing the collections of a store

The operations of a single level, applied to a collection in its cell. A change is seen
through every slot that refers to the cell.
-/

namespace LooseData.Store

/-- Put a value into fresh cells. -/
def put (v : Value) : Edit Store Slot := modifyGet fun s => place v s

/-- The level of a value that a slot stands for. -/
def layerOf (slot : Slot) : Edit Store (Layer Slot) := do
  pure ((← get).layer slot)

/-- The value that a slot stands for. -/
def valueOf (slot : Slot) : Edit Store Value := do
  pure ((← get).read slot)

/-- Replace the node in a slot's cell. -/
def update (slot : Slot) (n : Node Slot) : Edit Store Unit := modify fun s => s.write slot n

/-- Write a value under a key of the collection in a slot. -/
def assign [Memory] (target : Slot) (key : Value) (value : Slot) : Edit Store Unit := do
  update target (← (← layerOf target).assign key value)

/-- Set a key of the collection in a slot to a default unless it is there. -/
def setDefault [Memory] (target : Slot) (key : Value) (default : Slot) : Edit Store Unit := do
  match ← (← layerOf target).withDefault? key default with
  | some n => update target n
  | none => pure ()

/-- What the collection in a slot holds under a key after that has been set to a default if it
was absent. Where it cannot be set, the default itself. -/
def getOrSet [Memory] (target : Slot) (key : Value) (default : Slot) : Edit Store Slot := do
  setDefault target key default
  let l ← layerOf target
  if ← l.hasKey key then l.access key else pure default

/-- A view of the entries that selectors pick from the collection in a slot; without selectors
the collection itself. -/
def filter (matcher : Matcher) (slot : Slot) (selectors : List Value) : Edit Store Slot := do
  match ← (← layerOf slot).select? matcher selectors with
  | some picked => modifyGet fun s => s.allocate (.view picked slot)
  | none => pure slot

end LooseData.Store
