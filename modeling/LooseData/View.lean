import LooseData.World

set_option autoImplicit false

/-! # Views

A view shows a selection of entries as a mapping and keeps the collection that they were
selected from. A lookup of something that was not selected falls back on that collection.
-/

namespace LooseData.View

/-- The value of a selected key, else what the fallback holds under the key, else the
default. -/
def find (selected : Table Value) (fallback key default : Value) : Except Fault Value := do
  match ← Table.find? selected key with
  | some v => pure v
  | none => if ← fallback.hasKey key then fallback.access key else pure default

/-- Whether a key is selected. -/
def isOwn (selected : Table Value) (key : Value) : Except Fault Bool :=
  (Table.find? selected key).map Option.isSome

end LooseData.View
