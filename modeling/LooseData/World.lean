import LooseData.Layer.Assign
import LooseData.Tag.Parser
import LooseData.Value.Equality

set_option autoImplicit false

/-! # Worlds

A world is the state of a running scenario together with its configuration. The entries of the
state can be reached as items and, unless their names are reserved, as attributes. The
configuration is fixed when the world is made.
-/

namespace LooseData

namespace Table

/-- The value under a key that is given as a value. Only a key that a mapping can hold may be
asked for. -/
def find? (t : Table Value) (key : Value) : Except Fault (Option Value) :=
  key.mustBeKey.map fun k => get? t k

/-- The value under a key, which must be there. -/
def item (t : Table Value) (key : Value) : Except Fault Value := do
  match ← find? t key with
  | some v => pure v
  | none => throw (.missingKey (← key.display?))

end Table

/-- What an attribute of a world is. -/
inductive World.Attribute where
  | value (v : Value)
  /-- A function of the world itself. -/
  | method

namespace World

/-- The entries of a configuration given as a mapping or as pairs. Something that counts as
false stands for no entries. -/
def configEntries (config : Value) : Except Fault (Table Value) :=
  if config.truthy then do
    (← config.pairs?).foldlM (fun entries pair => do
      let (key, v) ← pair
      pure (Table.set entries (← key.mustBeKey) v)) []
  else .ok []

/-- The names under which a new world is given its own parts, so that no entry can be given
under them from the start. -/
def ownNames : List String := ["self", "config"]

/-- The world with a configuration and a state. -/
def make (config : Value) (state : Table Value) : Except Fault (World Value) :=
  if ownNames.any fun name => Table.has state (.text name) then .error .wrongType
  else (configEntries config).map fun entries => ⟨entries, state⟩

/-- The world as a value. -/
def toValue (w : World Value) : Value := .node (.world w)

/-- The configuration as a read-only mapping. -/
def configValue (w : World Value) : Value := .node (.frozen w.config)

/-- The functions of a world, which hide entries of the same names. -/
def methods : List String :=
  ["parse", "keys", "values", "items", "get", "pop", "popitem", "clear", "update", "setdefault"]

/-- The names, besides those with a leading low line, that no attribute may be set under: those
of the functions and the configuration, and two that belong to the class of worlds. -/
def reserved : List String := "config" :: "mro" :: "register" :: methods

/-- An attribute. The two parts of a world are also there under names with a low line. -/
def attr (w : World Value) (name : String) : Except Fault Attribute :=
  if name = "config" ∨ name = "_config" then .ok (.value w.configValue)
  else if name = "_state" then .ok (.value (.dict w.state))
  else if methods.contains name then .ok .method
  else if hiddenName name then .error (.privateAttribute name)
  else match Table.get? w.state (.text name) with
    | some v => .ok (.value v)
    | none => .error (.missingAttribute name)

/-- A change of a world. -/
abbrev Change (α : Type) := Edit (World Value) α

/-- Change the state of a world. -/
def modifyState (f : Table Value → Table Value) : Change Unit :=
  modify fun w => { w with state := f w.state }

/-- Set an item. -/
def assign (key v : Value) : Change Unit := do
  let k ← key.mustBeKey
  modifyState fun t => Table.set t k v

/-- Remove an item, which must be there. -/
def remove (key : Value) : Change Unit := do
  let k ← key.mustBeKey
  if Table.has (← get).state k then modifyState fun t => Table.erase t k
  else .fail (.missingKey (← key.display?))

/-- Set an attribute, unless its name is reserved. -/
def setAttr (name : String) (v : Value) : Change Unit :=
  if hiddenName name || reserved.contains name then .fail (.readOnlyAttribute name)
  else modifyState fun t => Table.set t (.text name) v

/-- Remove the item that an attribute shows. -/
def removeAttr (name : String) : Change Unit := do
  if Table.has (← get).state (.text name) then modifyState fun t => Table.erase t (.text name)
  else .fail (.missingAttribute name)

/-- Remove an item and return its value, or the default if it is absent and there is one. -/
def pop (key : Value) (default : Option Value) : Change Value := do
  match ← Table.find? (← get).state key, default with
  | some v, _ => do
    remove key
    pure v
  | none, some v => pure v
  | none, none => .fail (.missingKey (← key.display?))

/-- Remove the first item and return it. -/
def popFirst : Change (Key × Value) := do
  match (← get).state with
  | [] => .fail .emptyMap
  | entry :: _ => do
    modifyState fun t => Table.erase t entry.1
    pure entry

/-- The value of an item after it has been set to a default if it was absent. -/
def findOrSet (key default : Value) : Change Value := do
  match ← Table.find? (← get).state key with
  | some v => pure v
  | none => do
    assign key default
    pure default

/-- Set the entries of a mapping, or the pairs of anything else that can be gone through. -/
def update (entries : Value) : Change Unit := do
  (← entries.pairs?).forM fun pair => do
    let (key, v) ← pair
    assign key v

/-- Remove all items. -/
def clear : Change Unit := modifyState fun _ => []

/-- The parser of a world: it looks things up in the world and in its configuration. -/
def parser (w : World Value) (maxDepth : Option Int) : Tag.Parser :=
  ⟨w.toValue, w.configValue, maxDepth⟩

end World

end LooseData
