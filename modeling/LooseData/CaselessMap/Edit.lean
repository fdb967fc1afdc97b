import LooseData.Edit
import LooseData.Value.Display

set_option autoImplicit false

/-! # Working with a caseless map of values

The operations of a mapping on a caseless map, with values as keys. A key without letter case
is a fault wherever it has to be folded. An operation that consists of several steps stops at
the first fault and keeps what was done before.
-/

namespace LooseData

namespace CaselessMap

/-- A change of a caseless map of values. -/
abbrev Change (α : Type) := Edit (CaselessMap Value) α

/-- The form under which a key is looked up. A byte buffer has one, though it cannot be looked
up. -/
def foldedKey : Value → Except Fault Value
  | .node (.buffer bytes) => .ok (.node (.buffer (bytes.map Text.lowerByte)))
  | key => key.label?.map fun label => .ofKey (Node.labelKey label.fold)

/-- The value of a key. -/
def find? (m : CaselessMap Value) (key : Value) : Except Fault (Option Value) :=
  key.label?.map m.get?

/-- The value of a key, which must be there. -/
def item (m : CaselessMap Value) (key : Value) : Except Fault Value := do
  match ← m.find? key with
  | some v => pure v
  | none => throw (.missingKey (← key.display?))

/-- Whether a key is there. A key other than a text is not. -/
def contains (m : CaselessMap Value) : Value → Bool
  | .atom (.text s) => m.has (.text s)
  | _ => false

/-- Set a key. -/
def assign (key value : Value) : Change Unit := do
  let label ← key.label?
  .become (← (← get).setLogged label value)

/-- Set keys one after another. -/
def assignAll (entries : List (Except Fault (Value × Value))) : Change Unit :=
  entries.forM fun entry => do
    let (key, value) ← entry
    assign key value

/-- Remove a key if it is there, and tell whether it was. In an empty map nothing is looked up, so
there even a key that can only be folded is merely absent. -/
def remove (key : Value) : Change Bool := do
  let m ← get
  match key.label? with
  | .ok label => do
    .become (← m.deleteLogged label)
    pure (m.has label)
  | .error fault =>
    if fault = .unhashable ∧ m.size = 0 then pure false else .fail fault

/-- Remove a key, which must be there. -/
def removeItem (key : Value) : Change Unit := do
  if ← remove key then pure () else .fail (.missingKey (← key.display?))

/-- Remove a key and return its value, or the default if it is absent and there is a default. -/
def pop (key : Value) (default : Option Value) : Change Value := do
  match ← (← get).find? key, default with
  | some v, _ => do
    removeItem key
    pure v
  | none, some v => pure v
  | none, none => .fail (.missingKey (← key.display?))

/-- Remove the first entry and return it. -/
def popFirst : Change (Label × Value) := do
  let m ← get
  match m.entries with
  | [] => .fail .emptyMap
  | entry :: _ => do
    .become (← m.deleteLogged entry.1)
    pure entry

/-- The value of a key after it has been set to a default if it was absent. -/
def findOrSet (key default : Value) : Change Value := do
  match ← (← get).find? key with
  | some v => pure v
  | none => do
    assign key default
    pure default

/-- Set the entries of a mapping, or the pairs of anything else that can be gone through. -/
def update (entries : Value) : Change Unit := do
  assignAll (← entries.pairs?)

/-- The map made of the entries of a mapping or of pairs. -/
def ofValue (entries : Value) (silent : Bool) : Logged (CaselessMap Value) :=
  let (done, m) := (update entries).run (empty silent)
  do
    done
    pure m

/-- The map made of the entries of a mapping or the attributes of an object. A function is an
object without attributes. -/
def ofObject : Value → Logged (CaselessMap Value)
  | .node (.object attributes) =>
    ofValue (.list (attributes.map fun a => .node (.tuple [.text a.1, a.2]))) false
  | .node n =>
    if n.isMapping then ofValue (.node n) false else .fail .notIterable
  | .atom (.function _) => pure (empty false)
  | .atom _ => .fail .notIterable

/-- What a function gives for the entries one after another. It may change the map, but it is the
entries from before that are gone through. -/
def forEach {β : Type} (f : Value → Label → Change β) : Change (List β) := do
  (← get).entries.mapM fun e => f e.2 e.1

/-- The entries as a dictionary. -/
def toDict (m : CaselessMap Value) : Value :=
  .dict (Table.ofList (m.entries.map fun e => (Node.labelKey e.1, e.2)))

end CaselessMap

end LooseData
