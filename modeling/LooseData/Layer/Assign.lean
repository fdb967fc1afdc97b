import LooseData.Layer.Lookup
import LooseData.Logged

set_option autoImplicit false

/-! # Writing

`Layer.assign` writes one entry of a collection that can change. A mapping takes every key that
it can hold. A list takes indices: a write at or past its end appends, and the gap is filled with
nulls. A byte buffer takes bytes likewise but cannot fill a gap. An object takes texts as
attribute names, all but two. Nothing else can be written to, except that enumerations, their members
and functions would take attributes; these are values here, and a write to one ends with a fault of
its own.
-/

namespace LooseData

variable {α : Type}

/-- The byte that an atom stands for. -/
def Atom.byte : Option Atom → Except Fault UInt8
  | some (.int i) =>
    if 0 ≤ i ∧ i < 256 then .ok (UInt8.ofNat i.toNat) else .error .byteOutOfRange
  | some (.bool b) => .ok (if b then 1 else 0)
  | _ => .error .notAByte

/-- Attributes with one of them set, in place if it is there and at the end if not. -/
def setAttribute : List (String × α) → String → α → List (String × α)
  | [], name, value => [(name, value)]
  | (n, v) :: rest, name, value =>
    if n = name then (n, value) :: rest else (n, v) :: setAttribute rest name value

namespace Value

/-- The value as a key, or the failure of a mapping to hold it. -/
def mustBeKey (key : Value) : Except Fault Key :=
  match key.key? with
  | some k => .ok k
  | none => .error .unhashable

/-- The value as an index, or the failure of a sequence to be written at it. -/
def mustBeIndex (key : Value) : Except Fault Nat := do
  match ← key.index? with
  | some i => pure i
  | none => throw (.noIndex (← key.display?))

/-- The value as an attribute name. -/
def mustBeName (key : Value) : Except Fault String :=
  match key with
  | .atom (.text s) => .ok s
  | key => .error (.attributeName key.kind)

end Value

/-- Why an object refuses to have the attribute of a name set, if it does: under two names an
object has not an attribute but its class and the table of its attributes. -/
def fixedAttribute? (name : String) : Option Fault :=
  if name = "__class__" then some .notAClass
  else if name = "__dict__" then some .attributeTable
  else none

/-- A name under which an attribute can be set. -/
def checkAttribute (name : String) : Except Fault Unit :=
  match fixedAttribute? name with
  | some fault => .error fault
  | none => .ok ()

/-- A list with the item at an index replaced, or appended after as many copies of `filler` as
are needed to reach the index. -/
def writeAt (items : List α) (index : Nat) (value filler : α) : List α :=
  if index < items.length then items.set index value
  else items ++ List.replicate (index - items.length) filler ++ [value]

/-- The greatest length that is a length at all. -/
def maxLength : Nat := Nat.pow 2 63 - 1

/-- How much room there is for lists. -/
class Memory where
  /-- The longest gap that there is room for. -/
  maxGap : Nat
  maxGap_lt : maxGap < maxLength

namespace Memory

/-- Room for some billions of items. -/
scoped instance large : Memory := ⟨Nat.pow 2 32 - 1, by decide⟩

end Memory

export Memory (maxGap)

/-- Make room for the nulls that fill a gap. -/
def checkGap [Memory] (gap : Nat) : Except Fault Unit :=
  if maxLength < gap then .error .gapOverflow
  else if maxGap < gap then .error .noRoom
  else .ok ()

/-- A byte buffer with the byte at an index replaced or appended. -/
def writeByte (bytes : List UInt8) (index : Nat) (value : Option Atom) :
    Except Fault (List UInt8) :=
  if bytes.length < index then .error .notAByte
  else (Atom.byte value).map fun b =>
    if index < bytes.length then bytes.set index b else bytes ++ [b]

namespace Layer

variable [HoldsAtoms α]

/-- The node that results from writing a value under a key. -/
def assign [Memory] (target : Layer α) (key : Value) (value : α) : Logged (Node α) :=
  match target with
  | .node (.dict entries) => do
    let k ← key.mustBeKey
    pure (.dict (Table.set entries k value))
  | .node (.world w) => do
    let k ← key.mustBeKey
    pure (.world { w with state := Table.set w.state k value })
  | .node (.caseless m) => do
    let label ← key.label?
    pure (.caseless (← m.setLogged label value))
  | .node (.list items) => do
    let i ← key.mustBeIndex
    checkGap (i - items.length)
    pure (.list (writeAt items i value (HoldsAtoms.ofAtom .null)))
  | .node (.buffer bytes) => do
    let i ← key.mustBeIndex
    checkGap (i - bytes.length)
    pure (.buffer (← writeByte bytes i (HoldsAtoms.atom? value)))
  | .node (.object attributes) => do
    let name ← key.mustBeName
    checkAttribute name
    pure (.object (setAttribute attributes name value))
  | .node n => .fail (.immutable n.kind)
  | .atom (.text _) => .fail (.immutable "str")
  | .atom (.bytes _) => .fail (.immutable "bytes")
  | .atom a => do
    checkAttribute (← key.mustBeName)
    .fail (if a.keepsAttributes then .notFollowed else .noAttributes)

/-- Whether every key of a list can be written: a mapping takes them all, a list and a buffer
take indices, nothing else takes any. -/
def acceptsKeys (target : Layer α) (keys : List Value) : Except Fault Bool :=
  match target with
  | .node (.dict _) | .node (.world _) | .node (.caseless _) => .ok true
  | .node (.list _) | .node (.buffer _) => allIndices keys
  | _ => .ok false
where
  /-- Whether all keys are indices; the first that is none decides. -/
  allIndices : List Value → Except Fault Bool
    | [] => .ok true
    | key :: rest => do
      match ← key.index? with
      | some _ => allIndices rest
      | none => pure false

/-- The node that results from setting a key that a layer does not hold yet to a default, or none
if nothing changes. Mappings and objects are written to; sequences, and mappings that cannot
change, stay as they are. -/
def withDefault? [Memory] (target : Layer α) (key : Value) (default : α) : Logged
    (Option (Node α)) := do
  if ← target.hasKey key then pure none
  else match target, key with
    | .node (.dict _), _ | .node (.world _), _ | .node (.caseless _), _
    | .node (.object _), .atom (.text _) => some <$> target.assign key default
    | .node _, _ | .atom (.text _), _ | .atom (.bytes _), _ => pure none
    | .atom _, .atom (.text _) => some <$> target.assign key default
    | .atom _, _ => pure none

end Layer

namespace Value

/-- The value that results from writing a value under a key. -/
def assign [Memory] (target key value : Value) : Logged Value := do
  pure (.node (← target.layer.assign key value))

/-- Whether every item of `keys` can be written. The items are read only if it depends on
them. -/
def acceptsKeys (target keys : Value) : Except Fault Bool :=
  match target with
  | .node (.list _) | .node (.buffer _) => do target.layer.acceptsKeys (← keys.items?)
  | target => target.layer.acceptsKeys []

end Value

end LooseData
