import LooseData.Layer.Index

set_option autoImplicit false

/-! # Looking things up

A lookup is lenient: what is missing is `none` and no failure. In a mapping a key is looked up as
it is and, if it is a text of digits, as the number that it stands for. A sequence is indexed,
and an object is asked for an attribute whose name does not start with a low line. The only
failures are those of reading a text of digits as a number.

`Layer.lookup` finds whatever is there. `Layer.access` is the same except that the null key finds
nothing.
-/

namespace LooseData

/-- Whether an attribute is kept from lookups: its name starts with a low line. -/
def hiddenName (name : String) : Bool := name.startsWith "_"

/-- The name of an attribute that can be looked up. -/
def Value.publicName? : Value → Option String
  | .atom (.text s) => if hiddenName s then none else some s
  | _ => none

namespace Layer

variable {α : Type}

/-- The entry of a mapping for a key, or else for the number that the key stands for. -/
def lookupEntry (n : Node α) (key : Value) : Except Fault (Option α) :=
  match key.key? with
  | none => .ok none
  | some k => match n.item? k with
    | some v => .ok (some v)
    | none => key.numericKey?.map fun i => i.bind fun i => n.item? (.int i)

variable [HoldsAtoms α]

/-- Whatever a layer holds under a key. -/
def lookup (l : Layer α) (key : Value) : Except Fault (Option α) :=
  match l.sequence? with
  | some items => key.index?.map fun i => i.bind fun i => items[i]?
  | none => match l with
    | .atom a => .ok ((key.publicName?.bind a.attribute?).map HoldsAtoms.ofAtom)
    | .node (.object attributes) => .ok (key.publicName?.bind fun name => attributes.lookup name)
    | .node n => if n.isMapping then lookupEntry n key else .ok none

/-- Whether a layer holds something under a key. -/
def hasKey (l : Layer α) (key : Value) : Except Fault Bool := (l.lookup key).map Option.isSome

/-- What a layer holds under a key other than null, and null if it holds nothing there. -/
def access (l : Layer α) (key : Value) : Except Fault α :=
  let null : α := HoldsAtoms.ofAtom .null
  if key.isNull then .ok null else (l.lookup key).map fun found => found.getD null

/-- The keys of a layer in order: those of a mapping, the indices of a sequence as texts, the
public attributes of an object, the names of an enumeration. -/
def ownKeys (l : Layer α) : List Value :=
  match l.sequence? with
  | some items => (List.range items.length).map fun i => .text (toString i)
  | none => match l with
    | .atom (.enumeration e) =>
      (e.constants.filter fun c => !hiddenName c.1).map fun c => .text c.1
    | .atom _ => []
    | .node (.object attributes) =>
      (attributes.filter fun a => !hiddenName a.1).map fun a => .text a.1
    | .node n => n.contents.map fun e => Value.ofKey e.1

/-- The keys of a layer, each with what access by it finds. -/
def entries (l : Layer α) : Except Fault (List (Value × α)) :=
  l.ownKeys.mapM fun key => (l.access key).map fun v => (key, v)

/-- Whether a key belongs to the layer itself: an entry, an index, or an attribute even if its
name starts with a low line. -/
def isOwn (l : Layer α) (key : Value) : Except Fault Bool :=
  match l, key with
  | .node (.object attributes), .atom (.text name) => .ok (attributes.lookup name).isSome
  | .node (.object _), _ => .ok false
  | .atom (.enumeration e), .atom (.text name) => .ok (e.memberName? name).isSome
  | .atom (.enumeration _), _ | .atom (.member ..), _ => .ok false
  | l, key => l.hasKey key

end Layer

/-! ## Lookups in whole values -/

namespace Value

/-- Whether a value holds something under a key. -/
def hasKey (v key : Value) : Except Fault Bool := v.layer.hasKey key

/-- What a value holds under a key other than null, and null if it holds nothing there. -/
def access (v key : Value) : Except Fault Value := v.layer.access key

/-- The keys of a value in order. -/
def ownKeys (v : Value) : List Value := v.layer.ownKeys

/-- The entries of a value in order. -/
def entries (v : Value) : Except Fault (List (Value × Value)) := v.layer.entries

/-- The values of the entries of a value in order. -/
def values (v : Value) : Except Fault (List Value) := v.entries.map fun es => es.map Prod.snd

/-- Whether a key belongs to the value itself. -/
def isOwn (v key : Value) : Except Fault Bool := v.layer.isOwn key

end Value

end LooseData
