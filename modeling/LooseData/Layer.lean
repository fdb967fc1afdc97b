import LooseData.Value.Display

set_option autoImplicit false

/-! # The outermost level of a value

A `Layer` is an atom, or a node over contents of any type. Operations that look at one level
only are defined on layers. So they serve whole values, whose contents are values, and the
cells of a store, whose contents refer to further cells.
-/

namespace LooseData

/-- One level of a value with contents of type `α`. -/
inductive Layer (α : Type) where
  | atom (a : Atom)
  | node (n : Node α)

/-- Contents in which atoms can be put and recognised. -/
class HoldsAtoms (α : Type) where
  /-- The content that an atom makes. -/
  ofAtom : Atom → α
  /-- The atom that a content is, if it is one. -/
  atom? : α → Option Atom

instance : HoldsAtoms Value where
  ofAtom := .atom
  atom?
    | .atom a => some a
    | .node _ => none

/-- The outermost level of a value. -/
def Value.layer : Value → Layer Value
  | .atom a => .atom a
  | .node n => .node n

/-- The value with the given outermost level. -/
def Layer.toValue : Layer Value → Value
  | .atom a => .atom a
  | .node n => .node n

namespace Layer

variable {α : Type}

/-- The name of the kind. -/
def kind : Layer α → String
  | .atom a => a.kind
  | .node n => n.kind

/-- Whether this is a mapping. -/
def isMapping : Layer α → Bool
  | .atom _ => false
  | .node n => n.isMapping

/-- Whether this is a list or a tuple. -/
def isArray : Layer α → Bool
  | .atom _ => false
  | .node n => n.isArray

/-- Whether this is a mapping or an array. -/
def isNested : Layer α → Bool
  | .atom _ => false
  | .node n => n.isNested

/-- Whether this is null. -/
def isNull : Layer α → Bool
  | .atom .null => true
  | _ => false

/-- The items of a sequence: characters of a text, bytes of a byte string, items of an array. -/
def sequence? [HoldsAtoms α] : Layer α → Option (List α)
  | .atom (.text s) =>
    some (s.toList.map fun c => HoldsAtoms.ofAtom (.text (String.singleton c)))
  | .atom (.bytes bytes) => some (bytes.map fun b => HoldsAtoms.ofAtom (.int b.toNat))
  | .node (.tuple items) => some items
  | .node (.list items) => some items
  | .node (.buffer bytes) => some (bytes.map fun b => HoldsAtoms.ofAtom (.int b.toNat))
  | _ => none

end Layer

end LooseData
