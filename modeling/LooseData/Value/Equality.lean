import LooseData.Value

set_option autoImplicit false

/-! # Equality of values

Two values are the **same** when they are one number, one text, or collections of the same sort
with the same contents; a NaN is the same as itself only. Mappings of all kinds compare by their
entries regardless of order, except that two caseless maps compare entry by entry in order.
`Value.equal` is sameness, except that a NaN equals nothing.
-/

namespace LooseData

namespace Value

/-- Whether tests and values are equally many and every test holds of its value. -/
def pairwise : List (Value → Bool) → List Value → Bool
  | [], [] => true
  | test :: tests, v :: vs => test v && pairwise tests vs
  | _, _ => false

/-- Whether a table has one entry for each test, under the test's key, of which it holds. -/
def sameTable (tests : Table (Value → Bool)) (entries : Table Value) : Bool :=
  tests.length == entries.length
    && tests.all fun e => ((Table.get? entries e.1).map e.2).getD false

/-- Whether labels and values agree one by one with labels and tests. -/
def sameEntries : List (Label × (Value → Bool)) → List (Label × Value) → Bool
  | [], [] => true
  | (l, test) :: tests, (l', v) :: rest => l == l' && test v && sameEntries tests rest
  | _, _ => false

/-- Attributes as a table. -/
def attributeTable {α : Type} (attributes : List (String × α)) : Table α :=
  attributes.map fun e => (.text e.1, e.2)

/-- Whether a value is the same as an atom. -/
def sameAtom (a : Atom) : Value → Bool
  | .atom b => a.same b
  | .node (.buffer bytes) => a == .bytes bytes
  | .node _ => false

/-- Whether a value is the same as a node whose contents have been turned into tests. -/
def sameNode : Node (Value → Bool) → Value → Bool
  | .buffer bytes, .atom b => b == .bytes bytes
  | _, .atom _ => false
  | .tuple tests, .node (.tuple items) => pairwise tests items
  | .list tests, .node (.list items) => pairwise tests items
  | .buffer bytes, .node (.buffer others) => bytes == others
  | .object tests, .node (.object attributes) =>
    sameTable (attributeTable tests) (attributeTable attributes)
  | .caseless m, .node (.caseless m') => sameEntries m.entries m'.entries
  | n, .node n' => n.isMapping && n'.isMapping && sameTable n.contents n'.contents

/-- Whether two values are the same. -/
def same : Value → Value → Bool := fold sameAtom sameNode

/-- Whether two values are equal. -/
def equal (a b : Value) : Bool :=
  match a with
  | .atom x => !x.isNaN && same a b
  | .node _ => same a b

/-- Whether a value is among some values. -/
def isIn (v : Value) (items : List Value) : Bool := items.any v.same

end Value

end LooseData
