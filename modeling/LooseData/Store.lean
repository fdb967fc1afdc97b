import LooseData.Layer

set_option autoImplicit false

/-! # Stores of collections

Collections that can change are shared: what is written through one reference is seen through
all others. A `Store` holds collections in numbered cells, and a `Slot` is an atom or a
reference to a cell. `Store.place` puts a value into fresh cells, so that it shares nothing, and
`Store.read` reads the value that a slot stands for at present.
-/

namespace LooseData

/-- A content of a cell: an atom, or a reference to a cell. -/
inductive Slot where
  | atom (a : Atom)
  | at (address : Nat)
deriving DecidableEq

instance : HoldsAtoms Slot where
  ofAtom := .atom
  atom?
    | .atom a => some a
    | .at _ => none

/-- Collections in numbered cells. -/
structure Store where
  cells : Array (Node Slot)

/-- The values of a table replaced by an effectful function, in order. -/
def Table.mapM {α β : Type} {m : Type → Type} [Monad m] (f : α → m β) (entries : Table α) :
    m (Table β) :=
  List.mapM (fun e => do pure (e.1, ← f e.2)) entries

/-- The contents of a node replaced by an effectful function, in order. -/
def Node.mapM {α β : Type} {m : Type → Type} [Monad m] (f : α → m β) : Node α → m (Node β)
  | .tuple items => .tuple <$> items.mapM f
  | .list items => .list <$> items.mapM f
  | .buffer bytes => pure (.buffer bytes)
  | .dict entries => .dict <$> Table.mapM f entries
  | .frozen entries => .frozen <$> Table.mapM f entries
  | .object attributes => .object <$> attributes.mapM fun e => do pure (e.1, ← f e.2)
  | .caseless m => do
    let entries ← m.entries.mapM fun e => do pure (e.1, ← f e.2)
    pure (.caseless ⟨entries, m.index, m.silent⟩)
  | .world w => do
    let config ← Table.mapM f w.config
    let state ← Table.mapM f w.state
    pure (.world ⟨config, state⟩)
  | .view selected fallback => do
    let selected ← Table.mapM f selected
    pure (.view selected (← f fallback))

namespace Store

/-- The store without cells. -/
def empty : Store := ⟨#[]⟩

/-- Put a node into a fresh cell. -/
def allocate (s : Store) (n : Node Slot) : Slot × Store := (.at s.cells.size, ⟨s.cells.push n⟩)

/-- Put a value into fresh cells, the innermost collections first. -/
def place : Value → StateM Store Slot :=
  Value.fold (fun a => pure (.atom a)) fun n => do
    let n ← n.mapM id
    modifyGet fun s => s.allocate n

/-- Put values into fresh cells. -/
def placeAll (vs : List Value) : StateM Store (List Slot) := vs.mapM place

/-- The level of a value that a slot stands for. -/
def layer (s : Store) : Slot → Layer Slot
  | .atom a => .atom a
  | .at address => match s.cells[address]? with
    | some n => .node n
    | none => .atom .null

/-- The store with the node in a slot's cell replaced. -/
def write (s : Store) (slot : Slot) (n : Node Slot) : Store :=
  match slot with
  | .atom _ => s
  | .at address => ⟨s.cells.setIfInBounds address n⟩

/-- The value that a slot stands for, read through at most `depth` levels. -/
def readTo (s : Store) : (depth : Nat) → Slot → Value
  | 0, _ => .null
  | depth + 1, slot => match s.layer slot with
    | .atom a => .atom a
    | .node n => .node (n.map (readTo s depth))

/-- The value that a slot stands for. A value has no more levels than there are cells to hold
them. -/
def read (s : Store) (slot : Slot) : Value := s.readTo (s.cells.size + 1) slot

end Store

end LooseData
