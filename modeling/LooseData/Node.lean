import LooseData.CaselessMap
import LooseData.Key

set_option autoImplicit false

/-! # One level of a collection

A `Node` is a collection with its immediate contents, whatever stands for them: whole values
when a structure is read, references to other collections when it is changed in place. The
operations that concern a single level are defined here once for both.
-/

namespace LooseData

/-- The state of a running scenario together with the configuration that it runs against. The
configuration is read-only. -/
structure World (α : Type) where
  config : List (Key × α)
  state : List (Key × α)

/-- A collection with contents of type `α`. -/
inductive Node (α : Type) where
  | tuple (items : List α)
  | list (items : List α)
  /-- A byte string that can change. -/
  | buffer (bytes : List UInt8)
  | dict (entries : List (Key × α))
  /-- A mapping that cannot change. -/
  | frozen (entries : List (Key × α))
  /-- A plain object with named attributes. -/
  | object (attributes : List (String × α))
  | caseless (map : CaselessMap α)
  | world (world : World α)
  /-- A selection of the entries of a collection, with that collection to fall back on. -/
  | view (selected : List (Key × α)) (fallback : α)

namespace Node

variable {α β : Type}

/-- The name of a collection's kind. -/
def kind : Node α → String
  | .tuple _ => "tuple"
  | .list _ => "list"
  | .buffer _ => "bytearray"
  | .dict _ => "dict"
  | .frozen _ => "mappingproxy"
  | .object _ => "SimpleNamespace"
  | .caseless _ => "CaselessMap"
  | .world _ => "World"
  | .view .. => "FilteredView"

/-- The node with its contents replaced by their images. -/
def map (f : α → β) : Node α → Node β
  | .tuple items => .tuple (items.map f)
  | .list items => .list (items.map f)
  | .buffer bytes => .buffer bytes
  | .dict entries => .dict (entries.map fun e => (e.1, f e.2))
  | .frozen entries => .frozen (entries.map fun e => (e.1, f e.2))
  | .object attributes => .object (attributes.map fun e => (e.1, f e.2))
  | .caseless m => .caseless (m.mapValues f)
  | .world w =>
    .world ⟨w.config.map fun e => (e.1, f e.2), w.state.map fun e => (e.1, f e.2)⟩
  | .view selected fallback => .view (selected.map fun e => (e.1, f e.2)) (f fallback)

/-- The immediate contents of a node. -/
def children : Node α → List α
  | .tuple items => items
  | .list items => items
  | .buffer _ => []
  | .dict entries => entries.map Prod.snd
  | .frozen entries => entries.map Prod.snd
  | .object attributes => attributes.map Prod.snd
  | .caseless m => m.entries.map Prod.snd
  | .world w => w.config.map Prod.snd ++ w.state.map Prod.snd
  | .view selected fallback => selected.map Prod.snd ++ [fallback]

/-- Whether this is a mapping. -/
def isMapping : Node α → Bool
  | .dict _ | .frozen _ | .caseless _ | .world _ | .view .. => true
  | _ => false

/-- Whether this is a list or a tuple; byte buffers do not count as arrays. -/
def isArray : Node α → Bool
  | .tuple _ | .list _ => true
  | _ => false

/-- Whether this is a mapping or an array. -/
def isNested (n : Node α) : Bool := n.isMapping || n.isArray

/-- The label of a caseless map as a key. -/
def labelKey : Label → Key
  | .text s => .text s
  | .bytes bs => .atom (.bytes bs)

/-- The entries that a mapping shows, as a table. -/
def contents : Node α → Table α
  | .dict entries => entries
  | .frozen entries => entries
  | .caseless m => m.entries.map fun e => (labelKey e.1, e.2)
  | .world w => w.state
  | .view selected _ => selected
  | _ => []

/-- The value that a mapping stores under exactly this key. A caseless map is asked for texts
only. -/
def item? : Node α → Key → Option α
  | .dict entries, key => Table.get? entries key
  | .frozen entries, key => Table.get? entries key
  | .caseless m, key => match key with
    | .atom (.text s) => m.get? (.text s)
    | _ => none
  | .world w, key => Table.get? w.state key
  | .view selected _, key => Table.get? selected key
  | _, _ => none

/-- How many entries, items, bytes or attributes a collection has. -/
def size : Node α → Nat
  | .tuple items => items.length
  | .list items => items.length
  | .buffer bytes => bytes.length
  | .object attributes => attributes.length
  | n => n.contents.length

end Node

end LooseData
