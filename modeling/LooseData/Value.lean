import LooseData.Node

set_option autoImplicit false

/-! # Values

A value is an atom or a node whose contents are values. All functions that go through a whole
value are instances of `Value.fold`, which replaces the contents of every node by their results
from the bottom up; `Value.induction` is the matching principle of proof.
-/

namespace LooseData

/-- A value of the loosely typed world. -/
inductive Value where
  | atom (a : Atom)
  | node (n : Node Value)

namespace Value

variable {β : Type}

/-! ## Going through a value -/

mutual

/-- Replace atoms by `f` and nodes, whose contents have been replaced already, by `g`. -/
def fold (f : Atom → β) (g : Node β → β) : Value → β
  | .atom a => f a
  | .node n => g (foldNode f g n)

/-- `fold` on the contents of a node. -/
def foldNode (f : Atom → β) (g : Node β → β) : Node Value → Node β
  | .tuple items => .tuple (foldItems f g items)
  | .list items => .list (foldItems f g items)
  | .buffer bytes => .buffer bytes
  | .dict entries => .dict (foldTable f g entries)
  | .frozen entries => .frozen (foldTable f g entries)
  | .object attributes => .object (foldAttributes f g attributes)
  | .caseless ⟨entries, index, silent⟩ => .caseless ⟨foldLabels f g entries, index, silent⟩
  | .world ⟨config, state⟩ => .world ⟨foldTable f g config, foldTable f g state⟩
  | .view selected fallback => .view (foldTable f g selected) (fold f g fallback)

/-- `fold` on a list of values. -/
def foldItems (f : Atom → β) (g : Node β → β) : List Value → List β
  | [] => []
  | v :: rest => fold f g v :: foldItems f g rest

/-- `fold` on the values of a table. -/
def foldTable (f : Atom → β) (g : Node β → β) : List (Key × Value) → List (Key × β)
  | [] => []
  | (k, v) :: rest => (k, fold f g v) :: foldTable f g rest

/-- `fold` on the values of named attributes. -/
def foldAttributes (f : Atom → β) (g : Node β → β) : List (String × Value) → List (String × β)
  | [] => []
  | (name, v) :: rest => (name, fold f g v) :: foldAttributes f g rest

/-- `fold` on the values of labels. -/
def foldLabels (f : Atom → β) (g : Node β → β) : List (Label × Value) → List (Label × β)
  | [] => []
  | (label, v) :: rest => (label, fold f g v) :: foldLabels f g rest

end

/-! ## Induction -/

section

set_option linter.unusedSectionVars false

variable {motive : Value → Prop} (atom : ∀ a, motive (.atom a))
  (node : ∀ n : Node Value, (∀ v ∈ n.children, motive v) → motive (.node n))

include atom node

mutual

/-- What holds of atoms, and of a node whenever it holds of all its contents, holds of every
value. -/
theorem induction : ∀ v : Value, motive v
  | .atom a => atom a
  | .node n => node n (induction_node n)

theorem induction_node : ∀ n : Node Value, ∀ v ∈ n.children, motive v
  | .tuple items => induction_items items
  | .list items => induction_items items
  | .buffer _ => nofun
  | .dict entries => induction_table entries
  | .frozen entries => induction_table entries
  | .object attributes => induction_attributes attributes
  | .caseless ⟨entries, _, _⟩ => induction_labels entries
  | .world ⟨config, state⟩ => fun v h =>
    (List.mem_append.1 h).elim (induction_table config v) (induction_table state v)
  | .view selected fallback => fun v h =>
    (List.mem_append.1 h).elim (induction_table selected v) fun h =>
      List.mem_singleton.1 h ▸ induction fallback

theorem induction_items : ∀ items : List Value, ∀ v ∈ items, motive v
  | [] => nofun
  | w :: rest => fun v h =>
    (List.mem_cons.1 h).elim (fun e => e ▸ induction w) (induction_items rest v)

theorem induction_table : ∀ entries : List (Key × Value), ∀ v ∈ entries.map Prod.snd, motive v
  | [] => nofun
  | (_, w) :: rest => fun v h =>
    (List.mem_cons.1 h).elim (fun e => e ▸ induction w) (induction_table rest v)

theorem induction_attributes :
    ∀ entries : List (String × Value), ∀ v ∈ entries.map Prod.snd, motive v
  | [] => nofun
  | (_, w) :: rest => fun v h =>
    (List.mem_cons.1 h).elim (fun e => e ▸ induction w) (induction_attributes rest v)

theorem induction_labels : ∀ entries : List (Label × Value), ∀ v ∈ entries.map Prod.snd, motive v
  | [] => nofun
  | (_, w) :: rest => fun v h =>
    (List.mem_cons.1 h).elim (fun e => e ▸ induction w) (induction_labels rest v)

end

end

section

variable (f : Atom → β) (g : Node β → β)

theorem foldItems_eq (items : List Value) : foldItems f g items = items.map (fold f g) := by
  induction items with
  | nil => rfl
  | cons v rest ih => simp [foldItems, ih]

theorem foldTable_eq (entries : List (Key × Value)) :
    foldTable f g entries = entries.map fun e => (e.1, fold f g e.2) := by
  induction entries with
  | nil => rfl
  | cons e rest ih => simp [foldTable, ih]

theorem foldAttributes_eq (attributes : List (String × Value)) :
    foldAttributes f g attributes = attributes.map fun e => (e.1, fold f g e.2) := by
  induction attributes with
  | nil => rfl
  | cons e rest ih => simp [foldAttributes, ih]

theorem foldLabels_eq (entries : List (Label × Value)) :
    foldLabels f g entries = entries.map fun e => (e.1, fold f g e.2) := by
  induction entries with
  | nil => rfl
  | cons e rest ih => simp [foldLabels, ih]

@[simp]
theorem fold_atom (a : Atom) : fold f g (.atom a) = f a := by
  simp [fold]

/-- `fold` on a node is `g` on the node with every content replaced by its own fold. -/
@[simp]
theorem fold_node (n : Node Value) : fold f g (.node n) = g (n.map (fold f g)) := by
  cases n <;>
    simp [fold, foldNode, Node.map, foldItems_eq, foldTable_eq, foldAttributes_eq,
      foldLabels_eq, CaselessMap.mapValues]

end

/-! ## Kinds -/

/-- The name of a value's kind. -/
def kind : Value → String
  | .atom a => a.kind
  | .node n => n.kind

/-- Whether a value is a mapping. -/
def isMapping : Value → Bool
  | .atom _ => false
  | .node n => n.isMapping

/-- Whether a value is a list or a tuple. -/
def isArray : Value → Bool
  | .atom _ => false
  | .node n => n.isArray

/-- Whether a value is a mapping or an array. -/
def isNested : Value → Bool
  | .atom _ => false
  | .node n => n.isNested

/-- Whether a value is a mapping or a list, which are what documents consist of. -/
def isCollection : Value → Bool
  | .node (.list _) => true
  | v => v.isMapping

/-- Whether a value counts as true in a condition: an empty collection does not, and an object
does even without attributes. -/
def truthy : Value → Bool
  | .atom a => a.truthy
  | .node (.object _) => true
  | .node n => n.size != 0

/-- Whether a value can be called as a function. -/
def callable : Value → Bool
  | .atom (.function _) => true
  | .atom (.method _) => true
  | .atom (.enumeration _) => true
  | _ => false

/-! ## Abbreviations -/

/-- The value that stands for nothing. -/
def null : Value := .atom .null

/-- A boolean. -/
def bool (b : Bool) : Value := .atom (.bool b)

/-- A whole number. -/
def int (i : Int) : Value := .atom (.int i)

/-- A double. -/
def double (d : Double) : Value := .atom (.double d)

/-- A text. -/
def text (s : String) : Value := .atom (.text s)

/-- A method. -/
def method (m : Method) : Value := .atom (.method m)

/-- A list. -/
def list (items : List Value) : Value := .node (.list items)

/-- A dictionary. -/
def dict (entries : Table Value) : Value := .node (.dict entries)

/-- Whether a value is null. -/
def isNull : Value → Bool
  | .atom .null => true
  | _ => false

/-! ## Values as keys -/

/-- The keys of the items of a tuple, if all are keys. -/
def tupleKeys : List (Option Key) → Option (List Key)
  | [] => some []
  | some k :: rest => (tupleKeys rest).map (k :: ·)
  | none :: _ => none

/-- The key that a value is. Collections that can change, and mappings, are no keys. -/
def key? : Value → Option Key :=
  fold (fun a => some (.atom a)) fun n =>
    match n with
    | .tuple items => (tupleKeys items).map .tuple
    | _ => none

mutual

/-- A key as a value. -/
def ofKey : Key → Value
  | .atom a => .atom a
  | .tuple items => .node (.tuple (ofKeys items))

/-- Keys as values. -/
def ofKeys : List Key → List Value
  | [] => []
  | k :: rest => ofKey k :: ofKeys rest

end

/-- Whether a value shows something of its own under the name of an operation: an object has
attributes, and so has a world for what its state holds. That is then taken for the operation,
though it cannot be called as one. -/
def hides (v : Value) (operation : String) : Bool :=
  match v with
  | .node (.object attributes) => (attributes.lookup operation).isSome
  | .node (.world w) => Table.has w.state (.text operation)
  | _ => false

/-- The name of the operation that puts a label into lower case. -/
def loweringName : String := "lower"

/-- The label that a value is. Something without letter case is none, and a byte buffer can be
folded but not be looked up. -/
def label? : Value → Except Fault Label
  | .atom (.text s) => .ok (.text s)
  | .atom (.bytes bs) => .ok (.bytes bs)
  | .node (.buffer _) => .error .unhashable
  | v => .error (if v.hides loweringName then .notCallable else .noLetterCase)

/-! ## Items and pairs -/

/-- The bytes of a byte string as values. -/
def ofBytes (bytes : List UInt8) : List Value := bytes.map fun b => int b.toNat

/-- The characters of a text as values. -/
def ofChars (s : String) : List Value := s.toList.map fun c => text (String.singleton c)

/-- The items that a value goes through: characters, bytes, items of an array, keys of a
mapping, members of an enumeration. -/
def items? : Value → Except Fault (List Value)
  | .atom (.text s) => .ok (ofChars s)
  | .atom (.bytes bs) => .ok (ofBytes bs)
  | .atom (.enumeration e) => .ok (e.members.map fun m => .atom (.member e m.1))
  | .node (.tuple items) => .ok items
  | .node (.list items) => .ok items
  | .node (.buffer bs) => .ok (ofBytes bs)
  | .node (.object _) => .error .notIterable
  | .node n => .ok (n.contents.map fun e => ofKey e.1)
  | _ => .error .notIterable

/-- The two parts of a value that has exactly two items. -/
def pair? (v : Value) : Except Fault (Value × Value) :=
  match v.items? with
  | .ok [a, b] => .ok (a, b)
  | .ok _ => .error .notAPair
  | .error fault => .error fault

/-- The items of a value that are to be pairs, each read only when its turn comes: the entries
of a mapping, otherwise the items of the value. -/
def pairs? : Value → Except Fault (List (Except Fault (Value × Value)))
  | .node n =>
    if n.isMapping then .ok (n.contents.map fun e => .ok (ofKey e.1, e.2))
    else (Value.items? (.node n)).map fun items => items.map pair?
  | v => v.items?.map fun items => items.map pair?

end Value

end LooseData
