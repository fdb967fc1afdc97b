import LooseData.CaselessMap.Edit
import LooseData.Tag.Handler

set_option autoImplicit false

/-! # Registries of handlers

A registry is a caseless map from tags to handlers. Registering checks that the handler can be
called and that the tag is not empty; a registry that is made of given entries takes them as
they are.
-/

namespace LooseData.Tag

/-- The handlers of tags. -/
structure Registry where
  handlers : CaselessMap Value

namespace Registry

/-- The registry without handlers. -/
def empty : Registry := ⟨.empty true⟩

/-- The tags of the library's handlers, in order. -/
def builtins : List (String × Builtin) :=
  [("arr", .array), ("array", .array), ("list", .array),
    ("bool", .bool), ("boolean", .bool),
    ("config", .config),
    ("this", .state), ("state", .state),
    ("float", .number), ("num", .number), ("number", .number),
    ("int", .int), ("integer", .int),
    ("json", .json), ("object", .json),
    ("nil", .none), ("null", .none), ("undefined", .none)]

/-- The registry of the given entries, as they are. Something that counts as false stands for no
entries. -/
def ofValue (entries : Value) : Logged Registry := do
  if entries.truthy then pure ⟨← CaselessMap.ofValue entries true⟩ else pure empty

/-- What the registry holds for a tag. -/
def find? (r : Registry) (tag : Value) : Except Fault (Option Value) := r.handlers.find? tag

/-- Whether the registry holds something for a tag. -/
def has (r : Registry) (tag : Value) : Except Fault Bool := (r.find? tag).map Option.isSome

/-- Whether the registry holds something for a value, which need not be a text. -/
def contains (r : Registry) (tag : Value) : Bool := r.handlers.contains tag

/-- The tags in order. -/
def names (r : Registry) : List Value :=
  r.handlers.labels.map fun label => .ofKey (Node.labelKey label)

/-- The number of tags. -/
def size (r : Registry) : Nat := r.handlers.size

/-- The display of a registry. -/
def display (r : Registry) : String :=
  "HandlerRegistry(" ++ (Value.list r.names).display ++ ")"

/-- A change of a registry. -/
abbrev Change (α : Type) := Edit Registry α

/-- Apply a change of the handlers. -/
def change {α : Type} (x : CaselessMap.Change α) : Change α := fun r =>
  let (done, handlers) := x.run r.handlers
  (done, ⟨handlers⟩)

/-- Set the handler of a tag. -/
def register (tag handler : Value) : Change Unit := do
  if !handler.callable then .fail (.handlerNotCallable (← tag.shown?) handler.kind)
  else if !tag.truthy then .fail .emptyTag
  else do
    if ← (← get).has tag then
      let name ← tag.shown?
      (Logged.debug ("Replacing handler for tag '" ++ name ++ "'") : Logged Unit)
    change (CaselessMap.assign tag handler)

/-- Remove the handler of a tag, and tell whether there was one. -/
def unregister (tag : Value) : Change Bool := change (CaselessMap.remove tag)

/-- Register the library's handlers. -/
def registerBuiltins : Change Unit :=
  builtins.forM fun (tag, b) => register (.text tag) (.atom (.function (.builtin b)))

/-- A registry with the library's handlers. -/
def standard : Registry := (registerBuiltins.run empty).2

/-- A registry with the same handlers, made from their dictionary. -/
def copy (r : Registry) : Logged Registry := ofValue r.handlers.toDict

end Registry

end LooseData.Tag
