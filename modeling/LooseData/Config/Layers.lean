import LooseData.Config.Places
import LooseData.Store.Merge

set_option autoImplicit false

/-! # Layers of configuration

A configuration consists of layers, each a file that holds a mapping: the defaults, which must be
there, and above them the user's and the project's file, which may be missing or empty. The
layers are merged from the lowest to the highest. How the text of a file is read is up to a
`Reader`.
-/

namespace LooseData.Config

/-- What a text describes; none if it is malformed. A text may describe something that cannot be
built, which is a fault. -/
abbrev Reader := String → Except Fault (Option Value)

variable (reader : Reader)

/-- The mapping in a configuration file; a file without content has none. -/
def load (path : FilePath) (entry : FileEntry) : Except Fault (Option (Table Value)) :=
  match entry with
  | .file text => do
    match ← reader text with
    | some (.node (.dict entries)) => .ok (some entries)
    | some (.atom .null) => .ok none
    | some v => .error (.configFile path.toText (.notMapping v.kind))
    | none => .error (.configFile path.toText .malformed)
  | _ => .error (.configFile path.toText .unreadable)

/-- A layer: its name and its file. -/
structure Layer where
  name : String
  path : FilePath
deriving DecidableEq

/-- A configuration and the layers that it was merged from, the lowest first. -/
structure Layered where
  merged : Value
  layers : List Layer

namespace Layered

/-- The configuration without layers. -/
def empty : Layered := ⟨.dict [], []⟩

/-- Merge the entries of a layer over a configuration. -/
def add [Memory] (l : Layered) (layer : Layer) (entries : Table Value) : Logged Layered := do
  pure ⟨← l.merged.merge [.dict entries], l.layers ++ [layer]⟩

/-- Merge the lowest layer, which must have entries. -/
def addDefaults [Memory] (l : Layered) (path : FilePath) (entry : FileEntry) : Logged Layered := do
  if entry.isPresent then
    match ← load reader path entry with
    | some (first :: rest) => l.add ⟨"built-in", path⟩ (first :: rest)
    | _ => .fail (.configFile path.toText .defaultsEmpty)
  else .fail (.configFile path.toText .defaultsMissing)

/-- Merge a layer whose file may be missing or without entries. -/
def addOptional [Memory] (s : Surroundings) (l : Layered) (layer : Layer) : Logged Layered := do
  match s.look layer.path with
  | .missing => pure l
  | .unnameable => .fail .nameTooLong
  | entry => match ← load reader layer.path entry with
    | some (first :: rest) => do
      Logged.debug ("Loaded " ++ layer.name ++ " config from " ++ layer.path.toText)
      l.add layer (first :: rest)
    | _ => pure l

/-- The configuration of defaults and of the layers above them. -/
def ofFiles [Memory] (s : Surroundings) (defaultsPath : FilePath) (defaults : FileEntry)
    (above : List Layer) : Logged Layered := do
  above.foldlM (addOptional reader s) (← empty.addDefaults reader defaultsPath defaults)

/-- The entries of the merged configuration. -/
def entries (l : Layered) : Table Value :=
  match l.merged with
  | .node (.dict entries) => entries
  | _ => []

/-- The value of a field, its name, and whether the value is a collection. A field that is
missing is null. -/
def field (l : Layered) (name : String) : Value :=
  let v := (Table.get? l.entries (.text name)).getD .null
  .node (.tuple [v, .text name, .bool v.isCollection])

end Layered

end LooseData.Config
