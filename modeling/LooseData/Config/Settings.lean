import LooseData.Config.Layers
import LooseData.Level

set_option autoImplicit false

/-! # Settings

The settings of the program: a version, the section `logging` with a level, the section `parsing`
with a limit for nested tags, and the collection `world` in which paths are looked up. They come
from values given directly, from variables and from files, in falling order of precedence.
Entries of other names are kept as extra settings. How settings are made from these sources, and
which are refused, is up to a `Settings.Maker`.
-/

namespace LooseData

namespace Config

/-- The section `logging`. -/
structure LoggingSection where
  /-- The level as it was given. -/
  level : Value := .text "info"
  extra : Table Value := []

/-- The section `parsing`. -/
structure ParsingSection where
  maxDepth : Option Int := none
  extra : Table Value := []

/-- The number of the level. -/
def LoggingSection.number (s : LoggingSection) : Except Fault Nat :=
  (Level.ofValue s.level).map Level.number

end Config

open Config

/-- The settings of the program. -/
structure Settings where
  version : Int := 1
  logging : LoggingSection := {}
  parsing : ParsingSection := {}
  world : Table Value := []
  extra : Table Value := []

namespace Settings

/-- What settings are made from, in falling order of precedence. -/
structure Sources where
  given : Table Value
  bindings : List (String × String)
  files : Table Value

/-- How settings are made. -/
abbrev Maker := Sources → Except Fault Settings

/-- The layers that are usually above the defaults. -/
def usualLayers (s : Surroundings) : Except Fault (List Config.Layer) := do
  pure [⟨"user", ← userFile s⟩, ⟨"project", projectFile (rootOf s s.directory)⟩]

/-- The entries of the settings that the files around give. -/
def fromFiles [Memory] (reader : Reader) (s : Surroundings) : Logged (Table Value) := do
  let path := defaultsFile s
  let lowest ← Layered.empty.addDefaults reader path (s.look path)
  let layered ← (← usualLayers s).foldlM (Layered.addOptional reader s) lowest
  pure layered.entries

/-- The settings of the surroundings, with the given entries above all others. -/
def load [Memory] (reader : Reader) (maker : Maker) (s : Surroundings) (given : Table Value) :
    Logged Settings := do
  maker ⟨given, s.bindings, ← fromFiles reader s⟩

/-- The extra settings of all levels; those of a section are named after the section first. -/
def allExtra (settings : Settings) : Table Value :=
  let inSection (name : String) (extra : Table Value) : Table Value :=
    extra.map fun e => match e.1 with
      | .atom (.text key) => (.text (name ++ "." ++ key), e.2)
      | key => (key, e.2)
  (inSection "logging" settings.logging.extra ++ inSection "parsing" settings.parsing.extra).foldl
    (fun all e => Table.set all e.1 e.2) settings.extra

/-- The names of the extra settings of all levels in alphabetical order. -/
def unknownNames (settings : Settings) : List String :=
  (settings.allExtra.filterMap fun e => match e.1 with
    | .atom (.text name) => some name
    | _ => none).mergeSort

end Settings

end LooseData
