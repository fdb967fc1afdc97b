import LooseData.Config.Settings
import LooseData.Runtime.Settings.Checked
import LooseData.Runtime.Settings.Variables

set_option autoImplicit false

/-! # Making settings

Values given directly are laid over those that variables set, and these over the ones from files.
Fields that are missing have defaults. All complaints about the settings are reported together, in
the order of the fields.
-/

namespace LooseData.Config

/-! ## Sections -/

/-- The mapping that a value is. -/
def mapping? (v : Value) : Option (Node Value) :=
  match v with
  | .node n => if n.isMapping then some n else none
  | .atom _ => none

/-- The entries of a mapping. -/
def entries? (v : Value) : Option (Table Value) := (mapping? v).map Node.contents

/-- The entries whose keys are none of the given names. -/
def extraEntries (names : List String) (entries : Table Value) : Table Value :=
  entries.filter fun e => !names.any fun name => e.1.same (.text name)

/-- The section `logging` that a mapping gives. -/
def LoggingSection.ofMapping (place : Place) (n : Node Value) : Checked LoggingSection := do
  let level := match n.item? (.text "level") with
    | some v => levelAt (place.child "level") v
    | none => .ok (LoggingSection.level {})
  let (level, entries) ← both level (namedEntries place n.contents)
  pure ⟨level, extraEntries ["level"] entries⟩

/-- The section `parsing` that a mapping gives. -/
def ParsingSection.ofMapping (place : Place) (n : Node Value) : Checked ParsingSection := do
  let limit := match n.item? (.text "max_depth") with
    | some v => limitAt (place.child "max_depth") v
    | none => .ok (ParsingSection.maxDepth {})
  let (limit, entries) ← both limit (namedEntries place n.contents)
  pure ⟨limit, extraEntries ["max_depth"] entries⟩

/-- A section read from the value of a field. -/
def sectionAt {α : Type} (name : String) (entries : Table Value)
    (read : Place → Node Value → Checked α) : Checked α :=
  match mapping? ((Table.get? entries (.text name)).getD (.dict [])) with
  | some n => read [.name name] n
  | none => complain [.name name] .notSection

/-- The collection of a field. -/
def collectionAt (name : String) (entries : Table Value) : Checked (Table Value) :=
  match Table.get? entries (.text name) with
  | none => .ok (Settings.world {})
  | some v => match entries? v with
    | some inner => keyedEntries [.name name] inner
    | none => complain [.name name] .notMapping

end LooseData.Config

namespace LooseData.Settings

open Config

/-! ## All settings -/

/-- The settings with the given entries. -/
def ofEntries (entries : Table Value) : Checked Settings := do
  let version := match Table.get? entries (.text "version") with
    | some v => located [.name "version"] (whole v)
    | none => .ok (Settings.version {})
  let logging := sectionAt "logging" entries LoggingSection.ofMapping
  let parsing := sectionAt "parsing" entries ParsingSection.ofMapping
  let world := collectionAt "world" entries
  let (version, logging, parsing, world) ← both version (both logging (both parsing world))
  pure ⟨version, logging, parsing, world, extraEntries (fields.map Prod.fst) entries⟩

/-- Whether a key is a name regardless of letter case, the name being in lower case. -/
def isSpelling (name : String) (key : Key) : Bool :=
  match key with
  | .atom (.text s) => Text.lower s == name
  | _ => false

/-- What is given for a field, whose name may be in any letter case. Of several values the one
under the name in its own letter case counts, else the first. -/
def givenFor? (given : Table Value) (name : String) : Option Value :=
  (Table.get? given (.text name)).or
    ((List.find? (fun e => isSpelling name e.1) given).map Prod.snd)

/-- Given entries with the names of fields in their own letter case. -/
def withFieldNames (given : Table Value) : Table Value :=
  let names := fields.map Prod.fst
  let own := names.filterMap fun name => (givenFor? given name).map fun v => (Key.text name, v)
  own ++ given.filter fun e => !names.any fun name => isSpelling name e.1

/-- Settings made from their sources. -/
def make : Maker := fun sources => do
  let fromOutside ← fromVariables sources.bindings
  let own := (Value.dict fromOutside).overlay (.dict (withFieldNames sources.given))
  let all := (Value.dict sources.files).overlay own
  (ofEntries ((entries? all).getD [])).mapError .invalidSettings

/-! ## Showing settings -/

/-- The value with null in place of every infinity and NaN, which documents do not have. -/
def documented : Value → Value :=
  Value.fold (fun a => match a with
    | .double (.infinite _) | .double (.nan _) => .null
    | a => .atom a) .node

/-- The settings by their names, fields first. -/
def toTable (settings : Settings) : Table Value :=
  [(.text "version", .int settings.version),
    (.text "logging", .dict ((.text "level", settings.logging.level) :: settings.logging.extra)),
    (.text "parsing", .dict ((.text "max_depth",
      match settings.parsing.maxDepth with
      | some limit => .int limit
      | none => .null) :: settings.parsing.extra)),
    (.text "world", .dict settings.world)] ++ settings.extra

/-- The settings by their names, as documents have them. -/
def listed (settings : Settings) : Table Value :=
  settings.toTable.map fun e => (e.1, documented e.2)

end LooseData.Settings
