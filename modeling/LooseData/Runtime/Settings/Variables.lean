import LooseData.Config.FilePath
import LooseData.Json.Reader

set_option autoImplicit false

/-! # Settings from variables

A variable `STEPDATA_X` sets the field `x`, and `STEPDATA_X__Y` the entry `y` of the section `x`;
further double low lines lead further inwards. Letter case does not count in names. The variable
of a section holds a JSON document, over which the variables of its entries are laid.
-/

namespace LooseData

/-- The value with another one laid over it: mappings entry by entry, anything else
replaced. -/
def Value.overlay (base upper : Value) : Value :=
  let lay : Value → Option Value → Value :=
    Value.fold (fun a _ => .atom a) fun n base =>
      match n, base with
      | .dict entries, some (.node (.dict held)) =>
        .dict (entries.foldl (fun held e => Table.set held e.1 (e.2 (Table.get? held e.1))) held)
      | n, _ => .node (n.map fun f => f none)
  lay upper (some base)

namespace Config

/-- How the values of a field are given. -/
inductive FieldKind where
  /-- By one scalar. -/
  | scalar
  /-- By settings with these names, whose values are texts. -/
  | section (names : List String)
  /-- By entries of any names. -/
  | collection
deriving DecidableEq

/-- The fields of the settings in order. -/
def fields : List (String × FieldKind) :=
  [("version", .scalar), ("logging", .section ["level"]), ("parsing", .section ["max_depth"]),
    ("world", .collection)]

/-- The start of the names of all variables for settings, in lower case. -/
def variableStart : String := "stepdata_"

/-- Variables with their names in lower case; of several with one name the last one counts. -/
def lowered (bindings : List (String × String)) : Table String :=
  Table.ofList (bindings.map fun v => (.text (Text.lower v.1), v.2))

/-- The pieces of a name between double low lines. -/
def nameParts : List Char → List (List Char)
  | [] => [[]]
  | '_' :: '_' :: cs => [] :: nameParts cs
  | c :: cs => match nameParts cs with
    | [] => [[c]]
    | piece :: pieces => (c :: piece) :: pieces

/-- A value put at the end of a way of keys. Mappings are made where the way needs them; where
something else stands on the way, nothing is put. -/
def putAt (leaf : Value) : (way : List String) → Value → Value
  | [], v => v
  | [key], .node (.dict entries) => .dict (Table.set entries (.text key) leaf)
  | key :: way, .node (.dict entries) =>
    let inner := (Table.get? entries (.text key)).getD (.dict [])
    .dict (Table.set entries (.text key) (putAt leaf way inner))
  | _, v => v

/-- The value that the text of a variable for an entry stands for. Inside an entry of a collection
a text that is JSON stands for what it describes; any other text stands for itself. -/
def entryValue (kind : FieldKind) (way : List String) (s : String) : Value :=
  match kind, way with
  | .collection, _ :: _ :: _ => (Json.ofTextIn .extended s).toOption.getD (.text s)
  | _, _ => .text s

/-- The way to an entry of a field that the name of a variable describes. -/
def wayOf? (field name : String) : Option (List String) :=
  let start := variableStart ++ field ++ "__"
  if start.toList.isPrefixOf name.toList then
    some ((nameParts (name.toList.drop start.length)).map String.ofList)
  else none

/-- The entries of a field that variables set one by one. -/
def entriesFrom (bindings : Table String) (field : String) (kind : FieldKind) : Value :=
  bindings.foldl (fun v entry =>
    match entry.1 with
    | .atom (.text name) => match wayOf? field name with
      | some way => putAt (entryValue kind way entry.2) way v
      | none => v
    | _ => v) (.dict [])

/-- The name of a setting that a name stands for if letter case does not count. -/
def settingName (names : List String) (name : String) : String :=
  (names.find? fun n => n == Text.lower name).getD name

/-- A section with the names of its settings in their own letter case. -/
def withSettingNames (kind : FieldKind) (v : Value) : Value :=
  match kind, v with
  | .section names, .node (.dict entries) =>
    .dict (Table.ofList (entries.map fun e =>
      match e.1 with
      | .atom (.text name) => (.text (settingName names name), e.2)
      | key => (key, e.2)))
  | _, v => v

/-- The value of a field that is a section or a collection. A variable for the whole field must
hold JSON; null counts as no value. -/
def partsFrom (bindings : Table String) (field : String) (kind : FieldKind) :
    Except Fault (Option Value) :=
  let single := entriesFrom bindings field kind
  match Table.get? bindings (.text (variableStart ++ field)) with
  | none => .ok (if single.truthy then some (withSettingNames kind single) else none)
  | some s => match Json.ofTextIn .extended s with
    | .error _ => .error .configVariable
    | .ok (.atom .null) => .ok none
    | .ok (.node (.dict entries)) =>
      .ok (some (withSettingNames kind ((Value.dict entries).overlay single)))
    | .ok v => .ok (some v)

/-- The value of a field that variables set. -/
def fieldFrom (bindings : Table String) (field : String) (kind : FieldKind) :
    Except Fault (Option Value) :=
  match kind with
  | .scalar => .ok ((Table.get? bindings (.text (variableStart ++ field))).map .text)
  | kind => partsFrom bindings field kind

/-- The settings that variables set. -/
def fromVariables (bindings : List (String × String)) : Except Fault (Table Value) := do
  let bindings := lowered bindings
  let found ← fields.filterMapM fun (name, kind) => do
    pure ((← fieldFrom bindings name kind).map fun v => (Key.text name, v))
  pure found

end Config

end LooseData
