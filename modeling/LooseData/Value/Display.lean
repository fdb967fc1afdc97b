import LooseData.Value

set_option autoImplicit false

/-! # The display of values

How a value is written inside containers and in messages, and how it reads as a text of its
own. A whole number of more than `maxNumeralDigits` digits has no display, nor has a value that
holds one.
-/

namespace LooseData

/-- Texts with commas between them. -/
def commaSeparated (texts : List String) : String := String.intercalate ", " texts

namespace Key

mutual

/-- The display of a key. -/
def display : Key → String
  | .atom a => a.display
  | .tuple items => match displays items with
    | [item] => "(" ++ item ++ ",)"
    | items => "(" ++ commaSeparated items ++ ")"

/-- The displays of the keys of a list. -/
def displays : List Key → List String
  | [] => []
  | k :: rest => display k :: displays rest

end

end Key

namespace Node

/-- The display of entries between braces. -/
def displayTable (entries : Table String) : String :=
  "\x7b" ++ commaSeparated (entries.map fun e => e.1.display ++ ": " ++ e.2) ++ "\x7d"

/-- The attributes of an object that are shown: those that have a name. -/
def shownAttributes {α : Type} (attributes : List (String × α)) : List (String × α) :=
  attributes.filter fun e => !e.1.isEmpty

/-- The display of a node whose contents are displayed already. -/
def display : Node String → String
  | .tuple [item] => "(" ++ item ++ ",)"
  | .tuple items => "(" ++ commaSeparated items ++ ")"
  | .list items => "[" ++ commaSeparated items ++ "]"
  | .buffer bytes => "bytearray(" ++ Text.quoteBuffer bytes ++ ")"
  | .dict entries => displayTable entries
  | .frozen entries => "mappingproxy(" ++ displayTable entries ++ ")"
  | .object attributes =>
    "namespace(" ++ commaSeparated ((shownAttributes attributes).map fun e => e.1 ++ "=" ++ e.2)
      ++ ")"
  | .caseless m =>
    "CaselessMap([" ++ commaSeparated (m.entries.map fun e =>
      "(" ++ (labelKey e.1).display ++ ", " ++ e.2 ++ ")") ++ "])"
  | .world w =>
    "World(config=" ++ displayTable w.config ++ ", state=" ++ displayTable w.state ++ ")"
  | .view selected _ => "FilteredView(" ++ displayTable selected ++ ")"

end Node

/-- Whether an atom is a whole number too long to be written. -/
def Atom.tooLong : Atom → Bool
  | .int i => decide (Nat.pow 10 maxNumeralDigits ≤ i.natAbs)
  | _ => false

mutual

/-- Whether a key holds a whole number too long to be written. -/
def Key.tooLong : Key → Bool
  | .atom a => a.tooLong
  | .tuple items => Key.anyTooLong items

/-- Whether one of some keys holds a whole number too long to be written. -/
def Key.anyTooLong : List Key → Bool
  | [] => false
  | k :: rest => k.tooLong || Key.anyTooLong rest

end

namespace Value

/-- The display of a value. -/
def display : Value → String := fold Atom.display Node.display

/-- Whether a value shows a whole number too long to be written. What a view falls back on is
not shown. -/
def tooLong : Value → Bool :=
  fold Atom.tooLong fun n =>
    match n with
    | .tuple items => items.any id
    | .list items => items.any id
    | .object attributes => (Node.shownAttributes attributes).any Prod.snd
    | .world w => (w.config ++ w.state).any fun e => e.1.tooLong || e.2
    | n => n.contents.any fun e => e.1.tooLong || e.2

/-- The display of a value, unless it shows a number too long to be written. -/
def display? (v : Value) : Except Fault String :=
  if v.tooLong then .error .integerTooLong else .ok v.display

/-- The value as a text: a text is itself, a member is named with its class, a mapping that
cannot change reads as the dictionary of its entries, and everything else is displayed. -/
def shown : Value → String
  | .atom (.text s) => s
  | .atom (.member e name) => e.name ++ "." ++ name
  | .node (.frozen entries) => (dict entries).display
  | v => v.display

/-- The value as a text, unless it shows a number too long to be written. -/
def shown? (v : Value) : Except Fault String :=
  if v.tooLong then .error .integerTooLong else .ok v.shown

end Value

end LooseData
