import LooseData.Runtime.Text.Columns
import LooseData.Value.Display

set_option autoImplicit false

/-! # Values over several lines

A value is laid out on one line if the line is short enough. A list or a dictionary for which it is
not is spread: its brackets stand on lines of their own, and between them, further indented, its
contents, each laid out in the same way.
-/

namespace LooseData

/-- How a value is laid out. -/
structure Layout where
  /-- The value on a line. -/
  line : String
  /-- The lines of the value with a margin, within so many columns, and with texts before and
  after it. -/
  lines : (margin room : Nat) → (before after : String) → List String

namespace Layout

/-- The number of columns of a line. -/
def width : Nat := 80

/-- The number of columns of a line from which a comma and a blank may follow. -/
def innerWidth : Nat := width - 2

/-- The number of blanks by which contents are indented. -/
def step : Nat := 4

/-- The line of a text with a margin. -/
def lineAt (margin : Nat) (s : String) : String := String.ofList (List.replicate margin ' ') ++ s

/-- A text that always stands on one line. -/
def flat (line : String) : Layout :=
  ⟨line, fun margin _ before after => [lineAt margin (before ++ line ++ after)]⟩

/-- The lines of contents, with commas between them. Each has a text before it. -/
def spread (margin : Nat) : List (String × Layout) → List String
  | [] => []
  | [p] => p.2.lines margin innerWidth p.1 ""
  | p :: rest => p.2.lines margin innerWidth p.1 "," ++ spread margin rest

/-- Contents between brackets. Each has a text before it. -/
def enclosed (opening closing : String) (parts : List (String × Layout)) : Layout :=
  let line := opening ++ commaSeparated (parts.map fun p => p.1 ++ p.2.line) ++ closing
  ⟨line, fun margin room before after =>
    if parts.isEmpty || margin + Text.columns (before ++ line) ≤ room then
      [lineAt margin (before ++ line ++ after)]
    else lineAt margin (before ++ opening) :: spread (margin + step) parts
      ++ [lineAt margin (closing ++ after)]⟩

/-- The layout of an atom. A whole number that is too long is replaced by a note. -/
def ofAtom (a : Atom) : Layout :=
  if a.tooLong then flat ("<repr-error " ++ Text.quote Fault.integerTooLong.message ++ ">")
  else flat a.display

/-- The layout of a node whose contents are laid out. -/
def ofNode : Node Layout → Layout
  | .list items => enclosed "[" "]" (items.map fun item => ("", item))
  | .dict entries => enclosed "\x7b" "\x7d" (entries.map fun e => (e.1.display ++ ": ", e.2))
  | n => flat (n.map Layout.line).display

end Layout

/-- A value laid out over as many lines as it takes. -/
def Value.laidOut (v : Value) : String :=
  String.intercalate "\n" ((v.fold Layout.ofAtom Layout.ofNode).lines 0 Layout.width "" "")

end LooseData
