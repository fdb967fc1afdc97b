import LooseData.Value.Display

set_option autoImplicit false

/-! # Writing JSON

Values are written as JSON over several lines, each level indented by two more blanks. All
characters outside printable ASCII are escaped. The numbers that JSON does not have are written
by their names. A value of a kind that JSON does not have is written as its text.
-/

namespace LooseData.Json

/-- The escape of a code unit. -/
def unitEscape (n : Nat) : List Char := '\\' :: 'u' :: Text.hexDigits 4 n

/-- A character as it is written in a string. One beyond the code units takes two escapes. -/
def escapeChar (c : Char) : List Char :=
  if c = '"' then ['\\', '"']
  else if c = '\\' then ['\\', '\\']
  else if c = '\n' then ['\\', 'n']
  else if c = '\r' then ['\\', 'r']
  else if c = '\t' then ['\\', 't']
  else if c = '\x08' then ['\\', 'b']
  else if c = '\x0c' then ['\\', 'f']
  else if 0x20 ≤ c.toNat ∧ c.toNat < 0x7F then [c]
  else if Text.code c < 0x10000 then unitEscape (Text.code c)
  else
    let n := c.toNat - 0x10000
    unitEscape (0xD800 + n / 0x400) ++ unitEscape (0xDC00 + n % 0x400)

/-- A text as a JSON string. -/
def quote (s : String) : String :=
  String.ofList ('"' :: s.toList.flatMap escapeChar ++ ['"'])

/-- A line break and the indentation of a level. -/
def newLine (depth : Nat) : String := "\n" ++ String.ofList (List.replicate (2 * depth) ' ')

/-- Written parts between brackets, one on a line. `depth` is the level of the brackets. -/
def enclose (opening closing : String) (depth : Nat) (parts : List String) : String :=
  if parts.isEmpty then opening ++ closing
  else opening ++ newLine (depth + 1)
    ++ String.intercalate ("," ++ newLine (depth + 1)) parts ++ newLine depth ++ closing

/-- A value that is being written: its display, and how it is written at a level. -/
structure Draft where
  display : String
  written : (depth : Nat) → Except Fault String

/-- An atom as JSON. -/
def writeAtom : Atom → Except Fault String
  | .null => .ok "null"
  | .bool b => .ok (if b then "true" else "false")
  | .int i => if (Atom.int i).tooLong then .error .integerTooLong else .ok (toString i)
  | .double d => .ok (NumberForm.json.write d)
  | .text s => .ok (quote s)
  | a => .ok (quote (Value.atom a).shown)

/-- A key as the name of a member. -/
def memberName : Key → Except Fault String
  | .atom (.text s) => .ok (quote s)
  | .atom (.double d) => .ok (quote (NumberForm.json.write d))
  | .atom .null => .ok (quote "null")
  | .atom (.bool b) => .ok (quote (if b then "true" else "false"))
  | .atom (.int i) => (writeAtom (.int i)).map quote
  | _ => .error .jsonKey

/-- A node as JSON, its contents being drafts. -/
def writeNode (n : Node Draft) (depth : Nat) : Except Fault String :=
  match n with
  | .list items | .tuple items =>
    (items.mapM fun (item : Draft) => item.written (depth + 1)).map (enclose "[" "]" depth)
  | .dict entries =>
    (entries.mapM fun (e : Key × Draft) => do
      pure ((← memberName e.1) ++ ": " ++ (← e.2.written (depth + 1)))).map
        (enclose "\x7b" "\x7d" depth)
  | .frozen entries => .ok (quote (Node.display (.dict (entries.map fun e => (e.1, e.2.display)))))
  | n => .ok (quote (n.map Draft.display).display)

/-- The draft of a value. -/
def draft : Value → Draft :=
  Value.fold (fun a => ⟨a.display, fun _ => writeAtom a⟩)
    fun n => ⟨(n.map Draft.display).display, writeNode n⟩

/-- A value as a JSON document. -/
def write (v : Value) : Except Fault String := (draft v).written 0

end LooseData.Json
