import LooseData.Json.Reader
import LooseData.Text.Blank
import LooseData.Runtime.Text.Line
import LooseData.Text.Split
import LooseData.Text.Word

set_option autoImplicit false

/-! # Reading YAML documents

The part of YAML that configuration and data files use: documents in the flow style, which are
written like JSON, plain one-line texts, block lists of scalars, and comments. A document without
content is null. Anything else is malformed.

What is written like JSON does not always mean the same. A tab does not separate tokens, a name
stands on one line with its colon and near it, the lines of a quoted text are folded, and of the
numbers with an exponent only those with a fraction and a sign before the exponent are numbers.

A well-formed document may still have no value, because a whole number in it has too many digits.
-/

namespace LooseData.Yaml

/-- What reading a part of a document yields, unless the part is malformed: what the part stands
for, if it stands for anything, and the characters that follow it. -/
abbrev Read (α : Type) := Option (Except Fault α × List Char)

/-- Whether a character may stand between tokens. -/
def isBlank (c : Char) : Bool := c == ' ' || Text.isLineBreak c

/-- The characters after leading blanks and comments. -/
def skipBlanks : (inComment : Bool) → List Char → List Char
  | _, [] => []
  | inComment, c :: cs =>
    if Text.isLineBreak c then skipBlanks false cs
    else if inComment || c == '#' then skipBlanks true cs
    else if isBlank c then skipBlanks false cs
    else c :: cs

/-- The characters of the next token and all after it. -/
def next (cs : List Char) : List Char := skipBlanks false cs

/-! ## Quoted texts -/

/-- Whether a mark between documents stands at the start of a line. -/
def startsWithMark (line : List Char) : Bool :=
  [['-', '-', '-'], ['.', '.', '.']].any fun mark =>
    mark.isPrefixOf line && (line.drop 3).head?.all fun c => c == '\t' || isBlank c

/-- What blanks and line breaks at the start of a part of a quoted text stand for, and how many
characters they are. Where they hold no break, the first character stands for itself. A line of a
quoted text must not start with a mark between documents. -/
def gap? (cs : List Char) : Option (List Char × Nat) :=
  let gap := cs.takeWhile fun c => c == '\t' || isBlank c
  match gap.filter Text.isLineBreak with
  | [] => some (cs.take 1, 1)
  | breaks =>
    if gap.getLast?.any Text.isLineBreak && startsWithMark (cs.drop gap.length) then none
    else some (Text.foldedBreaks breaks, gap.length)

/-- Read the rest of a quoted text up to its closing quote, leaving out the first `used`
characters, which were read together with those before them. -/
def readQuoted : (used : Nat) → List Char → Option (List Char × List Char)
  | _, [] => none
  | used + 1, _ :: ahead => readQuoted used ahead
  | 0, '"' :: ahead => some ([], ahead)
  | 0, '\\' :: ahead =>
    match Json.escape [] ahead with
    | .ok (c, used) => (readQuoted used ahead).map fun (cs, ahead) => (c :: cs, ahead)
    | .error _ => none
  | 0, c :: ahead =>
    match gap? (c :: ahead) with
    | some (first, used) =>
      (readQuoted (used - 1) ahead).map fun (cs, ahead) => (first ++ cs, ahead)
    | none => none

/-! ## Plain texts -/

/-- Whether a literal of a number is one in YAML: an exponent must have a sign and stand behind a
fraction. -/
def isNumber (literal : List Char) : Bool :=
  match literal.dropWhile fun c => c != 'e' && c != 'E' with
  | _ :: sign :: _ => literal.contains '.' && (sign == '+' || sign == '-')
  | _ => true

/-- The value of a plain text. -/
def plainValue (cs : List Char) : Except Fault Value :=
  match Json.names.lookup (String.ofList cs), Json.readNumber cs with
  | some v, _ => .ok v
  | none, .error (.numeralTooLong digits) => .error (.numeralTooLong digits)
  | none, .ok (v, []) => .ok (if isNumber cs then v else .text (String.ofList cs))
  | none, _ => .ok (.text (String.ofList cs))

/-- Whether a character can stand in a plain word. -/
def isPlain (c : Char) : Bool := Text.isWord c || c == '-' || c == '+' || c == '.'

/-- Read a plain word. A dash alone is none. -/
def readPlain (cs : List Char) : Read Value :=
  match cs.takeWhile isPlain with
  | [] | ['-'] => none
  | word => some (plainValue word, cs.dropWhile isPlain)

/-! ## Nodes -/

/-- How many characters a name takes at most, with its quotes and the blanks after it. -/
def maxNameSpan : Nat := 1024

/-- Whether the characters up to a colon can hold a name. -/
def holdsName (span : List Char) : Bool :=
  span.length ≤ maxNameSpan && !span.any Text.isLineBreak

/-- Read a name and the colon after it. -/
def readName : List Char → Option (String × List Char)
  | '"' :: cs => do
    let (name, ahead) ← readQuoted 0 cs
    match next ahead with
    | ':' :: ahead =>
      if holdsName (('"' :: cs).take (cs.length - ahead.length)) then
        some (String.ofList name, ahead)
      else none
    | _ => none
  | _ => none

/-- What two parts stand for together. -/
def paired {α β γ : Type} (f : α → β → γ) (a : Except Fault α) (b : Except Fault β) :
    Except Fault γ := do
  pure (f (← a) (← b))

mutual

/-- Read a node in the flow style, going at most `depth` steps deep. -/
def readNode : (depth : Nat) → List Char → Read Value
  | 0, _ => none
  | depth + 1, cs =>
    match cs with
    | '"' :: ahead =>
      (readQuoted 0 ahead).map fun (text, ahead) => (.ok (.text (String.ofList text)), ahead)
    | '[' :: ahead =>
      match next ahead with
      | ']' :: ahead => some (.ok (.list []), ahead)
      | ahead => (readItems depth ahead).map fun (items, ahead) => (items.map .list, ahead)
    | '{' :: ahead =>
      match next ahead with
      | '}' :: ahead => some (.ok (.dict []), ahead)
      | ahead => (readEntries depth ahead).map fun (entries, ahead) =>
        (entries.map fun entries => .dict (Table.ofList entries), ahead)
    | cs => readPlain cs

/-- Read the items of a list up to its closing bracket. -/
def readItems : (depth : Nat) → List Char → Option (Except Fault (List Value) × List Char)
  | 0, _ => none
  | depth + 1, cs => do
    let (v, ahead) ← readNode depth cs
    match next ahead with
    | ']' :: ahead => some (v.map ([·]), ahead)
    | ',' :: ahead =>
      let (items, ahead) ← readItems depth (next ahead)
      some (paired List.cons v items, ahead)
    | _ => none

/-- Read the entries of a mapping up to its closing brace. -/
def readEntries :
    (depth : Nat) → List Char → Option (Except Fault (List (Key × Value)) × List Char)
  | 0, _ => none
  | depth + 1, cs => do
    let (name, ahead) ← readName cs
    let (v, ahead) ← readNode depth (next ahead)
    let entry := v.map fun v => (Key.text name, v)
    match next ahead with
    | '}' :: ahead => some (entry.map ([·]), ahead)
    | ',' :: ahead =>
      let (entries, ahead) ← readEntries depth (next ahead)
      some (paired List.cons entry entries, ahead)
    | _ => none

end

/-- The value of characters that are a node and nothing else, if they are. Of two steps deeper
into a node at least one takes a character, so the number of characters bounds the depth. -/
def node? (cs : List Char) : Option (Except Fault Value) :=
  match readNode (2 * cs.length + 2) (next cs) with
  | some (v, ahead) => if (next ahead).isEmpty then some v else none
  | none => none

/-! ## Documents -/

/-- Whether a line can stand for itself as a text: it consists of plain words and starts with a
letter. -/
def isPlainLine (line : List Char) : Bool :=
  (line.head?.any fun c => Text.isWord c && !Text.isDigit c)
    && line.all fun c => isPlain c || c == ' '

/-- The value of a scalar on a line of its own. -/
def scalar? (line : List Char) : Option (Except Fault Value) :=
  let line := Text.trimBy (· == ' ') line
  (node? line).or (if isPlainLine line then some (plainValue line) else none)

/-- The value of a line of a block list. -/
def item? : List Char → Option (Except Fault Value)
  | '-' :: ' ' :: line => scalar? line
  | _ => none

/-- The lines of a document that are neither blank nor comments. -/
def contentLines (cs : List Char) : List (List Char) :=
  (Text.splitBy Text.isLineBreak cs).filter fun line => !(next line).isEmpty

/-- The value of a document that is not in the flow style. -/
def block? (cs : List Char) : Option (Except Fault Value) :=
  match contentLines cs, (contentLines cs).mapM item? with
  | _, some items => some ((items.mapM id).map .list)
  | [line], none => scalar? line
  | _, none => none

/-- The value of a document without a byte order mark, unless it is malformed. -/
def document? (cs : List Char) : Option (Except Fault Value) :=
  if (next cs).isEmpty then some (.ok .null) else (node? cs).or (block? cs)

/-- The code points of the characters that a document may hold. -/
def documentRanges : List (Nat × Nat) :=
  [(0x9, 0xa), (0xd, 0xd), (0x20, 0x7e), (0x85, 0x85), (0xa0, 0xd7ff), (0xe000, 0xfffd),
    (0x10000, 0x10ffff)]

/-- The value of a document, or none if it is malformed. A byte order mark may stand before it. -/
def read (s : String) : Except Fault (Option Value) :=
  if s.toList.all fun c => Text.within documentRanges c.toNat then
    let parsed := match Text.withLineFeeds s.toList with
      | '\uFEFF' :: cs => document? cs
      | cs => document? cs
    match parsed with
    | some v => v.map some
    | none => .ok none
  else .ok none

end LooseData.Yaml
