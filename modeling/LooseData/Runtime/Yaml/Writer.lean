import LooseData.Text.Quoted
import LooseData.Value.Display
import LooseData.Runtime.Yaml.Scalar

set_option autoImplicit false

/-! # Writing YAML documents

Values are written in the block style: the entries of a mapping and the items of a list stand on
lines of their own, indented by two more blanks on every level, except that the dashes of a list
stand below the key that the list belongs to. Empty collections are written with brackets. Long
texts are folded at blanks once a line is longer than `Pen.width`.
-/

namespace LooseData.Yaml

/-- What has been written, and where the pen stands. -/
structure Pen where
  text : String
  column : Nat
  /-- Whether a blank or nothing stands before the pen on its line. -/
  afterBlank : Bool
  /-- Whether only indentation and indicators stand before the pen on its line. -/
  atStart : Bool

namespace Pen

/-- The number of columns after which texts are folded. -/
def width : Nat := 80

/-- The pen at the start of a document. -/
def start : Pen := ⟨"", 0, true, true⟩

/-- Write characters and leave the rest as it is. -/
def put (p : Pen) (cs : List Char) : Pen :=
  { p with text := p.text ++ String.ofList cs, column := p.column + cs.length }

/-- End the line. -/
def breakLine (p : Pen) : Pen := ⟨p.text ++ "\n", 0, true, true⟩

/-- Go to an indentation, on the next line if the present one is in use there. -/
def indent (p : Pen) (margin : Nat) : Pen :=
  let ends := !p.atStart || margin < p.column || (p.column == margin && !p.afterBlank)
  let p := if ends then p.breakLine else p
  if p.column < margin then
    { p.put (List.replicate (margin - p.column) ' ') with afterBlank := true }
  else p

/-- Write an indicator, after a blank if it needs one. `keepsStart` tells whether the line still
counts as indentation afterwards. -/
def indicator (p : Pen) (cs : List Char) (needsBlank keepsStart : Bool) : Pen :=
  let p := if p.afterBlank || !needsBlank then p.put cs else p.put (' ' :: cs)
  { p with afterBlank := false, atStart := p.atStart && keepsStart }

/-- The pen within a text. -/
def within (p : Pen) : Pen := { p with afterBlank := false, atStart := false }

/-! ## Texts -/

/-- Write the blanks between two words, or fold there: a single blank is replaced by a line
break when the line is full. -/
def gap (p : Pen) (blanks : Nat) (margin : Nat) (folds : Bool) : Pen :=
  if blanks == 1 && width < p.column && folds then p.indent margin
  else p.put (List.replicate blanks ' ')

/-- Write a plain text. `blanks` are counted but not yet written. -/
def plainFrom (p : Pen) (margin : Nat) (folds : Bool) : (blanks : Nat) → List Char → Pen
  | blanks, [] => p.put (List.replicate blanks ' ')
  | blanks, c :: cs =>
    if c == ' ' then plainFrom p margin folds (blanks + 1) cs
    else
      let p := if blanks == 0 then p else (p.gap blanks margin folds).within
      plainFrom (p.put [c]) margin folds 0 cs

/-- Write a plain text. -/
def plain (p : Pen) (cs : List Char) (margin : Nat) (folds : Bool) : Pen :=
  if cs.isEmpty then p
  else plainFrom (if p.afterBlank then p else p.put [' ']).within margin folds 0 cs

/-- End the lines that a run of line breaks between two parts of a quoted text stands for; one
more is needed since a single one would read as a blank. -/
def breaks (p : Pen) (count : Nat) (margin : Nat) : Pen :=
  (Nat.repeat breakLine (count + 1) p).indent margin

/-- Write a text between single quotes. `blanks` and `lines` are counted but not yet written;
`isFirst` tells whether nothing is written yet. -/
def singleFrom (p : Pen) (margin : Nat) (folds : Bool) :
    (isFirst : Bool) → (blanks lines : Nat) → List Char → Pen
  | _, blanks, lines, [] =>
    let p := p.put (List.replicate blanks ' ')
    if lines == 0 then p else p.breaks lines margin
  | isFirst, blanks, lines, c :: cs =>
    if c == ' ' then
      let p := if lines == 0 then p else p.breaks lines margin
      singleFrom p margin folds isFirst (blanks + 1) 0 cs
    else if c == '\n' then
      singleFrom (p.put (List.replicate blanks ' ')) margin folds false 0 (lines + 1) cs
    else
      let p := if blanks == 0 then p else p.gap blanks margin (folds && !isFirst)
      let p := if lines == 0 then p else p.breaks lines margin
      singleFrom (p.put (if c == '\'' then ['\'', '\''] else [c])) margin folds false 0 0 cs

/-- Write a text between single quotes. -/
def single (p : Pen) (cs : List Char) (margin : Nat) (folds : Bool) : Pen :=
  let p := p.indicator ['\''] true false
  (singleFrom p margin folds true 0 0 cs).indicator ['\''] false false

/-- The letters that stand for characters after a backslash. -/
def escapes : List (Char × Char) :=
  [('\x00', '0'), ('\x07', 'a'), ('\x08', 'b'), ('\t', 't'), ('\n', 'n'), ('\x0b', 'v'),
    ('\x0c', 'f'), ('\r', 'r'), ('\x1b', 'e'), ('"', '"'), ('\\', '\\'), ('\x85', 'N'),
    ('\xa0', '_'), ('\u2028', 'L'), ('\u2029', 'P')]

/-- The escape of a character, if it needs one. -/
def escape? (c : Char) : Option (List Char) :=
  if c != '"' && c != '\\' && !isSpecial c && c != '\n' then none
  else some <| '\\' :: match escapes.lookup c with
    | some letter => [letter]
    | none =>
      if c.toNat < 0x100 then 'x' :: upperHex 2 c.toNat
      else if c.toNat < 0x10000 then 'u' :: upperHex 4 c.toNat
      else 'U' :: upperHex 8 c.toNat
where
  /-- Hexadecimal digits in capital letters. -/
  upperHex (width n : Nat) : List Char := (Text.hexDigits width n).map Char.toUpper

/-- Fold a text between double quotes: a backslash ends the line, and another one keeps a blank
at the start of the next. -/
def foldDouble (p : Pen) (next : Option Char) (margin : Nat) : Pen :=
  let p := ((p.put ['\\']).indent margin).within
  if next == some ' ' then p.put ['\\'] else p

/-- Write a text between double quotes. `chunk` is the number of characters written since the last
escape or fold, and `inside` tells whether the first character is behind. A fold is tried at
every blank and where no chunk has begun, but neither at the first nor at the last two
characters. -/
def doubleFrom (p : Pen) (margin : Nat) (folds : Bool) :
    (inside : Bool) → (chunk : Nat) → List Char → Pen
  | _, _, [] => p
  | inside, chunk, c :: cs =>
    let mayFold := inside && !cs.isEmpty && folds
    match escape? c with
    | some written =>
      let p := p.put written
      let p := if mayFold && width + 1 < p.column then p.foldDouble cs.head? margin else p
      doubleFrom p margin folds true 0 cs
    | none =>
      if mayFold && (c == ' ' || chunk == 0) && width < p.column then
        doubleFrom ((p.foldDouble (some c) margin).put [c]) margin folds true 1 cs
      else doubleFrom (p.put [c]) margin folds true (chunk + 1) cs

/-- Write a text between double quotes. -/
def double (p : Pen) (cs : List Char) (margin : Nat) (folds : Bool) : Pen :=
  let p := p.indicator ['"'] true false
  (doubleFrom p margin folds false 0 cs).indicator ['"'] false false

/-- Write a text in its style. -/
def scalar (p : Pen) (cs : List Char) (isKey : Bool) (margin : Nat) : Pen :=
  match styleOf isKey cs with
  | .plain => p.plain cs margin !isKey
  | .single => p.single cs margin !isKey
  | .double => p.double cs margin !isKey

end Pen

/-! ## Values -/

/-- Where a value stands. -/
structure Place where
  /-- The indentation of the collection around, if there is one. -/
  indentation : Option Nat
  /-- Whether the collection around is a mapping. -/
  inMapping : Bool

/-- The indentation of the entries of a collection at a place. -/
def Place.inner (p : Place) : Nat :=
  match p.indentation with
  | none => 0
  | some n => n + 2

/-- The indentation of the folded lines of a scalar at a place. -/
def Place.folded (p : Place) : Nat := p.indentation.getD 0 + 2

/-- A value that is being written. -/
abbrev Stroke := Place → Pen → Pen

/-- The text of a double. A point is put into a mantissa that has none. -/
def doubleText (d : Double) : List Char :=
  match d with
  | .nan _ => ".nan".toList
  | .infinite negative => (if negative then "-.inf" else ".inf").toList
  | d =>
    let cs := (NumberForm.display.write d).toList
    if cs.contains '.' then cs
    else cs.takeWhile (· ≠ 'e') ++ ['.', '0'] ++ cs.dropWhile (· ≠ 'e')

/-- The plain text of an atom that is no text. -/
def atomText : Atom → List Char
  | .null => "null".toList
  | .bool b => (if b then "true" else "false").toList
  | .double d => doubleText d
  | a => a.display.toList

/-- Write an atom. -/
def writeAtom (a : Atom) : Stroke := fun place p =>
  match a with
  | .text s => p.scalar s.toList false place.folded
  | a => p.plain (atomText a) place.folded true

/-- The text of a key. -/
def keyText : Key → List Char
  | .atom (.text s) => s.toList
  | .atom a => atomText a
  | k => k.display.toList

/-- Whether a key can stand before its colon on one line: it is neither empty nor longer than 122
characters and has no line break. -/
def isSimpleKey (cs : List Char) : Bool :=
  !cs.isEmpty && cs.length < 123 && !cs.any Text.isLineBreak

/-- Write a key. -/
def writeKey (k : Key) (isSimple : Bool) (margin : Nat) (p : Pen) : Pen :=
  match k with
  | .atom (.text s) => p.scalar s.toList isSimple (margin + 2)
  | k => p.plain (keyText k) (margin + 2) !isSimple

/-- Write the entries of a mapping. -/
def writeEntries (entries : List (Key × Stroke)) : Stroke := fun place p =>
  let margin := place.inner
  entries.foldl (fun p e =>
    let isSimple := isSimpleKey (keyText e.1)
    let p := p.indent margin
    let p := if isSimple then (writeKey e.1 true margin p).indicator [':'] false false
      else
        let p := writeKey e.1 false margin (p.indicator ['?'] true true)
        (p.indent margin).indicator [':'] true true
    e.2 ⟨some margin, true⟩ p) p

/-- Write the items of a list. -/
def writeItems (items : List Stroke) : Stroke := fun place p =>
  let margin := if place.inMapping && !p.atStart then place.indentation.getD 0 else place.inner
  items.foldl (fun p item =>
    item ⟨some margin, false⟩ ((p.indent margin).indicator ['-'] true true)) p

/-- Write an empty collection. -/
def writeEmpty (brackets : List Char) : Stroke := fun _ p => p.indicator brackets true false

/-- How a value is written. -/
def stroke : Value → Stroke :=
  Value.fold writeAtom fun n =>
    match n with
    | .list [] => writeEmpty ['[', ']']
    | .tuple [] => writeEmpty ['[', ']']
    | .list items => writeItems items
    | .tuple items => writeItems items
    | n => if n.contents.isEmpty then writeEmpty ['\x7b', '\x7d'] else writeEntries n.contents

/-- A value as a YAML document. -/
def write (v : Value) : String := ((stroke v ⟨none, false⟩ .start).indent 0).text

end LooseData.Yaml
