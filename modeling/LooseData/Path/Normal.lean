import LooseData.Layer.Lookup
import LooseData.Text.Split
import LooseData.Text.Word

set_option autoImplicit false

/-! # Plain paths

A plain path is a list of keys with dots between them. A path may also give keys as bracket
groups, a quoted word or a number in brackets; normalising it turns these into plain keys,
drops one dot at the start, and makes one dot of two. Following a path looks up one key after
another.
-/

namespace LooseData

namespace Path

/-- Whether a character is a quote. -/
def isQuote (c : Char) : Bool := c == '\'' || c == '"'

/-- The key of a bracket group at the start of a text, and how long the group is. -/
def group? : List Char → Option (List Char × Nat)
  | '[' :: cs =>
    let quoted := match cs with
      | q :: cs =>
        let word := cs.takeWhile Text.isWord
        match cs.dropWhile Text.isWord with
        | q' :: ']' :: _ =>
          if isQuote q && isQuote q' && !word.isEmpty then some (word, word.length + 4) else none
        | _ => none
      | [] => none
    let digits := cs.takeWhile Text.isDecimal
    match quoted, cs.dropWhile Text.isDecimal with
    | some found, _ => some found
    | none, ']' :: _ => if digits.isEmpty then none else some (digits, digits.length + 2)
    | none, _ => none
  | _ => none

/-- The texts between bracket groups and the keys of the groups, in order. `used` characters at
the start belong to a group already. -/
def pieces : (used : Nat) → List Char → List (List Char)
  | _, [] => [[]]
  | used + 1, _ :: cs => pieces used cs
  | 0, c :: cs =>
    match group? (c :: cs) with
    | some (key, length) => [] :: key :: pieces (length - 1) cs
    | none => match pieces 0 cs with
      | [] => [[c]]
      | piece :: rest => (c :: piece) :: rest

/-- Two neighbouring dots made one, from left to right. -/
def collapseDots : List Char → List Char
  | '.' :: '.' :: cs => '.' :: collapseDots cs
  | c :: cs => c :: collapseDots cs
  | [] => []

/-- The text without one dot at its start. -/
def dropDot : List Char → List Char
  | '.' :: cs => cs
  | cs => cs

/-- The normal form of a path. -/
def normalize (cs : List Char) : List Char :=
  let parts := (pieces 0 (dropDot cs)).filter fun piece => !piece.isEmpty
  collapseDots (Text.joinWith '.' parts)

/-- The keys of a path. -/
def keys (cs : List Char) : List String :=
  (Text.fields (· == '.') (normalize cs)).map String.ofList

end Path

namespace Value

/-- The normal form of a path that is given by a value as its text. -/
def normalizePath (path : Value) : Except Fault String :=
  path.shown?.map fun s => String.ofList (Path.normalize s.toList)

/-- What a value holds under one text key after another. -/
def followKeys (v : Value) (keys : List String) : Except Fault Value :=
  keys.foldlM (fun v key => v.access (.text key)) v

/-- What a value holds at a path. -/
def follow (v path : Value) : Except Fault Value := do
  v.followKeys (Path.keys (← path.shown?).toList)

end Value

end LooseData
