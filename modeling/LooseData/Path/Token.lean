import LooseData.Layer.Lookup
import LooseData.Text.Blank
import LooseData.Text.Split

set_option autoImplicit false

/-! # Path tokens

A path is cut at blanks and dots into tokens. A token names an **attribute**, an **index
expression** in brackets, or both, the attribute first. Quotes just inside the brackets do not
belong to the expression, which in turn is cut at brackets, dots and quotes into indices, so
that `a[0][1]` has the indices `0` and `1`. A token of any other form has neither part.
-/

namespace LooseData

namespace Path

/-- The two parts of a token. -/
structure Parts where
  /-- The attribute. -/
  name : Option String
  /-- The index expression. -/
  index : Option String
deriving DecidableEq

/-- Whether a character is a bracket. -/
def isBracket (c : Char) : Bool := c == '[' || c == ']'

/-- Whether a character is a quote. -/
def isIndexQuote (c : Char) : Bool := c == '\'' || c == '"'

/-- Whether a character separates tokens. -/
def separatesTokens (c : Char) : Bool := Text.isBlank c || c == '.'

/-- Whether a character separates indices. -/
def separatesIndices (c : Char) : Bool := isBracket c || c == '.' || isIndexQuote c

/-- The text without a line feed at its end. -/
def dropFinalNewline (cs : List Char) : List Char :=
  if cs.getLast? = some '\n' then cs.dropLast else cs

/-- The text without a quote at its start, unless it is nothing but the quote. -/
def dropOpeningQuote : List Char → List Char
  | [c] => [c]
  | c :: cs => if isIndexQuote c then cs else c :: cs
  | [] => []

/-- The text without a quote at its end, unless it is nothing but the quote. -/
def dropClosingQuote (cs : List Char) : List Char :=
  if 2 ≤ cs.length ∧ cs.getLast?.any isIndexQuote then cs.dropLast else cs

/-- The index expression of the text after an opening bracket, which must end with the closing
one or with that and a line feed. -/
def indexExpression? (cs : List Char) : Option (List Char) :=
  let cs := dropFinalNewline cs
  match cs.getLast?, cs.dropLast with
  | some ']', [] => none
  | some ']', expression => some (dropClosingQuote (dropOpeningQuote expression))
  | _, _ => none

/-- The parts of a token. -/
def parts (token : List Char) : Parts :=
  let leading := token.takeWhile fun c => !isBracket c
  let name := if leading.isEmpty then none else some (String.ofList leading)
  match token.dropWhile fun c => !isBracket c with
  | [] => ⟨name, none⟩
  | '[' :: cs => match indexExpression? cs with
    | some expression => ⟨name, some (String.ofList expression)⟩
    | none => ⟨none, none⟩
  | _ => ⟨none, none⟩

/-- The indices of an index expression. -/
def indices (expression : String) : List String :=
  (Text.fields separatesIndices expression.toList).map String.ofList

/-- The tokens of a path text. -/
def tokensOfText (path : String) : List String :=
  (Text.fields separatesTokens path.toList).map String.ofList

/-- The texts among the items of a sequence that are not empty. -/
def tokensOfItems (items : List Value) : List String :=
  items.filterMap fun
    | .atom (.text s) => if s.isEmpty then none else some s
    | _ => none

/-- The tokens of a path given as a text or as a sequence of tokens; nothing else has any. -/
def tokens : Value → List String
  | .atom (.text s) => tokensOfText s
  | .node (.list items) => tokensOfItems items
  | .node (.tuple items) => tokensOfItems items
  | _ => []

end Path

end LooseData
