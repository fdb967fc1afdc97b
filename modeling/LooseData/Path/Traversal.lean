import LooseData.Json.Reader
import LooseData.Path.Normal

set_option autoImplicit false

/-! # Traversing strictly

A traversal goes through segments. A segment is an attribute, which is itself a plain path, an
index in brackets, or both, the attribute first. After the attribute, a text must be a JSON
document and is decoded; then the index is followed. A segment of any other form only decodes.
-/

namespace LooseData

namespace Path

/-- The index of the text after an opening bracket: characters other than quotes and the
closing bracket, between optional quotes. A line feed may follow the bracket at the end. -/
def segmentIndex? (cs : List Char) : Option (List Char) :=
  let opened := dropOne '"' (dropOne '\'' cs)
  let inner := opened.takeWhile fun c => !(isQuote c || c == ']')
  let close := dropOne '"' (dropOne '\'' (opened.dropWhile fun c => !(isQuote c || c == ']')))
  if inner.isEmpty then none
  else if close = [']'] ∨ close = [']', '\n'] then some inner
  else none
where
  /-- The text without a character at its start. -/
  dropOne (c : Char) : List Char → List Char
    | d :: cs => if d = c then cs else d :: cs
    | [] => []

/-- The attribute and the index of a segment. -/
def segment (cs : List Char) : Option String × Option String :=
  let leading := cs.takeWhile (· ≠ '[')
  let name := if leading.isEmpty then none else some (String.ofList leading)
  match cs.dropWhile (· ≠ '[') with
  | [] => (name, none)
  | _ :: cs => match segmentIndex? cs with
    | some index => (name, some (String.ofList index))
    | none => (none, none)

end Path

namespace Value

/-- What a value holds at an optional path. -/
def followOptional (v : Value) : Option String → Except Fault Value
  | some path => v.follow (.text path)
  | none => .ok v

/-- A text decoded as JSON; everything else as it is. -/
def decodeStrictly : Value → Except Fault Value
  | .atom (.text s) => Json.ofText s
  | v => .ok v

/-- Go through one segment. -/
def traverseSegment (v path : Value) : Except Fault Value :=
  match path with
  | .atom (.text s) => do
    let (name, index) := Path.segment s.toList
    let v ← (← v.followOptional name).decodeStrictly
    v.followOptional index
  | _ => .error .notASegment

/-- Go through segments, given as one text or as anything that can be gone through. -/
def traverse (v paths : Value) : Except Fault Value :=
  match paths with
  | .atom (.text _) => v.traverseSegment paths
  | paths => do (← paths.items?).foldlM traverseSegment v

end Value

end LooseData
