import LooseData.Edit
import LooseData.Json.Reader
import LooseData.Path.Token

set_option autoImplicit false

/-! # Resolving paths

A resolver stands at a target with a token and the tokens after it. One step reads the token's
attribute from the target, decodes the result if it is a text that holds JSON, and applies the
token's indices one after another. As long as tokens are left and the result is not null, the
resolver moves on to the result.
-/

namespace LooseData

open LooseData.Path

/-- A place on the way along a path. -/
structure Resolver where
  target : Value
  parts : Parts
  /-- The token that `parts` are the parts of. -/
  token : Option String
  /-- The tokens after it. -/
  rest : List String

namespace Resolver

/-- A resolver at a target, before the first of some tokens. -/
def aim (target : Value) : List String → Resolver
  | [] => ⟨target, Path.parts [], none, []⟩
  | token :: rest => ⟨target, Path.parts token.toList, some token, rest⟩

/-- A resolver at a target, at the start of a path. -/
def ofPath (target path : Value) : Resolver := aim target (tokens path)

/-- Whether no token is left after the present one. -/
def complete (r : Resolver) : Bool := r.rest.isEmpty

/-- What a value holds under one index after another. -/
def followIndices (v : Value) (indices : List String) : Except Fault Value :=
  indices.foldlM (fun v index => v.access (.text index)) v

/-- What a value holds under an index expression. Without one it is the value itself. -/
def applyIndex (v : Value) : Option String → Except Fault Value
  | none => .ok v
  | some expression => followIndices v (indices expression)

/-- An index expression given as a value; one that counts as false is none. -/
def indexOf? (index : Value) : Except Fault (Option String) :=
  match index with
  | .atom (.text s) => .ok (some s)
  | index => if index.truthy then .error .notASegment else .ok none

/-- What the present attribute reads from the target, decoded if it is JSON. -/
def propertyValue (r : Resolver) : Except Fault Value :=
  match r.parts.name with
  | some name => (r.target.access (.text name)).map Json.decodeText
  | none => .ok (Json.decodeText r.target)

/-- What the present token reads from the target. -/
def propertyAtIndex (r : Resolver) : Except Fault Value := do
  applyIndex (← r.propertyValue) r.parts.index

/-- The token as it is shown in the log. -/
def shownToken (r : Resolver) : String :=
  match r.token with
  | some token => Text.quote token
  | none => Atom.null.display

/-- Read the present token. -/
def readToken : Edit Resolver Value := do
  let r ← get
  let v ← r.propertyAtIndex
  (Logged.trace ("Resolved token " ++ r.shownToken ++ " => " ++ v.kind) : Logged Unit)
  pure v

/-- Read the present token and then the given ones, which follow it. -/
def readOn : List String → Edit Resolver Value
  | [] => readToken
  | token :: rest => do
    let v ← readToken
    if v.isNull then pure v
    else do
      .become (aim v (token :: rest))
      readOn rest

/-- The result of the path from the present token on. -/
def result : Edit Resolver Value := do
  readOn (← get).rest

/-- Start again at another target and path, and read the whole path. A null target is its own
result and leaves the resolver where it is. -/
def resolveFrom (target path : Value) : Edit Resolver Value := do
  if target.isNull then pure target
  else do
    .become (ofPath target path)
    result

end Resolver

/-- The value at a path of a target. -/
def Value.resolve (target path : Value) : Logged Value :=
  if target.isNull then pure target else (Resolver.result.run (.ofPath target path)).1

end LooseData
