import LooseData.Number.Coercion
import LooseData.Path.Resolver
import LooseData.Text.Alike

set_option autoImplicit false

/-! # Tag handlers

A handler turns the payload of a tag into a value. Besides the payload it sees the context: the
tag, the text that it heads, and two collections to look things up in, the read-only
configuration and the state. The handlers of the library are `Builtin.apply`; what functions
from outside do is a parameter (`Functions`).
-/

namespace LooseData

namespace Tag

/-- What a handler may look at besides the payload. -/
structure Context where
  /-- The tag as written. -/
  tag : String
  /-- The payload after the tags in it have been evaluated. -/
  payload : Value
  /-- The text that the tag heads, unevaluated. -/
  source : String
  config : Value
  state : Value

/-- A handler. -/
abbrev Handler := Context → Logged Value

/-- What the functions that are known by name do. -/
abbrev Functions := String → Handler

/-- A payload decoded as JSON. A mapping or a list has been decoded already. -/
def decodePayload (v : Value) : Except Fault Value :=
  if v.isCollection then .ok v else Json.decode v

/-- The words for what is true. -/
def truthWords : List String := ["true", "yes", "y", "1"]

/-- Whether a text counts as true: one of the words occurs in it, in any letter case. -/
def countsAsTrue (s : String) : Bool :=
  truthWords.any fun word => Text.occursAlike word.toList s.toList

/-- A path looked up in a collection. -/
def lookUp (collection path : Value) : Logged Value := collection.resolve path

end Tag

open Tag

/-- What a handler of the library does. Without a state the text is returned as it is. -/
def Builtin.apply (b : Builtin) (context : Context) : Logged Value :=
  match b with
  | .array | .json => decodePayload context.payload
  | .bool => do
    let s ← context.payload.shown?
    pure (.bool (countsAsTrue s))
  | .config => lookUp context.config context.payload
  | .state =>
    if context.state.isNull then pure (.text context.source)
    else lookUp context.state context.payload
  | .number => pure context.payload.toNumber
  | .int => context.payload.toNumber.roundHalfUp
  | .none => pure .null

/-- What a function does. -/
def FunctionName.apply (functions : Functions) : FunctionName → Handler
  | .builtin b => b.apply
  | .custom name => functions name

end LooseData
