import LooseData.Tag
import LooseData.Tag.Registry

set_option autoImplicit false

/-! # Evaluating tagged texts

A tagged text is evaluated from the inside out: the payload of the innermost tag is handed to
the handler of that tag, the result to the handler of the next tag, and so on. A tag without a
handler makes the text that it heads stand for itself. What a handler returns is never read as
a tagged text again.
-/

namespace LooseData.Tag

/-- The collections and the limit with which texts are evaluated. -/
structure Parser where
  state : Value
  config : Value
  /-- How many tags may stand inside a tag; without it there is no limit. -/
  maxDepth : Option Int

namespace Parser

/-- A parser for a state. The configuration, if not given, is what the state holds under the
name `config`, and is empty if it holds nothing there. -/
def make (state config : Value) (maxDepth : Option Int) : Except Fault Parser := do
  let config ← if config.isNull then state.access (.text "config") else pure config
  pure ⟨state, if config.isNull then .dict [] else config, maxDepth⟩

/-- Whether a tag at a depth is too deep. -/
def tooDeep (p : Parser) (depth : Nat) : Bool :=
  p.maxDepth.any fun limit => decide (limit < (depth : Int))

/-- Apply what a registry holds for a tag. Null counts as no handler. -/
def dispatch (p : Parser) (functions : Functions) (registry : Registry) (tag source : String)
    (payload : Value) : Logged Value := do
  match ← registry.find? (.text tag) with
  | none | some (.atom .null) => do
    Logged.trace ("No handler for tag '" ++ tag ++ "'; returning input unchanged")
    pure (.text source)
  | some (.atom (.function f)) => f.apply functions ⟨tag, payload, source, p.config, p.state⟩
  | some _ => .fail .notCallable

/-- Evaluate the tags of a text whose first tag is at the given depth. -/
def evaluateFrom (p : Parser) (functions : Functions) (registry : Registry) :
    (depth : Nat) → (tags : List (List Char)) → (payload : List Char) → Logged Value
  | _, [], payload => pure (.text (String.ofList payload))
  | depth, tag :: tags, payload => do
    let source := String.ofList (written (tag :: tags) payload)
    let inner := String.ofList (written tags payload)
    let tag := String.ofList tag
    if p.tooDeep depth then .fail (.tooDeep source (p.maxDepth.getD 0))
    else do
      Logged.debug ("Resolved arg (" ++ tag ++ ") => " ++ inner)
      if !tags.isEmpty then
        Logged.trace ("Payload \"" ++ inner ++ "\" is a nested parse target")
      let value ← evaluateFrom p functions registry (depth + 1) tags payload
      p.dispatch functions registry tag source value

/-- Evaluate a text that stands inside `depth` tags. -/
def evaluateAt (p : Parser) (functions : Functions) (registry : Registry) (depth : Nat)
    (cs : List Char) : Logged Value :=
  let (tags, payload) := spine cs
  p.evaluateFrom functions registry depth tags payload

/-- Evaluate a text. -/
def evaluateText (p : Parser) (functions : Functions) (registry : Registry) (s : String) :
    Logged Value :=
  p.evaluateAt functions registry 0 s.toList

/-- Evaluate a value: a text by its tags, anything else to itself. -/
def evaluate (p : Parser) (functions : Functions) (registry : Registry) (v : Value) :
    Logged Value :=
  match v with
  | .atom (.text s) => p.evaluateText functions registry s
  | v => pure v

end Parser

end LooseData.Tag
