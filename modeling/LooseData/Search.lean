import LooseData.Layer.Lookup
import LooseData.Text.Split
import LooseData.Value.Equality

set_option autoImplicit false

/-! # Searching collections

Finding the value of a key that is known only in part, checking a value against a collection of
options, and pairing items.
-/

namespace LooseData

namespace Value

/-- Whether a key looked for meets the key of an entry: it equals it, is a text that occurs in
its text, or is a pattern that matches its text. -/
def meets (matcher : Matcher) (key entryKey : Value) : Except Fault Bool :=
  if key.equal entryKey then .ok true
  else match key with
    | .atom (.text part) =>
      entryKey.shown?.map fun s => Text.occursIn part.toList s.toList
    | .atom (.pattern p) => entryKey.shown?.map (matcher p)
    | _ => .ok false

/-- The value of the first entry whose key is met. -/
def firstMet (matcher : Matcher) (key : Value) : List (Value × Value) → Except Fault (Option Value)
  | [] => .ok none
  | (k, v) :: rest => do
    if ← key.meets matcher k then pure (some v) else firstMet matcher key rest

/-- The value of a key, else of the first entry whose key is met by it, else the default. A
pattern is not looked up, and a whole number outside an array finds nothing. -/
def search (matcher : Matcher) (v key default : Value) : Except Fault Value := do
  let isPattern := match key with
    | .atom (.pattern _) => true
    | _ => false
  if ← (if isPattern then pure false else v.hasKey key) then v.access key
  else match key, v.isArray with
    | .atom (.int _), true => pure null
    | key, _ => do
      let found ← firstMet matcher key (← v.entries)
      pure (found.getD default)

/-- The options that an enumeration gives: the names, aliases included, and the constants of its
members. -/
def enumerationOptions (e : Enumeration) : List Value :=
  e.constants.map (fun c => .text c.1) ++ e.members.map fun m => .atom (.ofConstant m.2)

/-- Whether a value is a member of an enumeration. -/
def isMemberOf (e : Enumeration) : Value → Bool
  | .atom (.member e' _) => e == e'
  | _ => false

/-- The value itself if it is a key or a value of some options, otherwise the default. Missing
options are a fault. -/
def oneOf (v options default : Value) : Except Fault Value :=
  match options with
  | .atom .null => .error (.noOptions v.kind)
  | .atom (.enumeration e) =>
    .ok (if v.isMemberOf e || v.isIn (enumerationOptions e) then v else default)
  | options => do
    if ← options.hasKey v then pure v
    else if v.isIn options.ownKeys || v.isIn (← options.values) then pure v
    else pure default

/-- The items of two values paired one by one, as many as the shorter one has. -/
def zip (a b : Value) : Except Fault (List (Value × Value)) := do
  pure ((← a.items?).zip (← b.items?))

/-- The items of an array, and the keys of anything else. -/
def itemsOrKeys : Value → List Value
  | .node (.list items) => items
  | .node (.tuple items) => items
  | v => v.ownKeys

/-- The table whose keys and values alternate in a list. A key at the end without a value is
dropped. -/
def alternating : List Value → Table Value → Except Fault (Table Value)
  | key :: v :: rest, entries =>
    match key.key? with
    | some k => alternating rest (Table.set entries k v)
    | none => .error .unhashable
  | _, entries => .ok entries

/-- The dictionary whose keys and values alternate in a sequence. -/
def ofAlternating (items : Value) : Except Fault Value := do
  pure (.dict (← alternating (← items.items?) []))

end Value

end LooseData
