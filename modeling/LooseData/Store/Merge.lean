import LooseData.Store.Edit

set_option autoImplicit false

/-! # Deep merging

Merging a source into a target goes through the source's entries in order. Where the target's
value under an entry's key and the entry's value are both nested, and the target's value can
take the keys of the entry's value, the two are merged in turn; otherwise the entry's value is
written under its key. Values are not copied: a collection that is written into the target is
shared with the source from then on.
-/

namespace LooseData

/-- Whether a value can be merged into another one rather than replace it. -/
def Layer.mergeable (current value : Layer Slot) : Except Fault Bool :=
  if current.isNested && value.isNested then current.acceptsKeys value.ownKeys
  else .ok false

namespace Store

/-- Merge one entry of a source: `mergeInto` goes on into two values that are merged, and any
other value is written. -/
def mergeEntry [Memory] (mergeInto : Slot → Slot → Edit Store Unit) (target : Slot) :
    Value × Slot → Edit Store Unit
  | (key, value) => do
    let current ← (← layerOf target).access key
    if ← Layer.mergeable (← layerOf current) (← layerOf value) then mergeInto current value
    else assign target key value

/-- Merge a source into a target, through at most `depth` levels. -/
def mergeTo [Memory] : (depth : Nat) → (target source : Slot) → Edit Store Unit
  | 0, _, _ => .fail .bottomless
  | depth + 1, target, source => do
    let offered ← layerOf source
    let held ← layerOf target
    if held.isNested && offered.isNested then
      (← offered.entries).forM (mergeEntry (mergeTo depth) target)
    else
      (Logged.debug ("Skipping merge of " ++ offered.kind ++ " into " ++ held.kind) : Logged Unit)

/-- Merge a source into a target. -/
def merge [Memory] (target source : Slot) : Edit Store Unit := do
  mergeTo ((← get).cells.size + 1) target source

/-- Merge sources into a target one after another. -/
def mergeAll [Memory] (target : Slot) (sources : List Slot) : Edit Store Unit :=
  sources.forM (merge target)

end Store

/-- The target after merging sources into it, all sharing nothing. -/
def Value.merge [Memory] (target : Value) (sources : List Value) : Logged Value :=
  let edit : Edit Store Value := do
    let target ← Store.put target
    Store.mergeAll target (← sources.mapM Store.put)
    Store.valueOf target
  (edit.run .empty).1

end LooseData
