import LooseData.Layer.Lookup
import LooseData.Logged

set_option autoImplicit false

/-! # Selecting entries

Selectors pick entries of a collection by the texts of their keys. A pattern picks every key in
which it occurs. Anything else picks, by its text, the entry of that name regardless of letter
case, under the spelling of the selector. Keys that differ only in letter case count as one, the
last of them.
-/

namespace LooseData

variable {α : Type} (matcher : Matcher)

namespace Layer

/-- The entries that a pattern picks from named entries. -/
def pickMatching (p : Pattern) : List (Label × α) → Table α → Logged (Table α)
  | [], picked => pure picked
  | (label, v) :: rest, picked =>
    if matcher p label.shown then do
      Logged.trace ("Key \"" ++ label.shown ++ "\" matches " ++ p.source)
      pickMatching p rest (Table.set picked (.text label.shown) v)
    else pickMatching p rest picked

/-- Add what one selector picks to what is picked already. -/
def pick (named : CaselessMap α) (picked : Table α) (selector : Value) : Logged (Table α) :=
  match selector with
  | .atom (.pattern p) => pickMatching matcher p named.entries picked
  | selector => do
    let name ← selector.shown?
    match named.get? (.text name) with
    | some v => do
      Logged.trace ("Filtered property \"" ++ name ++ "\" found")
      pure (Table.set picked (.text name) v)
    | none => pure picked

variable [HoldsAtoms α]

/-- The entries of a layer under the texts of their keys. -/
def named (l : Layer α) : Except Fault (CaselessMap α) := do
  let labelled ← (← l.entries).mapM fun e => e.1.shown?.map fun name => (Label.text name, e.2)
  pure (CaselessMap.ofList labelled true)

/-- The entries that selectors pick, one selector after another. Without selectors there is
no selection. -/
def select? (l : Layer α) (selectors : List Value) : Logged (Option (Table α)) :=
  if selectors.isEmpty then do
    Logged.debug "No properties provided to filter. Returning original object"
    pure none
  else do
    Logged.debug "Filtering properties of provided object"
    some <$> selectors.foldlM (pick matcher (← l.named)) []

end Layer

namespace Value

/-- A view of the entries that selectors pick; without selectors the value itself. -/
def filter (v : Value) (selectors : List Value) : Logged Value := do
  match ← v.layer.select? matcher selectors with
  | some picked => pure (.node (.view picked v))
  | none => pure v

end Value

end LooseData
