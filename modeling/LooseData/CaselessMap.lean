import LooseData.Logged
import LooseData.Text.Label

set_option autoImplicit false

/-! # Maps whose labels ignore letter case

A caseless map keeps its entries in the order in which their labels were first set and finds
them by the folded form of a label. Two structures are kept in step: the **entries**, a list of
label and value, and the **index**, which holds the position of every folded label.

Setting a label that is present keeps the position and takes over the new spelling. Deleting
an entry moves the later ones down by one position, so that positions have no gaps. Both leave
a trace record unless the map is silent.
-/

namespace LooseData

/-- A map from labels to values that ignores letter case. -/
structure CaselessMap (α : Type) where
  /-- Labels as last written, with their values, in order. -/
  entries : List (Label × α) := []
  /-- The positions of the folded labels in `entries`. -/
  index : List (Label × Nat) := []
  /-- Whether the map leaves no trace records. -/
  silent : Bool := false

namespace CaselessMap

variable {α : Type}

/-! ## The index -/

/-- Record the position of a folded label, replacing an earlier position. -/
def place : List (Label × Nat) → Label → Nat → List (Label × Nat)
  | [], folded, position => [(folded, position)]
  | (f, p) :: rest, folded, position =>
    if f = folded then (f, position) :: rest else (f, p) :: place rest folded position

/-- Record the positions of entries that stand one after another from `position` on. -/
def placeFrom (index : List (Label × Nat)) (position : Nat) :
    List (Label × α) → List (Label × Nat)
  | [] => index
  | (label, _) :: rest => placeFrom (place index label.fold position) (position + 1) rest

/-- The index is in step with the entries: every entry is indexed under its folded label at
its position, the index holds nothing else, and no label is indexed twice. -/
structure Coherent (m : CaselessMap α) : Prop where
  nodup : (m.index.map Prod.fst).Nodup
  mem_index_iff : ∀ folded position, (folded, position) ∈ m.index ↔
    ∃ entry, m.entries[position]? = some entry ∧ entry.1.fold = folded

/-! ## Operations -/

/-- The map without entries. -/
def empty (silent : Bool := false) : CaselessMap α := ⟨[], [], silent⟩

/-- The position of a label. -/
def position? (m : CaselessMap α) (label : Label) : Option Nat := m.index.lookup label.fold

/-- The value of a label. -/
def get? (m : CaselessMap α) (label : Label) : Option α :=
  (m.position? label).bind fun i => m.entries[i]?.map Prod.snd

/-- Whether a label has an entry. -/
def has (m : CaselessMap α) (label : Label) : Bool := (m.position? label).isSome

/-- Set a label: in place and with the new spelling if it is present, at the end if not. -/
def set (m : CaselessMap α) (label : Label) (value : α) : CaselessMap α :=
  match m.position? label with
  | none =>
    { m with
      entries := m.entries ++ [(label, value)]
      index := place m.index label.fold m.entries.length }
  | some i => { m with entries := m.entries.set i (label, value) }

/-- The map without a label. The entries behind it move down by one position. -/
def delete (m : CaselessMap α) (label : Label) : CaselessMap α :=
  match m.position? label with
  | none => m
  | some i =>
    let entries := m.entries.eraseIdx i
    let index := m.index.filter fun e => e.1 != label.fold
    { m with entries := entries, index := placeFrom index i (entries.drop i) }

/-- The map without all its entries. -/
def clear (m : CaselessMap α) : CaselessMap α := { m with entries := [], index := [] }

/-- The number of entries. -/
def size (m : CaselessMap α) : Nat := m.entries.length

/-- The labels in order, as last written. -/
def labels (m : CaselessMap α) : List Label := m.entries.map Prod.fst

/-- The map that results from setting the given entries one after another. -/
def ofList (entries : List (Label × α)) (silent : Bool := false) : CaselessMap α :=
  entries.foldl (fun m e => m.set e.1 e.2) (empty silent)

/-- The map with every value replaced by its image. -/
def mapValues {β : Type} (f : α → β) (m : CaselessMap α) : CaselessMap β :=
  ⟨m.entries.map fun e => (e.1, f e.2), m.index, m.silent⟩

/-! ## Operations that leave a trace -/

/-- The trace of setting a label that is present. -/
def setTrace (m : CaselessMap α) (label : Label) : Logged Unit :=
  match m.position? label with
  | some i =>
    if m.silent then pure ()
    else
      let old := (m.entries[i]?.map fun e => e.1.shown).getD ""
      Logged.trace ("Key \"" ++ label.shown ++ "\" already exists as \"" ++ old
        ++ "\". Replacing at position " ++ toString i)
  | none => pure ()

/-- Set a label and leave a trace if that replaces an entry. -/
def setLogged (m : CaselessMap α) (label : Label) (value : α) : Logged (CaselessMap α) := do
  m.setTrace label
  pure (m.set label value)

/-- Delete a label and leave a trace of the positions that move. -/
def deleteLogged (m : CaselessMap α) (label : Label) : Logged (CaselessMap α) := do
  match m.position? label with
  | some i =>
    if m.silent then pure ()
    else
      Logged.trace ("Shifting entries " ++ toString (i + 1) ++ ".."
        ++ toString ((m.entries.length : Int) - 1) ++ " down by one")
  | none => pure ()
  pure (m.delete label)

end CaselessMap

end LooseData
