import LooseData.Proofs.CaselessMap.Entries
import LooseData.Proofs.Layer.Mapping

set_option autoImplicit false

/-! # What a caseless map gives out

A caseless map gives out its entries as a list of pairs (`CaselessMap.toPairs`), as a dictionary
(`CaselessMap.toDict`), or as the mapping that it is, which is gone through label by label
(`CaselessMap.items?`). Since no two labels of a coherent map have the same folded form, each of the
three has one entry for each entry of the map, and all are read as the same pairs.
-/

namespace LooseData.CaselessMap

variable {m : CaselessMap Value}

/-- The entries as a list of pairs. -/
def toPairs (m : CaselessMap Value) : Value :=
  .list (m.entries.map fun e => .node (.tuple [.ofKey (Node.labelKey e.1), e.2]))

/-- The entries as a mapping shows them: each label with the item that is found under it. -/
def items? (m : CaselessMap Value) : Except Fault (List (Label × Value)) :=
  m.labels.mapM fun label => (m.item (.ofKey (Node.labelKey label))).map fun v => (label, v)

/-! ## Giving the entries out -/

theorem label?_labelKey (label : Label) :
    (Value.ofKey (Node.labelKey label)).label? = .ok label := by
  cases label <;> rfl

/-- Different labels are different keys of a dictionary, so it has an entry for each label. -/
theorem Coherent.toDict_eq (h : m.Coherent) :
    m.toDict = .dict (m.entries.map fun e => (Node.labelKey e.1, e.2)) := by
  have hkeys : Table.Distinct (m.entries.map fun e => (Node.labelKey e.1, e.2)) :=
    Node.IsMap.distinct (n := .caseless m) h
  rw [toDict, hkeys.ofList_eq]

/-- The item of a label is the value that stands beside it. -/
theorem Coherent.item_of_mem (h : m.Coherent) {e : Label × Value} (he : e ∈ m.entries) :
    m.item (.ofKey (Node.labelKey e.1)) = .ok e.2 := by
  have hscan : m.scan e.1 = some e := (h.scan_eq_some_iff e.1 e).mpr ⟨he, rfl⟩
  have hfound : m.find? (.ofKey (Node.labelKey e.1)) = .ok (some e.2) := by
    rw [find?, label?_labelKey, Except.map, h.get?_eq_scan, hscan]
    rfl
  rw [item, hfound]
  rfl

/-- **Going through the map label by label** gives its entries. -/
theorem Coherent.items?_eq (h : m.Coherent) : m.items? = .ok m.entries := by
  have hitems : ∀ e ∈ m.entries,
      (m.item (.ofKey (Node.labelKey e.1))).map (fun v => (e.1, v)) = .ok e := by
    intro e he
    rw [h.item_of_mem he]
    rfl
  rw [items?, labels, List.mapM_map]
  exact (Except.mapM_eq_ok hitems).trans (congrArg Except.ok (List.map_id _))

/-! ## Reading them as pairs -/

theorem pairs?_toPairs (m : CaselessMap Value) :
    m.toPairs.pairs? = .ok (m.entries.map fun e => .ok (.ofKey (Node.labelKey e.1), e.2)) := by
  have hitems : m.toPairs.pairs? = .ok ((m.entries.map fun e =>
      Value.node (.tuple [.ofKey (Node.labelKey e.1), e.2])).map Value.pair?) := rfl
  rw [hitems, List.map_map]
  rfl

theorem Coherent.pairs?_toDict (h : m.Coherent) :
    m.toDict.pairs? = .ok (m.entries.map fun e => .ok (.ofKey (Node.labelKey e.1), e.2)) := by
  rw [h.toDict_eq]
  show Except.ok ((m.entries.map _).map _) = _
  rw [List.map_map]
  rfl

theorem pairs?_caseless (m : CaselessMap Value) :
    (Value.node (.caseless m)).pairs? =
      .ok (m.entries.map fun e => .ok (.ofKey (Node.labelKey e.1), e.2)) := by
  show Except.ok ((m.entries.map _).map _) = _
  rw [List.map_map]
  rfl

end LooseData.CaselessMap
