import LooseData.Proofs.Tag.Table

set_option autoImplicit false

/-! # Copies of caseless maps and of registries

A map is copied by setting the pairs that it gives out one after another. Since no two labels of a
reachable map have the same folded form, no pair lands on another one, so the new map has the same
entries in the same order (`CaselessMap.Coherent.rebuilds`). A registry is copied by way of its
dictionary, and so the copy has the same tags with the same handlers
(`Tag.Registry.Coherent.exists_copy`).
-/

namespace LooseData

namespace CaselessMap

variable {m : CaselessMap Value}

/-- A map has been made that has the same entries as `m`, in the same order and spelling. -/
def Rebuilds (m : CaselessMap Value) (made : Logged (CaselessMap Value)) : Prop :=
  ∃ copy, made.result = .ok copy ∧ copy.entries = m.entries

/-! ## Making a map of them -/

/-- **Setting the entries again** gives the same entries, since none lands on another one. -/
theorem Coherent.rebuilds_of_pairs (h : m.Coherent) {entries : Value}
    (hpairs : entries.pairs? =
      .ok (m.entries.map fun e => .ok (.ofKey (Node.labelKey e.1), e.2))) (silent : Bool) :
    m.Rebuilds (ofValue entries silent) := by
  have htable : Tag.Registry.setPairs []
      (m.entries.map fun e => .ok (.ofKey (Node.labelKey e.1), e.2)) = some m.entries := by
    rw [Tag.Registry.setPairs_labels]
    exact congrArg some (foldl_setEntry h.nodup_folds)
  rcases Tag.Registry.ofPairs_eq entries silent with ⟨copy, pairs, hcopy, hsame, ht⟩ | ⟨-, hnone⟩
  · obtain rfl := Except.ok.inj (hsame.symm.trans hpairs)
    exact ⟨copy, hcopy, Option.some.inj (ht.symm.trans htable)⟩
  · cases (hnone _ hpairs).symm.trans htable

/-- **Every way of copying a map** gives a map with the same entries. -/
theorem Coherent.rebuilds (h : m.Coherent) (silent : Bool) :
    m.Rebuilds (ofValue m.toPairs silent) ∧ m.Rebuilds (ofValue m.toDict silent) ∧
      m.Rebuilds (ofValue (.node (.caseless m)) silent) ∧
      m.Rebuilds (ofObject (.node (.caseless m))) :=
  ⟨h.rebuilds_of_pairs (pairs?_toPairs m) silent, h.rebuilds_of_pairs h.pairs?_toDict silent,
    h.rebuilds_of_pairs (pairs?_caseless m) silent, h.rebuilds_of_pairs (pairs?_caseless m) false⟩

end CaselessMap

namespace Tag.Registry

variable {r : Registry}

/-! ## Copies of registries -/

/-- A handler is found under its tag in any letter case. -/
theorem Coherent.get?_of_mem_table (h : r.Coherent) {e : Label × Value} (he : e ∈ r.table)
    {label : Label} (hfold : label.fold = e.1.fold) : r.handlers.get? label = some e.2 := by
  have hcoherent : r.handlers.Coherent := h
  have hscan : r.handlers.scan label = some e :=
    (hcoherent.scan_eq_some_iff label e).mpr ⟨he, hfold.symm⟩
  rw [hcoherent.get?_eq_scan, hscan]
  rfl

/-- **A copy of a registry** has the same tags in the same order, and it finds the same. -/
theorem Coherent.exists_copy (h : r.Coherent) :
    ∃ copy, r.copy.result = .ok copy ∧ copy.Coherent ∧ copy.table = r.table ∧
      copy.names = r.names ∧ copy.find? = r.find? := by
  obtain ⟨copy, hcopy, hcoherent, htable⟩ := exists_copy_eq h
  have hlabels : copy.handlers.labels = r.handlers.labels := congrArg (List.map Prod.fst) htable
  refine ⟨copy, hcopy, hcoherent, htable, ?_, find?_eq_of_table_eq hcoherent h htable⟩
  rw [names, names, hlabels]

end Tag.Registry

/-- **Copies lose nothing.** The dictionary of a reachable map has as many keys as the map has
entries, going through the map label by label gives its entries, and a map that is made of its
pairs, of its dictionary or of the map itself has the same entries in the same order and spelling.
The copy of a reachable registry has the same tags in the same order, and under every tag in any
letter case it finds the handler that the registry holds. -/
theorem copies_lose_nothing :
    (∀ m : CaselessMap Value, CaselessMap.Reachable m →
      (∃ t : Table Value, m.toDict = .dict t ∧ t.Distinct ∧ t.length = m.size ∧
        t = m.entries.map fun e => (Node.labelKey e.1, e.2)) ∧
      m.items? = .ok m.entries ∧
      ∀ silent, m.Rebuilds (CaselessMap.ofValue m.toPairs silent) ∧
        m.Rebuilds (CaselessMap.ofValue m.toDict silent) ∧
        m.Rebuilds (CaselessMap.ofValue (.node (.caseless m)) silent) ∧
        m.Rebuilds (CaselessMap.ofObject (.node (.caseless m)))) ∧
    ∀ r : Tag.Registry, Tag.Registry.Reachable r →
      ∃ copy, r.copy.result = .ok copy ∧ Tag.Registry.Reachable copy ∧ copy.names = r.names ∧
        copy.find? = r.find? ∧
        ∀ e ∈ r.table, ∀ label : Label, label.fold = e.1.fold →
          copy.handlers.get? label = some e.2 := by
  refine ⟨fun m hreachable => ?_, fun r hreachable => ?_⟩
  · have h : m.Coherent := hreachable.coherent
    have hkeys : Table.Distinct (m.entries.map fun e => (Node.labelKey e.1, e.2)) :=
      Node.IsMap.distinct (n := .caseless m) h
    exact ⟨⟨_, h.toDict_eq, hkeys, List.length_map _, rfl⟩, h.items?_eq, h.rebuilds⟩
  · obtain ⟨copy, hcopy, hcoherent, htable, hnames, hfind⟩ := hreachable.coherent.exists_copy
    refine ⟨copy, hcopy, .ofValue hcopy, hnames, hfind, fun e he label hfold => ?_⟩
    exact hcoherent.get?_of_mem_table (htable ▸ he) hfold

/-- A registry made of two handlers, of which one has been set again in another letter case. -/
def Tag.Registry.overwritten : Tag.Registry :=
  ((Operation.register (.text "JSON") (.atom (.function (.builtin .none)))).perform.effect
    ⟨⟨[(.text "json", .atom (.function (.builtin .json))),
        (.text "Int", .atom (.function (.builtin .int)))],
      [(.text "json", 0), (.text "int", 1)], true⟩⟩).2

theorem Tag.Registry.reachable_overwritten : Reachable overwritten :=
  .step (@Reachable.ofValue
    (.dict [(.text "json", .atom (.function (.builtin .json))),
      (.text "Int", .atom (.function (.builtin .int)))]) _ rfl) _

theorem copies_of_brokenOff_and_overwritten :
    CaselessMap.Reachable .brokenOff ∧
      (∃ copy, (CaselessMap.ofValue CaselessMap.brokenOff.toDict false).result = .ok copy ∧
        copy.entries = [(.text "B", .int 2), (.text "C", .int 3)]) ∧
      Tag.Registry.Reachable .overwritten ∧
      ∃ copy, Tag.Registry.overwritten.copy.result = .ok copy ∧
        copy.names = [.text "JSON", .text "Int"] ∧
        copy.handlers.get? (.text "jSoN") = some (.atom (.function (.builtin .none))) := by
  have hmap : CaselessMap.Reachable .brokenOff := CaselessMap.reachable_brokenOff
  have hregistry : Tag.Registry.Reachable .overwritten := Tag.Registry.reachable_overwritten
  obtain ⟨-, -, hcopies⟩ := copies_lose_nothing.1 _ hmap
  obtain ⟨copy, hcopy, -, hnames, -, hfound⟩ := copies_lose_nothing.2 _ hregistry
  exact ⟨hmap, (hcopies false).2.1, hregistry, copy, hcopy, hnames,
    hfound (.text "JSON", .atom (.function (.builtin .none))) (.head _) (.text "jSoN") (by decide)⟩

end LooseData
