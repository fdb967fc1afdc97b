import LooseData.Proofs.Layer.Mapping
import LooseData.Proofs.Merge.Level

set_option autoImplicit false

/-! # Ordinary values

Values are made of dictionaries, read-only mappings, caseless maps, lists and tuples. Each of these
offers entries: a mapping those that it shows, a list or a tuple its items under their indices
(`Node.offers`). They are what going through the entries of a level yields, if it yields anything
(`Ordinary.eq_of_entries_eq_ok`): the number of an item may be too long to be read back.
-/

namespace LooseData

variable {α β : Type}

namespace Node

/-- A dictionary, a read-only mapping or a caseless map by texts and numbers, a list or a tuple. -/
def Ordinary : Node α → Prop
  | .tuple _ | .list _ => True
  | .dict entries | .frozen entries => Table.Distinct entries ∧ ∀ e ∈ entries, e.1.IsTextOrInt
  | .caseless m => m.Coherent ∧ ∀ e ∈ m.entries, ∃ s, e.1 = .text s
  | _ => False

/-- The entries of a node, those of a list or a tuple under its indices. -/
def offers : Node α → Table α
  | .tuple items | .list items => Table.numbered 0 items
  | n => n.contents

theorem offers_map (f : α → β) (n : Node α) :
    (n.map f).offers = n.offers.map fun e => (e.1, f e.2) := by
  cases n with
  | tuple items => exact Table.numbered_map f 0 items
  | list items => exact Table.numbered_map f 0 items
  | _ => simp [map, offers, contents, CaselessMap.mapValues]

theorem ordinary_map {f : α → β} {n : Node α} : (n.map f).Ordinary ↔ n.Ordinary := by
  have hentries (entries : Table α) :
      (Table.Distinct (entries.map fun e => (e.1, f e.2)) ∧
        ∀ e ∈ entries.map fun e => (e.1, f e.2), e.1.IsTextOrInt) ↔
      Table.Distinct entries ∧ ∀ e ∈ entries, e.1.IsTextOrInt := by
    rw [Table.distinct_map, List.forall_mem_map]
  cases n with
  | dict entries => exact hentries entries
  | frozen entries => exact hentries entries
  | caseless m =>
      show ((m.mapValues f).Coherent ∧ ∀ e ∈ m.entries.map _, _) ↔ _
      rw [CaselessMap.coherent_mapValues, List.forall_mem_map]
      rfl
  | _ => rfl

variable {n : Node α}

/-- An ordinary node is a mapping, or it offers its items as a list does. -/
theorem Ordinary.isMap_or_items (h : n.Ordinary) :
    (n.IsMap ∧ n.offers = n.contents ∧ ∀ e ∈ n.contents, e.1.IsTextOrInt) ∨
      ∃ items, n = .tuple items ∨ n = .list items := by
  cases n with
  | tuple items => exact .inr ⟨items, .inl rfl⟩
  | list items => exact .inr ⟨items, .inr rfl⟩
  | dict entries => exact .inl ⟨h.1, rfl, h.2⟩
  | frozen entries => exact .inl ⟨h.1, rfl, h.2⟩
  | caseless m =>
      refine .inl ⟨h.1, rfl, fun e he => ?_⟩
      obtain ⟨⟨label, v⟩, hlabel, rfl⟩ := List.mem_map.mp he
      obtain ⟨s, rfl⟩ := h.2 _ hlabel
      trivial
  | _ => exact h.elim

theorem Ordinary.isTextOrInt_of_mem_offers (h : n.Ordinary) {e : Key × α} (he : e ∈ n.offers) :
    e.1.IsTextOrInt := by
  rcases h.isMap_or_items with ⟨-, hoffers, hkeys⟩ | ⟨items, rfl | rfl⟩
  · exact hkeys e (hoffers ▸ he)
  · obtain ⟨i, v, -, rfl⟩ := Table.mem_numbered.mp he
    trivial
  · obtain ⟨i, v, -, rfl⟩ := Table.mem_numbered.mp he
    trivial

/-- The contents of a node are those of its entries. -/
theorem Ordinary.map_snd_offers (h : n.Ordinary) : n.offers.map Prod.snd = n.children := by
  have hitems (items : List α) : (Table.numbered 0 items).map Prod.snd = items :=
    Plain.map_snd_fields (n := .list items) trivial
  cases n with
  | tuple items => exact hitems items
  | list items => exact hitems items
  | dict entries => rfl
  | frozen entries => rfl
  | caseless m => exact List.map_map
  | _ => exact h.elim

variable [HoldsAtoms α]

theorem Ordinary.ownKeys_eq (h : n.Ordinary) :
    (Layer.node n).ownKeys = n.offers.map fun e => Value.ofKey e.1 := by
  have hitems (items : List α) : (Layer.node (.list items)).ownKeys =
      (Table.numbered 0 items).map fun e => Value.ofKey e.1 :=
    Plain.ownKeys_eq (n := .list items) trivial
  cases n with
  | tuple items => exact hitems items
  | list items => exact hitems items
  | dict entries => rfl
  | frozen entries => rfl
  | caseless m => rfl
  | _ => exact h.elim

/-- **What going through the entries of a level yields**, where it does not fail. -/
theorem Ordinary.eq_of_entries_eq_ok (h : n.Ordinary) {entries : List (Value × α)}
    (hentries : (Layer.node n).entries = .ok entries) :
    entries = n.offers.map fun e => (Value.ofKey e.1, e.2) := by
  have hitems (items : List α) (h : (Layer.node (.list items)).entries = .ok entries) :
      entries = (Table.numbered 0 items).map fun e => (Value.ofKey e.1, e.2) :=
    (yields_entries (n := .list items) trivial).2 entries h
  rcases h.isMap_or_items with ⟨hmap, hoffers, hkeys⟩ | ⟨items, rfl | rfl⟩
  · rw [hoffers]
    exact Except.ok.inj (hentries.symm.trans (hmap.entries_eq hkeys))
  · exact hitems items hentries
  · exact hitems items hentries

end Node

namespace Value

/-- A value that consists of ordinary collections and of atoms. -/
inductive Ordinary : Value → Prop where
  | atom (a : Atom) : Ordinary (.atom a)
  | node {n : Node Value} (hn : n.Ordinary) (hchildren : ∀ v ∈ n.children, Ordinary v) :
      Ordinary (.node n)

/-- A collection with a property is somewhere in a value. -/
inductive Involves (P : Node Value → Prop) : Value → Prop where
  | here {n : Node Value} (h : P n) : Involves P (.node n)
  | inside {n : Node Value} {v : Value} (hv : v ∈ n.children) (h : Involves P v) :
      Involves P (.node n)

/-- A collection somewhere in the value has the key. -/
def HasKey (v key : Value) : Prop := v.Involves fun n => key ∈ (Value.node n).ownKeys

/-- A caseless map is somewhere in the value. -/
def HasCaseless (v : Value) : Prop := v.Involves fun n => ∃ m, n = .caseless m

end Value

end LooseData
