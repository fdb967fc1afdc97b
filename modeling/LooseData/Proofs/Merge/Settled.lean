import LooseData.Proofs.Layer.Document
import LooseData.Proofs.Merge.Copy

set_option autoImplicit false

/-! # Merges that change nothing

An entry is settled in a collection if merging it there again changes nothing (`Store.Settled`).
Either the collection holds the value of the entry itself, and that is not merged into itself; or
what it holds is a collection that takes the entries of the value, and all of these are settled in
it.

Whether an entry is settled depends on the cells that such a merge goes through alone
(`Settled.frame`). What has been placed in a collection is settled there, also where it is merged
into itself from then on (`Holds.settled`). A source whose entries are all settled in a target is
merged into it without any effect, through any number of levels (`effect_mergeTo_of_settled`).
-/

namespace LooseData

open Edit

/-- A collection in a tree of an unambiguous value is unambiguous, and so are its contents. -/
theorem Tree.unambiguous_ofNode {address : Nat} {n : Node Tree}
    (h : (Tree.ofNode address n).value.Unambiguous) :
    n.Unambiguous ∧ ∀ c ∈ n.children, c.value.Unambiguous := by
  cases h with
  | node hn hvalues =>
      rw [Node.children_map, List.forall_mem_map] at hvalues
      exact ⟨Node.unambiguous_map.mp hn, hvalues⟩

namespace Store

/-- A collection is in its cell and its contents are in theirs, and its value is unambiguous. -/
structure Stored (s : Store) (address : Nat) (n : Node Tree) : Prop where
  cell : s.cells[address]? = some (n.map Tree.slot)
  children : ∀ c ∈ n.children, s.Holds c
  value : (Tree.ofNode address n).value.Unambiguous

/-- Merging the entry into the collection changes nothing. Apart from the collection, only cells of
the region are read in the course of it. -/
inductive Settled (region : Set Nat) (s : Store) : Node Slot → Key × Slot → Prop where
  | kept {n : Node Slot} {k : Key} {v : Slot} (hn : n.Textual)
      (htakes : (Layer.node n).Takes (.ofKey k))
      (hlookup : (Layer.node n).lookup (.ofKey k) = .ok (some v))
      (hkept : Layer.mergeable (s.layer v) (s.layer v) = .ok false)
      (hregion : ∀ a, v = .at a → a ∈ region) : Settled region s n (k, v)
  | merged {n m m' : Node Slot} {k : Key} {a b : Nat}
      (hlookup : (Layer.node n).lookup (.ofKey k) = .ok (some (.at a)))
      (ha : a ∈ region) (hb : b ∈ region)
      (hm : s.cells[a]? = some m) (hm' : s.cells[b]? = some m')
      (hmerged : Layer.mergeable (.node m) (.node m') = .ok true)
      (h : ∀ e ∈ m'.offers, Settled region s m e) : Settled region s n (k, .at b)

variable {region region' : Set Nat} {s s' : Store} {n n' : Node Slot} {e : Key × Slot}

/-! ## Collections with their contents -/

namespace Stored

variable {address : Nat} {m : Node Tree}

theorem holds (h : s.Stored address m) : s.Holds (.ofNode address m) := .node h.cell h.children

theorem unambiguous (h : s.Stored address m) : m.Unambiguous := (Tree.unambiguous_ofNode h.value).1

theorem slots (h : s.Stored address m) : (m.map Tree.slot).Unambiguous :=
  Node.unambiguous_map.mpr h.unambiguous

theorem value_of_mem (h : s.Stored address m) {c : Tree} (hc : c ∈ m.children) :
    c.value.Unambiguous :=
  (Tree.unambiguous_ofNode h.value).2 c hc

theorem frame (h : s.Stored address m)
    (hcells : ∀ a ∈ (Tree.ofNode address m).addresses, s'.cells[a]? = s.cells[a]?) :
    s'.Stored address m where
  cell := (hcells address (Multiset.mem_cons_self _ _)).trans h.cell
  children c hc := (h.children c hc).frame fun a ha =>
    hcells a (Multiset.mem_cons_of_mem (Tree.mem_allAddresses.mpr ⟨c, hc, ha⟩))
  value := h.value

end Stored

/-- The tree of a slot that refers to a cell is that of a collection. -/
theorem Holds.exists_stored {t : Tree} (h : s.Holds t) (hvalue : t.value.Unambiguous)
    {address : Nat} (hslot : t.slot = .at address) :
    ∃ m, t = .ofNode address m ∧ s.Stored address m := by
  cases h with
  | atom a => cases hslot
  | @node _ m hcell hchildren =>
      obtain rfl := Slot.at.inj hslot
      exact ⟨m, rfl, hcell, hchildren, hvalue⟩

/-! ## What it depends on -/

theorem Settled.frame (h : Settled region s n e)
    (hcells : ∀ a ∈ region, s'.cells[a]? = s.cells[a]?) : Settled region s' n e := by
  induction h with
  | @kept n k v hn htakes hlookup hkept hregion =>
      have hlayer : s'.layer v = s.layer v := by
        cases v with
        | atom a => rfl
        | «at» a => rw [layer, layer, hcells a (hregion a rfl)]
      exact .kept hn htakes hlookup (by rwa [hlayer]) hregion
  | merged hlookup ha hb hm hm' hmerged _ ih =>
      exact .merged hlookup ha hb ((hcells _ ha).trans hm) ((hcells _ hb).trans hm') hmerged ih

theorem Settled.mono (h : Settled region s n e) (hsub : region ⊆ region') :
    Settled region' s n e := by
  induction h with
  | kept hn htakes hlookup hkept hregion =>
      exact .kept hn htakes hlookup hkept fun a ha => hsub (hregion a ha)
  | merged hlookup ha hb hm hm' hmerged _ ih =>
      exact .merged hlookup (hsub ha) (hsub hb) hm hm' hmerged ih

/-- Of the collection only its kind matters and what it holds under the key. -/
theorem Settled.of_lookup (h : Settled region s n e) (hn' : n'.Textual) (hkind : n'.kind = n.kind)
    (hlookup : ∀ c, (Layer.node n).lookup (.ofKey e.1) = .ok (some c) →
      (Layer.node n').lookup (.ofKey e.1) = .ok (some c)) : Settled region s n' e := by
  cases h with
  | kept hn htakes hfound hkept hregion =>
      exact .kept hn' (htakes.of_kind hkind) (hlookup _ hfound) hkept hregion
  | merged hfound ha hb hm hm' hmerged h =>
      exact .merged (hlookup _ hfound) ha hb hm hm' hmerged h

/-! ## Values that have been placed -/

theorem mergeable_eq_ok_true_iff {l l' : Layer Slot} :
    Layer.mergeable l l' = .ok true ↔
      l.isNested = true ∧ l'.isNested = true ∧ l.acceptsKeys l'.ownKeys = .ok true := by
  unfold Layer.mergeable
  split
  · rename_i hnested
    obtain ⟨hl, hl'⟩ := Bool.and_eq_true_iff.mp hnested
    exact ⟨fun h => ⟨hl, hl', h⟩, fun h => h.2.2⟩
  · rename_i hnot
    exact ⟨nofun, fun h => absurd (Bool.and_eq_true_iff.mpr ⟨h.1, h.2.1⟩) hnot⟩

theorem mergeable_self (hn : n.Unambiguous) : Layer.mergeable (.node n) (.node n) =
    (Layer.node n).acceptsKeys (Layer.node n).ownKeys := by
  have hnested : ((Layer.node n).isNested && (Layer.node n).isNested) = true := by
    rw [Bool.and_self]
    exact hn.isNested_eq
  rw [Layer.mergeable, if_pos hnested]

/-- **A value that is held by a collection is settled there**, at all its levels. -/
theorem Holds.settled {t : Tree} (h : s.Holds t) (hvalue : t.value.Unambiguous) {k : Key}
    (hn : n.Textual) (htakes : (Layer.node n).Takes (.ofKey k))
    (hlookup : (Layer.node n).lookup (.ofKey k) = .ok (some t.slot))
    (hregion : ∀ a ∈ t.addresses, a ∈ region) : Settled region s n (k, t.slot) := by
  induction h generalizing n k with
  | atom a => exact .kept hn htakes hlookup rfl nofun
  | @node address m hcell hchildren ih =>
      have hm : s.Stored address m := ⟨hcell, hchildren, hvalue⟩
      have haddress : address ∈ region := hregion address (Multiset.mem_cons_self _ _)
      have hslots := hm.slots
      obtain ⟨accepts, haccepts⟩ := hslots.exists_acceptsKeys_self
      have hself := (mergeable_self hslots).trans haccepts
      cases accepts with
      | false =>
          refine .kept hn htakes hlookup ?_ fun a ha => Slot.at.inj ha ▸ haddress
          rw [layer_ofNode hcell]
          exact hself
      | true =>
          refine .merged hlookup haddress haddress hcell hcell hself fun e he => ?_
          have hfound := hslots.lookup_of_mem_offers he
          have htaken : (Layer.node (m.map Tree.slot)).Takes (.ofKey e.1) := by
            have hnested : (Layer.node (m.map Tree.slot)).isNested = true := hslots.isNested_eq
            refine Layer.takes_of_acceptsKeys hnested haccepts _ ?_
            rw [hslots.ordinary.ownKeys_eq]
            exact List.mem_map_of_mem he
          rw [Node.offers_map] at he
          obtain ⟨⟨k, c⟩, hc, rfl⟩ := List.mem_map.mp he
          have hmem := hm.unambiguous.mem_children_of_mem_offers hc
          exact ih c hmem (hm.value_of_mem hmem) hslots.textual htaken hfound fun a ha =>
            hregion a (Multiset.mem_cons_of_mem (Tree.mem_allAddresses.mpr ⟨c, hmem, ha⟩))

/-! ## Merging them again -/

section

variable {a b depth : Nat} {key : Value}

theorem write_eq_self (hcell : s.cells[a]? = some n) : s.write (.at a) n = s := by
  have hcells : s.cells.setIfInBounds a n = s.cells := by
    refine Array.ext_getElem? fun i => ?_
    rw [Array.getElem?_setIfInBounds]
    split
    · rename_i heq
      subst heq
      rw [hcell, if_pos (Array.getElem?_eq_some_iff.mp hcell).1]
    · rfl
  rw [write, hcells]

/-- The entries of a source are merged in order. -/
theorem effect_mergeTo_ofNode [Memory] {m : Node Tree} (hcell : s.cells[a]? = some n)
    (hn : n.isNested = true) (hs : s.Stored b m) :
    (mergeTo (depth + 1) (.at a) (.at b)).effect s = (mergeRest depth a m.offers).effect s := by
  refine effect_mergeTo_succ ?_ ?_ ?_ depth
  · rw [layer_at hcell]
    exact hn
  · rw [layer_at hs.cell]
    exact hs.slots.isNested_eq
  · rw [layer_at hs.cell, hs.slots.entries_eq, Node.offers_map, List.map_map]
    rfl

/-- **Merging settled entries has no effect**, through enough levels for the source. The induction
is on their number; the value of an entry has fewer collections than the source. -/
theorem effect_mergeTo_of_settled [Memory] {m : Node Tree} (hcell : s.cells[a]? = some n)
    (hn : n.isNested = true) (hs : s.Stored b m) (hsize : (Tree.ofNode b m).size < depth)
    (h : ∀ e ∈ m.offers, ∃ region, Settled region s n (e.1, e.2.slot)) :
    (mergeTo depth (.at a) (.at b)).effect s = (.ok (), s) := by
  induction depth generalizing a b n m with
  | zero => exact absurd hsize (Nat.not_lt_zero _)
  | succ depth ih =>
      rw [effect_mergeTo_ofNode hcell hn hs]
      refine effect_forM_of_forall (List.forall_mem_map.mpr ?_)
      rintro ⟨k, y⟩ he
      have hmem := hs.unambiguous.mem_children_of_mem_offers he
      have hk : k.IsTextOrInt := hs.unambiguous.ordinary.isTextOrInt_of_mem_offers he
      have hlt : y.size < (Tree.ofNode b m).size := hs.holds.size_lt hmem
      obtain ⟨region, hsettled⟩ := h _ he
      have haccess {c : Slot} (hlookup : (Layer.node n).lookup (.ofKey k) = .ok (some c)) :
          (s.layer (.at a)).access (.ofKey k) = .ok c := by
        rw [layer_at hcell]
        exact Layer.access_of_lookup hk hlookup
      dsimp only at hsettled ⊢
      generalize hslot : y.slot = v at hsettled
      cases hsettled with
      | kept htextual htakes hlookup hkept _ =>
          have hwrite := Layer.assign_of_lookup htextual hk htakes hlookup
          rw [effect_mergeEntry (haccess hlookup), hkept]
          dsimp only
          rw [effect_assign, layer_at hcell, hwrite]
          dsimp only
          rw [write_eq_self hcell]
      | @merged _ n' m' _ a' b' hlookup _ _ hn' hm' hmerged hrest =>
          obtain ⟨my, rfl, hy⟩ := (hs.children y hmem).exists_stored (hs.value_of_mem hmem) hslot
          obtain rfl := Option.some.inj (hy.cell.symm.trans hm')
          have hnested : n'.isNested = true := (mergeable_eq_ok_true_iff.mp hmerged).1
          rw [effect_mergeEntry (haccess hlookup), layer_at hn', layer_at hm', hmerged]
          refine ih hn' hnested hy (by omega) fun e' he' => ?_
          refine ⟨region, hrest (e'.1, e'.2.slot) ?_⟩
          rw [Node.offers_map]
          exact List.mem_map_of_mem he'

end

end Store

end LooseData
