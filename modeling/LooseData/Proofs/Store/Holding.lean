import LooseData.Proofs.Effect
import LooseData.Store.Edit
import Mathlib.Algebra.Order.Group.Multiset
import Mathlib.Data.Finset.Card

set_option autoImplicit false

/-! # What a store holds

A `Tree` is a slot together with the value that it stands for and the addresses of all its
collections. `Store.Holds` says that every collection of a tree is in its cell. Addresses are
counted as often as they occur, so the collections of trees share nothing exactly when the sum of
their addresses has no duplicates.

What a store holds depends on the cells of the tree alone (`Holds.frame`). No tree is found inside of
itself (`Holds.count_eq_one`), so a content always has fewer cells than the collection that holds it,
and reading a slot gives the value of its tree (`Holds.read_eq`).
-/

namespace LooseData

theorem Node.map_map {α β γ : Type} (f : α → β) (g : β → γ) (n : Node α) :
    (n.map f).map g = n.map fun c => g (f c) := by
  cases n <;> simp [map, CaselessMap.mapValues, Function.comp_def]

theorem Node.children_map {α β : Type} (f : α → β) (n : Node α) :
    (n.map f).children = n.children.map f := by
  cases n <;> simp [map, children, CaselessMap.mapValues, Function.comp_def]

/-- Only the images of the contents of a node matter. -/
theorem Node.map_congr {α β : Type} {f g : α → β} {n : Node α}
    (h : ∀ c ∈ n.children, f c = g c) : n.map f = n.map g := by
  cases n with
  | buffer bytes => rfl
  | view selected fallback =>
      simp only [children, List.forall_mem_append, List.forall_mem_map] at h
      have hfallback := h.2 fallback (List.mem_singleton_self _)
      simp only [map, hfallback]
      congr 1
      exact List.map_congr_left fun e he => by rw [h.1 e he]
  | world w =>
      simp only [children, List.forall_mem_append, List.forall_mem_map] at h
      simp only [map]
      congr 2
      · exact List.map_congr_left fun e he => by rw [h.1 e he]
      · exact List.map_congr_left fun e he => by rw [h.2 e he]
  | caseless m =>
      simp only [children, List.forall_mem_map] at h
      simp only [map, CaselessMap.mapValues]
      congr 2
      exact List.map_congr_left fun e he => by rw [h e he]
  | tuple items => exact congrArg Node.tuple (List.map_congr_left h)
  | list items => exact congrArg Node.list (List.map_congr_left h)
  | _ =>
      simp only [children, List.forall_mem_map] at h
      simp only [map]
      congr 1
      exact List.map_congr_left fun e he => by rw [h e he]

/-- A slot, the value that it stands for, and the addresses of the collections of the value. -/
structure Tree where
  slot : Slot
  value : Value
  addresses : Multiset Nat

namespace Tree

/-- The tree of an atom. -/
def ofAtom (a : Atom) : Tree := ⟨.atom a, .atom a, 0⟩

/-- The addresses of the collections of all trees in a list. -/
def allAddresses (trees : List Tree) : Multiset Nat := (trees.map addresses).sum

/-- The tree of a collection at an address, from the trees of its contents. -/
def ofNode (address : Nat) (n : Node Tree) : Tree :=
  ⟨.at address, .node (n.map value), address ::ₘ allAddresses n.children⟩

instance : HoldsAtoms Tree where
  ofAtom := ofAtom
  atom? t := HoldsAtoms.atom? t.slot

@[simp] theorem allAddresses_nil : allAddresses [] = 0 := rfl

@[simp] theorem allAddresses_cons (t : Tree) (trees : List Tree) :
    allAddresses (t :: trees) = t.addresses + allAddresses trees := by
  simp [allAddresses]

@[simp] theorem allAddresses_append (front back : List Tree) :
    allAddresses (front ++ back) = allAddresses front + allAddresses back := by
  simp [allAddresses]

theorem addresses_ofNode (address : Nat) (n : Node Tree) :
    (ofNode address n).addresses = address ::ₘ allAddresses n.children := rfl

theorem allAddresses_replicate_ofAtom (k : Nat) (a : Atom) :
    allAddresses (List.replicate k (ofAtom a)) = 0 := by
  induction k with
  | zero => rfl
  | succ k ih => rw [List.replicate_succ, allAddresses_cons, ih]; rfl

/-- The number of cells of a tree. -/
def size (t : Tree) : Nat := t.addresses.toFinset.card

theorem addresses_le_allAddresses {t : Tree} {trees : List Tree} (h : t ∈ trees) :
    t.addresses ≤ allAddresses trees := by
  obtain ⟨front, back, rfl⟩ := List.append_of_mem h
  rw [allAddresses_append, allAddresses_cons, ← add_assoc, add_right_comm]
  exact Multiset.le_add_left _ _

theorem mem_allAddresses {address : Nat} {trees : List Tree} :
    address ∈ allAddresses trees ↔ ∃ t ∈ trees, address ∈ t.addresses := by
  induction trees with
  | nil => simp
  | cons t rest ih =>
      rw [allAddresses_cons, Multiset.mem_add, ih, List.exists_mem_cons_iff]

end Tree

namespace Store

/-- Every collection of the tree is in its cell. -/
inductive Holds (s : Store) : Tree → Prop where
  | atom (a : Atom) : Holds s (.ofAtom a)
  | node {address : Nat} {n : Node Tree} (hcell : s.cells[address]? = some (n.map Tree.slot))
      (hchildren : ∀ t ∈ n.children, Holds s t) : Holds s (.ofNode address n)

variable {s s' : Store} {t : Tree}

/-- The cells of a tree decide whether a store holds it. -/
theorem Holds.frame (h : s.Holds t)
    (hcells : ∀ a ∈ t.addresses, s'.cells[a]? = s.cells[a]?) : s'.Holds t := by
  induction h with
  | atom a => exact .atom a
  | node hcell hchildren ih =>
      refine .node ?_ fun c hc => ih c hc fun a ha => ?_
      · rw [hcells _ (Multiset.mem_cons_self _ _), hcell]
      · exact hcells a (Multiset.mem_cons_of_mem (Tree.mem_allAddresses.mpr ⟨c, hc, ha⟩))

/-! ## Writing -/

theorem getElem?_write_self {address : Nat} (h : address < s.cells.size) (n : Node Slot) :
    (s.write (.at address) n).cells[address]? = some n := by
  simp [write, h]

theorem getElem?_write_of_ne {address a : Nat} (h : a ≠ address) (n : Node Slot) :
    (s.write (.at address) n).cells[a]? = s.cells[a]? := by
  simp [write, Ne.symm h]

/-! ## Single levels -/

theorem effect_layerOf (slot : Slot) (s : Store) :
    (layerOf slot).effect s = (.ok (s.layer slot), s) := rfl

theorem layer_at {address : Nat} {n : Node Slot} (hcell : s.cells[address]? = some n) :
    s.layer (.at address) = .node n := by
  rw [layer, hcell]

/-- A slot with a node is one that can be written to. -/
theorem layer_write_self {target : Slot} {m : Node Slot} (h : s.layer target = .node m)
    (n : Node Slot) : (s.write target n).layer target = .node n := by
  cases target with
  | atom a => cases h
  | «at» address =>
      have hlt : address < s.cells.size := by
        by_contra hnot
        have hnone : s.cells[address]? = none := Array.getElem?_eq_none (by omega)
        rw [layer, hnone] at h
        cases h
      exact layer_at (getElem?_write_self hlt n)

theorem layer_write_of_ne {slot target : Slot} (h : slot ≠ target) (n : Node Slot) :
    (s.write target n).layer slot = s.layer slot := by
  cases target with
  | atom a => rfl
  | «at» address =>
      cases slot with
      | atom a => rfl
      | «at» a =>
          have hne : a ≠ address := fun heq => h (congrArg Slot.at heq)
          rw [layer, layer, getElem?_write_of_ne hne]

/-! ## Writing under a key -/

theorem effect_assign [Memory] (target : Slot) (key : Value) (v : Slot) (s : Store) :
    (assign target key v).effect s = match ((s.layer target).assign key v).result with
      | .error fault => (.error fault, s)
      | .ok n => (.ok (), s.write target n) := by
  rw [assign, Edit.effect_bind_ok (effect_layerOf target s), Edit.effect_bind,
    Edit.effect_liftLogged]
  cases ((s.layer target).assign key v).result <;> rfl

theorem exists_of_effect_assign [Memory] {target v : Slot} {key : Value}
    (h : (assign target key v).effect s = (.ok (), s')) :
    ∃ n, ((s.layer target).assign key v).result = .ok n ∧ s' = s.write target n := by
  rw [effect_assign] at h
  cases hwrite : ((s.layer target).assign key v).result with
  | error fault =>
      rw [hwrite] at h
      cases h
  | ok n =>
      rw [hwrite] at h
      exact ⟨n, rfl, (congrArg Prod.snd h).symm⟩

/-! ## Reading -/

theorem Holds.lt_size (h : s.Holds t) : ∀ a ∈ t.addresses, a < s.cells.size := by
  induction h with
  | atom a => exact nofun
  | node hcell hchildren ih =>
      intro a ha
      rcases Multiset.mem_cons.mp ha with rfl | ha
      · exact (Array.getElem?_eq_some_iff.mp hcell).1
      · obtain ⟨c, hc, ha⟩ := Tree.mem_allAddresses.mp ha
        exact ih c hc a ha

/-- The address of a tree is one of its addresses. -/
theorem Holds.mem_addresses (h : s.Holds t) {root : Nat} (hroot : t.slot = .at root) :
    root ∈ t.addresses := by
  cases h with
  | atom a => cases hroot
  | node _ _ =>
      obtain rfl := Slot.at.inj hroot
      exact Multiset.mem_cons_self _ _

/-- What a cell of a tree refers to is one of the addresses of the tree, besides that of its root. -/
theorem Holds.mem_erase_of_mem_children (h : s.Holds t) {root address below : Nat}
    {n : Node Slot} (hroot : t.slot = .at root) (haddress : address ∈ t.addresses)
    (hcell : s.cells[address]? = some n) (hbelow : .at below ∈ n.children) :
    below ∈ t.addresses.erase root := by
  induction h generalizing root with
  | atom a => cases haddress
  | @node _ m hcell' hchildren ih =>
      obtain rfl := Slot.at.inj hroot
      rw [Tree.addresses_ofNode, Multiset.erase_cons_head, Tree.mem_allAddresses]
      rcases Multiset.mem_cons.mp haddress with rfl | hin
      · -- The contents of the root are the slots of the subtrees.
        obtain rfl := Option.some.inj (hcell'.symm.trans hcell)
        rw [Node.children_map] at hbelow
        obtain ⟨c, hc, hslot⟩ := List.mem_map.mp hbelow
        exact ⟨c, hc, (hchildren c hc).mem_addresses hslot⟩
      · obtain ⟨c, hc, hin⟩ := Tree.mem_allAddresses.mp hin
        cases hchildren c hc with
        | atom a => cases hin
        | node _ _ => exact ⟨_, hc, Multiset.mem_of_mem_erase (ih _ hc rfl hin)⟩

/-- A tree is not found inside of itself. -/
theorem Holds.count_eq_one (h : s.Holds t) {root : Nat} (hroot : t.slot = .at root) :
    t.addresses.count root = 1 := by
  induction h generalizing root with
  | atom a => cases hroot
  | @node _ n hcell hchildren ih =>
      obtain rfl := Slot.at.inj hroot
      rw [Tree.addresses_ofNode, Multiset.count_cons_self, Nat.add_eq_right, Multiset.count_eq_zero]
      intro hin
      obtain ⟨c, hc, hin⟩ := Tree.mem_allAddresses.mp hin
      have hheld := hchildren c hc
      have honce := @ih c hc
      have hslot : c.slot ∈ (n.map Tree.slot).children := by
        rw [Node.children_map]
        exact List.mem_map_of_mem hc
      -- Otherwise the subtree that leads to the root would be found inside of itself, too.
      cases hheld with
      | atom a => cases hin
      | node hcell' hchildren' =>
          have hagain := (Holds.node hcell' hchildren').mem_erase_of_mem_children rfl hin hcell hslot
          rw [← Multiset.one_le_count_iff_mem, Multiset.count_erase_self, honce rfl] at hagain
          exact absurd hagain (by decide)

/-- A content of a collection has fewer cells than the collection. -/
theorem Holds.size_lt {address : Nat} {n : Node Tree} (h : s.Holds (.ofNode address n)) {c : Tree}
    (hc : c ∈ n.children) : c.size < (Tree.ofNode address n).size := by
  have honce := h.count_eq_one rfl
  rw [Tree.addresses_ofNode, Multiset.count_cons_self, Nat.add_eq_right,
    Multiset.count_eq_zero] at honce
  refine Finset.card_lt_card ((Finset.ssubset_iff_of_subset ?_).mpr ⟨address, ?_, ?_⟩)
  · intro a ha
    rw [Multiset.mem_toFinset] at ha ⊢
    exact Multiset.mem_cons_of_mem (Tree.mem_allAddresses.mpr ⟨c, hc, ha⟩)
  · exact Multiset.mem_toFinset.mpr (Multiset.mem_cons_self _ _)
  · intro hin
    exact honce (Tree.mem_allAddresses.mpr ⟨c, hc, Multiset.mem_toFinset.mp hin⟩)

/-- A tree has no more cells than there are in the store. -/
theorem Holds.size_le (h : s.Holds t) : t.size ≤ s.cells.size := by
  have hsub : t.addresses.toFinset ⊆ Finset.range s.cells.size := by
    intro a ha
    exact Finset.mem_range.mpr (h.lt_size a (Multiset.mem_toFinset.mp ha))
  calc t.addresses.toFinset.card
      ≤ (Finset.range s.cells.size).card := Finset.card_le_card hsub
    _ = s.cells.size := Finset.card_range _

/-- Reading through more levels than a tree has cells gives its value. -/
theorem Holds.readTo_eq (h : s.Holds t) {depth : Nat} (hdepth : t.size < depth) :
    s.readTo depth t.slot = t.value := by
  induction h generalizing depth with
  | atom a =>
      obtain ⟨depth, rfl⟩ := Nat.exists_eq_succ_of_ne_zero (Nat.ne_of_gt hdepth)
      rfl
  | @node address n hcell hchildren ih =>
      obtain ⟨depth, rfl⟩ := Nat.exists_eq_succ_of_ne_zero (Nat.ne_zero_of_lt hdepth)
      have hlayer : s.layer (.at address) = .node (n.map Tree.slot) := by
        rw [layer, hcell]
      show s.readTo (depth + 1) (.at address) = .node (n.map Tree.value)
      rw [readTo, hlayer]
      refine congrArg Value.node ?_
      rw [Node.map_map]
      -- A content has fewer cells than the collection, and so one level less is enough.
      refine Node.map_congr fun c hc => ih c hc ?_
      have hlt := (Holds.node hcell hchildren).size_lt hc
      omega

/-- **What is read from the slot of a tree** is its value. -/
theorem Holds.read_eq (h : s.Holds t) : s.read t.slot = t.value :=
  h.readTo_eq (Nat.lt_succ_of_le h.size_le)

end Store

end LooseData
