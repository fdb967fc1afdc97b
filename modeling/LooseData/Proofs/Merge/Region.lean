import LooseData.Proofs.Layer.Contents
import LooseData.Proofs.Merge.InPlace

set_option autoImplicit false

/-! # A merge stays among the cells that it can reach

A region is a set of addresses. It is closed in a store if its cells refer to no cell outside of
it. What a merge finds on its way are contents of the cells that it has reached, and atoms; so a
merge between slots of a closed region leaves the region closed and writes to no other cell
(`keeps_mergeTo`). Nothing is assumed about the collections, which may be of any kind and shared
in any way. The addresses of a tree are a closed region (`Holds.closedOn`).
-/

namespace LooseData

open Edit

/-- The slot is an atom, or it refers to a cell of the region. -/
def Slot.In (region : Multiset Nat) : Slot → Prop
  | .atom _ => True
  | .at address => address ∈ region

theorem Slot.in_atom {region : Multiset Nat} (a : Atom) :
    (HoldsAtoms.ofAtom a : Slot).In region := trivial

theorem Slot.In.mono {region region' : Multiset Nat} {slot : Slot} (h : slot.In region)
    (hsub : ∀ a ∈ region, a ∈ region') : slot.In region' := by
  cases slot with
  | atom _ => trivial
  | «at» address => exact hsub address h

theorem Slot.In.add {region region' : Multiset Nat} {slot : Slot} (h : slot.In region) :
    slot.In (region + region') :=
  h.mono fun _ ha => Multiset.mem_add.mpr (.inl ha)

namespace Store

/-- The cells of the region refer to cells of the region only. -/
def ClosedOn (s : Store) (region : Multiset Nat) : Prop :=
  ∀ a ∈ region, ∀ n, s.cells[a]? = some n → ∀ c ∈ n.children, c.In region

/-- The region is closed in `s`, and the cells outside of it are those of `s₀`. -/
structure Confined (region : Multiset Nat) (s₀ s : Store) : Prop where
  closed : s.ClosedOn region
  frame : ∀ a, a ∉ region → s.cells[a]? = s₀.cells[a]?

variable {region : Multiset Nat} {s s₀ : Store} {t : Tree}

theorem Holds.slot_in (h : s.Holds t) (hle : t.addresses ≤ region) : t.slot.In region := by
  cases h with
  | atom a => exact trivial
  | node _ _ => exact Multiset.mem_of_le hle (Multiset.mem_cons_self _ _)

/-- The addresses of a tree are a closed region. -/
theorem Holds.closedOn (h : s.Holds t) : s.ClosedOn t.addresses := by
  induction h with
  | atom a => exact nofun
  | @node address n hcell hchildren ih =>
      intro a ha m hm c hc
      rcases Multiset.mem_cons.mp ha with rfl | ha
      · -- The contents of the cell at the root are the slots of the subtrees.
        obtain rfl := Option.some.inj (hcell.symm.trans hm)
        rw [Node.children_map] at hc
        obtain ⟨child, hchild, rfl⟩ := List.mem_map.mp hc
        exact (hchildren child hchild).slot_in
          ((Tree.addresses_le_allAddresses hchild).trans (Multiset.le_cons_self _ _))
      · obtain ⟨child, hchild, ha⟩ := Tree.mem_allAddresses.mp ha
        have hin := ih child hchild a ha m hm c hc
        cases c with
        | atom _ => exact trivial
        | «at» b =>
            exact Multiset.mem_cons_of_mem (Tree.mem_allAddresses.mpr ⟨child, hchild, hin⟩)

theorem ClosedOn.layer (h : s.ClosedOn region) {slot : Slot} (hslot : slot.In region) :
    (s.layer slot).Forall (Slot.In region) := by
  cases slot with
  | atom a => exact trivial
  | «at» address =>
      unfold Store.layer
      dsimp only
      split
      · rename_i n hcell
        exact h address hslot n hcell
      · exact trivial

theorem ClosedOn.frame {s' : Store} (h : s.ClosedOn region)
    (hcells : ∀ a ∈ region, s'.cells[a]? = s.cells[a]?) : s'.ClosedOn region :=
  fun a ha n hcell => h a ha n ((hcells a ha).symm.trans hcell)

theorem ClosedOn.add {region' : Multiset Nat} (h : s.ClosedOn region) (h' : s.ClosedOn region') :
    s.ClosedOn (region + region') := by
  intro a ha n hcell c hc
  have hin : c.In region ∨ c.In region' :=
    (Multiset.mem_add.mp ha).imp (fun ha => h a ha n hcell c hc) fun ha => h' a ha n hcell c hc
  cases c with
  | atom _ => trivial
  | «at» b => exact Multiset.mem_add.mpr hin

/-! ## The steps of a merge -/

/-- A level that is read lies in the region with all its contents. -/
theorem keeps_layerOf_bind {α : Type} {slot : Slot} {f : Layer Slot → Edit Store α}
    (hslot : slot.In region)
    (hf : ∀ l : Layer Slot, l.Forall (Slot.In region) → Keeps (Confined region s₀) (f l)) :
    Keeps (Confined region s₀) (layerOf slot >>= f) := by
  refine keeps_bind_of (fun _ h => h) ?_
  rintro s _ _ hs ⟨⟩
  exact hf _ (hs.closed.layer hslot)

theorem keeps_update {slot : Slot} (hslot : slot.In region) {n : Node Slot}
    (hn : (Layer.node n).Forall (Slot.In region)) :
    Keeps (Confined region s₀) (update slot n) := by
  intro s hs
  show Confined region s₀ (s.write slot n)
  cases slot with
  | atom a => exact hs
  | «at» address =>
      refine ⟨fun a ha m hm => ?_, fun a ha => ?_⟩
      · by_cases heq : a = address
        · subst heq
          -- Only a cell that there is has been written.
          have hlt : a < s.cells.size := by
            simpa [Store.write] using (Array.getElem?_eq_some_iff.mp hm).1
          obtain rfl := Option.some.inj ((getElem?_write_self hlt n).symm.trans hm)
          exact hn
        · exact hs.closed a ha m ((getElem?_write_of_ne heq n).symm.trans hm)
      · have hne : a ≠ address := by
          rintro rfl
          exact ha hslot
        exact (getElem?_write_of_ne hne n).trans (hs.frame a ha)

theorem keeps_assign [Memory] {target value : Slot} (htarget : target.In region)
    (hvalue : value.In region)
    (key : Value) : Keeps (Confined region s₀) (assign target key value) := by
  unfold assign
  refine keeps_layerOf_bind htarget fun l hl => ?_
  refine keeps_bind_of (keeps_liftLogged _) ?_
  rintro s n _ - hn
  exact keeps_update htarget (hl.assign Slot.in_atom hvalue (congrArg Prod.fst hn))

/-- The merge of one entry stays in the region if all merges through `depth` levels do. -/
theorem keeps_mergeEntry [Memory] {depth : Nat} (hrec : ∀ {target source : Slot}, target.In region →
      source.In region → Keeps (Confined region s₀) (mergeTo depth target source))
    {target value : Slot} (htarget : target.In region) (hvalue : value.In region) (key : Value) :
    Keeps (Confined region s₀) (mergeEntry (mergeTo depth) target (key, value)) := by
  refine keeps_layerOf_bind htarget fun l hl => ?_
  refine keeps_bind_of (keeps_liftExcept _) ?_
  rintro _ current _ - hcurrent
  have hcurrent : current.In region := hl.access Slot.in_atom (congrArg Prod.fst hcurrent)
  refine keeps_layerOf_bind hcurrent fun _ _ => keeps_layerOf_bind hvalue fun _ _ => ?_
  refine keeps_bind (keeps_liftExcept _) fun mergeable => ?_
  split
  · exact hrec hcurrent hvalue
  · exact keeps_assign htarget hvalue key

/-- **A merge stays in a closed region.** One induction over the number of levels. -/
theorem keeps_mergeTo [Memory] (depth : Nat) {target source : Slot} (htarget : target.In region)
    (hsource : source.In region) : Keeps (Confined region s₀) (mergeTo depth target source) := by
  induction depth generalizing target source with
  | zero => exact keeps_fail _
  | succ depth ih =>
      rw [mergeTo]
      refine keeps_layerOf_bind hsource fun offered hoffered => ?_
      refine keeps_layerOf_bind htarget fun held _ => ?_
      split
      · refine keeps_bind_of (keeps_liftExcept _) ?_
        rintro _ entries _ - hentries
        have hvalues := hoffered.entries Slot.in_atom (congrArg Prod.fst hentries)
        exact keeps_forM_of_mem fun e he => keeps_mergeEntry ih htarget (hvalues e he) e.1
      · exact keeps_liftLogged _

end Store

end LooseData
