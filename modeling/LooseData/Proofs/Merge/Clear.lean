import LooseData.Proofs.Merge.Region

set_option autoImplicit false

/-! # Values that lead to none of some cells

Values that are merged one after the other bring others to the places of what they are merged into
(`Node.brought`), until one of them replaces it. They are clear of a set of cells, from a slot on, if
that goes into none of them (`Store.Clear`). Whether they are depends on the cells that the slot can
reach alone (`Clear.frame`), and a write keeps it if what is written leads nowhere (`Clear.write`).
Nothing is assumed about which collections are shared.
-/

namespace LooseData

/-! ## What values bring to a place -/

namespace Node

variable {α β : Type} {n : Node α} {n' : Node β} {k k' : Key}

/-- The values that some entries bring to the place of a key. -/
def bringing {γ : Type} (n : Node α) (key : Key) (entries : Table γ) : List γ :=
  (entries.filter fun e => n.SamePlace key e.1).map Prod.snd

/-- The values that later ones bring to the place of a key, one after the other. They are merged into
the level up to the first whose keys it does not take: that one replaces the level. -/
def brought (n : Node α) (key : Key) : List Value → List Value
  | .node m :: later =>
    if n.takes m then n.bringing key m.fields ++ n.brought key later else []
  | _ => []

theorem bringing_cons_of_samePlace {γ : Type} {v : γ} (h : n.SamePlace k k') (entries : Table γ) :
    n.bringing k ((k', v) :: entries) = v :: n.bringing k entries := by
  unfold bringing
  rw [List.filter_cons_of_pos (by simpa using h), List.map_cons]

theorem bringing_cons_of_not_samePlace {γ : Type} {v : γ} (h : ¬ n.SamePlace k k')
    (entries : Table γ) : n.bringing k ((k', v) :: entries) = n.bringing k entries := by
  unfold bringing
  rw [List.filter_cons_of_neg (by simpa using h)]

theorem bringing_map {γ δ : Type} (f : γ → δ) (n : Node α) (key : Key) (entries : Table γ) :
    n.bringing key (entries.map fun e => (e.1, f e.2)) = (n.bringing key entries).map f := by
  unfold bringing
  rw [List.filter_map, List.map_map, List.map_map]
  rfl

theorem bringing_of_samePlace {γ : Type} (h : n.SamePlace k k') (entries : Table γ) :
    n.bringing k entries = n.bringing k' entries := by
  unfold bringing
  refine congrArg _ (List.filter_congr fun e _ => decide_eq_decide.mpr ?_)
  exact ⟨h.symm.trans, h.trans⟩

theorem brought_of_samePlace (h : n.SamePlace k k') (later : List Value) :
    n.brought k later = n.brought k' later := by
  induction later with
  | nil => rfl
  | cons z later ih =>
      cases z with
      | atom a => rfl
      | node m => rw [brought, brought, bringing_of_samePlace h, ih]

theorem bringing_congr {γ : Type} (h : n'.SamePlace = n.SamePlace) (key : Key) (entries : Table γ) :
    n'.bringing key entries = n.bringing key entries := by
  unfold bringing
  refine congrArg _ (List.filter_congr fun e _ => decide_eq_decide.mpr ?_)
  rw [h]

/-- What is brought to a place depends on the places of the level, and on which keys it takes. -/
theorem brought_congr (hplace : n'.SamePlace = n.SamePlace)
    (htakes : ∀ m : Node Value, n'.takes m = n.takes m) (key : Key) (later : List Value) :
    n'.brought key later = n.brought key later := by
  induction later with
  | nil => rfl
  | cons z later ih =>
      cases z with
      | atom a => rfl
      | node m => rw [brought, brought, htakes, bringing_congr hplace, ih]

theorem brought_node {m : Node Value} (h : n.takes m = true) (key : Key) (later : List Value) :
    n.brought key (.node m :: later) = n.bringing key m.fields ++ n.brought key later := by
  rw [brought, if_pos h]

end Node

namespace Store

variable {R region region' : Multiset Nat} {s s' : Store} {slot : Slot} {z : Value}
  {later : List Value} {address : Nat}

/-! ## Which values are merged with what a slot stands for -/

theorem joins_congr (hcells : ∀ a, slot = .at a → s'.cells[a]? = s.cells[a]?) (z : Value) :
    s'.joins slot z = s.joins slot z := by
  cases slot with
  | atom a => rfl
  | «at» address =>
      have hlayer : s'.layer (.at address) = s.layer (.at address) := by
        rw [layer, layer, hcells address rfl]
      unfold joins
      rw [hlayer]

theorem joins_atom (s : Store) (slot : Slot) (a : Atom) : s.joins slot (.atom a) = false := by
  unfold joins
  cases s.layer slot <;> rfl

/-- What is merged is a collection, and so is what it is merged with. -/
theorem exists_of_joins (h : s.joins slot z = true) :
    ∃ address n m, slot = .at address ∧ s.cells[address]? = some n ∧ z = .node m ∧
      n.takes m = true := by
  cases slot with
  | atom a => cases h
  | «at» address =>
      cases z with
      | atom a => cases (joins_atom s _ a).symm.trans h
      | node m =>
          cases hcell : s.cells[address]? with
          | none =>
              have hlayer : s.layer (.at address) = .atom .null := by rw [layer, hcell]
              unfold joins at h
              rw [hlayer] at h
              cases h
          | some n =>
              unfold joins at h
              rw [layer_at hcell] at h
              exact ⟨address, n, m, rfl, hcell, rfl, (Bool.and_eq_true_iff.mp h).2⟩

/-- A write does not change which values are merged with what a slot stands for. -/
theorem joins_write {n : Node Slot} (hcell : s.cells[address]? = some n) (key : Key) (v slot : Slot)
    (z : Value) : (s.write (.at address) (n.put key v)).joins slot z = s.joins slot z := by
  by_cases hslot : slot = .at address
  · subst hslot
    have hlt : address < s.cells.size := (Array.getElem?_eq_some_iff.mp hcell).1
    unfold joins
    rw [layer_at (getElem?_write_self hlt (n.put key v)), layer_at hcell]
    cases z with
    | atom a => rfl
    | node m =>
        show ((n.put key v).isNested && m.isNested && (n.put key v).takes m) =
          (n.isNested && m.isNested && n.takes m)
        rw [Node.isNested_put, Node.takes_put]
  · refine joins_congr (fun a ha => getElem?_write_of_ne ?_ _) z
    rintro rfl
    exact hslot ha

/-! ## Regions of plain collections -/

/-- The collections in the cells of the region are plain. -/
def PlainOn (s : Store) (region : Multiset Nat) : Prop :=
  ∀ a ∈ region, ∀ n, s.cells[a]? = some n → n.Plain

theorem Holds.plainOn {t : Tree} (h : s.Holds t) (hplain : t.value.Plain) :
    s.PlainOn t.addresses := by
  induction h with
  | atom a => exact nofun
  | @node address n hcell hchildren ih =>
      cases hplain with
      | node hn hvalues =>
          rw [Node.children_map, List.forall_mem_map] at hvalues
          intro a ha m hm
          rcases Multiset.mem_cons.mp ha with rfl | ha
          · obtain rfl := Option.some.inj (hcell.symm.trans hm)
            exact (Node.plain_map _).mpr ((Node.plain_map _).mp hn)
          · obtain ⟨c, hc, ha⟩ := Tree.mem_allAddresses.mp ha
            exact ih c hc (hvalues c hc) a ha m hm

theorem PlainOn.add (h : s.PlainOn region) (h' : s.PlainOn region') :
    s.PlainOn (region + region') := fun a ha n hcell =>
  (Multiset.mem_add.mp ha).elim (fun ha => h a ha n hcell) fun ha => h' a ha n hcell

theorem PlainOn.write {n : Node Slot} (h : s.PlainOn region) (hn : n.Plain) (address : Nat) :
    (s.write (.at address) n).PlainOn region := by
  intro a ha m hm
  by_cases heq : a = address
  · subst heq
    have hlt : a < s.cells.size := by
      simpa [Store.write] using (Array.getElem?_eq_some_iff.mp hm).1
    obtain rfl := Option.some.inj ((getElem?_write_self hlt n).symm.trans hm)
    exact hn
  · exact h a ha m ((getElem?_write_of_ne heq n).symm.trans hm)

theorem PlainOn.plain_of_layer (h : s.PlainOn region) (hslot : slot.In region) :
    ∀ n, s.layer slot = .node n → n.Plain := by
  intro n hlayer
  cases slot with
  | atom a => cases hlayer
  | «at» address =>
      cases hcell : s.cells[address]? with
      | none =>
          rw [layer, hcell] at hlayer
          cases hlayer
      | some m =>
          obtain rfl := Layer.node.inj ((layer_at hcell).symm.trans hlayer)
          exact h address hslot _ hcell

/-- What a collection of a closed region holds lies in the region. -/
theorem ClosedOn.held_in (h : s.ClosedOn region) {n : Node Slot} (haddress : address ∈ region)
    (hcell : s.cells[address]? = some n) (key : Key) : (n.held key).In region := by
  rcases n.held_mem key with hnull | hat
  · rw [hnull]
    trivial
  · exact h address haddress n hcell _ (Node.mem_children_of_at? hat)

/-! ## Values that are clear of cells -/

/-- Merging the values one after the other into what the slot stands for goes into none of the cells
`R`, until one of them replaces it. -/
inductive Clear (R : Multiset Nat) (s : Store) : Slot → List Value → Prop where
  | done {slot : Slot} : Clear R s slot []
  | replaced {slot : Slot} {z : Value} {later : List Value} (h : s.joins slot z = false) :
      Clear R s slot (z :: later)
  | entered {address : Nat} {n : Node Slot} {later : List Value}
      (hcell : s.cells[address]? = some n) (hout : address ∉ R)
      (h : ∀ key, Clear R s (n.held key) (n.brought key later)) : Clear R s (.at address) later

theorem clear_atom (R : Multiset Nat) (s : Store) (a : Atom) (later : List Value) :
    Clear R s (.atom a) later := by
  cases later with
  | nil => exact .done
  | cons z later => exact .replaced rfl

/-- Where the first of the values is merged, it is merged into a cell besides `R`, and the entries
of that value and what comes later are clear of them from each place on. -/
theorem Clear.of_joins {m : Node Value} (h : Clear R s (.at address) (.node m :: later))
    (hjoins : s.joins (.at address) (.node m) = true) :
    ∃ n, s.cells[address]? = some n ∧ address ∉ R ∧
      ∀ key, Clear R s (n.held key) (n.bringing key m.fields ++ n.brought key later) := by
  cases h with
  | replaced hreplaced => cases hreplaced.symm.trans hjoins
  | @entered _ n _ hcell hout hrest =>
      obtain ⟨_, _, _, ⟨⟩, hcell', ⟨⟩, htakes⟩ := exists_of_joins hjoins
      obtain rfl := Option.some.inj (hcell.symm.trans hcell')
      refine ⟨n, hcell, hout, fun key => ?_⟩
      rw [← Node.brought_node htakes]
      exact hrest key

/-- Whether values are clear of the cells depends only on what the slot can reach. -/
theorem Clear.frame (h : Clear R s slot later) (hclosed : s.ClosedOn region) (hslot : slot.In region)
    (hcells : ∀ a ∈ region, s'.cells[a]? = s.cells[a]?) : Clear R s' slot later := by
  induction h with
  | done => exact .done
  | replaced hreplaced =>
      refine .replaced ((joins_congr (fun a ha => hcells a ?_) _).trans hreplaced)
      subst ha
      exact hslot
  | entered hcell hout _ ih =>
      exact .entered ((hcells _ hslot).trans hcell) hout fun key =>
        ih key (hclosed.held_in hslot hcell key)

/-- No values lead from a tree to cells that are not its own. -/
theorem Holds.clear {t : Tree} (h : s.Holds t) (hout : ∀ a ∈ t.addresses, a ∉ R)
    (later : List Value) : Clear R s t.slot later := by
  induction h generalizing later with
  | atom a => exact clear_atom R s a later
  | @node address n hcell hchildren ih =>
      refine .entered hcell (hout address (Multiset.mem_cons_self _ _)) fun key => ?_
      rw [Node.held_map Tree.slot rfl]
      rcases n.held_mem key with hnull | hat
      · rw [hnull]
        exact clear_atom R s .null _
      · have hmem := Node.mem_children_of_at? hat
        exact ih _ hmem (fun a ha => hout a (Multiset.mem_cons_of_mem
          (Tree.mem_allAddresses.mpr ⟨_, hmem, ha⟩))) _

/-- A write does not lead values to the cells if none are led there from what is written. -/
theorem Clear.write {n : Node Slot} {key : Key} {v : Slot} (h : Clear R s slot later)
    (hcell : s.cells[address]? = some n) (hn : n.Plain)
    (hv : ∀ later, Clear R (s.write (.at address) (n.put key v)) v later) :
    Clear R (s.write (.at address) (n.put key v)) slot later := by
  have hlt : address < s.cells.size := (Array.getElem?_eq_some_iff.mp hcell).1
  induction h with
  | done => exact .done
  | replaced hreplaced => exact .replaced ((joins_write hcell key v _ _).trans hreplaced)
  | @entered a n' later hcell' hout _ ih =>
      by_cases heq : a = address
      · subst heq
        obtain rfl := Option.some.inj (hcell.symm.trans hcell')
        refine .entered (getElem?_write_self hlt _) hout fun key' => ?_
        rw [Node.brought_congr (Node.samePlace_put n key v) (Node.takes_put n key v)]
        by_cases hsame : n.SamePlace key key'
        · have hheld : (n.put key v).held key' = v := by
            rw [← Node.samePlace_put n key v] at hsame
            rw [← Node.held_eq_of_samePlace hsame, hn.held_put_self]
          rw [hheld]
          exact hv _
        · rw [Node.held_put_of_not_samePlace hsame]
          exact ih key'
      · exact .entered ((getElem?_write_of_ne heq _).trans hcell') hout ih

end Store

end LooseData
