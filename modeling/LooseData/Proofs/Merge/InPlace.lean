import LooseData.Proofs.Merge.Overlay
import LooseData.Proofs.Merge.Places
import LooseData.Proofs.Store.Placing

set_option autoImplicit false

/-! # Merging in place gives the overlay

Where the target and the source share no collection, merging changes the store as if the overlay
of their values were computed and written in the place of the target.

The two steps of a merge, recursion into a value and writing a value, both rewrite the tree of the
target (`Rewrites`): its slot stays, its value becomes another one, it takes over collections of
the source, and cells of neither of them stay as they are. The cells that it takes over are those
of the entry that is merged. So the entries that are still to come have not been touched
(`ends_mergeEntries`), although what has been written is shared with the source.
-/

namespace LooseData

open Edit

namespace Store

variable {s s' : Store}

/-- The tree `t` has come in the place of `target`: it has the same slot, and its addresses are
among those of `target` and those `taken` over. All other cells have stayed as they were. -/
structure Rewrites (s : Store) (target : Tree) (taken : Multiset Nat) (s' : Store) (t : Tree) :
    Prop where
  holds : s'.Holds t
  slot_eq : t.slot = target.slot
  addresses_le : t.addresses ≤ target.addresses + taken
  frame : ∀ a, a ∉ target.addresses + taken → s'.cells[a]? = s.cells[a]?

theorem Rewrites.refl {t : Tree} (h : s.Holds t) : s.Rewrites t 0 s t :=
  ⟨h, rfl, by rw [add_zero], fun _ _ => rfl⟩

theorem Rewrites.mono {t t' : Tree} {taken taken' : Multiset Nat} (h : s.Rewrites t taken s' t')
    (hle : taken ≤ taken') : s.Rewrites t taken' s' t' := by
  have hle : t.addresses + taken ≤ t.addresses + taken' := add_le_add_right hle _
  exact ⟨h.holds, h.slot_eq, h.addresses_le.trans hle,
    fun a ha => h.frame a fun hin => ha (Multiset.mem_of_le hle hin)⟩

theorem Rewrites.trans {t t₁ t₂ : Tree} {taken taken' : Multiset Nat} {s₁ s₂ : Store}
    (h : s.Rewrites t taken s₁ t₁) (h' : s₁.Rewrites t₁ taken' s₂ t₂) :
    s.Rewrites t (taken + taken') s₂ t₂ := by
  have hle : t₁.addresses + taken' ≤ t.addresses + (taken + taken') := by
    rw [← add_assoc]
    exact add_le_add_left h.addresses_le taken'
  refine ⟨h'.holds, h'.slot_eq.trans h.slot_eq, h'.addresses_le.trans hle, fun a ha => ?_⟩
  rw [h'.frame a fun hin => ha (Multiset.mem_of_le hle hin), h.frame a fun hin => ha ?_]
  rw [← add_assoc]
  exact Multiset.mem_add.mpr (.inl hin)

/-- Trees that share nothing with what is rewritten stay in their cells. -/
theorem Rewrites.holds_of_mem {t t' c : Tree} {taken : Multiset Nat} {trees : List Tree}
    (h : s.Rewrites t taken s' t')
    (hnodup : (t.addresses + taken + Tree.allAddresses trees).Nodup) (hc : c ∈ trees)
    (hheld : s.Holds c) : s'.Holds c := by
  refine hheld.frame fun a ha => h.frame a fun hin => ?_
  exact Multiset.disjoint_left.mp (Multiset.nodup_add.mp hnodup).2.2 hin
    (Tree.mem_allAddresses.mpr ⟨c, hc, ha⟩)

theorem Rewrites.nodup {t t' : Tree} {taken rest : Multiset Nat} (h : s.Rewrites t taken s' t')
    (hnodup : (t.addresses + taken + rest).Nodup) : (t'.addresses + rest).Nodup :=
  Multiset.nodup_of_le (add_le_add_left h.addresses_le rest) hnodup

/-- Writing a tree into a collection brings in no more addresses than those of the tree. -/
theorem allAddresses_put_le {n : Node Tree} (hn : n.Plain) (key : Key) (y : Tree) :
    Tree.allAddresses (n.put key y).children ≤ Tree.allAddresses n.children + y.addresses := by
  cases hat : n.at? key with
  | some c =>
      obtain ⟨front, back, hbefore, hafter⟩ := Node.children_put_of_at?_eq_some hat
      rw [hbefore, hafter]
      simp only [Tree.allAddresses_append, Tree.allAddresses_cons]
      rw [Multiset.le_iff_count]
      intro a
      simp only [Multiset.count_add]
      omega
  | none =>
      obtain ⟨gap, hafter⟩ := Node.children_put_of_at?_eq_none hn hat y
      have hnulls := Tree.allAddresses_replicate_ofAtom gap .null
      rw [hafter, Tree.allAddresses_append, Tree.allAddresses_append]
      show _ + Tree.allAddresses (List.replicate gap (.ofAtom .null)) + _ ≤ _
      rw [hnulls, add_zero, Tree.allAddresses_cons, Tree.allAddresses_nil, add_zero]

/-! ## One entry -/

theorem ends_layerOf_bind {α : Type} {E : Fault → Store → Prop} {slot : Slot}
    {f : Layer Slot → Edit Store α} {Q : α → Store → Prop} (h : Ends E (f (s.layer slot)) s Q) :
    Ends E (layerOf slot >>= f) s Q := by
  refine Ends.bind (Q := fun l s' => s.layer slot = l ∧ s = s')
    (ends_get_bind (ends_pure ⟨rfl, rfl⟩)) ?_
  rintro _ _ ⟨rfl, rfl⟩
  exact h

theorem layer_ofNode {address : Nat} {n : Node Tree}
    (hcell : s.cells[address]? = some (n.map Tree.slot)) :
    s.layer (Tree.ofNode address n).slot = .node (n.map Tree.slot) := layer_at hcell

/-- The tree of a nested value is that of a dictionary or a list, and its contents are plain. -/
theorem Holds.exists_plain {t : Tree} (h : s.Holds t) (hplain : t.value.Plain)
    (hnested : t.value.isNested = true) :
    ∃ address n, t = .ofNode address n ∧ n.Plain ∧
      s.cells[address]? = some (n.map Tree.slot) ∧
      ∀ c ∈ n.children, s.Holds c ∧ c.value.Plain := by
  cases h with
  | atom a => cases hnested
  | @node address n hcell hchildren =>
      cases hplain with
      | node hn hvalues =>
          rw [Node.children_map, List.forall_mem_map] at hvalues
          exact ⟨address, n, rfl, (Node.plain_map _).mp hn, hcell,
            fun c hc => ⟨hchildren c hc, hvalues c hc⟩⟩

theorem isNested_layer {t : Tree} (h : s.Holds t) :
    (s.layer t.slot).isNested = t.value.isNested := by
  cases h with
  | atom a => rfl
  | @node address n hcell _ =>
      rw [layer_ofNode hcell]
      show (n.map Tree.slot).isNested = (n.map Tree.value).isNested
      rw [Node.isNested_map, Node.isNested_map]

/-- The level of a plain tree is plain. -/
theorem Holds.plain_of_layer {t : Tree} (h : s.Holds t) (hplain : t.value.Plain) :
    ∀ n, s.layer t.slot = .node n → n.Plain := by
  intro n hlayer
  cases h with
  | atom a => cases hlayer
  | @node address m hcell _ =>
      obtain rfl := Layer.node.inj ((layer_ofNode hcell).symm.trans hlayer)
      cases hplain with
      | node hm _ => exact (Node.plain_map _).mpr ((Node.plain_map _).mp hm)

/-- Whether a value is merged with what a slot stands for. -/
def joins (s : Store) (slot : Slot) (v : Value) : Bool :=
  match s.layer slot, v with
  | .node n, .node m => n.isNested && m.isNested && n.takes m
  | _, _ => false

theorem Holds.joins_eq {t : Tree} (h : s.Holds t) (v : Value) :
    s.joins t.slot v = t.value.joins v := by
  unfold joins
  cases h with
  | atom a => rfl
  | @node address n hcell _ =>
      rw [layer_ofNode hcell]
      cases v with
      | atom a =>
          show false = ((n.map Tree.value).isNested && false && false)
          rw [Bool.and_false]
      | node m =>
          show ((n.map Tree.slot).isNested && m.isNested && (n.map Tree.slot).takes m) =
            ((n.map Tree.value).isNested && m.isNested && (n.map Tree.value).takes m)
          rw [Node.isNested_map, Node.isNested_map, Node.takes_map_left, Node.takes_map_left]

theorem joins_eq_takes {slot : Slot} {n : Node Slot} {m : Node Value}
    (hlayer : s.layer slot = .node n) (hn : n.Plain) (hm : m.Plain) :
    s.joins slot (.node m) = n.takes m := by
  unfold joins
  rw [hlayer]
  show (n.isNested && m.isNested && n.takes m) = n.takes m
  rw [hn.isNested_eq, hm.isNested_eq, Bool.and_self, Bool.true_and]

/-- Whether a source is merged with what a slot stands for is decided by its value. -/
theorem yields_mergeable {slot : Slot} {y : Tree} (hslot : ∀ n, s.layer slot = .node n → n.Plain)
    (hy : s.Holds y) (hyp : y.value.Plain) :
    Yields (· ≠ .bottomless) (Layer.mergeable (s.layer slot) (s.layer y.slot))
      (· = s.joins slot y.value) := by
  unfold Layer.mergeable
  rw [isNested_layer hy]
  cases hlayer : s.layer slot with
  | atom a =>
      unfold joins
      rw [hlayer]
      exact yields_ok rfl
  | node n =>
      have hn := hslot n hlayer
      cases hy with
      | atom a =>
          unfold joins
          rw [hlayer, show (Tree.ofAtom a).value.isNested = false from rfl, Bool.and_false]
          exact yields_ok rfl
      | @node address m hcell _ =>
          have hvalue : (m.map Tree.value).Plain := by
            cases hyp with
            | node hm _ => exact hm
          have hm := (Node.plain_map _).mp hvalue
          have haccepts := Node.yields_acceptsKeys hn ((Node.plain_map Tree.slot).mpr hm)
          have hboth : ((Layer.node n).isNested && (Tree.ofNode address m).value.isNested) = true :=
            Bool.and_eq_true_iff.mpr ⟨hn.isNested_eq, hvalue.isNested_eq⟩
          have hjoins : s.joins slot (Tree.ofNode address m).value = n.takes (m.map Tree.value) :=
            joins_eq_takes hlayer hn hvalue
          rw [if_pos hboth, layer_ofNode hcell, hjoins, Node.takes_map_right]
          rwa [Node.takes_map_right] at haccepts

section

variable {E : Fault → Store → Prop} (hE : ∀ fault s, fault ≠ .bottomless → E fault s)

include hE

section

variable {address : Nat} {n : Node Slot} (hcell : s.cells[address]? = some n) (hn : n.Plain)
  {name : String}

include hcell hn

/-- Writing an entry changes the cell of the target. -/
theorem ends_assign [Memory] {v : Slot} {Q : Store → Prop}
    (h : n.takesKey (.text name) = true → Q (s.write (.at address) (n.put (.text name) v))) :
    Ends E (assign (.at address) (.text name) v) s fun _ s' => Q s' := by
  unfold assign
  refine ends_layerOf_bind ?_
  rw [layer_at hcell]
  refine ((Node.yields_assign hn name v).mono_fault (hE · s)).ends_bind_logged ?_
  rintro _ ⟨htakes, rfl⟩
  exact ends_modify (h htakes)

/-- An entry with a key that the target cannot take is not merged. -/
theorem ends_mergeEntry_of_not_takesKey [Memory] {depth : Nat} {v : Slot}
    (hkey : n.takesKey (.text name) = false) {Q : Unit → Store → Prop} :
    Ends E (mergeEntry (mergeTo depth) (.at address) (.text name, v)) s Q := by
  have haccess := (Node.yields_access hn name).mono_fault (hE · s)
  rw [hkey] at haccess
  unfold mergeEntry
  refine ends_layerOf_bind ?_
  rw [layer_at hcell]
  -- The key leads to null, into which nothing is merged, and it cannot be written.
  refine haccess.ends_bind ?_
  rintro _ rfl
  refine ends_layerOf_bind (ends_layerOf_bind ?_)
  refine (yields_ok (Q := (· = false)) rfl).ends_bind ?_
  rintro _ rfl
  refine (ends_assign hE hcell hn (Q := fun _ => False) fun htakes => ?_).mono fun _ _ h => h.elim
  exact nomatch hkey.symm.trans htakes

/-- **What the merge of one entry does.** It goes on into what the target holds under the key, if
that and the value of the entry are to be merged, and otherwise it writes the value of the entry. -/
theorem ends_mergeEntry_of [Memory] {depth : Nat} {y : Tree}
    (hheld : ∀ m, s.layer (n.held (.text name)) = .node m → m.Plain) (hy : s.Holds y)
    (hyplain : y.value.Plain) {Q : Store → Prop}
    (hdescend : n.takesKey (.text name) = true → s.joins (n.held (.text name)) y.value = true →
      Ends E (mergeTo depth (n.held (.text name)) y.slot) s fun _ s' => Q s')
    (hwrite : n.takesKey (.text name) = true → s.joins (n.held (.text name)) y.value = false →
      Q (s.write (.at address) (n.put (.text name) y.slot))) :
    Ends E (mergeEntry (mergeTo depth) (.at address) (.text name, y.slot)) s fun _ s' => Q s' := by
  cases hkey : n.takesKey (.text name) with
  | false => exact ends_mergeEntry_of_not_takesKey hE hcell hn hkey
  | true =>
      have haccess := (Node.yields_access hn name).mono_fault (hE · s)
      rw [hkey] at haccess
      unfold mergeEntry
      refine ends_layerOf_bind ?_
      rw [layer_at hcell]
      refine haccess.ends_bind ?_
      rintro _ rfl
      refine ends_layerOf_bind (ends_layerOf_bind ?_)
      refine ((yields_mergeable hheld hy hyplain).mono_fault (hE · s)).ends_bind ?_
      rintro _ rfl
      split
      · rename_i hjoins
        exact hdescend hkey hjoins
      · rename_i hreplaces
        exact ends_assign hE hcell hn fun _ => hwrite hkey (Bool.eq_false_iff.mpr hreplaces)

/-- A merge of two collections merges the entries of the one into the other. -/
theorem ends_mergeTo_of_forM [Memory] {depth address' : Nat} {m : Node Tree}
    {Q : Unit → Store → Prop}
    (hcell' : s.cells[address']? = some (m.map Tree.slot)) (hm : m.Plain)
    (h : Ends E ((m.fields.map fun e => (Value.ofKey e.1, e.2.slot)).forM
      (mergeEntry (mergeTo depth) (.at address))) s Q) :
    Ends E (mergeTo (depth + 1) (.at address) (.at address')) s Q := by
  have hlayer' : s.layer (.at address') = .node (m.map Tree.slot) := layer_ofNode hcell'
  have hnested : (Layer.node n).isNested = true := hn.isNested_eq
  have hnested' : (Layer.node (m.map Tree.slot)).isNested = true :=
    ((Node.plain_map _).mpr hm).isNested_eq
  rw [mergeTo]
  refine ends_layerOf_bind (ends_layerOf_bind ?_)
  rw [layer_at hcell, hlayer', hnested, hnested', Bool.and_self, if_pos rfl]
  have hentries := (Node.yields_entries ((Node.plain_map Tree.slot).mpr hm)).mono_fault (hE · s)
  rw [Node.fields_map, List.map_map] at hentries
  refine hentries.ends_bind ?_
  rintro _ rfl
  exact h

end

end

/-- Merging through `depth` levels is in place what the overlay is on values. -/
def OverlaysUpTo [Memory] (depth : Nat) : Prop :=
  ∀ (s : Store) (target source : Tree), s.Holds target → s.Holds source →
    (target.addresses + source.addresses).Nodup →
    target.value.Plain → source.value.Plain →
    target.value.isNested = true → source.value.isNested = true →
    source.size < depth →
    Ends (fun fault _ => fault ≠ .bottomless) (mergeTo depth target.slot source.slot) s fun _ s' =>
      target.value.takes source.value = true ∧
        ∃ t, s.Rewrites target source.addresses s' t ∧
          t.value = target.value.overlaidBy source.value

section

variable {address : Nat} {n : Node Tree} {y : Tree}

/-- Writing a tree into a collection rewrites the tree of the collection. -/
theorem rewrites_write (hcell : s.cells[address]? = some (n.map Tree.slot))
    (hchildren : ∀ c ∈ n.children, s.Holds c) (hy : s.Holds y)
    (hnodup : ((Tree.ofNode address n).addresses + y.addresses).Nodup) (hn : n.Plain)
    (key : Key) :
    s.Rewrites (.ofNode address n) y.addresses
      (s.write (.at address) ((n.put key y).map Tree.slot)) (.ofNode address (n.put key y)) := by
  -- No address occurs twice, so the trees of the contents and of the entry are not written to.
  have hlt : address < s.cells.size := (Array.getElem?_eq_some_iff.mp hcell).1
  rw [Tree.addresses_ofNode, Multiset.cons_add, Multiset.nodup_cons, Multiset.mem_add,
    not_or] at hnodup
  obtain ⟨⟨hnotin, hnotiny⟩, -⟩ := hnodup
  have hkeeps (c : Tree) (hc : s.Holds c) (hout : address ∉ c.addresses) :
      (s.write (.at address) ((n.put key y).map Tree.slot)).Holds c := by
    refine hc.frame fun a ha => getElem?_write_of_ne ?_ _
    rintro rfl
    exact hout ha
  refine ⟨.node (getElem?_write_self hlt _) fun c hc => ?_, rfl, ?_, ?_⟩
  · rcases hn.mem_children_put hc with hc | rfl | rfl
    · exact hkeeps c (hchildren c hc) fun ha => hnotin (Tree.mem_allAddresses.mpr ⟨c, hc, ha⟩)
    · exact hkeeps _ hy hnotiny
    · exact .atom .null
  · rw [Tree.addresses_ofNode, Tree.addresses_ofNode, Multiset.cons_add]
    exact Multiset.cons_le_cons _ (allAddresses_put_le hn _ y)
  · intro a ha
    refine getElem?_write_of_ne ?_ _
    rintro rfl
    exact ha (Multiset.mem_add.mpr (.inl (Multiset.mem_cons_self _ _)))

/-- Where every address occurs once, those of one content and of an entry are apart from the
others. -/
theorem apart_of_nodup {front back taken : Multiset Nat} {c : Tree}
    (hnodup : (address ::ₘ (front + (c.addresses + back)) + taken).Nodup) {a : Nat}
    (ha : a ∈ c.addresses + taken) : a ≠ address ∧ a ∉ front ∧ a ∉ back := by
  rw [Multiset.nodup_iff_count_le_one] at hnodup
  have hone := hnodup a
  have hpos := Multiset.count_pos.mpr ha
  simp only [Multiset.count_add, Multiset.count_cons] at hone hpos
  refine ⟨?_, ?_, ?_⟩
  · rintro rfl
    rw [if_pos rfl] at hone
    omega
  · intro hin
    have hin := Multiset.count_pos.mpr hin
    omega
  · intro hin
    have hin := Multiset.count_pos.mpr hin
    omega

/-- **Merging into a content.** What rewrites the tree of a content rewrites that of the
collection: the cell of the collection and the cells of its other contents stay as they are. -/
theorem Rewrites.in_content {name : String} {c t : Tree}
    (hcell : s.cells[address]? = some (n.map Tree.slot)) (hchildren : ∀ c ∈ n.children, s.Holds c)
    (hnodup : ((Tree.ofNode address n).addresses + y.addresses).Nodup)
    (hat : n.at? (.text name) = some c) (h : s.Rewrites c y.addresses s' t) :
    s.Rewrites (.ofNode address n) y.addresses s' (.ofNode address (n.put (.text name) t)) := by
  obtain ⟨front, back, hbefore, hafter⟩ := Node.children_put_of_at?_eq_some hat
  rw [Tree.addresses_ofNode, hbefore, Tree.allAddresses_append, Tree.allAddresses_cons] at hnodup
  have hapart (a : Nat) (ha : a ∈ c.addresses + y.addresses) := apart_of_nodup hnodup ha
  -- The content keeps its slot, so the cell of the collection need not change.
  have hslots : (n.put (.text name) t).map Tree.slot = n.map Tree.slot := by
    rw [← Node.put_map Tree.slot rfl, h.slot_eq]
    exact Node.put_of_at?_eq_some (by rw [Node.at?_map, hat]; rfl)
  have hholds : s'.Holds (.ofNode address (n.put (.text name) t)) := by
    refine .node ?_ fun d hd => ?_
    · rw [hslots, h.frame address fun ha => (hapart address ha).1 rfl, hcell]
    · rw [hafter] at hd
      rcases List.mem_append.mp hd with hd | hd
      · refine (hchildren d (by rw [hbefore]; exact List.mem_append_left _ hd)).frame fun a ha => ?_
        exact h.frame a fun hin => (hapart a hin).2.1 (Tree.mem_allAddresses.mpr ⟨d, hd, ha⟩)
      · rcases List.mem_cons.mp hd with rfl | hd
        · exact h.holds
        · refine (hchildren d (by rw [hbefore]; simp [hd])).frame fun a ha => ?_
          exact h.frame a fun hin => (hapart a hin).2.2 (Tree.mem_allAddresses.mpr ⟨d, hd, ha⟩)
  refine ⟨hholds, rfl, ?_, ?_⟩
  · rw [Tree.addresses_ofNode, Tree.addresses_ofNode, hbefore, hafter]
    simp only [Tree.allAddresses_append, Tree.allAddresses_cons]
    have hle := h.addresses_le
    rw [Multiset.le_iff_count] at hle ⊢
    intro a
    have hle := hle a
    simp only [Multiset.count_add, Multiset.count_cons] at hle ⊢
    omega
  · intro a ha
    refine h.frame a fun hin => ha ?_
    rw [Tree.addresses_ofNode, hbefore, Tree.allAddresses_append, Tree.allAddresses_cons]
    rcases Multiset.mem_add.mp hin with hin | hin
    · simp [hin]
    · simp [hin]

/-- What a collection holds at a place is in its cells, and it is plain. -/
theorem holds_held (hchildren : ∀ c ∈ n.children, s.Holds c ∧ c.value.Plain) (key : Key) :
    s.Holds (n.held key) ∧ (n.held key).value.Plain := by
  rcases n.held_mem key with hnull | hat
  · rw [hnull]
    exact ⟨.atom .null, .atom .null⟩
  · exact hchildren _ (Node.mem_children_of_at? hat)

end

/-- **The step of a merge**: the merge of one entry rewrites the tree of the target, with the
value under the key changed by that of the entry. -/
theorem ends_mergeEntry [Memory] {depth : Nat} (hrec : OverlaysUpTo depth) {t y : Tree}
    {m : Node Value} (ht : s.Holds t) (hm : t.value = .node m) (hplain : t.value.Plain)
    (hy : s.Holds y) (hyplain : y.value.Plain) (hnodup : (t.addresses + y.addresses).Nodup)
    (hsize : y.size < depth) (name : String) :
    Ends (fun fault _ => fault ≠ .bottomless)
      (mergeEntry (mergeTo depth) t.slot (.text name, y.slot)) s fun _ s' =>
      m.takesKey (.text name) = true ∧ ∃ t', s.Rewrites t y.addresses s' t' ∧
        t'.value = .node (m.revise (.text name) y.value.laidOver) := by
  have hnested : t.value.isNested = true := by
    rw [hm] at hplain ⊢
    exact hplain.isNested_eq
  obtain ⟨address, n, rfl, hn, hcell, hchildren⟩ := ht.exists_plain hplain hnested
  obtain rfl : n.map Tree.value = m := Value.node.inj hm
  have hheld (c : Tree) (hc : c ∈ n.children) : s.Holds c := (hchildren c hc).1
  have hcurrent : ((n.map Tree.value).at? (.text name)).getD .null =
      (n.held (.text name)).value := Node.held_map Tree.value rfl n (.text name)
  -- What comes in the place of the value under the key, wherever that is from.
  have hvalue {v : Tree} (h : v.value = y.value.laidOver (n.held (.text name)).value) :
      (Tree.ofNode address (n.put (.text name) v)).value =
        .node ((n.map Tree.value).revise (.text name) y.value.laidOver) := by
    show Value.node ((n.put (.text name) v).map Tree.value) = _
    rw [← Node.put_map Tree.value rfl, Node.revise, hcurrent, h]
  obtain ⟨hc, hcplain⟩ := holds_held hchildren (.text name)
  have hslot : (n.map Tree.slot).held (.text name) = (n.held (.text name)).slot :=
    Node.held_map Tree.slot rfl n (.text name)
  rw [Node.takesKey_map]
  refine ends_mergeEntry_of (fun _ _ h => h) hcell ((Node.plain_map _).mpr hn) ?_ hy hyplain ?_ ?_
  · rw [hslot]
    exact hc.plain_of_layer hcplain
  · intro hkey hjoins
    rw [Node.takesKey_map] at hkey
    rw [hslot, hc.joins_eq] at hjoins
    rw [hslot]
    obtain ⟨hcnested, hynested⟩ := Bool.and_eq_true_iff.mp (Bool.and_eq_true_iff.mp hjoins).1
    have hat : n.at? (.text name) = some (n.held (.text name)) := by
      rcases n.held_mem (.text name) with hnull | hat
      · rw [hnull] at hcnested
        cases hcnested
      · exact hat
    have hle : (n.held (.text name)).addresses ≤ (Tree.ofNode address n).addresses :=
      (Tree.addresses_le_allAddresses (Node.mem_children_of_at? hat)).trans
        (Multiset.le_cons_self _ address)
    have hdescend := hrec s _ y hc hy (Multiset.nodup_of_le (add_le_add_left hle _) hnodup)
      hcplain hyplain hcnested hynested hsize
    refine hdescend.mono ?_
    rintro _ s' ⟨-, t, ht', hlaid⟩
    refine ⟨hkey, _, ht'.in_content hcell hheld hnodup hat, hvalue ?_⟩
    rw [hlaid, Value.laidOver, Value.joined]
    exact (if_pos hjoins).symm
  · intro hkey hjoins
    rw [Node.takesKey_map] at hkey
    rw [hslot, hc.joins_eq] at hjoins
    rw [Node.put_map Tree.slot rfl]
    refine ⟨hkey, _, rewrites_write hcell hheld hy hnodup hn _, hvalue ?_⟩
    rw [Value.laidOver, Value.joined]
    exact (if_neg (Bool.eq_false_iff.mp hjoins)).symm

/-! ## All entries -/

/-- **The whole run of a merge**: the entries rewrite the tree of the target one after another.
The trees of those that are to come share nothing with what the earlier ones have changed. -/
theorem ends_mergeEntries [Memory] {depth : Nat} (hrec : OverlaysUpTo depth) (entries : Table Tree)
    {t : Tree} {m : Node Value} (ht : s.Holds t) (hm : t.value = .node m) (hplain : t.value.Plain)
    (hentries : ∀ e ∈ entries, (∃ name, e.1 = .text name) ∧ s.Holds e.2 ∧ e.2.value.Plain ∧
      e.2.size < depth)
    (hnodup : (t.addresses + Tree.allAddresses (entries.map Prod.snd)).Nodup) :
    Ends (fun fault _ => fault ≠ .bottomless)
      ((entries.map fun e => (Value.ofKey e.1, e.2.slot)).forM (mergeEntry (mergeTo depth) t.slot)) s
      fun _ s' => (∀ e ∈ entries, m.takesKey e.1 = true) ∧
        ∃ t', s.Rewrites t (Tree.allAddresses (entries.map Prod.snd)) s' t' ∧
          t'.value = .node (entries.foldl (fun n e => n.revise e.1 e.2.value.laidOver) m) := by
  induction entries generalizing s t m with
  | nil => exact ends_pure ⟨by simp, t, .refl ht, hm⟩
  | cons e rest ih =>
      obtain ⟨⟨⟨name, hname⟩, hy, hyplain, hsize⟩, hrest⟩ := List.forall_mem_cons.mp hentries
      rw [List.map_cons, Tree.allAddresses_cons, ← add_assoc] at hnodup
      have hfirst := ends_mergeEntry hrec ht hm hplain hy hyplain
        (Multiset.nodup_of_le (Multiset.le_add_right _ _) hnodup) hsize name
      rw [List.map_cons, List.map_cons, Tree.allAddresses_cons, List.foldl_cons, hname]
      refine hfirst.bind ?_
      rintro _ s₁ ⟨htakes, t₁, hrewrites, hvalue⟩
      have hplain₁ : t₁.value.Plain := by
        rw [hvalue]
        rw [hm] at hplain
        exact Value.revisable_plain.revise hplain name hyplain.laidOver
      -- The entries that are to come lie outside of everything that may have changed.
      have hrest₁ : ∀ e' ∈ rest, (∃ name, e'.1 = .text name) ∧ s₁.Holds e'.2 ∧
          e'.2.value.Plain ∧ e'.2.size < depth := by
        intro e' he'
        obtain ⟨hname', hy', hrest'⟩ := hrest e' he'
        exact ⟨hname', hrewrites.holds_of_mem hnodup (List.mem_map_of_mem he') hy', hrest'⟩
      have hlast := ih hrewrites.holds hvalue hplain₁ hrest₁ (hrewrites.nodup hnodup)
      rw [hrewrites.slot_eq] at hlast
      refine hlast.mono ?_
      rintro _ s₂ ⟨htakes', t₂, hrewrites', hvalue'⟩
      refine ⟨?_, t₂, hrewrites.trans hrewrites', hvalue'⟩
      rw [List.forall_mem_cons, hname]
      refine ⟨htakes, fun e' he' => ?_⟩
      have htakes' := htakes' e' he'
      rwa [Node.revise, Node.takesKey_put] at htakes'

section

variable {address address' : Nat} {n m : Node Tree}

/-- The entries of a source: each is under a text, is plain and in its cells, and has fewer cells than
the source. -/
theorem holds_fields (hs : s.Holds (.ofNode address' m)) (hm : m.Plain)
    (hchildren : ∀ c ∈ m.children, s.Holds c ∧ c.value.Plain) {depth : Nat}
    (hsize : (Tree.ofNode address' m).size < depth + 1) :
    ∀ e ∈ m.fields, (∃ name, e.1 = .text name) ∧ s.Holds e.2 ∧ e.2.value.Plain ∧
      e.2.size < depth := by
  intro e he
  obtain ⟨name, hname, -⟩ := hm.of_mem_fields he
  have hmem := hm.mem_children_of_mem_fields he
  have hlt := hs.size_lt hmem
  exact ⟨⟨name, hname⟩, (hchildren _ hmem).1, (hchildren _ hmem).2, by omega⟩

/-- The entries of a source share nothing with what its collection does not share. -/
theorem nodup_fields {taken : Multiset Nat} (hm : m.Plain)
    (hnodup : (taken + (Tree.ofNode address' m).addresses).Nodup) :
    (taken + Tree.allAddresses (m.fields.map Prod.snd)).Nodup := by
  rw [hm.map_snd_fields]
  exact Multiset.nodup_of_le (add_le_add_right (Multiset.le_cons_self _ address') _) hnodup

end

/-- **Merging in place gives the overlay**, through any number of levels. The induction is on that
number; the source has fewer collections, and so fewer levels. -/
theorem overlaysUpTo [Memory] (depth : Nat) : OverlaysUpTo depth := by
  induction depth with
  | zero =>
      intro s target source _ _ _ _ _ _ _ hsize
      exact absurd hsize (Nat.not_lt_zero _)
  | succ depth ih =>
      intro s target source ht hs hnodup htp hsp htn hsn hsize
      obtain ⟨address, n, rfl, hn, hcell, -⟩ := ht.exists_plain htp htn
      obtain ⟨address', m, rfl, hm, hcell', hchildren⟩ := hs.exists_plain hsp hsn
      refine ends_mergeTo_of_forM (fun _ _ h => h) hcell ((Node.plain_map _).mpr hn) hcell' hm ?_
      refine (ends_mergeEntries ih m.fields ht rfl htp (holds_fields hs hm hchildren hsize)
        (nodup_fields hm hnodup)).mono ?_
      rintro _ s' ⟨htakes, t, hrewrites, hvalue⟩
      rw [hm.map_snd_fields] at hrewrites
      refine ⟨?_, t, hrewrites.mono (Multiset.le_cons_self _ address'), ?_⟩
      · show (n.map Tree.value).takes (m.map Tree.value) = true
        rw [Node.takesKey_map] at htakes
        rw [Node.takes_map]
        exact Node.takes_of_takesKey hn htakes
      · show _ = Value.overlaidBy (.node (n.map Tree.value)) (.node (m.map Tree.value))
        rw [Value.overlaidBy_eq_foldl ((Node.plain_map _).mpr hn) ((Node.plain_map _).mpr hm),
          Node.fields_map, List.foldl_map, hvalue]

/-- A merge from the top goes through as many levels as there are cells, which is enough. -/
theorem ends_merge [Memory] {target source : Tree} (ht : s.Holds target) (hs : s.Holds source)
    (hnodup : (target.addresses + source.addresses).Nodup) (htp : target.value.Plain)
    (hsp : source.value.Plain) (htn : target.value.isNested = true)
    (hsn : source.value.isNested = true) :
    Ends (fun fault _ => fault ≠ .bottomless) (merge target.slot source.slot) s fun _ s' =>
      target.value.takes source.value = true ∧
        ∃ t, s.Rewrites target source.addresses s' t ∧
          t.value = target.value.overlaidBy source.value := by
  refine ends_get_bind ?_
  exact overlaysUpTo _ _ target source ht hs hnodup htp hsp htn hsn (Nat.lt_succ_of_le hs.size_le)

/-- **A merge in place is the pure overlay.** Let the target and the source be collections that
consist of dictionaries with texts as keys, lists and atoms, and share no collection. If the merge
ends without a fault, the target can take the keys of the source, and what is read from its slot
is the overlay of the two values. If the merge ends with a fault, that is not for lack of
levels. -/
theorem merge_eq_overlaidBy [Memory] {target source : Tree} (ht : s.Holds target)
    (hs : s.Holds source)
    (hshare : (target.addresses + source.addresses).Nodup) (htp : target.value.Plain)
    (hsp : source.value.Plain) (htn : target.value.isNested = true)
    (hsn : source.value.isNested = true) :
    (∀ s', (merge target.slot source.slot).effect s = (.ok (), s') →
      target.value.takes source.value = true ∧
        s'.read target.slot = target.value.overlaidBy source.value) ∧
    ∀ fault s', (merge target.slot source.slot).effect s = (.error fault, s') →
      fault ≠ .bottomless := by
  obtain ⟨hfault, hok⟩ := ends_merge ht hs hshare htp hsp htn hsn
  refine ⟨fun s' heffect => ?_, hfault⟩
  obtain ⟨htakes, t, hrewrites, hvalue⟩ := hok () s' heffect
  refine ⟨htakes, ?_⟩
  rw [← hrewrites.slot_eq, ← hvalue]
  exact hrewrites.holds.read_eq

/-- The lists of hosts of a configuration. -/
def hosts : Tree :=
  .ofNode 2 (.dict [(.text "hosts", .ofNode 1 (.list
    [.ofNode 0 (.dict [(.text "name", .ofAtom (.text "a"))])]))])

/-- Changes to some of them, each under the index of the host. -/
def hostChanges : Tree :=
  .ofNode 5 (.dict [(.text "hosts", .ofNode 4 (.dict
    [(.text "0", .ofNode 3 (.dict [(.text "port", .ofAtom (.int 80))])),
      (.text "2", .ofAtom (.text "c"))]))])

/-- A store that holds both. -/
def hostStore : Store :=
  ⟨#[.dict [(.text "name", .atom (.text "a"))], .list [.at 0], .dict [(.text "hosts", .at 1)],
    .dict [(.text "port", .atom (.int 80))],
    .dict [(.text "0", .at 3), (.text "2", .atom (.text "c"))], .dict [(.text "hosts", .at 4)]]⟩

theorem holds_hosts : hostStore.Holds hosts := by
  refine .node rfl ?_
  refine List.forall_mem_singleton.mpr (.node rfl ?_)
  refine List.forall_mem_singleton.mpr (.node rfl ?_)
  exact List.forall_mem_singleton.mpr (.atom _)

theorem holds_hostChanges : hostStore.Holds hostChanges := by
  refine .node rfl ?_
  refine List.forall_mem_singleton.mpr (.node rfl ?_)
  refine List.forall_mem_cons.mpr ⟨.node rfl ?_, List.forall_mem_singleton.mpr (.atom _)⟩
  exact List.forall_mem_singleton.mpr (.atom _)

theorem plain_hosts : hosts.value.Plain := by
  refine .node ⟨List.pairwise_singleton _ _, List.forall_mem_singleton.mpr ⟨_, rfl⟩⟩ ?_
  refine List.forall_mem_singleton.mpr (.node trivial ?_)
  refine List.forall_mem_singleton.mpr
    (.node ⟨List.pairwise_singleton _ _, List.forall_mem_singleton.mpr ⟨_, rfl⟩⟩ ?_)
  exact List.forall_mem_singleton.mpr (.atom _)

theorem plain_hostChanges : hostChanges.value.Plain := by
  refine .node ⟨List.pairwise_singleton _ _, List.forall_mem_singleton.mpr ⟨_, rfl⟩⟩ ?_
  refine List.forall_mem_singleton.mpr (.node ⟨List.pairwise_pair.mpr rfl, ?_⟩ ?_)
  · exact List.forall_mem_cons.mpr ⟨⟨_, rfl⟩, List.forall_mem_singleton.mpr ⟨_, rfl⟩⟩
  · refine List.forall_mem_cons.mpr ⟨.node ?_ ?_, List.forall_mem_singleton.mpr (.atom _)⟩
    · exact ⟨List.pairwise_singleton _ _, List.forall_mem_singleton.mpr ⟨_, rfl⟩⟩
    · exact List.forall_mem_singleton.mpr (.atom _)

section

open scoped Memory

/-- The changed host gets both fields, and the gap in front of the new one is filled. -/
theorem merge_hosts_eq_overlaidBy :
    ((merge hosts.slot hostChanges.slot).effect hostStore).1 = .ok () ∧
      ((merge hosts.slot hostChanges.slot).effect hostStore).2.read hosts.slot =
        .dict [(.text "hosts", .list
          [.dict [(.text "name", .text "a"), (.text "port", .int 80)], .null, .text "c"])] := by
  refine ⟨rfl, ?_⟩
  have hmerge := (merge_eq_overlaidBy holds_hosts holds_hostChanges (by decide) plain_hosts
    plain_hostChanges rfl rfl).1 _ rfl
  exact hmerge.2

end

/-! ## Values that are placed side by side -/

theorem exists_effect_put (v : Value) (s : Store) :
    ∃ (t : Tree) (s' : Store), (put v).effect s = (.ok t.slot, s') ∧ t.value = v ∧
      s.Extends s' [t] := by
  obtain ⟨t, s', hrun, hvalue, hextends⟩ := puts_place v s
  refine ⟨t, s', ?_, hvalue, hextends⟩
  show ((Except.ok (place v s).1 : Except Fault Slot), (place v s).2) = _
  rw [show place v s = (t.slot, s') from hrun]

theorem ends_put {E : Fault → Store → Prop} (v : Value) :
    Ends E (put v) s fun slot s' => ∃ t : Tree, slot = t.slot ∧ t.value = v ∧ s.Extends s' [t] := by
  obtain ⟨t, s', heffect, hvalue, hextends⟩ := exists_effect_put v s
  unfold Ends
  rw [heffect]
  refine ⟨nofun, ?_⟩
  rintro _ _ ⟨⟩
  exact ⟨t, rfl, hvalue, hextends⟩

end Store

/-- **Merging a value into another one**, each of them in cells of its own, gives the overlay. -/
theorem Value.merge_result_eq [Memory] {target source merged : Value} (ht : target.Plain)
    (hs : source.Plain) (htn : target.isNested = true) (hsn : source.isNested = true)
    (h : (Value.merge target [source]).result = .ok merged) :
    target.takes source = true ∧ merged = target.overlaidBy source := by
  have hends : Ends (fun fault _ => fault ≠ .bottomless)
      (do
        let t ← Store.put target
        Store.mergeAll t (← [source].mapM Store.put)
        Store.valueOf t) Store.empty
      fun v _ => target.takes source = true ∧ v = target.overlaidBy source := by
    refine (Store.ends_put target).bind ?_
    rintro _ s₁ ⟨t, rfl, rfl, ht₁⟩
    refine ((Store.ends_put source).bind
      (R := fun slots s' => ∃ t' : Tree, slots = [t'.slot] ∧ t'.value = source ∧
        s₁.Extends s' [t']) ?_).bind ?_
    · rintro _ s₂ ⟨t', rfl, hvalue, hs₂⟩
      exact ends_pure ⟨t', rfl, hvalue, hs₂⟩
    · rintro _ s₂ ⟨t', rfl, rfl, hs₂⟩
      have hboth := ht₁.append hs₂
      have hshare := hboth.nodup
      simp only [List.singleton_append, Tree.allAddresses_cons, Tree.allAddresses_nil,
        add_zero] at hshare
      have hmerge := Store.ends_merge (hboth.holds t (by simp)) (hboth.holds t' (by simp)) hshare
        ht hs htn hsn
      have hall : Ends (fun fault _ => fault ≠ .bottomless) (Store.mergeAll t.slot [t'.slot]) s₂
          fun _ s' => t.value.takes t'.value = true ∧ ∃ u, s₂.Rewrites t t'.addresses s' u ∧
            u.value = t.value.overlaidBy t'.value :=
        hmerge.bind fun _ _ hpost => ends_pure hpost
      refine hall.bind ?_
      rintro _ s₃ ⟨htakes, u, hrewrites, hvalue⟩
      refine ends_get_bind (ends_pure ⟨htakes, ?_⟩)
      rw [← hvalue, ← hrewrites.slot_eq]
      exact hrewrites.holds.read_eq
  exact hends.2 merged _ (Prod.ext h rfl)

end LooseData
