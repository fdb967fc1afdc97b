import LooseData.Proofs.Merge.Clear

set_option autoImplicit false

/-! # Merging a source that meets each place once

A merge writes to the collections that it goes into. Those are collections of the target, but what
the target holds may be a collection of a source that is being merged. That is excluded if no place of
a list in the target is met by two keys of the source (`Value.MeetsOnce`): then merging the source
stays in the collections of the target (`staysOutUpTo`).

What is merged later goes into a collection of the source where the source has put one into the target
that takes the keys of the first value to be brought there. Any other value replaces the collection.
From such values the target shields the source (`Value.Shields`): they are clear of it afterwards.
-/

namespace LooseData

open Edit

namespace Value

/-- No place of the target is met by two keys of the source, at any level that the merge of the two
goes into. -/
inductive MeetsOnce : (target source : Value) → Prop where
  | replaced {target source : Value} (h : target.joins source = false) : MeetsOnce target source
  | entered {n m : Node Value}
      (hkeys : m.fields.Pairwise fun e e' => ¬ n.SamePlace e.1 e'.1)
      (h : ∀ e ∈ m.fields, MeetsOnce (n.held e.1) e.2) : MeetsOnce (.node n) (.node m)

/-- The target shields the source from later values: wherever the source puts a value of its own
into the target, the first one that these bring there is not merged into it, but replaces it. -/
inductive Shields : (target source : Value) → (later : List Value) → Prop where
  | placed {target source : Value} {later : List Value} (hplaced : target.joins source = false)
      (h : ∀ z ∈ later.head?, source.joins z = false) : Shields target source later
  | entered {n m : Node Value} {later : List Value} (hentered : joins (.node n) (.node m) = true)
      (h : ∀ e ∈ m.fields, Shields (n.held e.1) e.2 (n.brought e.1 later)) :
      Shields (.node n) (.node m) later

variable {target source : Value} {later : List Value}

/-- What has been replaced is shielded from all that comes after. -/
example : Shields (.node (.dict []))
    (.node (.dict [(.text "a", .node (.dict [(.text "x", .int 1)]))]))
    [.node (.dict [(.text "a", .int 5)]),
      .node (.dict [(.text "a", .node (.dict [(.text "y", .int 2)]))])] :=
  .entered rfl (List.forall_mem_singleton.mpr (.placed rfl (by rintro _ ⟨⟩; rfl)))

theorem Shields.joins_eq_false (h : Shields target source later)
    (hplaced : target.joins source = false) : ∀ z ∈ later.head?, source.joins z = false := by
  cases h with
  | placed _ hlater => exact hlater
  | entered hentered _ => cases hplaced.symm.trans hentered

theorem Shields.of_entered {n m : Node Value} (h : Shields (.node n) (.node m) later)
    (hentered : joins (.node n) (.node m) = true) {e : Key × Value} (he : e ∈ m.fields) :
    Shields (n.held e.1) e.2 (n.brought e.1 later) := by
  cases h with
  | placed hplaced _ => cases hplaced.symm.trans hentered
  | entered _ hrest => exact hrest e he

theorem MeetsOnce.of_entered {n m : Node Value} (h : MeetsOnce (.node n) (.node m))
    (hentered : joins (.node n) (.node m) = true) :
    (m.fields.Pairwise fun e e' => ¬ n.SamePlace e.1 e'.1) ∧
      ∀ e ∈ m.fields, MeetsOnce (n.held e.1) e.2 := by
  cases h with
  | replaced hplaced => cases hplaced.symm.trans hentered
  | entered hkeys hrest => exact ⟨hkeys, hrest⟩

end Value

namespace Store

variable {R : Multiset Nat} {s₀ s s' : Store} {later : List Value} {address depth : Nat}

/-- Merging a source has written to collections of the target only. It takes the same keys as before,
and from it the later values that it shields the source from lead to none of the cells `R`. -/
structure MergedOnce (R : Multiset Nat) (target source : Tree) (s s' : Store) : Prop where
  plainOn : s'.PlainOn target.addresses
  frame : ∀ a, a ∉ target.addresses → s'.cells[a]? = s.cells[a]?
  joins_eq : ∀ z, s'.joins target.slot z = s.joins target.slot z
  clear : ∀ later, target.value.Shields source.value later → Clear R s' target.slot later

/-- A source that lies in the cells `R` and meets each place of the target once is merged into the
collections of the target, which are not among these cells. -/
def StaysOutUpTo [Memory] (R : Multiset Nat) (depth : Nat) : Prop :=
  ∀ (s : Store) (target source : Tree), s.Holds target → s.Holds source → s.ClosedOn R →
    target.addresses.Nodup → (∀ a ∈ target.addresses, a ∉ R) → (∀ a ∈ source.addresses, a ∈ R) →
    target.value.Plain → source.value.Plain → target.value.joins source.value = true →
    target.value.MeetsOnce source.value →
    Ensures (mergeTo depth target.slot source.slot) s fun _ s' => MergedOnce R target source s s'

/-- A collection into which a source is merged that lies in the cells `R`. The trees of its contents
share nothing, and nothing with the source. -/
structure Receives (R : Multiset Nat) (s : Store) (address : Nat) (n : Node Tree) : Prop where
  cell : s.cells[address]? = some (n.map Tree.slot)
  plain : n.Plain
  children : ∀ c ∈ n.children, s.Holds c ∧ c.value.Plain
  nodup : (Tree.ofNode address n).addresses.Nodup
  out : ∀ a ∈ (Tree.ofNode address n).addresses, a ∉ R
  closed : s.ClosedOn R

namespace Receives

variable {n : Node Tree} {k key : Key} {a : Nat}

theorem mem_allAddresses_of_mem_held (ha : a ∈ (n.held key).addresses) :
    a ∈ Tree.allAddresses n.children := by
  rcases n.held_mem key with hnull | hat
  · rw [hnull] at ha
    cases ha
  · exact Tree.mem_allAddresses.mpr ⟨_, Node.mem_children_of_at? hat, ha⟩

theorem mem_of_mem_held (ha : a ∈ (n.held key).addresses) :
    a ∈ (Tree.ofNode address n).addresses :=
  Multiset.mem_cons_of_mem (mem_allAddresses_of_mem_held ha)

theorem ne_of_mem (h : Receives R s address n) (ha : a ∈ (n.held key).addresses + R) :
    a ≠ address := by
  rintro rfl
  rcases Multiset.mem_add.mp ha with ha | ha
  · exact (Multiset.nodup_cons.mp h.nodup).1 (mem_allAddresses_of_mem_held ha)
  · exact h.out a (Multiset.mem_cons_self _ _) ha

/-- What the collection holds at one place shares nothing with what it holds at another one, nor
with the source. -/
theorem notMem_held (h : Receives R s address n) (hne : ¬ n.SamePlace k key)
    (ha : a ∈ (n.held key).addresses + R) : a ∉ (n.held k).addresses := by
  intro hin
  rcases Multiset.mem_add.mp ha with ha | ha
  · rcases n.held_mem k with hnull | hat
    · rw [hnull] at hin
      cases hin
    · obtain ⟨front, back, hbefore, hafter⟩ := Node.children_put_of_at?_eq_some hat
      -- What is held at the other place stays there when null is written here.
      rw [← Node.held_put_of_not_samePlace (v := .ofAtom .null) hne] at ha
      have hmem := mem_allAddresses_of_mem_held ha
      have hnodup := (Multiset.nodup_cons.mp h.nodup).2
      have hnull : (Tree.ofAtom .null).addresses = 0 := rfl
      rw [hafter, Tree.allAddresses_append, Tree.allAddresses_cons, hnull, zero_add,
        Multiset.mem_add] at hmem
      rw [hbefore, Tree.allAddresses_append, Tree.allAddresses_cons, Multiset.nodup_add,
        Multiset.nodup_add, Multiset.disjoint_left, Multiset.disjoint_left] at hnodup
      obtain ⟨-, ⟨-, -, hback⟩, hfront⟩ := hnodup
      rcases hmem with hmem | hmem
      · exact hfront hmem (Multiset.mem_add.mpr (.inl hin))
      · exact hback hin hmem
  · exact h.out a (mem_of_mem_held hin) ha

theorem held (h : Receives R s address n) (key : Key) :
    s.Holds (n.held key) ∧ (n.held key).value.Plain := holds_held h.children key

end Receives

/-- What the merge of some entries, each at a place of its own, has done to a collection: its cell
holds `m` now. What it holds at a place leads to what it held there and to the source only, and
nothing else has been written to. Later values lead from the places of the entries to none of the
cells `R` if the source is shielded from them there. -/
structure LaidOnce (R : Multiset Nat) (s₀ : Store) (address : Nat) (n : Node Tree)
    (done : Table Tree) (s : Store) (m : Node Slot) : Prop where
  cell : s.cells[address]? = some m
  samePlace_eq : m.SamePlace = n.SamePlace
  takes_eq : ∀ k : Node Value, m.takes k = n.takes k
  plainOn : s.PlainOn (Tree.ofNode address n).addresses
  held_eq : ∀ key, (∀ e ∈ done, ¬ n.SamePlace e.1 key) → m.held key = (n.held key).slot
  reach : ∀ key, (m.held key).In ((n.held key).addresses + R)
  closed : ∀ key, s.ClosedOn ((n.held key).addresses + R)
  frame : ∀ a, a ≠ address → (∀ e ∈ done, a ∉ (n.held e.1).addresses) →
    s.cells[a]? = s₀.cells[a]?
  clear : ∀ e ∈ done, ∀ later, (n.held e.1).value.Shields e.2.value later →
    Clear R s (m.held e.1) later

namespace LaidOnce

variable {n : Node Tree} {done : Table Tree} {m : Node Slot} {y : Tree} {name : String}

theorem refl (h : Receives R s address n) : LaidOnce R s address n [] s (n.map Tree.slot) where
  cell := h.cell
  samePlace_eq := Node.samePlace_map _ _
  takes_eq := Node.takes_map_left _ _
  plainOn := by
    refine (Holds.node h.cell fun c hc => (h.children c hc).1).plainOn ?_
    refine .node ((Node.plain_map _).mpr h.plain) ?_
    rw [Node.children_map, List.forall_mem_map]
    exact fun c hc => (h.children c hc).2
  held_eq key _ := Node.held_map Tree.slot rfl n key
  reach key := by
    rw [Node.held_map Tree.slot rfl]
    exact (h.held key).1.slot_in (Multiset.le_add_right _ _)
  closed key := (h.held key).1.closedOn.add h.closed
  frame _ _ _ := rfl
  clear _ he := by cases he

theorem plain (h : LaidOnce R s₀ address n done s m) : m.Plain :=
  h.plainOn address (Multiset.mem_cons_self _ _) m h.cell

/-- The cells of the source have not been written to, nor those at the places that are left. -/
theorem frame_of_mem (h : LaidOnce R s₀ address n done s m) (ht : Receives R s₀ address n)
    {key : Key} (hfresh : ∀ e ∈ done, ¬ n.SamePlace e.1 key) {a : Nat}
    (ha : a ∈ (n.held key).addresses + R) : s.cells[a]? = s₀.cells[a]? :=
  h.frame a (ht.ne_of_mem ha) fun e he => ht.notMem_held (hfresh e he) ha

/-- An entry has been merged into what the collection holds at a place. -/
theorem descended (h : LaidOnce R s₀ address n done s m) (ht : Receives R s₀ address n)
    (hfresh : ∀ e ∈ done, ¬ n.SamePlace e.1 (.text name))
    (hmerged : MergedOnce R (n.held (.text name)) y s s')
    (hclosed : s'.ClosedOn ((n.held (.text name)).addresses + R)) :
    LaidOnce R s₀ address n (done ++ [(.text name, y)]) s' m where
  cell := by
    refine (hmerged.frame address fun hin => ?_).trans h.cell
    exact ht.ne_of_mem (Multiset.mem_add.mpr (.inl hin)) rfl
  samePlace_eq := h.samePlace_eq
  takes_eq := h.takes_eq
  plainOn a ha k hk := by
    by_cases hin : a ∈ (n.held (.text name)).addresses
    · exact hmerged.plainOn a hin k hk
    · exact h.plainOn a ha k ((hmerged.frame a hin).symm.trans hk)
  held_eq key hnone := h.held_eq key fun e he => hnone e (List.mem_append_left _ he)
  reach := h.reach
  closed key := by
    by_cases hsame : n.SamePlace (.text name) key
    · rw [← Node.held_eq_of_samePlace hsame]
      exact hclosed
    · -- Other places lead to other cells.
      exact (h.closed key).frame fun a ha => hmerged.frame a (ht.notMem_held hsame ha)
  frame a hne hout := by
    refine (hmerged.frame a (hout (.text name, y) (by simp))).trans (h.frame a hne fun e he => ?_)
    exact hout e (List.mem_append_left _ he)
  clear e he later hshields := by
    rcases List.mem_append.mp he with he | he
    · refine (h.clear e he later hshields).frame (h.closed e.1) (h.reach e.1) fun a ha => ?_
      exact hmerged.frame a (ht.notMem_held (fun hsame => hfresh e he hsame.symm) ha)
    · obtain rfl := List.mem_singleton.mp he
      rw [h.held_eq _ hfresh]
      exact hmerged.clear later hshields

/-- The value of an entry has been written at a place. -/
theorem written (h : LaidOnce R s₀ address n done s m) (ht : Receives R s₀ address n)
    (hfresh : ∀ e ∈ done, ¬ n.SamePlace e.1 (.text name)) (hy : s.Holds y)
    (hyin : ∀ a ∈ y.addresses, a ∈ R)
    (hjoins : (n.held (.text name)).value.joins y.value = false) :
    LaidOnce R s₀ address n (done ++ [(.text name, y)])
      (s.write (.at address) (m.put (.text name) y.slot)) (m.put (.text name) y.slot) := by
  have hlt : address < s.cells.size := (Array.getElem?_eq_some_iff.mp h.cell).1
  have hframe (key : Key) (a : Nat) (ha : a ∈ (n.held key).addresses + R) :
      (s.write (.at address) (m.put (.text name) y.slot)).cells[a]? = s.cells[a]? :=
    getElem?_write_of_ne (ht.ne_of_mem ha) _
  have hother (key : Key) (hne : ¬ n.SamePlace (.text name) key) :
      (m.put (.text name) y.slot).held key = m.held key :=
    Node.held_put_of_not_samePlace (by rwa [h.samePlace_eq])
  have hself : (m.put (.text name) y.slot).held (.text name) = y.slot := h.plain.held_put_self _ _
  refine ⟨getElem?_write_self hlt _, (Node.samePlace_put _ _ _).trans h.samePlace_eq,
    fun k => (Node.takes_put _ _ _ k).trans (h.takes_eq k), h.plainOn.write (h.plain.put name _) _,
    fun key hnone => ?_, fun key => ?_, fun key => (h.closed key).frame (hframe key),
    fun a hne hout => ?_, fun e he later hshields => ?_⟩
  · rw [hother key (hnone (.text name, y) (by simp))]
    exact h.held_eq key fun e he => hnone e (List.mem_append_left _ he)
  · by_cases hsame : n.SamePlace (.text name) key
    · have hsame' : (m.put (.text name) y.slot).SamePlace (.text name) key := by
        rwa [Node.samePlace_put, h.samePlace_eq]
      rw [← Node.held_eq_of_samePlace hsame', hself]
      exact (hy.slot_in le_rfl).mono fun a ha => Multiset.mem_add.mpr (.inr (hyin a ha))
    · rw [hother key hsame]
      exact h.reach key
  · refine (getElem?_write_of_ne hne _).trans (h.frame a hne fun e he => ?_)
    exact hout e (List.mem_append_left _ he)
  · rcases List.mem_append.mp he with he | he
    · rw [hother e.1 fun hsame => hfresh e he hsame.symm]
      exact (h.clear e he later hshields).frame (h.closed e.1) (h.reach e.1) (hframe e.1)
    · obtain rfl := List.mem_singleton.mp he
      rw [hself]
      have hy' := hy.frame fun a ha =>
        hframe (.text name) a (Multiset.mem_add.mpr (.inr (hyin a ha)))
      cases later with
      | nil => exact .done
      | cons z later =>
          exact .replaced ((hy'.joins_eq z).trans (hshields.joins_eq_false hjoins z rfl))

/-- **The step of the source itself.** -/
theorem ensures_mergeEntry [Memory] (h : LaidOnce R s₀ address n done s m)
    (hrec : StaysOutUpTo R depth)
    (ht : Receives R s₀ address n) (hfresh : ∀ e ∈ done, ¬ n.SamePlace e.1 (.text name))
    (hy : s₀.Holds y) (hyplain : y.value.Plain) (hyin : ∀ a ∈ y.addresses, a ∈ R)
    (honce : (n.held (.text name)).value.MeetsOnce y.value) :
    Ensures (mergeEntry (mergeTo depth) (.at address) (.text name, y.slot)) s fun _ s' =>
      ∃ m', LaidOnce R s₀ address n (done ++ [(.text name, y)]) s' m' := by
  obtain ⟨hheld, hplain⟩ := ht.held (.text name)
  -- What the collection holds at the place, and the source, are as they were.
  have hsame (a : Nat) (ha : a ∈ (n.held (.text name)).addresses + R) :=
    h.frame_of_mem ht hfresh ha
  have hc : s.Holds (n.held (.text name)) :=
    hheld.frame fun a ha => hsame a (Multiset.mem_add.mpr (.inl ha))
  have hy' : s.Holds y := hy.frame fun a ha => hsame a (Multiset.mem_add.mpr (.inr (hyin a ha)))
  have hclosed : s.ClosedOn R :=
    ht.closed.frame fun a ha => hsame a (Multiset.mem_add.mpr (.inr ha))
  refine ends_mergeEntry_of (fun _ _ _ => trivial) h.cell h.plain ?_ hy' hyplain ?_ ?_
  · rw [h.held_eq _ hfresh]
    exact hc.plain_of_layer hplain
  · intro _ hjoins
    rw [h.held_eq _ hfresh, hc.joins_eq] at hjoins
    rw [h.held_eq _ hfresh]
    have hnodup : (n.held (.text name)).addresses.Nodup := by
      rcases n.held_mem (.text name) with hnull | hat
      · rw [hnull]
        exact Multiset.nodup_zero
      · exact Multiset.nodup_of_le (Tree.addresses_le_allAddresses (Node.mem_children_of_at? hat))
          (Multiset.nodup_cons.mp ht.nodup).2
    have hdescend := hrec s _ y hc hy' hclosed hnodup
      (fun a ha => ht.out a (Receives.mem_of_mem_held ha)) hyin hplain hyplain hjoins honce
    refine (hdescend.and_keeps (keeps_mergeTo depth (hc.slot_in (Multiset.le_add_right _ R))
      ((hy'.slot_in le_rfl).mono fun a ha => Multiset.mem_add.mpr (.inr (hyin a ha))))
      ⟨h.closed _, fun _ _ => rfl⟩).mono ?_
    rintro _ s' ⟨hmerged, hconfined⟩
    exact ⟨m, h.descended ht hfresh hmerged hconfined.closed⟩
  · intro _ hjoins
    rw [h.held_eq _ hfresh, hc.joins_eq] at hjoins
    exact ⟨_, h.written ht hfresh hy' hyin hjoins⟩

end LaidOnce

/-- **The run of the source itself**: its entries, each at a place of its own. -/
theorem ensures_mergeEntries_once [Memory] (hrec : StaysOutUpTo R depth) {n : Node Tree}
    (ht : Receives R s₀ address n) (rest : Table Tree) {done : Table Tree} {m : Node Slot}
    (h : LaidOnce R s₀ address n done s m)
    (hrest : ∀ e ∈ rest, (∃ name, e.1 = .text name) ∧ s₀.Holds e.2 ∧ e.2.value.Plain ∧
      ∀ a ∈ e.2.addresses, a ∈ R)
    (hplaces : (done ++ rest).Pairwise fun e e' => ¬ n.SamePlace e.1 e'.1)
    (honce : ∀ e ∈ rest, (n.held e.1).value.MeetsOnce e.2.value) :
    Ensures ((rest.map fun e => (Value.ofKey e.1, e.2.slot)).forM
      (mergeEntry (mergeTo depth) (.at address))) s fun _ s' => ∃ m', LaidOnce R s₀ address n (done ++ rest) s' m' := by
  induction rest generalizing done s m with
  | nil =>
      rw [List.append_nil]
      exact ends_pure ⟨m, h⟩
  | cons e rest ih =>
      obtain ⟨k, y⟩ := e
      obtain ⟨⟨⟨name, rfl⟩, hy, hyplain, hyin⟩, hlater⟩ := List.forall_mem_cons.mp hrest
      obtain ⟨honce₀, honce⟩ := List.forall_mem_cons.mp honce
      have hfresh : ∀ e ∈ done, ¬ n.SamePlace e.1 (.text name) := fun e he =>
        (List.pairwise_append.mp hplaces).2.2 e he _ List.mem_cons_self
      rw [List.append_cons] at hplaces ⊢
      rw [List.map_cons]
      refine (h.ensures_mergeEntry hrec ht hfresh hy hyplain hyin honce₀).bind ?_
      rintro _ s₁ ⟨m', h'⟩
      exact ih h' hlater hplaces honce

/-- After the whole source has been merged, the later values that it is shielded from lead to none of
the cells. -/
theorem LaidOnce.clear_target {n m : Node Tree} {m' : Node Slot}
    (h : LaidOnce R s₀ address n m.fields s m') (ht : Receives R s₀ address n)
    (hjoins : Value.joins (.node (n.map Tree.value)) (.node (m.map Tree.value)) = true)
    (hshields : Value.Shields (.node (n.map Tree.value)) (.node (m.map Tree.value)) later) :
    Clear R s (.at address) later := by
  have hheld (key : Key) : (n.map Tree.value).held key = (n.held key).value :=
    Node.held_map Tree.value rfl n key
  refine .entered h.cell (ht.out address (Multiset.mem_cons_self _ _)) fun key => ?_
  rw [Node.brought_congr h.samePlace_eq h.takes_eq]
  -- A place that the source meets as well is shielded by the entry of the source.
  by_cases hmet : ∃ e ∈ m.fields, n.SamePlace e.1 key
  · obtain ⟨e, he, hsame⟩ := hmet
    have hsame' := hsame
    rw [← h.samePlace_eq] at hsame'
    rw [← Node.held_eq_of_samePlace hsame', ← Node.brought_of_samePlace hsame]
    have hshields := hshields.of_entered (e := (e.1, e.2.value)) hjoins
      (by rw [Node.fields_map]; exact List.mem_map_of_mem he)
    rw [hheld, Node.brought_congr (Node.samePlace_map _ _) (Node.takes_map_left _ _)] at hshields
    exact h.clear e he _ hshields
  · -- What is held at any other place is a tree of the target.
    have hfresh : ∀ e ∈ m.fields, ¬ n.SamePlace e.1 key := fun e he hsame => hmet ⟨e, he, hsame⟩
    rw [h.held_eq _ hfresh]
    refine Holds.clear ?_ (fun a ha => ht.out a (Receives.mem_of_mem_held ha)) _
    exact (ht.held key).1.frame fun a ha =>
      h.frame_of_mem ht hfresh (Multiset.mem_add.mpr (.inl ha))

/-- What has been merged into takes the same keys as before. -/
theorem LaidOnce.joins_eq {n : Node Tree} {done : Table Tree} {m : Node Slot}
    (h : LaidOnce R s₀ address n done s m) (ht : Receives R s₀ address n) (z : Value) :
    s.joins (.at address) z = s₀.joins (.at address) z := by
  unfold joins
  rw [layer_at h.cell, layer_at ht.cell]
  cases z with
  | atom a => rfl
  | node k =>
      show (m.isNested && k.isNested && m.takes k) =
        ((n.map Tree.slot).isNested && k.isNested && (n.map Tree.slot).takes k)
      rw [h.plain.isNested_eq, ((Node.plain_map _).mpr ht.plain).isNested_eq, h.takes_eq,
        Node.takes_map_left]

/-- **A source that meets each place once** is merged without writing to its own collections, through
any number of levels. -/
theorem staysOutUpTo [Memory] (R : Multiset Nat) (depth : Nat) : StaysOutUpTo R depth := by
  induction depth with
  | zero =>
      intro s target source _ _ _ _ _ _ _ _ _ _
      exact ensures_fail
  | succ depth ih =>
      intro s target source ht hs hclosed hnodup hout hin htp hsp hjoins honce
      obtain ⟨htn, hsn⟩ := Bool.and_eq_true_iff.mp (Bool.and_eq_true_iff.mp hjoins).1
      obtain ⟨address, n, rfl, hn, hcell, hcontents⟩ := ht.exists_plain htp htn
      obtain ⟨address', m, rfl, hm, hcell', hchildren⟩ := hs.exists_plain hsp hsn
      obtain ⟨hplaces, honce⟩ := honce.of_entered hjoins
      rw [Node.fields_map, List.pairwise_map, Node.samePlace_map] at hplaces
      rw [Node.fields_map, List.forall_mem_map] at honce
      have hheld (key : Key) : (n.map Tree.value).held key = (n.held key).value :=
        Node.held_map Tree.value rfl n key
      have hreceives : Receives R s address n := ⟨hcell, hn, hcontents, hnodup, hout, hclosed⟩
      have hfields : ∀ e ∈ m.fields, (∃ name, e.1 = .text name) ∧ s.Holds e.2 ∧ e.2.value.Plain ∧
          ∀ a ∈ e.2.addresses, a ∈ R := by
        intro e he
        obtain ⟨name, hname, -⟩ := hm.of_mem_fields he
        have hmem := hm.mem_children_of_mem_fields he
        obtain ⟨hholds, hplain⟩ := hchildren _ hmem
        exact ⟨⟨name, hname⟩, hholds, hplain, fun a ha => hin a (Multiset.mem_cons_of_mem
          (Tree.mem_allAddresses.mpr ⟨_, hmem, ha⟩))⟩
      -- The invariant of the run over the entries starts from what the target holds at first.
      refine ends_mergeTo_of_forM (fun _ _ _ => trivial) hcell ((Node.plain_map _).mpr hn) hcell' hm ?_
      refine (ensures_mergeEntries_once ih hreceives m.fields (.refl hreceives) hfields hplaces
        fun e he => hheld e.1 ▸ honce e he).mono ?_
      rintro _ s' ⟨m', hlaid⟩
      refine ⟨hlaid.plainOn, fun a ha => ?_, hlaid.joins_eq hreceives,
        fun later => hlaid.clear_target hreceives hjoins⟩
      refine hlaid.frame a (fun heq => ha ?_) fun e _ hin => ha (Receives.mem_of_mem_held hin)
      rw [heq]
      exact Multiset.mem_cons_self _ _

end Store

end LooseData
