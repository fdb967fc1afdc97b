import LooseData.Proofs.Layer.Faults
import LooseData.Proofs.Merge.Settled

set_option autoImplicit false

/-! # Merging twice

After a merge of documents that share nothing, the target holds collections of the source, and a
second merge merges these into themselves. It still changes nothing: every entry of the source has
been settled in the target, at every level (`settlesUpTo`), and stays settled while the further
entries are merged. For these go to other places of the target, and so to other cells, since the
keys of an unambiguous source stand for different places.
-/

namespace LooseData

open Edit

namespace Store

/-- The cells of what a collection holds under a key, and the cells `R`, in which a source lies. -/
def reach (R : Multiset Nat) (n : Node Tree) (k : Key) : Set Nat :=
  {x | x ∈ R ∨ ∃ c : Tree, (Layer.node n).lookup (.ofKey k) = .ok (some c) ∧ x ∈ c.addresses}

variable {R : Multiset Nat} {s₀ s s' : Store} {a depth x : Nat} {n : Node Tree} {m m' : Node Slot}
  {k k' : Key} {c y : Tree} {done rest : Table Tree} {name : String}

/-! ## Places of a collection -/

theorem Stored.mem_of_lookup (ht : s.Stored a n) (hk : k.IsTextOrInt)
    (hlookup : (Layer.node n).lookup (.ofKey k) = .ok (some c)) (hx : x ∈ c.addresses) :
    x ∈ Tree.allAddresses n.children :=
  Tree.mem_allAddresses.mpr
    ⟨c, Layer.mem_children_of_lookup ht.unambiguous.textual hk hlookup, hx⟩

theorem Stored.reach_subset (ht : s.Stored a n) (hk : k.IsTextOrInt) :
    reach R n k ⊆ {x | x ∈ (Tree.ofNode a n).addresses + R} := by
  rintro x (hx | ⟨c, hlookup, hx⟩)
  · exact Multiset.mem_add.mpr (.inr hx)
  · exact Multiset.mem_add.mpr (.inl (Multiset.mem_cons_of_mem (ht.mem_of_lookup hk hlookup hx)))

section

variable (ht : s.Stored a n) (hshare : ((Tree.ofNode a n).addresses + R).Nodup)

include ht hshare

theorem Stored.ne_of_mem_reach (hk : k.IsTextOrInt) (hx : x ∈ reach R n k) : x ≠ a := by
  rintro rfl
  rcases hx with hx | ⟨c, hlookup, hx⟩
  · exact Multiset.disjoint_left.mp (Multiset.nodup_add.mp hshare).2.2
      (Multiset.mem_cons_self _ _) hx
  · exact (Multiset.nodup_cons.mp (Multiset.nodup_add.mp hshare).1).1
      (ht.mem_of_lookup hk hlookup hx)

/-- What the collection holds at another place shares nothing with what it holds here. -/
theorem Stored.notMem_of_apart (hk : k.IsTextOrInt) (hk' : k'.IsTextOrInt) (hapart : k.Apart k')
    (hlookup : (Layer.node n).lookup (.ofKey k) = .ok (some c)) (hx : x ∈ reach R n k') :
    x ∉ c.addresses := by
  intro hxc
  rcases hx with hx | ⟨c', hlookup', hx⟩
  · exact Multiset.disjoint_left.mp (Multiset.nodup_add.mp hshare).2.2
      (Multiset.mem_cons_of_mem (ht.mem_of_lookup hk hlookup hxc)) hx
  · obtain ⟨front, back, hsplit, hothers⟩ :=
      Layer.exists_split_of_lookup ht.unambiguous.textual hk hlookup
    have hnodup := (Multiset.nodup_cons.mp (Multiset.nodup_add.mp hshare).1).2
    rw [hsplit, Tree.allAddresses_append, Tree.allAddresses_cons, Multiset.nodup_add,
      Multiset.nodup_add, Multiset.disjoint_left, Multiset.disjoint_left] at hnodup
    obtain ⟨-, ⟨-, -, hback⟩, hfront⟩ := hnodup
    rcases List.mem_append.mp (hothers k' c' hk' hapart hlookup') with hmem | hmem
    · exact hfront (Tree.mem_allAddresses.mpr ⟨c', hmem, hx⟩) (Multiset.mem_add.mpr (.inl hxc))
    · exact hback hxc (Tree.mem_allAddresses.mpr ⟨c', hmem, hx⟩)

end

/-! ## The steps of a merge -/

/-- What the merge of the entries `done` has done to a collection: its cell holds `m` now. The
entries are settled there. What refers to a cell at the other places has been there from the start,
and no cells but those at the places of the entries have been written to. -/
structure Settling (R : Multiset Nat) (s₀ : Store) (a : Nat) (n : Node Tree) (done : Table Tree)
    (s : Store) (m : Node Slot) : Prop where
  cell : s.cells[a]? = some m
  mergeable_eq : ∀ l, Layer.mergeable (.node m) l = Layer.mergeable (.node (n.map Tree.slot)) l
  textual : m.Textual
  texts : ∀ e ∈ done, e.1.IsTextOrInt
  found : ∀ k : Key, k.IsTextOrInt → (∀ e ∈ done, e.1.Apart k) → ∀ x,
    (Layer.node m).lookup (.ofKey k) = .ok (some (.at x)) →
      ∃ c : Tree, (Layer.node n).lookup (.ofKey k) = .ok (some c) ∧ c.slot = .at x
  frame : ∀ x, x ≠ a → (∀ e ∈ done, ∀ c : Tree,
      (Layer.node n).lookup (.ofKey e.1) = .ok (some c) → x ∉ c.addresses) →
    s.cells[x]? = s₀.cells[x]?
  settled : ∀ e ∈ done, Settled (reach R n e.1) s m (e.1, e.2.slot)

/-- A merge of unambiguous collections that share nothing, through `depth` levels, settles all
entries of the source in the target. -/
def SettlesUpTo [Memory] (depth : Nat) : Prop :=
  ∀ (s s' : Store) (a b : Nat) (n m : Node Tree), s.Stored a n → s.Stored b m →
    ((Tree.ofNode a n).addresses + (Tree.ofNode b m).addresses).Nodup →
    (mergeTo depth (.at a) (.at b)).effect s = (.ok (), s') →
    ∃ n', Settling (Tree.ofNode b m).addresses s a n m.offers s' n'

/-- A write does not change what a collection is merged with. -/
theorem mergeable_of_assign [Memory] {v : Slot} (hm : m.Textual) (hk : k.IsTextOrInt)
    (hwrite : ((Layer.node m).assign (.ofKey k) v).result = .ok m') (l : Layer Slot) :
    Layer.mergeable (.node m') l = Layer.mergeable (.node m) l := by
  rcases (Layer.assign_eq_ok_iff hm hk).mp hwrite with
    ⟨entries, rfl, rfl⟩ | ⟨items, i, rfl, -, -, rfl⟩
  · rfl
  · rfl

theorem lookup_of_access {l : Layer Slot} {key : Value} (h : l.access key = .ok (.at x)) :
    l.lookup key = .ok (some (.at x)) := by
  unfold Layer.access at h
  dsimp only at h
  split at h
  · cases h
  · obtain ⟨found, hfound, h⟩ := Except.map_eq_ok_iff.mp h
    cases found with
    | none => cases h
    | some v =>
        obtain rfl : v = .at x := h
        exact hfound

namespace Settling

theorem refl (ht : s.Stored a n) : Settling R s a n [] s (n.map Tree.slot) where
  cell := ht.cell
  mergeable_eq _ := rfl
  textual := ht.slots.textual
  texts := nofun
  found _ hk _ _ hlookup := (Layer.lookup_map_eq_some_iff ht.unambiguous.textual hk).mp hlookup
  frame _ _ _ := rfl
  settled := nofun

/-- Cells besides those of the collection have not been written to. -/
theorem frame_of_notMem (ht : s₀.Stored a n) (h : Settling R s₀ a n done s m)
    (hx : x ∉ (Tree.ofNode a n).addresses) : s.cells[x]? = s₀.cells[x]? := by
  rw [Tree.addresses_ofNode, Multiset.mem_cons, not_or] at hx
  exact h.frame x hx.1 fun e he c hlookup hxc =>
    hx.2 (ht.mem_of_lookup (h.texts e he) hlookup hxc)

section

variable (ht : s₀.Stored a n) (hshare : ((Tree.ofNode a n).addresses + R).Nodup)
  (h : Settling R s₀ a n done s m) (hfresh : ∀ e ∈ done, e.1.Apart (.text name))

include ht hshare h hfresh

/-- What lies at a place that is left has not been written to, nor has the source. -/
theorem frame_of_mem (hx : x ∈ reach R n (.text name)) : s.cells[x]? = s₀.cells[x]? :=
  h.frame x (ht.ne_of_mem_reach hshare (Key.isTextOrInt_text name) hx) fun e he _ hlookup =>
    ht.notMem_of_apart hshare (h.texts e he) (Key.isTextOrInt_text name) (hfresh e he) hlookup hx

/-- An entry has been merged into what the collection holds at its place. -/
theorem descended (hlookup : (Layer.node n).lookup (.text name) = .ok (some c))
    (hframe : ∀ x ∉ c.addresses, s'.cells[x]? = s.cells[x]?)
    (hnew : Settled (reach R n (.text name)) s' m (.text name, y.slot)) :
    Settling R s₀ a n (done ++ [(.text name, y)]) s' m where
  cell := by
    refine (hframe a fun hin => ?_).trans h.cell
    exact ht.ne_of_mem_reach hshare (Key.isTextOrInt_text name) (.inr ⟨c, hlookup, hin⟩) rfl
  mergeable_eq := h.mergeable_eq
  textual := h.textual
  texts := List.forall_mem_append.mpr ⟨h.texts, List.forall_mem_singleton.mpr trivial⟩
  found k hk hall := h.found k hk fun e he => hall e (List.mem_append_left _ he)
  frame x hne hout := by
    have hx : x ∉ c.addresses := hout (.text name, y) (by simp) c hlookup
    exact (hframe x hx).trans (h.frame x hne fun e he => hout e (List.mem_append_left _ he))
  settled := by
    refine List.forall_mem_append.mpr ⟨fun e he => ?_, List.forall_mem_singleton.mpr hnew⟩
    refine (h.settled e he).frame fun x hx => hframe x ?_
    exact ht.notMem_of_apart hshare (Key.isTextOrInt_text name) (h.texts e he)
      (hfresh e he).symm hlookup hx

/-- The value of an entry has been written at its place. -/
theorem written [Memory] (hwrite : ((Layer.node m).assign (.text name) y.slot).result = .ok m')
    (hnew : Settled (reach R n (.text name)) (s.write (.at a) m') m' (.text name, y.slot)) :
    Settling R s₀ a n (done ++ [(.text name, y)]) (s.write (.at a) m') m' where
  cell := getElem?_write_self (Array.getElem?_eq_some_iff.mp h.cell).1 _
  mergeable_eq l :=
    (mergeable_of_assign h.textual (Key.isTextOrInt_text name) hwrite l).trans (h.mergeable_eq l)
  textual := Layer.textual_of_assign h.textual hwrite
  texts := List.forall_mem_append.mpr ⟨h.texts, List.forall_mem_singleton.mpr trivial⟩
  found k hk hall x hlookup := by
    have hapart : (Key.text name).Apart k := hall (.text name, y) (by simp)
    have hafter := Layer.textual_of_assign h.textual hwrite
    have hbefore := Layer.lookup_of_lookup_assign h.textual hafter (Key.isTextOrInt_text name) hk
      hapart hwrite hlookup
    refine h.found k hk (fun e he => hall e (List.mem_append_left _ he)) x (hbefore.resolve_left ?_)
    nofun
  frame x hne hout := by
    refine (getElem?_write_of_ne hne _).trans (h.frame x hne fun e he => ?_)
    exact hout e (List.mem_append_left _ he)
  settled := by
    refine List.forall_mem_append.mpr ⟨fun e he => ?_, List.forall_mem_singleton.mpr hnew⟩
    have hframe : Settled (reach R n e.1) (s.write (.at a) m') m (e.1, e.2.slot) :=
      (h.settled e he).frame fun x hx =>
        getElem?_write_of_ne (ht.ne_of_mem_reach hshare (h.texts e he) hx) _
    refine hframe.of_lookup (Layer.textual_of_assign h.textual hwrite)
      (Layer.kind_of_assign hwrite) fun c hlookup => ?_
    exact Layer.lookup_assign_of_apart h.textual (Layer.textual_of_assign h.textual hwrite)
      (Key.isTextOrInt_text name) (h.texts e he) (hfresh e he).symm hwrite hlookup

/-- What the collection holds at the place of an entry takes the entries of its value. -/
theorem entered [Memory] (hrec : SettlesUpTo depth) (hy : s.Holds y) (hyvalue : y.value.Unambiguous)
    (hyle : y.addresses ≤ R) {b : Nat} (hslot : y.slot = .at b)
    (hfound : (Layer.node m).lookup (.text name) = .ok (some (.at x)))
    (hmerged : Layer.mergeable (s.layer (.at x)) (s.layer (.at b)) = .ok true)
    (hrun : (mergeTo depth (.at x) (.at b)).effect s = (.ok (), s')) :
    Settling R s₀ a n (done ++ [(.text name, y)]) s' m := by
  have hk := Key.isTextOrInt_text name
  obtain ⟨c, hc, hcslot⟩ := h.found (.text name) hk hfresh x hfound
  have hmem := Layer.mem_children_of_lookup ht.unambiguous.textual hk hc
  have hcs : s.Holds c := (ht.children c hmem).frame fun x hx =>
    h.frame_of_mem ht hshare hfresh (.inr ⟨c, hc, hx⟩)
  obtain ⟨nc, rfl, hstored⟩ := hcs.exists_stored (ht.value_of_mem hmem) hcslot
  obtain ⟨my, rfl, hys⟩ := hy.exists_stored hyvalue hslot
  have hcle : (Tree.ofNode x nc).addresses ≤ (Tree.ofNode a n).addresses :=
    (Tree.addresses_le_allAddresses hmem).trans (Multiset.le_cons_self _ a)
  have hnodup := Multiset.nodup_of_le (add_le_add hcle hyle) hshare
  obtain ⟨n', hsettling⟩ := hrec s s' x b nc my hstored hys hnodup hrun
  have hframe (z : Nat) (hz : z ∉ (Tree.ofNode x nc).addresses) : s'.cells[z]? = s.cells[z]? :=
    hsettling.frame_of_notMem hstored hz
  refine h.descended ht hshare hfresh hc hframe ?_
  have hb : b ∈ (Tree.ofNode b my).addresses := Multiset.mem_cons_self _ _
  have hbout : b ∉ (Tree.ofNode x nc).addresses := fun hin =>
    Multiset.disjoint_left.mp (Multiset.nodup_add.mp hnodup).2.2 hin hb
  have hx : x ∈ reach R n (.text name) := .inr ⟨_, hc, Multiset.mem_cons_self _ _⟩
  have hbR : b ∈ reach R n (.text name) := .inl (Multiset.mem_of_le hyle hb)
  refine .merged hfound hx hbR hsettling.cell ((hframe b hbout).trans hys.cell) ?_ fun e he => ?_
  · rw [layer_at hstored.cell, layer_at hys.cell] at hmerged
    exact (hsettling.mergeable_eq _).trans hmerged
  · -- The cells that the entries below reach are at the place of the entry, or in the source.
    rw [Node.offers_map] at he
    obtain ⟨e, hoffered, rfl⟩ := List.mem_map.mp he
    refine (hsettling.settled e hoffered).mono fun z hz => ?_
    rcases Multiset.mem_add.mp (hstored.reach_subset (hsettling.texts e hoffered) hz) with hz | hz
    · exact .inr ⟨_, hc, hz⟩
    · exact .inl (Multiset.mem_of_le hyle hz)

/-- **The step of a merge**: the next entry is settled, too. -/
theorem mergeEntry [Memory] (hrec : SettlesUpTo depth) (hy : s₀.Holds y)
    (hyvalue : y.value.Unambiguous)
    (hyle : y.addresses ≤ R)
    (hrun : (mergeEntry (mergeTo depth) (.at a) (.text name, y.slot)).effect s = (.ok (), s')) :
    ∃ m', Settling R s₀ a n (done ++ [(.text name, y)]) s' m' := by
  have hk := Key.isTextOrInt_text name
  have hyin {x : Nat} (hx : x ∈ y.addresses) : x ∈ reach R n (.text name) :=
    .inl (Multiset.mem_of_le hyle hx)
  have hsame {x : Nat} (hx : x ∈ reach R n (.text name)) : s.cells[x]? = s₀.cells[x]? :=
    h.frame_of_mem ht hshare hfresh hx
  have hys : s.Holds y := hy.frame fun x hx => hsame (hyin hx)
  have hlayer : s.layer (.at a) = .node m := layer_at h.cell
  obtain ⟨current, haccess, ⟨hmergeable, hrun⟩ | ⟨-, hrun⟩⟩ := exists_of_effect_mergeEntry hrun
  · -- Both are collections, so what is held at the place was there from the start.
    obtain ⟨hcurrent, hynested, haccepts⟩ := mergeable_eq_ok_true_iff.mp hmergeable
    obtain ⟨x, rfl⟩ : ∃ x, current = .at x := by
      cases current with
      | atom _ => cases hcurrent
      | «at» x => exact ⟨x, rfl⟩
    obtain ⟨b, hslot⟩ : ∃ b, y.slot = .at b := by
      cases hys with
      | atom _ => cases hynested
      | node _ _ => exact ⟨_, rfl⟩
    have hfound : (Layer.node m).lookup (.text name) = .ok (some (.at x)) := by
      rw [hlayer] at haccess
      exact lookup_of_access haccess
    rw [hslot] at hmergeable hrun
    exact ⟨m, h.entered ht hshare hfresh hrec hys hyvalue hyle hslot hfound hmergeable hrun⟩
  · obtain ⟨m', hwrite, rfl⟩ := exists_of_effect_assign hrun
    rw [hlayer] at hwrite
    -- What is merged into the value from now on is the value itself, which is settled.
    refine ⟨m', h.written ht hshare hfresh hwrite ?_⟩
    have htakes := Layer.takes_of_assign h.textual hk hwrite
    have hlookup := Layer.lookup_of_assign hk htakes (fun _ heq => ?_) hwrite
    · refine Holds.settled ?_ hyvalue (Layer.textual_of_assign h.textual hwrite)
        (htakes.of_kind (Layer.kind_of_assign hwrite)) hlookup fun x hx => hyin hx
      exact hys.frame fun x hx =>
        getElem?_write_of_ne (ht.ne_of_mem_reach hshare hk (hyin hx)) _
    · obtain rfl := Layer.node.inj heq
      exact h.textual.elim

end

/-- **The run of a merge** settles one entry after another. -/
theorem run [Memory] (ht : s₀.Stored a n) (hshare : ((Tree.ofNode a n).addresses + R).Nodup)
    (hrec : SettlesUpTo depth) (h : Settling R s₀ a n done s m)
    (hrest : ∀ e ∈ rest, (∃ name, e.1 = .text name) ∧ s₀.Holds e.2 ∧ e.2.value.Unambiguous ∧
      e.2.addresses ≤ R)
    (hapart : (done ++ rest).Pairwise fun e e' => e.1.Apart e'.1)
    (hrun : (mergeRest depth a rest).effect s = (.ok (), s')) :
    ∃ m', Settling R s₀ a n (done ++ rest) s' m' := by
  induction rest generalizing s m done with
  | nil =>
      obtain rfl : s = s' := congrArg Prod.snd hrun
      rw [List.append_nil]
      exact ⟨m, h⟩
  | cons e rest ih =>
      obtain ⟨k, y⟩ := e
      obtain ⟨⟨⟨name, hname⟩, hy, hyvalue, hyle⟩, hlater⟩ := List.forall_mem_cons.mp hrest
      obtain rfl : k = .text name := hname
      obtain ⟨_, s₁, hfirst, hlast⟩ := exists_of_effect_bind_eq_ok hrun
      have hfresh : ∀ e ∈ done, e.1.Apart (.text name) := fun e he =>
        (List.pairwise_append.mp hapart).2.2 e he _ List.mem_cons_self
      obtain ⟨m₁, h₁⟩ := h.mergeEntry ht hshare hfresh hrec hy hyvalue hyle hfirst
      rw [List.append_cons] at hapart ⊢
      exact ih h₁ hlater hapart hlast

end Settling

/-! ## Whole merges -/

/-- **A merge settles the whole source**, through any number of levels. -/
theorem settlesUpTo [Memory] (depth : Nat) : SettlesUpTo depth := by
  induction depth with
  | zero =>
      intro s s' a b n m _ _ _ hrun
      cases hrun
  | succ depth ih =>
      intro s s' a b n m ht hs hshare hrun
      rw [effect_mergeTo_ofNode ht.cell ht.slots.isNested_eq hs] at hrun
      refine Settling.run ht hshare ih (.refl ht) (fun e he => ?_) hs.unambiguous.offers_apart hrun
      have hmem := hs.unambiguous.mem_children_of_mem_offers he
      exact ⟨hs.unambiguous.exists_text he, hs.children _ hmem, hs.value_of_mem hmem,
        (Tree.addresses_le_allAddresses hmem).trans (Multiset.le_cons_self _ b)⟩

theorem effect_merge [Memory] (target source : Slot) (s : Store) :
    (merge target source).effect s = (mergeTo (s.cells.size + 1) target source).effect s :=
  effect_bind_ok (effect_get s) _

/-- **Merging again changes nothing.** Let the target and the source be unambiguous collections that
share no collection. If merging the source into the target ends without a fault, merging it once
more does so as well, and leaves the target, and all the store, as it is. -/
theorem merge_idempotent [Memory] {target source : Tree} (ht : s.Holds target) (hs : s.Holds source)
    (hshare : (target.addresses + source.addresses).Nodup) (htarget : target.value.Unambiguous)
    (hsource : source.value.Unambiguous) (htn : target.value.isNested = true)
    (hsn : source.value.isNested = true)
    (hrun : (merge target.slot source.slot).effect s = (.ok (), s')) :
    (merge target.slot source.slot).effect s' = (.ok (), s') := by
  cases ht with
  | atom _ => cases htn
  | @node a n hcell hchildren =>
      cases hs with
      | atom _ => cases hsn
      | @node b m hcell' hchildren' =>
          have ht : s.Stored a n := ⟨hcell, hchildren, htarget⟩
          have hs : s.Stored b m := ⟨hcell', hchildren', hsource⟩
          rw [effect_merge] at hrun ⊢
          obtain ⟨n', hsettling⟩ := settlesUpTo _ s s' a b n m ht hs hshare hrun
          have hs' : s'.Stored b m := hs.frame fun x hx => hsettling.frame_of_notMem ht fun hin =>
            Multiset.disjoint_left.mp (Multiset.nodup_add.mp hshare).2.2 hin hx
          exact effect_mergeTo_of_settled hsettling.cell hsettling.textual.isNested_eq hs'
            (Nat.lt_succ_of_le hs'.holds.size_le) fun e he => ⟨_, hsettling.settled e he⟩

/-- Settings with a level and a list of hosts. -/
def settings : Tree :=
  .ofNode 1 (.dict [(.text "log", .ofAtom (.text "info")),
    (.text "hosts", .ofNode 0 (.list [.ofAtom (.text "a")]))])

/-- Changes that put a dictionary in the place of the level, and a tuple behind the hosts. -/
def changes : Tree :=
  .ofNode 5 (.dict [(.text "log", .ofNode 2 (.dict [(.text "level", .ofAtom (.text "debug"))])),
    (.text "hosts", .ofNode 4 (.dict [(.text "1", .ofNode 3 (.tuple [.ofAtom (.text "b")]))]))])

/-- A store that holds both. -/
def settingsStore : Store :=
  ⟨#[.list [.atom (.text "a")], .dict [(.text "log", .atom (.text "info")), (.text "hosts", .at 0)],
    .dict [(.text "level", .atom (.text "debug"))], .tuple [.atom (.text "b")],
    .dict [(.text "1", .at 3)], .dict [(.text "log", .at 2), (.text "hosts", .at 4)]]⟩

theorem holds_settings : settingsStore.Holds settings := by
  refine .node rfl (List.forall_mem_cons.mpr ⟨.atom _, List.forall_mem_singleton.mpr ?_⟩)
  exact .node rfl (List.forall_mem_singleton.mpr (.atom _))

theorem holds_changes : settingsStore.Holds changes := by
  refine .node rfl (List.forall_mem_cons.mpr ⟨.node rfl ?_, List.forall_mem_singleton.mpr ?_⟩)
  · exact List.forall_mem_singleton.mpr (.atom _)
  · refine .node rfl (List.forall_mem_singleton.mpr ?_)
    exact .node rfl (List.forall_mem_singleton.mpr (.atom _))

/-- A dictionary with one key cannot be ambiguous. -/
theorem unambiguous_singleton {α : Type} (name : String) (v : α) :
    (Node.dict [(Key.text name, v)]).Unambiguous :=
  ⟨List.forall_mem_singleton.mpr ⟨name, rfl⟩, List.pairwise_singleton _ _⟩

theorem unambiguous_logAndHosts {α : Type} (v w : α) :
    (Node.dict [(Key.text "log", v), (Key.text "hosts", w)]).Unambiguous := by
  refine ⟨List.forall_mem_cons.mpr ⟨⟨_, rfl⟩, List.forall_mem_singleton.mpr ⟨_, rfl⟩⟩, ?_⟩
  exact List.pairwise_pair.mpr ⟨rfl, nofun⟩

theorem one_le_maxLength : 1 ≤ maxLength := by decide

theorem unambiguous_settings : settings.value.Unambiguous := by
  refine .node (unambiguous_logAndHosts _ _) ?_
  refine List.forall_mem_cons.mpr ⟨.atom _, List.forall_mem_singleton.mpr ?_⟩
  exact .node one_le_maxLength (List.forall_mem_singleton.mpr (.atom _))

theorem unambiguous_changes : changes.value.Unambiguous := by
  refine .node (unambiguous_logAndHosts _ _) ?_
  refine List.forall_mem_cons.mpr ⟨.node (unambiguous_singleton _ _) ?_,
    List.forall_mem_singleton.mpr (.node (unambiguous_singleton _ _) ?_)⟩
  · exact List.forall_mem_singleton.mpr (.atom _)
  · refine List.forall_mem_singleton.mpr (.node one_le_maxLength ?_)
    exact List.forall_mem_singleton.mpr (.atom _)

section

open scoped Memory

/-- The second time the dictionary is merged into itself, and the tuple replaces itself. -/
theorem merge_changes_again : ∃ s', (merge settings.slot changes.slot).effect settingsStore =
    (.ok (), s') ∧ (merge settings.slot changes.slot).effect s' = (.ok (), s') := by
  have hrun : (merge settings.slot changes.slot).effect settingsStore =
      (.ok (), ((merge settings.slot changes.slot).effect settingsStore).2) := Prod.ext rfl rfl
  exact ⟨_, hrun, merge_idempotent holds_settings holds_changes (by decide) unambiguous_settings
    unambiguous_changes rfl rfl hrun⟩

end

end Store

end LooseData
