import LooseData.Proofs.Layer.Ordinary
import LooseData.Proofs.Merge.Guarded

set_option autoImplicit false

/-! # What can stop a merge of ordinary values

Where ordinary values share no collection with the target or among each other, a merge of them does
not go down without end, and the key that stops it (`Store.StopsAt`) belongs to one of them.

The sources are trees that have not been touched when their turn comes, since a merge changes only
the cells of a region: those of the target and of what has been merged already. The region grows by
each entry that is merged, and no cell in it changes its kind (`Changed`).
-/

namespace LooseData

open Edit

namespace Store

/-! ## Regions of a merge -/

/-- Only cells of the region have changed, and none of them its kind. The region is still closed. -/
structure Changed (region : Multiset Nat) (s₀ s : Store) : Prop where
  confined : Confined region s₀ s
  kinds_eq : s.kinds = s₀.kinds

/-- The region is closed, and a caseless map is in it only where `caseless` says so. -/
structure Covers (caseless : Prop) (region : Multiset Nat) (s : Store) : Prop where
  closed : s.ClosedOn region
  caseless_of : ∀ a ∈ region, ∀ m, s.cells[a]? = some (.caseless m) → caseless

/-- A source that is still to be merged: an ordinary value in its cells. Its keys are among those
that are `offered`, and there are caseless maps in it only where `caseless` says so. -/
structure Sends (caseless : Prop) (offered : Value → Prop) (s : Store) (t : Tree) : Prop where
  holds : s.Holds t
  ordinary : t.value.Ordinary
  offered_of : ∀ key, t.value.HasKey key → offered key
  caseless_of : t.value.HasCaseless → caseless

variable {caseless : Prop} {offered : Value → Prop} {region region' : Multiset Nat}
  {s s₁ s' : Store} {t y : Tree}

theorem Changed.refl (h : s.ClosedOn region) : Changed region s s := ⟨⟨h, fun _ _ => rfl⟩, rfl⟩

theorem keeps_changed_mergeEntry [Memory] (depth : Nat) {target value : Slot}
    (htarget : target.In region) (hvalue : value.In region) (key : Value) :
    Keeps (Changed region s₁) (mergeEntry (mergeTo depth) target (key, value)) := by
  have hconfined : Keeps (Confined region s₁) (mergeEntry (mergeTo depth) target (key, value)) :=
    keeps_mergeEntry (keeps_mergeTo depth) htarget hvalue key
  have hkinds := keeps_kinds_mergeEntry s₁.kinds depth target (key, value)
  exact fun s hs => ⟨hconfined s hs.confined, hkinds s hs.kinds_eq⟩

theorem keeps_changed_mergeTo [Memory] (depth : Nat) {target source : Slot}
    (htarget : target.In region) (hsource : source.In region) :
    Keeps (Changed region s₁) (mergeTo depth target source) := by
  have hkinds := keeps_mergeTo_of_assign (keeps_kinds_assign s₁.kinds) depth target source
  exact fun s hs => ⟨keeps_mergeTo depth htarget hsource s hs.confined, hkinds s hs.kinds_eq⟩

theorem Covers.of_changed (h : s.Covers caseless region) (hchanged : Changed region s s') :
    s'.Covers caseless region := by
  refine ⟨hchanged.confined.closed, fun a ha m hcell => ?_⟩
  obtain ⟨n₀, hcell₀, hkind⟩ := exists_cell_of_kinds hchanged.kinds_eq hcell
  cases n₀ with
  | caseless m₀ => exact h.caseless_of a ha m₀ hcell₀
  | _ => simp [Node.kind] at hkind

/-! ## Sources in their cells -/

/-- A caseless map in a cell of a tree is one in its value. -/
theorem Holds.hasCaseless (h : s.Holds t) {a : Nat} (ha : a ∈ t.addresses)
    {m : CaselessMap Slot} (hcell : s.cells[a]? = some (.caseless m)) : t.value.HasCaseless := by
  induction h with
  | atom _ => cases ha
  | @node address n hroot hchildren ih =>
      rcases Multiset.mem_cons.mp ha with rfl | ha
      · have hn : n.map Tree.slot = .caseless m := Option.some.inj (hroot.symm.trans hcell)
        cases n with
        | caseless m => exact .here ⟨_, rfl⟩
        | _ => cases hn
      · obtain ⟨c, hc, ha⟩ := Tree.mem_allAddresses.mp ha
        refine .inside ?_ (ih c hc ha)
        rw [Node.children_map]
        exact List.mem_map_of_mem hc

theorem Sends.frame (h : s.Sends caseless offered t)
    (hcells : ∀ a ∈ t.addresses, s'.cells[a]? = s.cells[a]?) : s'.Sends caseless offered t :=
  ⟨h.holds.frame hcells, h.ordinary, h.offered_of, h.caseless_of⟩

/-- A nested source and what it sends: its contents are sources too. -/
theorem Sends.exists_node (h : s.Sends caseless offered t)
    (hnested : (s.layer t.slot).isNested = true) :
    ∃ address n, t = .ofNode address n ∧ n.Ordinary ∧
      s.cells[address]? = some (n.map Tree.slot) ∧
      (∀ key ∈ (Layer.node (n.map Tree.slot)).ownKeys, offered key) ∧
      ∀ c ∈ n.children, s.Sends caseless offered c := by
  obtain ⟨hholds, hordinary, hoffered, hcaseless⟩ := h
  cases hholds with
  | atom a => cases hnested
  | @node address n hcell hchildren =>
      cases hordinary with
      | node hn hvalues =>
          refine ⟨address, n, rfl, Node.ordinary_map.mp hn, hcell, fun key hkey => ?_, fun c hc => ?_⟩
          · have hslots : (Layer.node (n.map Tree.slot)).ownKeys = (Layer.node n).ownKeys :=
              Layer.ownKeys_map (fun _ => rfl) (.node n)
            have hvalues : (Layer.node (n.map Tree.value)).ownKeys = (Layer.node n).ownKeys :=
              Layer.ownKeys_map (fun _ => rfl) (.node n)
            refine hoffered key (.here ?_)
            show key ∈ (Layer.node (n.map Tree.value)).ownKeys
            rwa [hvalues, ← hslots]
          · have hmem : c.value ∈ (n.map Tree.value).children := by
              rw [Node.children_map]
              exact List.mem_map_of_mem hc
            exact ⟨hchildren c hc, hvalues _ hmem, fun key hkey => hoffered key (.inside hmem hkey),
              fun h => hcaseless (.inside hmem h)⟩

/-- The region grows by a source that has been merged. -/
theorem Covers.add (h : s.Covers caseless region) (hy : s.Sends caseless offered y) :
    s.Covers caseless (region + y.addresses) := by
  refine ⟨h.closed.add hy.holds.closedOn, fun a ha m hcell => ?_⟩
  rcases Multiset.mem_add.mp ha with ha | ha
  · exact h.caseless_of a ha m hcell
  · exact hy.caseless_of (hy.holds.hasCaseless ha hcell)

/-- The keys of a nested source are among those that are offered. -/
theorem Sends.offered_of_ownKeys (hy : s.Sends caseless offered y)
    (hnested : (s.layer y.slot).isNested = true) :
    ∀ key ∈ (s.layer y.slot).ownKeys, offered key := by
  obtain ⟨address, n, rfl, -, hcell, hoffered, -⟩ := hy.exists_node hnested
  rwa [layer_ofNode hcell]

/-- There are caseless maps among the sources only where `caseless` says so. -/
theorem Sends.caseless_of_layer (hy : s.Sends caseless offered y)
    (h : ∃ m, s.layer y.slot = .node (.caseless m)) : caseless := by
  obtain ⟨m, hm⟩ := h
  obtain ⟨address, n, rfl, -, hcell, -, -⟩ := hy.exists_node (by rw [hm]; rfl)
  rw [layer_ofNode hcell] at hm
  refine hy.caseless_of (hy.holds.hasCaseless (a := address) ?_
    (hcell.trans (congrArg some (Layer.node.inj hm))))
  rw [Tree.addresses_ofNode]
  exact Multiset.mem_cons_self address _

/-! ## One entry -/

/-- A merge has stopped at a key that is offered. A caseless map stands in its way only where
`caseless` says that there are some. -/
def Blocked [Memory] (caseless : Prop) (offered : Value → Prop) (fault : Fault) (s : Store) :
    Prop :=
  ∃ level key, offered key ∧ s.StopsAt level key fault ∧
    ((∃ m, s.layer level = .node (.caseless m)) → caseless)

/-- Merges through `depth` levels, into a region that the source does not share, can only be
blocked by a key. Where both are nested the target takes the keys of the source. -/
def SafeUpTo [Memory] (caseless : Prop) (offered : Value → Prop) (depth : Nat) : Prop :=
  ∀ (s : Store) (region : Multiset Nat) (target : Slot) (source : Tree),
    s.Covers caseless region → target.In region → s.Sends caseless offered source →
    (region + source.addresses).Nodup → source.size < depth →
    ((s.layer target).isNested = true → (s.layer source.slot).isNested = true →
      ∀ key ∈ (s.layer source.slot).ownKeys, (s.layer target).Takes key) →
    Ends (Blocked caseless offered) (mergeTo depth target source.slot) s fun _ _ => True

variable {k : Key} {target : Slot} {depth : Nat}

theorem Covers.caseless_of_layer (hs : s.Covers caseless region) {level : Slot}
    (hlevel : level.In region) (h : ∃ m, s.layer level = .node (.caseless m)) : caseless := by
  obtain ⟨m, hm⟩ := h
  cases level with
  | atom a => cases hm
  | «at» address =>
      unfold layer at hm
      dsimp only at hm
      split at hm
      · rename_i n hcell
        obtain rfl := Layer.node.inj hm
        exact hs.caseless_of address hlevel m hcell
      · cases hm

/-- **The step of a merge** can only be blocked by a key. -/
theorem ends_mergeEntry_of_sends [Memory] (hrec : SafeUpTo caseless offered depth)
    (hs : s.Covers caseless region) (htarget : target.In region)
    (htakes : (s.layer target).Takes (.ofKey k)) (hk : k.IsTextOrInt) (hkey : offered (.ofKey k))
    (hy : s.Sends caseless offered y) (hnodup : (region + y.addresses).Nodup)
    (hsize : y.size < depth) :
    Ends (Blocked caseless offered) (mergeEntry (mergeTo depth) target (.ofKey k, y.slot)) s
      fun _ _ => True := by
  have hin {current : Slot} (h : (s.layer target).access (.ofKey k) = .ok current) :
      current.In region := (hs.closed.layer htarget).access Slot.in_atom h
  refine ends_mergeEntry_of_takes hk.key?_ofKey htakes ?_ ?_ ?_
  · intro fault hstops
    exact ⟨target, _, hkey, hstops, hs.caseless_of_layer htarget⟩
  · intro current hcurrent hnested key hmem fault hstops
    exact ⟨current, key, hy.offered_of_ownKeys hnested key hmem, hstops,
      hs.caseless_of_layer (hin hcurrent)⟩
  · intro current hcurrent htakesAll
    exact hrec s region current y hs (hin hcurrent) hy hnodup hsize fun _ _ => htakesAll

/-! ## All entries -/

/-- **The run of a merge**: each entry adds the cells of its value to the region, and the entries
that are to come have not been touched. -/
theorem ends_forM_mergeEntry [Memory] (hrec : SafeUpTo caseless offered depth)
    (entries : Table Tree) (hs : s.Covers caseless region) (htarget : target.In region)
    (hentries : ∀ e ∈ entries, e.1.IsTextOrInt ∧ offered (.ofKey e.1) ∧
      (s.layer target).Takes (.ofKey e.1) ∧ s.Sends caseless offered e.2 ∧
      e.2.size < depth)
    (hnodup : (region + Tree.allAddresses (entries.map Prod.snd)).Nodup) :
    Ends (Blocked caseless offered)
      ((entries.map fun e => (Value.ofKey e.1, e.2.slot)).forM (mergeEntry (mergeTo depth) target)) s
      fun _ _ => True := by
  induction entries generalizing s region with
  | nil => exact ends_pure trivial
  | cons e rest ih =>
      obtain ⟨⟨hk, hkey, htakes, hy, hsize⟩, hrest⟩ := List.forall_mem_cons.mp hentries
      rw [List.map_cons, Tree.allAddresses_cons, ← add_assoc] at hnodup
      have hstep := ends_mergeEntry_of_sends hrec hs htarget htakes hk hkey hy
        (Multiset.nodup_of_le (Multiset.le_add_right _ _) hnodup) hsize
      have hslot : e.2.slot.In (region + e.2.addresses) :=
        hy.holds.slot_in (Multiset.le_add_left _ _)
      have hgrown := hs.add hy
      rw [List.map_cons]
      refine (hstep.and_keeps (keeps_changed_mergeEntry depth htarget.add hslot _)
        (Changed.refl hgrown.closed)).bind ?_
      rintro _ s₁ ⟨-, hchanged⟩
      refine ih (hgrown.of_changed hchanged) htarget.add ?_ hnodup
      intro e' he'
      obtain ⟨hk', hkey', htakes', hy', hsize'⟩ := hrest e' he'
      refine ⟨hk', hkey', takes_of_kinds hchanged.kinds_eq htakes', hy'.frame fun a ha => ?_, hsize'⟩
      refine hchanged.confined.frame a fun hin => ?_
      have hlater : a ∈ Tree.allAddresses (rest.map Prod.snd) :=
        Tree.mem_allAddresses.mpr ⟨e'.2, List.mem_map_of_mem he', ha⟩
      exact Multiset.disjoint_left.mp (Multiset.nodup_add.mp hnodup).2.2 hin hlater

/-- Going through the entries of a source yields those that it offers, or is blocked by a key. -/
theorem Sends.yields_entries [Memory] {address : Nat} {n : Node Tree}
    (h : s.Sends caseless offered (.ofNode address n)) (hn : n.Ordinary)
    (hcell : s.cells[address]? = some (n.map Tree.slot))
    (hoffered : ∀ key ∈ (Layer.node (n.map Tree.slot)).ownKeys, offered key) :
    Yields (Blocked caseless offered · s) (Layer.node (n.map Tree.slot)).entries
      (· = n.offers.map fun e => (Value.ofKey e.1, e.2.slot)) := by
  constructor
  · intro fault hfault
    rw [← layer_ofNode hcell] at hfault
    obtain ⟨key, hmem, hstops⟩ := exists_stopsAt_of_entries hfault
    rw [layer_ofNode hcell] at hmem
    exact ⟨_, key, hoffered key hmem, hstops, h.caseless_of_layer⟩
  · intro entries heq
    rw [(Node.ordinary_map.mpr hn).eq_of_entries_eq_ok heq, Node.offers_map, List.map_map]
    rfl

/-- **A merge can only be blocked by a key**, through any number of levels. -/
theorem safeUpTo [Memory] (caseless : Prop) (offered : Value → Prop) (depth : Nat) :
    SafeUpTo caseless offered depth := by
  induction depth with
  | zero =>
      intro s region target source _ _ _ _ hsize
      exact absurd hsize (Nat.not_lt_zero _)
  | succ depth ih =>
      intro s region target source hs htarget hsource hnodup hsize htakes
      rw [mergeTo]
      refine ends_layerOf_bind (ends_layerOf_bind ?_)
      split
      · rename_i hnested
        obtain ⟨htn, hsn⟩ := Bool.and_eq_true_iff.mp hnested
        have htakes := htakes htn hsn
        obtain ⟨a, n, rfl, hn, hcell, hoffered, hcontents⟩ := hsource.exists_node hsn
        rw [layer_ofNode hcell] at htakes ⊢
        refine (hsource.yields_entries hn hcell hoffered).ends_bind ?_
        rintro _ rfl
        refine ends_forM_mergeEntry ih n.offers hs htarget (fun e he => ?_) ?_
        · have hkey : Value.ofKey e.1 ∈ (Layer.node (n.map Tree.slot)).ownKeys := by
            rw [(Node.ordinary_map.mpr hn).ownKeys_eq, Node.offers_map, List.map_map]
            exact List.mem_map_of_mem he
          have hmem : e.2 ∈ n.children := hn.map_snd_offers ▸ List.mem_map_of_mem he
          -- The content has fewer cells than the source that holds it.
          have hlt := hsource.holds.size_lt hmem
          exact ⟨hn.isTextOrInt_of_mem_offers he, hoffered _ hkey, htakes _ hkey,
            hcontents _ hmem, by omega⟩
        · rw [hn.map_snd_offers]
          exact Multiset.nodup_of_le (add_le_add_right (Multiset.le_cons_self _ a) _) hnodup
      · refine ⟨?_, fun _ _ _ => trivial⟩
        rintro fault s' ⟨⟩

/-! ## From the top -/

theorem keeps_changed_merge [Memory] {source : Slot} (htarget : target.In region)
    (hsource : source.In region) : Keeps (Changed region s₁) (merge target source) :=
  keeps_get_bind fun s hs => keeps_changed_mergeTo _ htarget hsource s hs

/-- One source after another is merged into a target that takes every key. -/
theorem ends_mergeAll [Memory] (sources : List Tree) (hs : s.Covers caseless region)
    (htarget : target.In region) (htakes : ∀ key, (s.layer target).Takes key)
    (hsources : ∀ y ∈ sources, s.Sends caseless offered y)
    (hnodup : (region + Tree.allAddresses sources).Nodup) :
    Ends (Blocked caseless offered) (mergeAll target (sources.map Tree.slot)) s
      fun _ _ => True := by
  induction sources generalizing s region with
  | nil => exact ends_pure trivial
  | cons y rest ih =>
      obtain ⟨hy, hrest⟩ := List.forall_mem_cons.mp hsources
      rw [Tree.allAddresses_cons, ← add_assoc] at hnodup
      have hboth := Multiset.nodup_of_le (Multiset.le_add_right _ _) hnodup
      have hfirst : Ends (Blocked caseless offered) (merge target y.slot) s fun _ _ => True :=
        ends_get_bind (safeUpTo caseless offered _ s region target y hs htarget hy hboth
          (Nat.lt_succ_of_le hy.holds.size_le) fun _ _ key _ => htakes key)
      have hslot : y.slot.In (region + y.addresses) := hy.holds.slot_in (Multiset.le_add_left _ _)
      have hgrown := hs.add hy
      refine (hfirst.and_keeps (keeps_changed_merge htarget.add hslot)
        (Changed.refl hgrown.closed)).bind ?_
      rintro _ s₁ ⟨-, hchanged⟩
      refine ih (hgrown.of_changed hchanged) htarget.add
        (fun key => takes_of_kinds hchanged.kinds_eq (htakes key)) (fun y' hy' => ?_) hnodup
      refine (hrest y' hy').frame fun a ha => hchanged.confined.frame a fun hin => ?_
      have hlater : a ∈ Tree.allAddresses rest := Tree.mem_allAddresses.mpr ⟨y', hy', ha⟩
      exact Multiset.disjoint_left.mp (Multiset.nodup_add.mp hnodup).2.2 hin hlater

/-- Values are placed side by side. The slots of those placed before are in `done`, the last one
first. -/
theorem exists_effect_mapM_loop_put (vs : List Value) (done : List Slot) (s : Store) :
    ∃ (trees : List Tree) (s' : Store), (List.mapM.loop put vs done).effect s =
        (.ok (done.reverse ++ trees.map Tree.slot), s') ∧
      trees.map Tree.value = vs ∧ s.Extends s' trees := by
  induction vs generalizing done s with
  | nil => exact ⟨[], s, by rw [List.map_nil, List.append_nil]; rfl, rfl, .nil s⟩
  | cons v rest ih =>
      obtain ⟨t, s₁, hput, rfl, hextends⟩ := exists_effect_put v s
      obtain ⟨trees, s₂, hrest, rfl, hextends'⟩ := ih (t.slot :: done) s₁
      refine ⟨t :: trees, s₂, ?_, rfl, hextends.append hextends'⟩
      rw [List.mapM.loop, effect_bind_ok hput, hrest, List.reverse_cons, List.append_assoc]
      rfl

/-- A target and sources are placed in cells of their own before they are merged. -/
theorem exists_effect_placed [Memory] (target : Value) (sources : List Value) :
    ∃ (t : Tree) (trees : List Tree) (s : Store), t.value = target ∧
      trees.map Tree.value = sources ∧ Store.empty.Extends s (t :: trees) ∧
      (Value.merge target sources).result =
        ((mergeAll t.slot (trees.map Tree.slot) >>= fun _ => valueOf t.slot).effect s).1 := by
  obtain ⟨t, s₁, hput, htarget, hextends⟩ := exists_effect_put target .empty
  obtain ⟨trees, s, hputs, hsources, hextends'⟩ := exists_effect_mapM_loop_put sources [] s₁
  refine ⟨t, trees, s, htarget, hsources, hextends.append hextends', ?_⟩
  show (Edit.effect (do
    let target ← put target
    mergeAll target (← sources.mapM put)
    valueOf target) Store.empty).1 = _
  have hputs : (sources.mapM put).effect s₁ = (.ok (trees.map Tree.slot), s) := hputs
  rw [effect_bind_ok hput, effect_bind_ok hputs]

/-- The collection in a slot has come to hold a value under a key, and no other cell has changed. -/
def Replaced (s s' : Store) (target : Slot) (key : Value) (value : Slot) : Prop :=
  (s'.layer target).lookup key = .ok (some value) ∧ ∀ a, target ≠ .at a → s'.cells[a]? = s.cells[a]?

/-- **The step where a value is replaced.** Where the merge does not go on into the value that the
target holds under the key of an entry, the entry's value comes in its place, or the key stands in
the way. -/
theorem mergeEntry_of_not_mergeable [Memory] {value current : Slot} (hk : k.IsTextOrInt)
    (htakes : (s.layer target).Takes (.ofKey k))
    (hcoherent : ∀ m, s.layer target = .node (.caseless m) → m.Coherent)
    (haccess : (s.layer target).access (.ofKey k) = .ok current)
    (hmergeable : Layer.mergeable (s.layer current) (s.layer value) = .ok false) :
    (∃ s', (mergeEntry (mergeTo depth) target (.ofKey k, value)).effect s = (.ok (), s') ∧
        s.Replaced s' target (.ofKey k) value) ∨
      ∃ fault, (mergeEntry (mergeTo depth) target (.ofKey k, value)).effect s = (.error fault, s) ∧
        (Value.ofKey k).Obstructs (∃ m, s.layer target = .node (.caseless m)) fault := by
  rw [effect_mergeEntry haccess, hmergeable]
  show (∃ s', (assign target (.ofKey k) value).effect s = _ ∧ _) ∨
    ∃ fault, (assign target (.ofKey k) value).effect s = _ ∧ _
  rw [effect_assign]
  cases hn : ((s.layer target).assign (.ofKey k) value).result with
  | error fault => exact .inr ⟨fault, rfl, Layer.obstructs_of_assign hk htakes hn⟩
  | ok n =>
      refine .inl ⟨s.write target n, rfl, ?_⟩
      cases target with
      | atom a => exact htakes.elim
      | «at» address =>
          refine ⟨?_, fun a ha => getElem?_write_of_ne (fun h => ha (congrArg Slot.at h.symm)) n⟩
          have hlt : address < s.cells.size := by
            by_contra hout
            rw [layer, Array.getElem?_eq_none (Nat.le_of_not_lt hout)] at htakes
            exact htakes
          rw [layer, getElem?_write_self hlt]
          exact Layer.lookup_of_assign hk htakes hcoherent hn

/-- **A merge into a dictionary in a store**, of ordinary values that share no collection with it or
among each other, comes to its end or is blocked by a key of one of them. -/
theorem ends_mergeAll_dict [Memory] {d : Table Value} {sources : List Tree} (ht : s.Holds t)
    (hd : t.value = .dict d) (hsources : ∀ y ∈ sources, s.Holds y ∧ y.value.Ordinary)
    (hnodup : (t.addresses + Tree.allAddresses sources).Nodup) :
    Ends (Blocked (∃ v ∈ t.value :: sources.map Tree.value, v.HasCaseless)
        fun key => ∃ source ∈ sources.map Tree.value, source.HasKey key)
      (mergeAll t.slot (sources.map Tree.slot)) s fun _ _ => True := by
  have hcovers : s.Covers (∃ v ∈ t.value :: sources.map Tree.value, v.HasCaseless) t.addresses :=
    ⟨ht.closedOn, fun a ha m hcell => ⟨t.value, List.mem_cons_self, ht.hasCaseless ha hcell⟩⟩
  refine ends_mergeAll sources hcovers (ht.slot_in le_rfl) (fun key => ?_) (fun y hy => ?_) hnodup
  · obtain ⟨a, n, rfl, hn, hcell, -⟩ := ht.exists_node hd
    rw [layer_ofNode hcell]
    cases n with
    | dict _ => trivial
    | _ => cases hn
  · obtain ⟨hheld, hordinary⟩ := hsources y hy
    have hmem : y.value ∈ sources.map Tree.value := List.mem_map_of_mem hy
    exact ⟨hheld, hordinary, fun key hkey => ⟨y.value, hmem, hkey⟩,
      fun hcaseless => ⟨y.value, List.mem_cons_of_mem _ hmem, hcaseless⟩⟩

end Store

/-- What a merge of ordinary values ends with: a value, or a fault with which a key of a source
stands in the way. -/
theorem Value.exists_merge_or_obstructed [Memory] {d : Table Value} {sources : List Value}
    (h : ∀ v ∈ sources, v.Ordinary) :
    (∃ v, (Value.merge (.dict d) sources).result = .ok v) ∨
      ∃ fault, (Value.merge (.dict d) sources).result = .error fault ∧
        ∃ source ∈ sources, ∃ key, source.HasKey key ∧
          key.Obstructs (∃ v ∈ Value.dict d :: sources, v.HasCaseless) fault := by
  obtain ⟨t, trees, s, htarget, rfl, hextends, hresult⟩ :=
    Store.exists_effect_placed (.dict d) sources
  rw [List.forall_mem_map] at h
  have hnodup := hextends.nodup
  rw [Tree.allAddresses_cons] at hnodup
  have hends := Store.ends_mergeAll_dict (hextends.holds t List.mem_cons_self) htarget
    (fun y hy => ⟨hextends.holds y (List.mem_cons_of_mem _ hy), h y hy⟩) hnodup
  rw [hresult]
  match heffect : (Store.mergeAll t.slot (trees.map Tree.slot)).effect s with
  | (.ok (), s') =>
      rw [effect_bind_ok heffect]
      exact .inl ⟨_, rfl⟩
  | (.error fault, s') =>
      rw [effect_bind_error heffect]
      obtain ⟨level, key, ⟨source, hmem, hkey⟩, hstops, hcaseless⟩ := hends.1 fault s' heffect
      rw [htarget] at hcaseless
      exact .inr ⟨fault, rfl, source, hmem, key, hkey, hstops.obstructs.mono hcaseless⟩

/-- **A merge into a dictionary comes to an end, unless a key stands in its way.** Let the sources be
ordinary values. If the merge fails, then with the fault with which a key of one of them can stand
in the way: a text of digits that cannot be read as a number, an index that is too far away, or,
where a caseless map is among the values, a number.

In a store, where the dictionary and the sources share no collection, there is a collection that
this key of a source stops the merge at, and all up to there has been written. If they share
collections in any way, the merge comes to its end all the same, or is stopped by a key, or goes
down without end. And wherever a value cannot be merged into what a target holds under its key, it
replaces that. -/
theorem Value.merge_ok_or_obstructed [Memory] {d : Table Value} {sources : List Value}
    (h : ∀ v ∈ sources, v.Ordinary) :
    ((∃ v, (Value.merge (.dict d) sources).result = .ok v) ∨
      ∃ fault, (Value.merge (.dict d) sources).result = .error fault ∧
        ∃ source ∈ sources, ∃ key, source.HasKey key ∧
          key.Obstructs (∃ v ∈ Value.dict d :: sources, v.HasCaseless) fault) ∧
    (∀ (s : Store) (t : Tree) (trees : List Tree), t.value = .dict d →
      trees.map Tree.value = sources → s.Holds t → (∀ y ∈ trees, s.Holds y) →
      (t.addresses + Tree.allAddresses trees).Nodup →
      (∃ s', (Store.mergeAll t.slot (trees.map Tree.slot)).effect s = (.ok (), s')) ∨
        ∃ fault s', (Store.mergeAll t.slot (trees.map Tree.slot)).effect s = (.error fault, s') ∧
          ∃ source ∈ sources, ∃ key, source.HasKey key ∧ ∃ level, s'.StopsAt level key fault) ∧
    (∀ (s : Store) (target : Slot) (slots : List Slot),
      (∃ entries, s.layer target = .node (.dict entries)) →
      (∃ s', (Store.mergeAll target slots).effect s = (.ok (), s')) ∨
        ∃ fault s', (Store.mergeAll target slots).effect s = (.error fault, s') ∧
          (fault = .bottomless ∨ ∃ level key, s'.StopsAt level key fault)) ∧
    ∀ (s : Store) (depth : Nat) (target current value : Slot) (k : Key), k.IsTextOrInt →
      (s.layer target).Takes (.ofKey k) →
      (∀ m, s.layer target = .node (.caseless m) → m.Coherent) →
      (s.layer target).access (.ofKey k) = .ok current →
      Layer.mergeable (s.layer current) (s.layer value) = .ok false →
      (∃ s', (Store.mergeEntry (Store.mergeTo depth) target (.ofKey k, value)).effect s =
          (.ok (), s') ∧ s.Replaced s' target (.ofKey k) value) ∨
        ∃ fault, (Store.mergeEntry (Store.mergeTo depth) target (.ofKey k, value)).effect s =
            (.error fault, s) ∧
          (Value.ofKey k).Obstructs (∃ m, s.layer target = .node (.caseless m)) fault := by
  refine ⟨Value.exists_merge_or_obstructed h, ?_, ?_,
    fun _ _ _ _ _ _ hk htakes hcoherent haccess hmergeable =>
      Store.mergeEntry_of_not_mergeable hk htakes hcoherent haccess hmergeable⟩
  · rintro s t trees hd rfl ht htrees hnodup
    rw [List.forall_mem_map] at h
    have hends := Store.ends_mergeAll_dict ht hd (fun y hy => ⟨htrees y hy, h y hy⟩) hnodup
    match heffect : (Store.mergeAll t.slot (trees.map Tree.slot)).effect s with
    | (.ok (), s') => exact .inl ⟨s', rfl⟩
    | (.error fault, s') =>
        obtain ⟨level, key, ⟨source, hmem, hkey⟩, hstops, -⟩ := hends.1 fault s' heffect
        exact .inr ⟨fault, s', rfl, source, hmem, key, hkey, level, hstops⟩
  · rintro s target slots ⟨entries, hlayer⟩
    have htakes : ∀ key, (s.layer target).Takes key := by
      intro key
      rw [hlayer]
      trivial
    have hends := Store.ends_mergeAll_of_takes (s := s) slots htakes
    match heffect : (Store.mergeAll target slots).effect s with
    | (.ok (), s') => exact .inl ⟨s', rfl⟩
    | (.error fault, s') => exact .inr ⟨fault, s', rfl, hends.1 fault s' heffect⟩

section

open scoped Memory

/-- The list of hosts does not take the key `port`, so the mapping replaces it. -/
theorem merge_portOverHosts_ok :
    ∃ v, (Value.merge (.dict [(.text "hosts", .list [.text "a"])])
      [.dict [(.text "hosts", .dict [(.text "port", .int 80)])]]).result = .ok v := by
  have hport : Value.Ordinary (.dict [(.text "port", .int 80)]) :=
    .node ⟨List.pairwise_singleton _ _, List.forall_mem_singleton.mpr trivial⟩
      (List.forall_mem_singleton.mpr (.atom _))
  have hsource : Value.Ordinary (.dict [(.text "hosts", .dict [(.text "port", .int 80)])]) :=
    .node ⟨List.pairwise_singleton _ _, List.forall_mem_singleton.mpr trivial⟩
      (List.forall_mem_singleton.mpr hport)
  have hmerge := (Value.merge_ok_or_obstructed (d := [(.text "hosts", .list [.text "a"])])
    (List.forall_mem_singleton.mpr hsource)).1
  refine hmerge.resolve_right ?_
  rintro ⟨fault, -, source, hmem, key, hkey, hobstructs⟩
  obtain rfl := List.mem_singleton.mp hmem
  -- There are two keys, and neither of them consists of digits.
  cases hkey with
  | here hown =>
      obtain rfl := List.mem_singleton.mp hown
      exact Value.not_obstructs_text rfl hobstructs
  | inside hv hkey =>
      obtain rfl := List.mem_singleton.mp hv
      cases hkey with
      | here hown =>
          obtain rfl := List.mem_singleton.mp hown
          exact Value.not_obstructs_text rfl hobstructs
      | inside hv hkey =>
          obtain rfl := List.mem_singleton.mp hv
          cases hkey

/-- A caseless map under a number: a merge into a dictionary that fails. -/
theorem exists_merge_dict_fault :
    ¬ ∀ (d : Table Value) (sources : List Value), (∀ v ∈ sources, v.Ordinary) →
        ∃ v, (Value.merge (.dict d) sources).result = .ok v := by
  intro h
  have hnumber : Value.Ordinary (.dict [(.int 1, .text "x")]) :=
    .node ⟨List.pairwise_singleton _ _, List.forall_mem_singleton.mpr trivial⟩
      (List.forall_mem_singleton.mpr (.atom _))
  have hsource : Value.Ordinary (.dict [(.text "h", .dict [(.int 1, .text "x")])]) :=
    .node ⟨List.pairwise_singleton _ _, List.forall_mem_singleton.mpr trivial⟩
      (List.forall_mem_singleton.mpr hnumber)
  obtain ⟨v, hv⟩ := h [(.text "h", .node (.caseless (.ofList [(.text "Accept", .text "*")])))]
    [.dict [(.text "h", .dict [(.int 1, .text "x")])]] (List.forall_mem_singleton.mpr hsource)
  have hfault : (Value.merge
      (.dict [(.text "h", .node (.caseless (.ofList [(.text "Accept", .text "*")])))])
      [.dict [(.text "h", .dict [(.int 1, .text "x")])]]).result = .error .noLetterCase := by cbv
  cases hv.symm.trans hfault

end

end LooseData
