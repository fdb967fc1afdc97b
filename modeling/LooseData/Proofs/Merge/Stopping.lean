import LooseData.Proofs.Merge.Sources

set_option autoImplicit false

/-! # Merges that stop

A merge writes into its target entry by entry and takes nothing back. So if it stops with a fault
because the target cannot take a key, all that came before the key has been merged: the sources
before that one completely, and of that source the entries in front (`Store.ComesTo`). What is left
is exactly that, and nothing of the entry or of anything behind it
(`Store.mergeAll_of_rejects`). The target is as it was before only if nothing came before the key.
-/

namespace LooseData

open Edit

namespace Store

variable {s s₁ s' : Store} {target source : Slot} {sources : List Slot} {e : Value × Slot}
  {depth : Nat} {fault : Fault}

/-! ## One entry -/

/-- The collection in a slot cannot take the key of an entry: it cannot be asked for the key, or the
value of the entry is to be written there and cannot be. -/
inductive Rejects [Memory] (s : Store) (target : Slot) (e : Value × Slot) (fault : Fault) :
    Prop where
  | asked (h : (s.layer target).access e.1 = .error fault)
  | written {current : Slot} (haccess : (s.layer target).access e.1 = .ok current)
      (hmergeable : Layer.mergeable (s.layer current) (s.layer e.2) = .ok false)
      (h : ((s.layer target).assign e.1 e.2).result = .error fault)

/-- An entry stops inside of the value that the target holds under its key: it cannot be told
whether that takes the keys of the entry's value, or the merge of the two stops. -/
inductive StopsInside [Memory] (depth : Nat) (s : Store) (target : Slot) (e : Value × Slot)
    (fault : Fault) : Store → Prop where
  | undecided {current : Slot} (haccess : (s.layer target).access e.1 = .ok current)
      (h : Layer.mergeable (s.layer current) (s.layer e.2) = .error fault) :
      StopsInside depth s target e fault s
  | merged {current : Slot} {s' : Store} (haccess : (s.layer target).access e.1 = .ok current)
      (hmergeable : Layer.mergeable (s.layer current) (s.layer e.2) = .ok true)
      (h : (mergeTo depth current e.2).effect s = (.error fault, s')) :
      StopsInside depth s target e fault s'

/-- **An entry that stops a merge** has done nothing, if it is the target that cannot take its
key. -/
theorem mergeEntry_eq_error_iff [Memory] : (mergeEntry (mergeTo depth) target e).effect s =
    (.error fault, s') ↔
    (s.Rejects target e fault ∧ s' = s) ∨ StopsInside depth s target e fault s' := by
  obtain ⟨key, value⟩ := e
  constructor
  · intro h
    cases haccess : (s.layer target).access key with
    | error fault' =>
        rw [effect_mergeEntry_of_access_error haccess] at h
        obtain ⟨hfault, rfl⟩ := Prod.mk.inj h
        obtain rfl := Except.error.inj hfault
        exact .inl ⟨.asked haccess, rfl⟩
    | ok current =>
        rw [effect_mergeEntry haccess] at h
        cases hmergeable : Layer.mergeable (s.layer current) (s.layer value) with
        | error fault' =>
            rw [hmergeable] at h
            obtain ⟨hfault, rfl⟩ := Prod.mk.inj h
            obtain rfl := Except.error.inj hfault
            exact .inr (.undecided haccess hmergeable)
        | ok mergeable =>
            rw [hmergeable] at h
            cases mergeable with
            | true => exact .inr (.merged haccess hmergeable h)
            | false =>
                change (assign target key value).effect s = _ at h
                rw [effect_assign] at h
                cases hn : ((s.layer target).assign key value).result with
                | ok n =>
                    rw [hn] at h
                    cases h
                | error fault' =>
                    rw [hn] at h
                    obtain ⟨hfault, rfl⟩ := Prod.mk.inj h
                    obtain rfl := Except.error.inj hfault
                    exact .inl ⟨.written haccess hmergeable hn, rfl⟩
  · rintro (⟨haccess | ⟨haccess, hmergeable, hn⟩, rfl⟩ | ⟨haccess, h⟩ | ⟨haccess, hmergeable, h⟩)
    · exact effect_mergeEntry_of_access_error haccess
    · rw [effect_mergeEntry haccess, hmergeable]
      show (assign target key value).effect s' = _
      rw [effect_assign, hn]
    · rw [effect_mergeEntry haccess, h]
    · rw [effect_mergeEntry haccess, hmergeable]
      exact h

/-! ## All sources -/

/-- The merge of sources comes to an entry: both the target and the entry's source are nested, and
all sources in front of that one and all of its entries in front of this one are merged. -/
inductive ComesTo [Memory] (s : Store) (target : Slot) :
    (sources : List Slot) → (depth : Nat) → (e : Value × Slot) → Store → Prop where
  | intro {front back : List Slot} {source : Slot} {s₁ s₂ : Store}
      {done rest : List (Value × Slot)} {e : Value × Slot}
      (hfront : (mergeAll target front).effect s = (.ok (), s₁))
      (htarget : (s₁.layer target).isNested = true) (hsource : (s₁.layer source).isNested = true)
      (hentries : (s₁.layer source).entries = .ok (done ++ e :: rest))
      (hdone : (done.forM (mergeEntry (mergeTo s₁.cells.size) target)).effect s₁ = (.ok (), s₂)) :
      ComesTo s target (front ++ source :: back) s₁.cells.size e s₂

/-- The ways in which a merge of sources stops, each with the store that it leaves. -/
inductive Stops [Memory] (s : Store) (target : Slot) (sources : List Slot) (fault : Fault) :
    Store → Prop where
  /-- The target cannot take the key of an entry. -/
  | rejected {depth : Nat} {e : Value × Slot} {s' : Store}
      (hcomes : ComesTo s target sources depth e s') (h : s'.Rejects target e fault) :
      Stops s target sources fault s'
  /-- An entry stops inside of a value that the target holds. -/
  | inside {depth : Nat} {e : Value × Slot} {s₁ s' : Store}
      (hcomes : ComesTo s target sources depth e s₁)
      (h : StopsInside depth s₁ target e fault s') : Stops s target sources fault s'
  /-- A source cannot list its entries. -/
  | unlisted {front back : List Slot} {source : Slot} {s' : Store}
      (hsources : sources = front ++ source :: back)
      (hfront : (mergeAll target front).effect s = (.ok (), s'))
      (htarget : (s'.layer target).isNested = true) (hsource : (s'.layer source).isNested = true)
      (h : (s'.layer source).entries = .error fault) : Stops s target sources fault s'

/-- Merging a source whose entries can be listed goes through them. -/
theorem effect_merge_of_entries [Memory] {entries : List (Value × Slot)}
    (htarget : (s.layer target).isNested = true) (hsource : (s.layer source).isNested = true)
    (hentries : (s.layer source).entries = .ok entries) : (merge target source).effect s =
      (entries.forM (mergeEntry (mergeTo s.cells.size) target)).effect s :=
  (effect_bind_ok (effect_get s) _).trans (effect_mergeTo_succ htarget hsource hentries _)

/-- Merging a source whose entries cannot be listed. -/
theorem effect_merge_of_entries_error [Memory] (htarget : (s.layer target).isNested = true)
    (hsource : (s.layer source).isNested = true)
    (hentries : (s.layer source).entries = .error fault) :
    (merge target source).effect s = (.error fault, s) := by
  have hmerge : (merge target source).effect s =
      (mergeTo (s.cells.size + 1) target source).effect s := effect_bind_ok (effect_get s) _
  rw [hmerge, mergeTo, effect_bind_ok (effect_layerOf source s),
    effect_bind_ok (effect_layerOf target s), htarget, hsource, Bool.and_self, if_pos rfl]
  refine effect_bind_error ?_ _
  rw [effect_liftExcept, hentries]

/-- Only a nested source that is merged into a nested target stops. -/
theorem isNested_of_merge_eq_error [Memory]
    (h : (merge target source).effect s = (.error fault, s')) :
    (s.layer target).isNested = true ∧ (s.layer source).isNested = true := by
  have hmerge : (merge target source).effect s =
      (mergeTo (s.cells.size + 1) target source).effect s := effect_bind_ok (effect_get s) _
  rw [← Bool.and_eq_true_iff]
  by_contra hnested
  rw [hmerge, mergeTo, effect_bind_ok (effect_layerOf source s),
    effect_bind_ok (effect_layerOf target s), if_neg hnested] at h
  cases h

/-- **A merge stops** at an entry whose key the target cannot take, inside of an entry, or in front of
a source that cannot list its entries. -/
theorem mergeAll_eq_error_iff [Memory] : (mergeAll target sources).effect s = (.error fault, s') ↔
    Stops s target sources fault s' := by
  rw [mergeAll, effect_forM_eq_error_iff]
  constructor
  · rintro ⟨front, source, back, s₁, rfl, hfront, hsource⟩
    obtain ⟨htn, hsn⟩ := isNested_of_merge_eq_error hsource
    cases hentries : (s₁.layer source).entries with
    | error fault' =>
        rw [effect_merge_of_entries_error htn hsn hentries] at hsource
        obtain ⟨hfault, rfl⟩ := Prod.mk.inj hsource
        obtain rfl := Except.error.inj hfault
        exact .unlisted rfl hfront htn hsn hentries
    | ok entries =>
        rw [effect_merge_of_entries htn hsn hentries, effect_forM_eq_error_iff] at hsource
        obtain ⟨done, e, rest, s₂, rfl, hdone, he⟩ := hsource
        have hcomes : ComesTo s target (front ++ source :: back) s₁.cells.size e s₂ :=
          .intro hfront htn hsn hentries hdone
        rcases mergeEntry_eq_error_iff.mp he with ⟨hrejects, rfl⟩ | hinside
        · exact .rejected hcomes hrejects
        · exact .inside hcomes hinside
  · have hstop {depth : Nat} {e : Value × Slot} {s₁ : Store}
        (hcomes : ComesTo s target sources depth e s₁)
        (he : (mergeEntry (mergeTo depth) target e).effect s₁ = (.error fault, s')) :
        ∃ front source back s₀, sources = front ++ source :: back ∧
          (front.forM (merge target)).effect s = (.ok (), s₀) ∧
          (merge target source).effect s₀ = (.error fault, s') := by
      obtain ⟨hfront, htn, hsn, hentries, hdone⟩ := hcomes
      refine ⟨_, _, _, _, rfl, hfront, ?_⟩
      rw [effect_merge_of_entries htn hsn hentries, effect_forM_eq_error_iff]
      exact ⟨_, _, _, _, rfl, hdone, he⟩
    rintro (⟨hcomes, hrejects⟩ | ⟨hcomes, hinside⟩ | ⟨rfl, hfront, htn, hsn, hentries⟩)
    · exact hstop hcomes (mergeEntry_eq_error_iff.mpr (.inl ⟨hrejects, rfl⟩))
    · exact hstop hcomes (mergeEntry_eq_error_iff.mpr (.inr hinside))
    · exact ⟨_, _, _, _, rfl, hfront, effect_merge_of_entries_error htn hsn hentries⟩

/-- The merge comes to the first entry of the first source as soon as it begins. -/
theorem comesTo_first [Memory] {back : List Slot} {rest : List (Value × Slot)}
    (htarget : (s.layer target).isNested = true) (hsource : (s.layer source).isNested = true)
    (hentries : (s.layer source).entries = .ok (e :: rest)) :
    ComesTo s target (source :: back) s.cells.size e s := by
  have hentries : (s.layer source).entries = .ok ([] ++ e :: rest) := hentries
  have hcomes : ComesTo s target ([] ++ source :: back) s.cells.size e s :=
    .intro rfl htarget hsource hentries rfl
  exact hcomes

/-! ## What is left of data -/

section

variable {t : Tree}

/-- Merging one source after another lays them over the target. -/
theorem ensures_mergeAll_plain [Memory] (sources : List Tree) (ht : s.Holds t) (htp : t.value.Plain)
    (hsources : ∀ y ∈ sources, s.Holds y ∧ y.value.Plain)
    (hnodup : (t.addresses + Tree.allAddresses sources).Nodup) :
    Ensures (mergeAll t.slot (sources.map Tree.slot)) s fun _ s' =>
      ∃ t', s.Rewrites t (Tree.allAddresses sources) s' t' ∧ t'.value.Plain ∧
        t'.value = sources.foldl (fun v y => v.overlaidBy y.value) t.value := by
  induction sources generalizing s t with
  | nil => exact ends_pure ⟨t, .refl ht, htp, rfl⟩
  | cons y rest ih =>
      obtain ⟨⟨hy, hyp⟩, hrest⟩ := List.forall_mem_cons.mp hsources
      rw [Tree.allAddresses_cons, ← add_assoc] at hnodup
      have hboth := Multiset.nodup_of_le (Multiset.le_add_right _ _) hnodup
      rw [Tree.allAddresses_cons, List.foldl_cons]
      refine (ensures_merge_plain ht hy hboth htp hyp).bind ?_
      rintro _ s₁ ⟨t₁, hrewrites, hplain, hvalue⟩
      have hlast := ih hrewrites.holds hplain
        (fun z hz => ⟨hrewrites.holds_of_mem hnodup hz (hrest z hz).1, (hrest z hz).2⟩)
        (hrewrites.nodup hnodup)
      rw [hrewrites.slot_eq, hvalue] at hlast
      refine hlast.mono ?_
      rintro _ s₂ ⟨t₂, hrewrites', hlast⟩
      exact ⟨t₂, hrewrites.trans hrewrites', hlast⟩

/-- The entries of a source are the fields of its value. -/
theorem entries_ofNode {b : Nat} {m : Node Tree} {entries : List (Value × Slot)} (hm : m.Plain)
    (hcell : s.cells[b]? = some (m.map Tree.slot))
    (h : (s.layer (Tree.ofNode b m).slot).entries = .ok entries) :
    entries = m.fields.map fun e => (Value.ofKey e.1, e.2.slot) := by
  have hslots : (m.map Tree.slot).Plain := (Node.plain_map Tree.slot).mpr hm
  rw [layer_ofNode hcell] at h
  have hlisted := (Node.yields_entries hslots).2 entries h
  rwa [Node.fields_map, List.map_map] at hlisted

/-- Merging some of the entries of a source, from the first one on, lays these over the target. -/
theorem read_mergeEntries [Memory] {b : Nat} {m : Node Tree} {n : Node Value}
    {done rest : Table Tree}
    (ht : s.Holds t) (htp : t.value.Plain) (hn : t.value = .node n)
    (hy : s.Holds (.ofNode b m)) (hm : m.Plain)
    (hchildren : ∀ c ∈ m.children, s.Holds c ∧ c.value.Plain)
    (hnodup : (t.addresses + (Tree.ofNode b m).addresses).Nodup) (hfields : m.fields = done ++ rest)
    (hrun : ((done.map fun e => (Value.ofKey e.1, e.2.slot)).forM
      (mergeEntry (mergeTo s.cells.size) t.slot)).effect s = (.ok (), s')) :
    s'.read t.slot = t.value.overlaidBy (.dict (done.map fun e => (e.1, e.2.value))) := by
  have hmem (e : Key × Tree) (he : e ∈ done) : e ∈ m.fields :=
    hfields ▸ List.mem_append_left rest he
  have hheld := holds_fields hy hm hchildren (Nat.lt_succ_of_le hy.size_le)
  have hdone : (t.addresses + Tree.allAddresses (done.map Prod.snd)).Nodup := by
    have hall := nodup_fields hm hnodup
    rw [hfields, List.map_append, Tree.allAddresses_append, ← add_assoc] at hall
    exact Multiset.nodup_of_le (Multiset.le_add_right _ _) hall
  obtain ⟨-, t', hrewrites, hvalue⟩ := (ends_mergeEntries (overlaysUpTo _) done ht hn htp
    (fun e he => hheld e (hmem e he)) hdone).2 () s' hrun
  have hnp : n.Plain := by
    rw [hn] at htp
    cases htp with
    | node hnode _ => exact hnode
  have hdict : (Node.dict (done.map fun e => (e.1, e.2.value))).Plain := by
    refine ⟨List.pairwise_map.mpr ?_, List.forall_mem_map.mpr fun e he => ?_⟩
    · have hdistinct := hm.fields_distinct
      rw [hfields] at hdistinct
      exact (List.pairwise_append.mp hdistinct).1
    · obtain ⟨name, hname, -⟩ := hm.of_mem_fields (hmem e he)
      exact ⟨name, hname⟩
  have hlaid : (Value.node n).overlaidBy (.dict (done.map fun e => (e.1, e.2.value))) = _ :=
    Value.overlaidBy_eq_foldl hnp hdict
  rw [← hrewrites.slot_eq, hrewrites.holds.read_eq, hvalue, hn, hlaid, Node.fields, List.foldl_map]

/-- **What a merge leaves that comes to an entry**, where the target and the sources are dictionaries
with texts as keys, lists and atoms, and share no collection: the target with the sources in front
laid over it, and then the entries in front of this one. -/
theorem ComesTo.read_eq [Memory] {sources : List Tree} {e : Value × Slot}
    (h : ComesTo s t.slot (sources.map Tree.slot) depth e s') (ht : s.Holds t)
    (htp : t.value.Plain) (hsources : ∀ y ∈ sources, s.Holds y ∧ y.value.Plain)
    (hnodup : (t.addresses + Tree.allAddresses sources).Nodup) :
    ∃ front back m done k v rest, sources.map Tree.value = front ++ .node m :: back ∧
      m.fields = done ++ (k, v) :: rest ∧ e.1 = .ofKey k ∧
      s'.read t.slot = (front.foldl Value.overlaidBy t.value).overlaidBy (.dict done) := by
  generalize hslots : sources.map Tree.slot = slots at h
  obtain @⟨front', back', source', s₁, _, done', rest', _, hfront, htn, hsn, hentries, hdone⟩ := h
  obtain ⟨front, others, rfl, rfl, hothers⟩ := List.map_eq_append_iff.mp hslots
  obtain ⟨y, back, rfl, rfl, rfl⟩ := List.map_eq_cons_iff.mp hothers
  rw [Tree.allAddresses_append, Tree.allAddresses_cons, ← add_assoc] at hnodup
  have hfrontnodup := Multiset.nodup_of_le (Multiset.le_add_right _ _) hnodup
  -- The sources in front have been laid over the target, and the source is as it was.
  obtain ⟨t₁, hrewrites, htp₁, hvalue⟩ := (ensures_mergeAll_plain front ht htp
    (fun z hz => hsources z (List.mem_append_left _ hz)) hfrontnodup).2 () s₁ hfront
  obtain ⟨hy, hyp⟩ := hsources y (List.mem_append_right _ List.mem_cons_self)
  have hafter := hrewrites.nodup hnodup
  rw [← add_assoc] at hafter
  have hboth := Multiset.nodup_of_le (Multiset.le_add_right _ _) hafter
  have hy₁ : s₁.Holds y := by
    rw [← Tree.allAddresses_cons y back] at hnodup
    exact hrewrites.holds_of_mem hnodup List.mem_cons_self hy
  rw [isNested_layer hy₁] at hsn
  obtain ⟨b, m, rfl, hm, hcell, hchildren⟩ := hy₁.exists_plain hyp hsn
  rw [← hrewrites.slot_eq, isNested_layer hrewrites.holds] at htn
  obtain ⟨n, hn⟩ : ∃ n, t₁.value = .node n := by
    cases hnode : t₁.value with
    | atom a =>
        rw [hnode] at htn
        cases htn
    | node n => exact ⟨n, rfl⟩
  obtain ⟨done, others, hfields, rfl, hrest⟩ :=
    List.map_eq_append_iff.mp (entries_ofNode hm hcell hentries).symm
  obtain ⟨⟨k, z⟩, rest, rfl, rfl, rfl⟩ := List.map_eq_cons_iff.mp hrest
  refine ⟨front.map Tree.value, back.map Tree.value, m.map Tree.value,
    done.map fun e => (e.1, e.2.value), k, z.value, rest.map fun e => (e.1, e.2.value), ?_, ?_, rfl,
    ?_⟩
  · rw [List.map_append, List.map_cons]
    rfl
  · rw [Node.fields_map, hfields, List.map_append, List.map_cons]
  · rw [← hrewrites.slot_eq] at hdone ⊢
    rw [read_mergeEntries hrewrites.holds htp₁ hn hy₁ hm hchildren hboth hfields hdone, hvalue,
      List.foldl_map]

end

/-! ## Keys that the target cannot take -/

/-- **A merge that stops because the target cannot take a key** leaves what has come of the sources
in front of that key's source and of the entries in front of the key, and nothing else. If the key is
the first one of the first source, the target is as it was before. For dictionaries with texts as
keys, lists and atoms that share no collection, the target then holds its own value with the sources
in front laid over it, and over that the entries in front of the key. -/
theorem mergeAll_of_rejects [Memory] (s : Store) (target : Slot) (sources : List Slot) :
    (∀ depth e s' fault, ComesTo s target sources depth e s' → s'.Rejects target e fault →
        (mergeAll target sources).effect s = (.error fault, s')) ∧
      (∀ source back e rest fault, sources = source :: back →
        (s.layer target).isNested = true → (s.layer source).isNested = true →
        (s.layer source).entries = .ok (e :: rest) → s.Rejects target e fault →
        (mergeAll target sources).effect s = (.error fault, s)) ∧
      ∀ (t : Tree) (trees : List Tree), t.slot = target → trees.map Tree.slot = sources →
        s.Holds t → t.value.Plain → (∀ y ∈ trees, s.Holds y ∧ y.value.Plain) →
        (t.addresses + Tree.allAddresses trees).Nodup →
        ∀ depth e s', ComesTo s target sources depth e s' →
          ∃ front back m done k v rest, trees.map Tree.value = front ++ .node m :: back ∧
            m.fields = done ++ (k, v) :: rest ∧ e.1 = .ofKey k ∧
            s'.read target = (front.foldl Value.overlaidBy t.value).overlaidBy (.dict done) := by
  refine ⟨fun depth e s' fault hcomes hrejects => ?_, ?_, ?_⟩
  · exact mergeAll_eq_error_iff.mpr (.rejected hcomes hrejects)
  · rintro source back e rest fault rfl htn hsn hentries hrejects
    exact mergeAll_eq_error_iff.mpr (.rejected (comesTo_first htn hsn hentries) hrejects)
  · rintro t trees rfl rfl ht htp htrees hnodup depth e s' hcomes
    exact hcomes.read_eq ht htp htrees hnodup

/-- A store with a list of one item, and a mapping with an index and a name. -/
def indexAndName : Store :=
  ⟨#[.list [.atom (.int 1)],
    .dict [(.text "0", .atom (.int 2)), (.text "x", .atom (.int 3))]]⟩

/-- The store after the index has been merged into the list. -/
def indexWritten : Store := indexAndName.write (.at 0) (.list [.atom (.int 2)])

/-- The merge comes to the name when the index has been written. -/
theorem comesTo_name [Memory] : ComesTo indexAndName (.at 0) [.at 1] 2
    (.text "x", .atom (.int 3)) indexWritten := by
  have hentries : (indexAndName.layer (.at 1)).entries =
      .ok ([(.text "0", .atom (.int 2))] ++ (.text "x", .atom (.int 3)) :: []) := by
    cbv
  have hindex : (mergeEntry (mergeTo 2) (.at 0) (.text "0", .atom (.int 2))).effect indexAndName =
      (.ok (), indexWritten) := by
    have haccess : (indexAndName.layer (.at 0)).access (.text "0") = .ok (.atom (.int 1)) := by
      cbv
    rw [effect_mergeEntry haccess]
    rfl
  have hcomes : ComesTo indexAndName (.at 0) ([] ++ .at 1 :: []) 2 _ indexWritten :=
    .intro rfl rfl rfl hentries ((effect_bind_ok hindex _).trans rfl)
  exact hcomes

/-- A list does not take a name. -/
theorem rejects_name [Memory] :
    indexWritten.Rejects (.at 0) (.text "x", .atom (.int 3)) (.noIndex "'x'") := by
  have haccess : (indexWritten.layer (.at 0)).access (.text "x") = .ok (.atom .null) := by cbv
  exact .written haccess rfl (by cbv)

section

open scoped Memory

/-- The merge fails for the name, and the index stays written. -/
theorem mergeAll_indexAndName :
    (mergeAll (.at 0) [.at 1]).effect indexAndName = (.error (.noIndex "'x'"), indexWritten) := by
  obtain ⟨hstops, -⟩ := mergeAll_of_rejects indexAndName (.at 0) [.at 1]
  exact hstops 2 _ indexWritten _ comesTo_name rejects_name

/-- A target that cannot take a key of a source need not be as it was before. -/
theorem exists_mergeAll_target_changed :
    ¬ ∀ (s s' : Store) (target : Slot) (sources : List Slot) (depth : Nat) (e : Value × Slot)
        (fault : Fault), (mergeAll target sources).effect s = (.error fault, s') →
        ComesTo s target sources depth e s' → s'.Rejects target e fault →
        s'.read target = s.read target := by
  intro h
  have hstops := mergeAll_eq_error_iff.mpr (.rejected comesTo_name rejects_name)
  cases h indexAndName indexWritten (.at 0) [.at 1] 2 _ _ hstops comesTo_name rejects_name

end

end Store

end LooseData
