import LooseData.Proofs.Merge.Once
import LooseData.Proofs.Merge.Safety

set_option autoImplicit false

/-! # Which sources a merge leaves alone

A source keeps its value if it meets each place of the target once (`Value.MeetsOnce`), and the target
shields it from the later sources (`Value.Shields`).

The target is a tree before the source is merged, but not after: the source may hold a collection in
several places. So what a later source meets is described by the cells of a region (`Meets`). Merging
it spares the source, and the sources after it stay clear of that (`sparesUpTo`): what a place holds
is what it has held before, or leads to none of the cells of the source (`Refilled`).
-/

namespace LooseData

open Edit

namespace Store

variable {R region : Multiset Nat} {s s' s₁ : Store} {later : List Value} {address depth : Nat}

/-! ## Merging a later source -/

/-- A collection after a merge, which is of the same kind. What it holds at a place is what was held
there, or it leads to none of the cells `R`. -/
structure Refilled (R : Multiset Nat) (s' : Store) (n n' : Node Slot) : Prop where
  plain : n'.Plain
  samePlace_eq : n'.SamePlace = n.SamePlace
  takes_eq : ∀ m : Node Value, n'.takes m = n.takes m
  held : ∀ key, n'.held key = n.held key ∨ ∀ later, Clear R s' (n'.held key) later

/-- The cells `R` have stayed as they were, and no values lead there that did not before. The plain
collections are still plain, and merged with the same values. -/
structure Spares (R : Multiset Nat) (s s' : Store) : Prop where
  same : ∀ a ∈ R, s'.cells[a]? = s.cells[a]?
  joins_eq : ∀ slot z, s'.joins slot z = s.joins slot z
  plainOn : ∀ region, s.PlainOn region → s'.PlainOn region
  clear : ∀ slot later, Clear R s slot later → Clear R s' slot later
  refilled : ∀ (a : Nat) (n : Node Slot), s.cells[a]? = some n → n.Plain →
    ∃ n', s'.cells[a]? = some n' ∧ Refilled R s' n n'

theorem Refilled.refl {n : Node Slot} (h : n.Plain) (R : Multiset Nat) (s : Store) :
    Refilled R s n n :=
  ⟨h, rfl, fun _ => rfl, fun _ => .inl rfl⟩

theorem Refilled.trans {n n₁ n' : Node Slot} (h : Refilled R s₁ n n₁) (h' : Refilled R s' n₁ n')
    (hclear : ∀ slot later, Clear R s₁ slot later → Clear R s' slot later) :
    Refilled R s' n n' where
  plain := h'.plain
  samePlace_eq := h'.samePlace_eq.trans h.samePlace_eq
  takes_eq m := (h'.takes_eq m).trans (h.takes_eq m)
  held key := by
    rcases h'.held key with heq | hfree
    · rw [heq]
      exact (h.held key).imp_right fun hfree later => hclear _ _ (hfree later)
    · exact .inr hfree

/-- What is clear from what a place held is clear from what it holds now. -/
theorem Refilled.clear_held {n n' : Node Slot} (h : Refilled R s' n n') {key : Key}
    (hclear : Clear R s' (n.held key) later) : Clear R s' (n'.held key) later := by
  rcases h.held key with heq | hfree
  · rwa [heq]
  · exact hfree later

theorem Spares.refl (R : Multiset Nat) (s : Store) : Spares R s s :=
  ⟨fun _ _ => rfl, fun _ _ => rfl, fun _ h => h, fun _ _ h => h,
    fun _ n hcell hn => ⟨n, hcell, .refl hn R s⟩⟩

theorem Spares.trans (h : Spares R s s₁) (h' : Spares R s₁ s') : Spares R s s' where
  same a ha := (h'.same a ha).trans (h.same a ha)
  joins_eq slot z := (h'.joins_eq slot z).trans (h.joins_eq slot z)
  plainOn region hplain := h'.plainOn region (h.plainOn region hplain)
  clear slot later hlater := h'.clear slot later (h.clear slot later hlater)
  refilled a n hcell hn := by
    obtain ⟨n₁, hcell₁, hn₁⟩ := h.refilled a n hcell hn
    obtain ⟨n', hcell', hn'⟩ := h'.refilled a n₁ hcell₁ hn₁.plain
    exact ⟨n', hcell', hn₁.trans hn' h'.clear⟩

/-- A write outside of the cells spares them if it leads nowhere near them. -/
theorem spares_write {n : Node Slot} {key : Key} {v : Slot} (hcell : s.cells[address]? = some n)
    (hn : n.Plain) (hput : (n.put key v).Plain) (hout : address ∉ R)
    (hv : ∀ later, Clear R (s.write (.at address) (n.put key v)) v later) :
    Spares R s (s.write (.at address) (n.put key v)) where
  same a ha := by
    refine getElem?_write_of_ne ?_ _
    rintro rfl
    exact hout ha
  joins_eq := joins_write hcell key v
  plainOn _ hplainOn := hplainOn.write hput address
  clear _ _ hlater := hlater.write hcell hn hv
  refilled a m hm hplain := by
    by_cases heq : a = address
    · subst heq
      obtain rfl := Option.some.inj (hcell.symm.trans hm)
      have hlt : a < s.cells.size := (Array.getElem?_eq_some_iff.mp hcell).1
      refine ⟨_, getElem?_write_self hlt _, hput, n.samePlace_put key v, n.takes_put key v,
        fun key' => ?_⟩
      by_cases hsame : n.SamePlace key key'
      · rw [← n.samePlace_put key v] at hsame
        rw [← Node.held_eq_of_samePlace hsame, hn.held_put_self]
        exact .inr hv
      · exact .inl (Node.held_put_of_not_samePlace hsame)
    · exact ⟨m, (getElem?_write_of_ne heq _).trans hm, .refl hplain R _⟩

/-- A later source `y` and the region that it is merged into: the region is closed, its collections
are plain, and the source is a tree that shares nothing with it, nor with the cells `R`. -/
structure Meets (R region : Multiset Nat) (s : Store) (y : Tree) : Prop where
  closed : s.ClosedOn region
  plainOn : s.PlainOn region
  holds : s.Holds y
  plain : y.value.Plain
  nodup : y.addresses.Nodup
  apart : ∀ a ∈ y.addresses, a ∉ region
  out : ∀ a ∈ y.addresses, a ∉ R

/-- Merging a source that is clear of the cells `R` spares them, and the values that are to come after
it are still clear of them. -/
def SparesUpTo [Memory] (R : Multiset Nat) (depth : Nat) : Prop :=
  ∀ (s : Store) (region : Multiset Nat) (target : Slot) (y : Tree) (later : List Value),
    Meets R region s y → target.In region → s.joins target y.value = true →
    Clear R s target (y.value :: later) →
    Ensures (mergeTo depth target y.slot) s fun _ s' => Spares R s s' ∧ Clear R s' target later

section

variable {y : Tree}

/-- **The step of a later source.** -/
theorem Meets.ensures_mergeEntry [Memory] (h : Meets R region s y) (hrec : SparesUpTo R depth)
    {n : Node Slot} (haddress : address ∈ region) (hcell : s.cells[address]? = some n)
    (hout : address ∉ R) (name : String)
    (hclear : Clear R s (n.held (.text name)) (y.value :: later)) :
    Ensures (mergeEntry (mergeTo depth) (.at address) (.text name, y.slot)) s fun _ s' =>
      Spares R s s' ∧ ∃ n', s'.cells[address]? = some n' ∧ Refilled R s' n n' ∧
        Clear R s' (n'.held (.text name)) later := by
  have hheld := h.closed.held_in haddress hcell (.text name)
  have hn := h.plainOn address haddress n hcell
  refine ends_mergeEntry_of (fun _ _ _ => trivial) hcell hn (h.plainOn.plain_of_layer hheld) h.holds
    h.plain ?_ ?_
  · intro _ hjoins
    refine (hrec s region _ y later h hheld hjoins hclear).mono ?_
    rintro _ s' ⟨hspares, hclear'⟩
    obtain ⟨n', hcell', hn'⟩ := hspares.refilled address n hcell hn
    exact ⟨hspares, n', hcell', hn', hn'.clear_held hclear'⟩
  · -- One cell is written, which is none of `R`, and what is put there leads to none of `R`.
    intro _ _
    have hy : (s.write (.at address) (n.put (.text name) y.slot)).Holds y := by
      refine h.holds.frame fun a ha => getElem?_write_of_ne ?_ _
      rintro rfl
      exact h.apart a ha haddress
    have hspares := spares_write hcell hn (hn.put name _) hout (hy.clear h.out)
    obtain ⟨n', hcell', hn'⟩ := hspares.refilled address n hcell hn
    refine ⟨hspares, n', hcell', hn', ?_⟩
    have hlt : address < s.cells.size := (Array.getElem?_eq_some_iff.mp hcell).1
    obtain rfl := Option.some.inj ((getElem?_write_self hlt _).symm.trans hcell')
    rw [hn.held_put_self]
    exact hy.clear h.out later

end

/-- The sources that are to come, after one has been merged. -/
theorem Meets.of_spares {y z : Tree} (h : Meets R region s z) (hy : Meets R region s y)
    (hapart : ∀ a ∈ y.addresses, a ∉ z.addresses) (hspares : Spares R s s')
    (hconfined : Confined (region + y.addresses) s s') : Meets R (region + y.addresses) s' z := by
  have hout : ∀ a ∈ z.addresses, a ∉ region + y.addresses := fun a ha hin =>
    (Multiset.mem_add.mp hin).elim (h.apart a ha) fun hin => hapart a hin ha
  have hplainOn := h.plainOn.add (hy.holds.plainOn hy.plain)
  have hholds : s'.Holds z := h.holds.frame fun a ha => hconfined.frame a (hout a ha)
  exact ⟨hconfined.closed, hspares.plainOn _ hplainOn, hholds, h.plain, h.nodup, hout, h.out⟩

/-- After an entry has been merged, what is left to come is clear of the cells from every place: from
that of the entry, and from the others, to which the entry has brought nothing. -/
theorem Refilled.clear_left {n n₁ : Node Slot} (h : Refilled R s₁ n n₁) (hspares : Spares R s s₁)
    {name : String} {y : Tree} {rest : Table Tree}
    (hclear : ∀ key, Clear R s (n.held key)
      ((n.bringing key ((.text name, y) :: rest)).map Tree.value ++ n.brought key later))
    (hhere : Clear R s₁ (n₁.held (.text name))
      ((n.bringing (.text name) rest).map Tree.value ++ n.brought (.text name) later)) (key : Key) :
    Clear R s₁ (n₁.held key)
      ((n₁.bringing key rest).map Tree.value ++ n₁.brought key later) := by
  rw [Node.bringing_congr h.samePlace_eq, Node.brought_congr h.samePlace_eq h.takes_eq]
  by_cases hsame : n.SamePlace (.text name) key
  · have hsame₁ := hsame
    rw [← h.samePlace_eq] at hsame₁
    rw [← Node.held_eq_of_samePlace hsame₁, ← Node.bringing_of_samePlace hsame,
      ← Node.brought_of_samePlace hsame]
    exact hhere
  · have hkey := hclear key
    rw [Node.bringing_cons_of_not_samePlace fun h => hsame h.symm] at hkey
    exact h.clear_held (hspares.clear _ _ hkey)

/-- **The run of a later source.** The entries that are left to merge bring their values to the
places of the collection before those that come later. -/
theorem ensures_mergeEntries_spares [Memory] (hrec : SparesUpTo R depth) (entries : Table Tree)
    {n : Node Slot} (haddress : address ∈ region) (hout : address ∉ R)
    (hcell : s.cells[address]? = some n)
    (hentries : ∀ e ∈ entries, (∃ name, e.1 = .text name) ∧ Meets R region s e.2)
    (hnodup : (Tree.allAddresses (entries.map Prod.snd)).Nodup)
    (hclear : ∀ key, Clear R s (n.held key)
      ((n.bringing key entries).map Tree.value ++ n.brought key later)) :
    Ensures ((entries.map fun e => (Value.ofKey e.1, e.2.slot)).forM
      (mergeEntry (mergeTo depth) (.at address))) s fun _ s' =>
        Spares R s s' ∧ Clear R s' (.at address) later := by
  induction entries generalizing s region n with
  | nil => exact ends_pure ⟨.refl R s, .entered hcell hout hclear⟩
  | cons e rest ih =>
      obtain ⟨k, y⟩ := e
      obtain ⟨⟨⟨name, rfl⟩, hy⟩, hrest⟩ := List.forall_mem_cons.mp hentries
      rw [List.map_cons, Tree.allAddresses_cons, Multiset.nodup_add,
        Multiset.disjoint_left] at hnodup
      obtain ⟨-, hnodup, hapart⟩ := hnodup
      have hn := hy.plainOn address haddress n hcell
      have hfirst := hclear (.text name)
      rw [Node.bringing_cons_of_samePlace (hn.samePlace_self _), List.map_cons,
        List.cons_append] at hfirst
      have hstep := hy.ensures_mergeEntry hrec haddress hcell hout name hfirst
      have hin : (Slot.at address).In (region + y.addresses) := Multiset.mem_add.mpr (.inl haddress)
      have hkeeps : Keeps (Confined (region + y.addresses) s)
          (mergeEntry (mergeTo depth) (.at address) (.text name, y.slot)) :=
        keeps_mergeEntry (keeps_mergeTo depth) hin
          (hy.holds.slot_in (Multiset.le_add_left _ _)) _
      rw [List.map_cons]
      -- The region grows by the entry, and the entries that are to come lie outside of it.
      refine (hstep.and_keeps hkeeps ⟨hy.closed.add hy.holds.closedOn, fun _ _ => rfl⟩).bind ?_
      rintro _ s₁ ⟨⟨hspares, n₁, hcell₁, hn₁, hclear₁⟩, hconfined⟩
      refine (ih hin hcell₁ (fun e he => ?_) hnodup (hn₁.clear_left hspares hclear hclear₁)).mono
        fun _ _ h => ⟨hspares.trans h.1, h.2⟩
      obtain ⟨hname, hmeets⟩ := hrest e he
      refine ⟨hname, hmeets.of_spares hy (fun a ha hlater => ?_) hspares hconfined⟩
      exact hapart ha (Tree.mem_allAddresses.mpr ⟨_, List.mem_map_of_mem he, hlater⟩)

/-- **A source that is clear of the cells spares them**, through any number of levels. -/
theorem sparesUpTo [Memory] (R : Multiset Nat) (depth : Nat) : SparesUpTo R depth := by
  induction depth with
  | zero =>
      intro s region target y later _ _ _ _
      exact ensures_fail
  | succ depth ih =>
      intro s region target y later h htarget hjoins hclear
      -- What is merged are two collections. The entries of the one are merged into the other.
      obtain ⟨address, n, _, rfl, hcell, hvalue, -⟩ := exists_of_joins hjoins
      have hnested : y.value.isNested = true := by
        have hplain := h.plain
        rw [hvalue] at hplain ⊢
        exact hplain.isNested_eq
      obtain ⟨address', m, rfl, hm, hcell', hchildren⟩ := h.holds.exists_plain h.plain hnested
      obtain ⟨n', hn', hout, hplaces⟩ := hclear.of_joins hjoins
      obtain rfl := Option.some.inj (hcell.symm.trans hn')
      refine ends_mergeTo_of_forM (fun _ _ _ => trivial) hcell (h.plainOn _ htarget n hcell) hcell' hm ?_
      have hnodup : (Tree.allAddresses (m.fields.map Prod.snd)).Nodup := by
        rw [hm.map_snd_fields]
        exact (Multiset.nodup_cons.mp h.nodup).2
      refine ensures_mergeEntries_spares ih m.fields htarget hout hcell (fun e he => ?_) hnodup
        fun key => ?_
      · obtain ⟨name, hname, -⟩ := hm.of_mem_fields he
        have hmem := hm.mem_children_of_mem_fields he
        have hin (a : Nat) (ha : a ∈ e.2.addresses) : a ∈ (Tree.ofNode address' m).addresses :=
          Multiset.mem_cons_of_mem (Tree.mem_allAddresses.mpr ⟨_, hmem, ha⟩)
        refine ⟨⟨name, hname⟩, h.closed, h.plainOn, (hchildren _ hmem).1, (hchildren _ hmem).2,
          ?_, fun a ha => h.apart a (hin a ha), fun a ha => h.out a (hin a ha)⟩
        exact Multiset.nodup_of_le (Tree.addresses_le_allAddresses hmem)
          (Multiset.nodup_cons.mp h.nodup).2
      · have hkey := hplaces key
        rwa [Node.fields_map, Node.bringing_map] at hkey

/-! ## From the top -/

section

variable {target : Slot} {y : Tree}

/-- A list stays a list. -/
theorem exists_list_of_kinds {items : List Slot} (hcell : s.cells[address]? = some (.list items))
    (hkinds : s'.kinds = s.kinds) : ∃ items', s'.cells[address]? = some (.list items') := by
  obtain ⟨n, hcell', hkind⟩ := exists_cell_of_kinds hkinds.symm hcell
  cases n with
  | list items' => exact ⟨items', hcell'⟩
  | _ => simp [Node.kind] at hkind

/-- Entries of which one has a key that the list cannot take are not merged without a fault. -/
theorem ensures_forM_of_not_digitsOnly [Memory] (entries : Table Tree) {items : List Slot}
    (hcell : s.cells[address]? = some (.list items)) (hnames : ∀ e ∈ entries, ∃ name, e.1 = .text name)
    (hkey : ∃ e ∈ entries, e.1.digitsOnly = false) (Q : Unit → Store → Prop) :
    Ensures ((entries.map fun e => (Value.ofKey e.1, e.2.slot)).forM
      (mergeEntry (mergeTo depth) (.at address))) s Q := by
  induction entries generalizing s items with
  | nil =>
      obtain ⟨_, hmem, -⟩ := hkey
      cases hmem
  | cons e rest ih =>
      obtain ⟨⟨name, hname⟩, hnames⟩ := List.forall_mem_cons.mp hnames
      rw [List.map_cons]
      rcases (List.exists_mem_cons_iff ..).mp hkey with hdigits | hkey
      · rw [hname] at hdigits ⊢
        have hstep : Ensures (mergeEntry (mergeTo depth) (.at address) (.text name, e.2.slot)) s
            fun _ _ => False :=
          ends_mergeEntry_of_not_takesKey (fun _ _ _ => trivial) hcell trivial hdigits
        exact hstep.bind fun _ _ h => h.elim
      · have hany : Ensures (mergeEntry (mergeTo depth) (.at address) (Value.ofKey e.1, e.2.slot)) s
            fun _ _ => True := ⟨fun _ _ _ => trivial, fun _ _ _ => trivial⟩
        have hkeeps := keeps_mergeEntry_of_assign (keeps_kinds_assign s.kinds) depth
          (.at address) (Value.ofKey e.1, e.2.slot)
        refine (hany.and_keeps hkeeps rfl).bind ?_
        rintro _ s₁ ⟨-, hkinds⟩
        obtain ⟨items', hcell'⟩ := exists_list_of_kinds hcell hkinds
        exact ih hcell' hnames hkey

/-- A source that is not merged with the target changes nothing, or the merge fails. -/
theorem ensures_merge_of_not_joins [Memory] (htarget : ∀ n, s.layer target = .node n → n.Plain)
    (hy : s.Holds y) (hyplain : y.value.Plain) (hjoins : s.joins target y.value = false) :
    Ensures (merge target y.slot) s fun _ s' => s' = s := by
  refine ends_get_bind ?_
  cases hnested : (s.layer target).isNested && (s.layer y.slot).isNested with
  | false =>
      rw [mergeTo]
      refine ends_layerOf_bind (ends_layerOf_bind ?_)
      rw [hnested]
      refine ⟨fun _ _ _ => trivial, ?_⟩
      rintro _ s' ⟨⟩
      rfl
  | true =>
      obtain ⟨htn, hyn⟩ := Bool.and_eq_true_iff.mp hnested
      rw [isNested_layer hy] at hyn
      obtain ⟨address', m, rfl, hm, hcell', -⟩ := hy.exists_plain hyplain hyn
      cases target with
      | atom a => cases htn
      | «at» address =>
          cases hcell : s.cells[address]? with
          | none =>
              rw [layer, hcell] at htn
              cases htn
          | some n =>
              have hn := htarget n (layer_at hcell)
              have htakes : n.takes m = false := by
                have heq : s.joins (.at address) (Tree.ofNode address' m).value =
                    n.takes (m.map Tree.value) :=
                  joins_eq_takes (layer_at hcell) hn ((Node.plain_map _).mpr hm)
                rwa [heq, Node.takes_map_right] at hjoins
              -- Only a list does not take all keys.
              refine ends_mergeTo_of_forM (fun _ _ _ => trivial) hcell hn hcell' hm ?_
              cases n with
              | list items =>
                  obtain ⟨e, he, hdigits⟩ := List.all_eq_false.mp htakes
                  refine ensures_forM_of_not_digitsOnly m.fields hcell (fun e he => ?_)
                    ⟨e, he, Bool.eq_false_iff.mpr hdigits⟩ _
                  obtain ⟨name, hname, -⟩ := hm.of_mem_fields he
                  exact ⟨name, hname⟩
              | dict _ => cases htakes
              | _ => exact hn.elim

/-- Merging a source that comes before: the target becomes the overlay. -/
theorem ensures_merge_plain [Memory] {t : Tree} (ht : s.Holds t) (hy : s.Holds y)
    (hnodup : (t.addresses + y.addresses).Nodup) (htp : t.value.Plain) (hyp : y.value.Plain) :
    Ensures (merge t.slot y.slot) s fun _ s' =>
      ∃ t', s.Rewrites t y.addresses s' t' ∧ t'.value.Plain ∧
        t'.value = t.value.overlaidBy y.value := by
  cases hnested : t.value.isNested && y.value.isNested with
  | false =>
      have hjoins : s.joins t.slot y.value = false := by
        rw [ht.joins_eq, Value.joins, hnested, Bool.false_and]
      refine (ensures_merge_of_not_joins (ht.plain_of_layer htp) hy hyp hjoins).mono ?_
      rintro _ _ rfl
      refine ⟨t, (Rewrites.refl ht).mono (Multiset.zero_le _), htp, ?_⟩
      exact (Value.overlaidBy_of_not_nested htp hyp hnested).symm
  | true =>
      obtain ⟨htn, hyn⟩ := Bool.and_eq_true_iff.mp hnested
      have hmerge := ends_merge ht hy hnodup htp hyp htn hyn
      refine (hmerge.mono_fault fun _ _ _ => trivial).mono ?_
      rintro _ s' ⟨htakes, t', hrewrites, hvalue⟩
      have hjoins : t.value.joins y.value = true := Bool.and_eq_true_iff.mpr ⟨hnested, htakes⟩
      have hlaid : y.value.laidOver t.value = t.value.overlaidBy y.value := if_pos hjoins
      refine ⟨t', hrewrites, ?_, hvalue⟩
      rw [hvalue, ← hlaid]
      exact hyp.laidOver _ htp

/-- Merging the source itself. -/
theorem ensures_merge_once [Memory] {t : Tree} (ht : s.Holds t) (hy : s.Holds y)
    (hnodup : t.addresses.Nodup)
    (hapart : ∀ a ∈ t.addresses, a ∉ y.addresses) (htp : t.value.Plain) (hyp : y.value.Plain)
    (honce : t.value.MeetsOnce y.value) :
    Ensures (merge t.slot y.slot) s fun _ s' => MergedOnce y.addresses t y s s' := by
  cases hjoins : t.value.joins y.value with
  | false =>
      rw [← ht.joins_eq] at hjoins
      refine (ensures_merge_of_not_joins (ht.plain_of_layer htp) hy hyp hjoins).mono ?_
      rintro _ _ rfl
      exact ⟨ht.plainOn htp, fun _ _ => rfl, fun _ => rfl, fun later _ => ht.clear hapart later⟩
  | true =>
      refine ends_get_bind ?_
      exact staysOutUpTo y.addresses _ s t y ht hy hy.closedOn hnodup hapart (fun _ ha => ha) htp hyp
        hjoins honce

/-- Merging a later source. -/
theorem Meets.ensures_merge [Memory] (h : Meets R region s y) (htarget : target.In region)
    (hjoins : s.joins target y.value = true) (hclear : Clear R s target (y.value :: later)) :
    Ensures (merge target y.slot) s fun _ s' => Spares R s s' ∧ Clear R s' target later := by
  refine ends_get_bind ?_
  exact sparesUpTo R _ s region target y later h htarget hjoins hclear

/-- **The run of the later sources.** Those that are not merged with the target change nothing. -/
theorem ensures_mergeAll_spares [Memory] (later : List Tree) (htarget : target.In region)
    (hlater : ∀ z ∈ later, Meets R region s z)
    (hclear : Clear R s target ((later.map Tree.value).filter (s.joins target)))
    (hnodup : (Tree.allAddresses later).Nodup) :
    Ensures (mergeAll target (later.map Tree.slot)) s fun _ s' => Spares R s s' := by
  induction later generalizing s region with
  | nil => exact ends_pure (.refl R s)
  | cons z rest ih =>
      obtain ⟨hz, hrest⟩ := List.forall_mem_cons.mp hlater
      rw [Tree.allAddresses_cons, Multiset.nodup_add, Multiset.disjoint_left] at hnodup
      obtain ⟨-, hnodup, hapart⟩ := hnodup
      have hin : target.In (region + z.addresses) := htarget.add
      have hmerge : Ensures (merge target z.slot) s fun _ s' => Spares R s s' ∧
          Clear R s' target ((rest.map Tree.value).filter (s.joins target)) := by
        rw [List.map_cons] at hclear
        cases hjoins : s.joins target z.value with
        | false =>
            rw [List.filter_cons_of_neg (by rw [hjoins]; nofun)] at hclear
            refine (ensures_merge_of_not_joins (hz.plainOn.plain_of_layer htarget) hz.holds hz.plain
              hjoins).mono ?_
            rintro _ _ rfl
            exact ⟨.refl R _, hclear⟩
        | true =>
            rw [List.filter_cons_of_pos hjoins] at hclear
            exact hz.ensures_merge htarget hjoins hclear
      have hkeeps : Keeps (Confined (region + z.addresses) s) (merge target z.slot) :=
        keeps_get_bind fun s₁ hs₁ => keeps_mergeTo _ hin
          (hz.holds.slot_in (Multiset.le_add_left _ _)) s₁ hs₁
      refine (hmerge.and_keeps hkeeps ⟨hz.closed.add hz.holds.closedOn, fun _ _ => rfl⟩).bind ?_
      rintro _ s₁ ⟨⟨hspares, hclear₁⟩, hconfined⟩
      rw [← funext (hspares.joins_eq target)] at hclear₁
      refine (ih hin (fun y hy => ?_) hclear₁ hnodup).mono fun _ _ h => hspares.trans h
      refine (hrest y hy).of_spares hz (fun a ha hin => ?_) hspares hconfined
      exact hapart ha (Tree.mem_allAddresses.mpr ⟨y, hy, hin⟩)

/-- The run from the source on. -/
theorem ensures_mergeAll_from [Memory] {t : Tree} {back : List Tree} (ht : s.Holds t)
    (htp : t.value.Plain)
    (hy : s.Holds y) (hyp : y.value.Plain) (hback : ∀ z ∈ back, s.Holds z ∧ z.value.Plain)
    (hnodup : (t.addresses + Tree.allAddresses back).Nodup)
    (hapart : ∀ a ∈ y.addresses, a ∉ t.addresses + Tree.allAddresses back)
    (honce : t.value.MeetsOnce y.value)
    (hshields : t.value.Shields y.value ((back.map Tree.value).filter t.value.joins)) :
    Ensures (mergeAll t.slot ((y :: back).map Tree.slot)) s fun _ s' =>
      ∀ a ∈ y.addresses, s'.cells[a]? = s.cells[a]? := by
  rw [Multiset.nodup_add, Multiset.disjoint_left] at hnodup
  obtain ⟨htnodup, hbacknodup, hdisjoint⟩ := hnodup
  have hout : ∀ a ∈ t.addresses, a ∉ y.addresses := fun a ha hin =>
    hapart a hin (Multiset.mem_add.mpr (.inl ha))
  have hin : t.slot.In (t.addresses + y.addresses) := (ht.slot_in le_rfl).add
  have hkeeps : Keeps (Confined (t.addresses + y.addresses) s) (merge t.slot y.slot) :=
    keeps_get_bind fun s₁ hs₁ => keeps_mergeTo _ hin
      (hy.slot_in (Multiset.le_add_left _ _)) s₁ hs₁
  refine ((ensures_merge_once ht hy htnodup hout htp hyp honce).and_keeps hkeeps
    ⟨ht.closedOn.add hy.closedOn, fun _ _ => rfl⟩).bind ?_
  rintro _ s₁ ⟨hmerged, hconfined⟩
  have hsame (a : Nat) (ha : a ∈ y.addresses) : s₁.cells[a]? = s.cells[a]? :=
    hmerged.frame a fun hin => hout a hin ha
  have hclear := hmerged.clear _ hshields
  rw [← funext fun z => (hmerged.joins_eq z).trans (ht.joins_eq z)] at hclear
  refine (ensures_mergeAll_spares (R := y.addresses) back hin (fun z hz => ?_) hclear
    hbacknodup).mono fun _ s' hspares a ha => (hspares.same a ha).trans (hsame a ha)
  obtain ⟨hheld, hzp⟩ := hback z hz
  have hlater (a : Nat) (ha : a ∈ z.addresses) : a ∈ Tree.allAddresses back :=
    Tree.mem_allAddresses.mpr ⟨z, hz, ha⟩
  have hzout : ∀ a ∈ z.addresses, a ∉ y.addresses := fun a ha hin =>
    hapart a hin (Multiset.mem_add.mpr (.inr (hlater a ha)))
  have hzapart : ∀ a ∈ z.addresses, a ∉ t.addresses := fun a ha hin =>
    hdisjoint hin (hlater a ha)
  refine ⟨hconfined.closed, hmerged.plainOn.add ?_, ?_, hzp, ?_, fun a ha hin => ?_, hzout⟩
  · exact (hy.frame hsame).plainOn hyp
  · exact hheld.frame fun a ha => hmerged.frame a (hzapart a ha)
  · exact Multiset.nodup_of_le (Tree.addresses_le_allAddresses hz) hbacknodup
  · exact (Multiset.mem_add.mp hin).elim (hzapart a ha) (hzout a ha)

/-- **The run of all sources**, of which those in `front` come before the source. -/
theorem ensures_mergeAll_once [Memory] {t : Tree} {front back : List Tree} (ht : s.Holds t)
    (htp : t.value.Plain) (hy : s.Holds y) (hyp : y.value.Plain)
    (hothers : ∀ z ∈ front ++ back, s.Holds z ∧ z.value.Plain)
    (hnodup : (t.addresses + Tree.allAddresses (front ++ back)).Nodup)
    (hapart : ∀ a ∈ y.addresses, a ∉ t.addresses + Tree.allAddresses (front ++ back))
    (honce : (front.foldl (fun v z => v.overlaidBy z.value) t.value).MeetsOnce y.value)
    (hshields : (front.foldl (fun v z => v.overlaidBy z.value) t.value).Shields y.value
      ((back.map Tree.value).filter
        (front.foldl (fun v z => v.overlaidBy z.value) t.value).joins)) :
    Ensures (mergeAll t.slot ((front ++ y :: back).map Tree.slot)) s fun _ s' =>
      ∀ a ∈ y.addresses, s'.cells[a]? = s.cells[a]? := by
  induction front generalizing s t with
  | nil =>
      rw [List.nil_append] at hothers hnodup hapart
      exact ensures_mergeAll_from ht htp hy hyp hothers hnodup hapart honce hshields
  | cons x front ih =>
      rw [List.cons_append] at hothers hnodup hapart
      obtain ⟨⟨hx, hxp⟩, hrest⟩ := List.forall_mem_cons.mp hothers
      rw [Tree.allAddresses_cons, ← add_assoc] at hnodup hapart
      have hboth := Multiset.nodup_of_le (Multiset.le_add_right _ _) hnodup
      refine (ensures_merge_plain ht hx hboth htp hxp).bind ?_
      rintro _ s₁ ⟨t₁, hrewrites, hplain, hvalue⟩
      rw [List.foldl_cons, ← hvalue] at honce hshields
      have hsame (a : Nat) (ha : a ∈ y.addresses) : s₁.cells[a]? = s.cells[a]? :=
        hrewrites.frame a fun hin => hapart a ha (Multiset.mem_add.mpr (.inl hin))
      have hlast := ih hrewrites.holds hplain (hy.frame hsame)
        (fun z hz => ⟨hrewrites.holds_of_mem hnodup hz (hrest z hz).1, (hrest z hz).2⟩)
        (hrewrites.nodup hnodup) (fun a ha hin => hapart a ha (Multiset.mem_of_le
          (add_le_add_left hrewrites.addresses_le _) hin)) honce hshields
      rw [hrewrites.slot_eq] at hlast
      exact hlast.mono fun _ s' hlast a ha => (hlast a ha).trans (hsame a ha)

end

/-- **A merge leaves a source alone** that meets each place of the target once and from which the
target shields it. Let the target and the sources be dictionaries with texts as keys, lists and
atoms. The source shares no collection with the target or another source, and no collection occurs
twice in these. After the merge the source has the value that it had before, if at no level two of
its keys meet one place of the target that it is laid over, and no later source is merged into a
collection of it: wherever the target, with the sources before it laid over, holds no collection that
takes the keys of the source's one, so that this one is put there, the first value that the later
sources bring to that place is not a collection whose keys it takes, but replaces it. Sources that are
not merged with the target as a whole bring nothing. -/
theorem read_source_mergeAll [Memory] {target source : Tree} (front back : List Tree)
    (ht : s.Holds target) (hs : ∀ z ∈ front ++ source :: back, s.Holds z)
    (hshare : (target.addresses + Tree.allAddresses (front ++ back)).Nodup)
    (hapart : ∀ a ∈ source.addresses, a ∉ target.addresses + Tree.allAddresses (front ++ back))
    (htp : target.value.Plain) (hsp : ∀ z ∈ front ++ source :: back, z.value.Plain)
    (honce : (front.foldl (fun v z => v.overlaidBy z.value) target.value).MeetsOnce source.value)
    (hshields : (front.foldl (fun v z => v.overlaidBy z.value) target.value).Shields source.value
      ((back.map Tree.value).filter
        (front.foldl (fun v z => v.overlaidBy z.value) target.value).joins))
    (heffect : (mergeAll target.slot ((front ++ source :: back).map Tree.slot)).effect s =
      (.ok (), s')) :
    s'.read source.slot = source.value := by
  have hmem : source ∈ front ++ source :: back := List.mem_append_right _ List.mem_cons_self
  have hothers : ∀ z ∈ front ++ back, z ∈ front ++ source :: back := fun z hz =>
    (List.mem_append.mp hz).elim (fun hz => List.mem_append_left _ hz)
      fun hz => List.mem_append_right _ (List.mem_cons_of_mem _ hz)
  have hsame := (ensures_mergeAll_once ht htp (hs source hmem) (hsp source hmem)
    (fun z hz => ⟨hs z (hothers z hz), hsp z (hothers z hz)⟩) hshare hapart honce hshields).2 ()
    s' heffect
  exact ((hs source hmem).frame hsame).read_eq

/-- A dictionary with the fields of an interface. -/
def interface (outer inner : Nat) (fields : Table Tree) : Tree :=
  .ofNode outer (.dict [(.text "api", .ofNode inner (.dict fields))])

/-- A store that holds three of them: one without fields, one with a host, and one with a port. -/
def interfaceStore : Store :=
  ⟨#[.dict [], .dict [(.text "api", .at 0)],
    .dict [(.text "host", .atom (.text "a"))], .dict [(.text "api", .at 2)],
    .dict [(.text "port", .atom (.int 80))], .dict [(.text "api", .at 4)]]⟩

/-- The interface with a host. -/
def withHost : Tree := interface 3 2 [(.text "host", .ofAtom (.text "a"))]

/-- The interface with a port. -/
def withPort : Tree := interface 5 4 [(.text "port", .ofAtom (.int 80))]

theorem holds_withHost : interfaceStore.Holds withHost := by
  refine .node rfl (List.forall_mem_singleton.mpr (.node rfl ?_))
  exact List.forall_mem_singleton.mpr (.atom _)

theorem holds_withPort : interfaceStore.Holds withPort := by
  refine .node rfl (List.forall_mem_singleton.mpr (.node rfl ?_))
  exact List.forall_mem_singleton.mpr (.atom _)

theorem plain_interface (outer inner : Nat) (name : String) (a : Atom) :
    (interface outer inner [(.text name, .ofAtom a)]).value.Plain := by
  refine .node ⟨List.pairwise_singleton _ _, List.forall_mem_singleton.mpr ⟨_, rfl⟩⟩ ?_
  refine List.forall_mem_singleton.mpr
    (.node ⟨List.pairwise_singleton _ _, List.forall_mem_singleton.mpr ⟨_, rfl⟩⟩ ?_)
  exact List.forall_mem_singleton.mpr (.atom _)

section

open scoped Memory

/-- The target has an interface of its own, to which both sources are added. -/
theorem read_withHost_mergeAll :
    ((mergeAll (.at 1) [withHost.slot, withPort.slot]).effect interfaceStore).2.read
      withHost.slot = withHost.value := by
  have htarget : interfaceStore.Holds (interface 1 0 []) :=
    .node rfl (List.forall_mem_singleton.mpr (.node rfl nofun))
  have hplain : (interface 1 0 []).value.Plain :=
    .node ⟨List.pairwise_singleton _ _, List.forall_mem_singleton.mpr ⟨_, rfl⟩⟩
      (List.forall_mem_singleton.mpr (.node ⟨.nil, nofun⟩ nofun))
  have honce : (interface 1 0 []).value.MeetsOnce withHost.value := by
    refine .entered (List.pairwise_singleton _ _) (List.forall_mem_singleton.mpr ?_)
    exact .entered (List.pairwise_singleton _ _) (List.forall_mem_singleton.mpr (.replaced rfl))
  have hshields : (interface 1 0 []).value.Shields withHost.value [withPort.value] := by
    refine .entered rfl (List.forall_mem_singleton.mpr ?_)
    -- The port is brought to another place than the host.
    exact .entered rfl (List.forall_mem_singleton.mpr (.placed rfl nofun))
  refine read_source_mergeAll [] [withPort] htarget ?_ (by decide) (by decide) hplain ?_ honce
    hshields rfl
  · exact List.forall_mem_cons.mpr ⟨holds_withHost, List.forall_mem_singleton.mpr holds_withPort⟩
  · exact List.forall_mem_cons.mpr
      ⟨plain_interface _ _ _ _, List.forall_mem_singleton.mpr (plain_interface _ _ _ _)⟩

/-- A target without an interface takes over that of the first source, to which the second one is
added. -/
theorem exists_mergeAll_source_changed :
    ¬ ∀ (s s' : Store) (target : Tree) (sources : List Tree), s.Holds target →
        (∀ z ∈ sources, s.Holds z) → (target.addresses + Tree.allAddresses sources).Nodup →
        target.value.Plain → (∀ z ∈ sources, z.value.Plain) →
        (mergeAll target.slot (sources.map Tree.slot)).effect s = (.ok (), s') →
        ∀ z ∈ sources, s'.read z.slot = z.value := by
  intro h
  have hread := h interfaceStore _ (.ofNode 0 (.dict [])) [withHost, withPort] (.node rfl nofun)
    (List.forall_mem_cons.mpr ⟨holds_withHost, List.forall_mem_singleton.mpr holds_withPort⟩)
    (by decide) (.node ⟨.nil, nofun⟩ nofun)
    (List.forall_mem_cons.mpr
      ⟨plain_interface _ _ _ _, List.forall_mem_singleton.mpr (plain_interface _ _ _ _)⟩)
    rfl withHost List.mem_cons_self
  cases hread

end

/-- A dictionary that holds the given trees under `a` and `b`. -/
def sides (address : Nat) (x y : Tree) : Tree :=
  .ofNode address (.dict [(.text "a", x), (.text "b", y)])

/-- A store with a target that holds the same empty dictionary twice, and a source with two
interfaces. -/
def sharedStore : Store :=
  ⟨#[.dict [], .dict [(.text "a", .at 0), (.text "b", .at 0)],
    .dict [(.text "host", .atom (.text "a"))], .dict [(.text "api", .at 2)],
    .dict [(.text "port", .atom (.int 80))], .dict [(.text "api", .at 4)],
    .dict [(.text "a", .at 3), (.text "b", .at 5)]]⟩

theorem holds_sides {address : Nat} {x y : Tree} (hx : s.Holds x) (hy : s.Holds y)
    (hcell : s.cells[address]? = some (.dict [(.text "a", x.slot), (.text "b", y.slot)])) :
    s.Holds (sides address x y) :=
  .node hcell (List.forall_mem_cons.mpr ⟨hx, List.forall_mem_singleton.mpr hy⟩)

theorem plain_sides {x y : Tree} (hx : x.value.Plain) (hy : y.value.Plain) (address : Nat) :
    (sides address x y).value.Plain := by
  refine .node ⟨List.pairwise_pair.mpr rfl, ?_⟩ ?_
  · exact List.forall_mem_cons.mpr ⟨⟨_, rfl⟩, List.forall_mem_singleton.mpr ⟨_, rfl⟩⟩
  · exact List.forall_mem_cons.mpr ⟨hx, List.forall_mem_singleton.mpr hy⟩

/-- No collection may occur twice in the target: what the source puts there at one place would be met
at the other one. -/
theorem exists_mergeAll_shared_changed [Memory] :
    ¬ ∀ (s s' : Store) (target source : Tree), s.Holds target → s.Holds source →
        source.addresses.Nodup → (∀ a ∈ source.addresses, a ∉ target.addresses) →
        target.value.Plain → source.value.Plain → target.value.MeetsOnce source.value →
        (mergeAll target.slot [source.slot]).effect s = (.ok (), s') →
        s'.read source.slot = source.value := by
  intro h
  have hempty : (Tree.ofNode 0 (.dict [])).value.Plain := .node ⟨.nil, nofun⟩ nofun
  have hhost : sharedStore.Holds withHost := by
    refine .node rfl (List.forall_mem_singleton.mpr (.node rfl ?_))
    exact List.forall_mem_singleton.mpr (.atom _)
  have hport : sharedStore.Holds withPort := by
    refine .node rfl (List.forall_mem_singleton.mpr (.node rfl ?_))
    exact List.forall_mem_singleton.mpr (.atom _)
  have honce : (sides 1 (.ofNode 0 (.dict [])) (.ofNode 0 (.dict []))).value.MeetsOnce
      (sides 6 withHost withPort).value := by
    have hkeys : ¬ (Key.text "a").same (.text "b") = true := by decide
    refine .entered (List.pairwise_pair.mpr hkeys) ?_
    refine List.forall_mem_cons.mpr ⟨?_, List.forall_mem_singleton.mpr ?_⟩
    · exact .entered (List.pairwise_singleton _ _) (List.forall_mem_singleton.mpr (.replaced rfl))
    · exact .entered (List.pairwise_singleton _ _) (List.forall_mem_singleton.mpr (.replaced rfl))
  have hread := h sharedStore _ (sides 1 (.ofNode 0 (.dict [])) (.ofNode 0 (.dict [])))
    (sides 6 withHost withPort) (holds_sides (.node rfl nofun) (.node rfl nofun) rfl)
    (holds_sides hhost hport rfl) (by decide) (by decide) (plain_sides hempty hempty 1)
    (plain_sides (plain_interface _ _ _ _) (plain_interface _ _ _ _) 6) honce rfl
  cases hread

end Store

end LooseData
