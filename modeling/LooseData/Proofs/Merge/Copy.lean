import LooseData.Proofs.Layer.Mapping
import LooseData.Proofs.Merge.Region
import Mathlib

set_option autoImplicit false

/-! # Merging a mapping into an empty dictionary

One would expect a copy. But a key that is a text of digits also finds the entry of the number it
stands for, and where one such entry has been written before and the values can be merged, the
later value goes into the earlier one instead of under its own key. And some texts of digits cannot
be read at all, which is a fault.

So the merge is a copy exactly if every entry is separate from those before it
(`merge_empty_eq_iff`). Up to the first entry that is not, the entries are appended one by one
(`effect_mergeEntry_of_separate`). That entry is lost: its key is absent afterwards
(`confined_of_not_separate`), and stays absent, since all that is written later is written under other
keys or among the cells of the source (`keeps_lacks_mergeEntry`).
-/

namespace LooseData

open Edit

/-! ## Entries that are separate -/

/-- Whether a merge would go on into `current` rather than replace it by `value`. -/
def Value.mergeable (current value : Value) : Except Fault Bool :=
  if current.isNested && value.isNested then current.layer.acceptsKeys value.ownKeys else .ok false

/-- An entry is separate from those in `front` if the number that its key stands for can be read,
should it stand for one, and has no entry there that the value could be merged into. -/
def Table.Separate (front : Table Value) (e : Key × Value) : Prop :=
  ∃ number, (Value.ofKey e.1).numericKey? = .ok number ∧
    ∀ current ∈ number.bind fun i => Table.get? front (.int i),
      Value.mergeable current e.2 = .ok false

/-- Every entry is separate from those before it, which are those in `front` and the earlier ones
of the list. -/
def Table.ClearBehind : (front entries : Table Value) → Prop
  | _, [] => True
  | front, e :: rest => Separate front e ∧ ClearBehind (front ++ [e]) rest

/-- Every entry of a table is separate from those before it. -/
def Table.Clear (entries : Table Value) : Prop := ClearBehind [] entries

/-! ## Levels of trees -/

namespace Store

variable {s s' : Store} {c y : Tree}

/-- A tree shows one level, that of its slot in the store and that of its value. -/
theorem Holds.exists_layer (h : s.Holds c) :
    ∃ l : Layer Tree, s.layer c.slot = l.map Tree.slot ∧ c.value.layer = l.map Tree.value := by
  cases h with
  | atom a => exact ⟨.atom a, rfl, rfl⟩
  | @node address n hcell _ => exact ⟨.node n, layer_ofNode hcell, rfl⟩

/-- Whether two trees are merged is decided by their values. -/
theorem mergeable_layer (hc : s.Holds c) (hy : s.Holds y) :
    Layer.mergeable (s.layer c.slot) (s.layer y.slot) = Value.mergeable c.value y.value := by
  obtain ⟨l, hslot, hvalue⟩ := hc.exists_layer
  obtain ⟨m, hslot', hvalue'⟩ := hy.exists_layer
  have hnested : c.value.isNested = c.value.layer.isNested := by cases c.value <;> rfl
  have hnested' : y.value.isNested = y.value.layer.isNested := by cases y.value <;> rfl
  rw [Layer.mergeable, Value.mergeable, Value.ownKeys, hnested, hnested', hslot, hslot', hvalue,
    hvalue']
  simp only [Layer.isNested_map, Layer.acceptsKeys_map]
  rw [Layer.ownKeys_map fun _ => rfl, Layer.ownKeys_map fun _ => rfl]

/-! ## One entry -/

section

variable {address depth : Nat} {front : Table Tree} {k : Key} {y : Tree} {region : Multiset Nat}

/-- What a dictionary finds under a key that it does not have. -/
theorem access_of_get?_eq_none (hk : k.IsTextOrInt) (hnone : Table.get? front k = none) :
    (Layer.node (.dict (front.map fun e => (e.1, e.2.slot)))).access (.ofKey k) =
      (Value.ofKey k).numericKey?.map fun number =>
        ((number.bind fun i => Table.get? front (.int i)).map Tree.slot).getD (.atom .null) := by
  have hitem (key : Key) : (Node.dict (front.map fun e => (e.1, e.2.slot))).item? key =
      (Table.get? front key).map Tree.slot := Table.get?_map Tree.slot front key
  rw [Layer.access_mapping rfl hk]
  simp only [hitem, hnone, Option.map_none, Option.map_bind, Function.comp_def]
  rfl

theorem effect_mergeEntry_of_access_error [Memory] {target value : Slot} {key : Value}
    {fault : Fault}
    (haccess : (s.layer target).access key = .error fault) :
    (mergeEntry (mergeTo depth) target (key, value)).effect s = (.error fault, s) := by
  rw [mergeEntry, effect_bind_ok (effect_layerOf target s)]
  refine effect_bind_error ?_ _
  rw [effect_liftExcept, haccess]

/-- What the merge of an entry does once it has found a value under the key. -/
theorem effect_mergeEntry [Memory] {target value current : Slot} {key : Value}
    (haccess : (s.layer target).access key = .ok current) :
    (mergeEntry (mergeTo depth) target (key, value)).effect s =
      match Layer.mergeable (s.layer current) (s.layer value) with
      | .error fault => (.error fault, s)
      | .ok true => (mergeTo depth current value).effect s
      | .ok false => (assign target key value).effect s := by
  have hcurrent : (liftM ((s.layer target).access key) : Edit Store Slot).effect s =
      (.ok current, s) := by rw [effect_liftExcept, haccess]
  rw [mergeEntry, effect_bind_ok (effect_layerOf target s), effect_bind_ok hcurrent,
    effect_bind_ok (effect_layerOf current s), effect_bind_ok (effect_layerOf value s), effect_bind,
    effect_liftExcept]
  cases Layer.mergeable (s.layer current) (s.layer value) with
  | error fault => rfl
  | ok mergeable => cases mergeable <;> rfl

/-- The merge of an entry that ends without a fault has gone on into the value that it has found
under the key, or has written the entry's value there. -/
theorem exists_of_effect_mergeEntry [Memory] {target value : Slot} {key : Value}
    (h : (mergeEntry (mergeTo depth) target (key, value)).effect s = (.ok (), s')) :
    ∃ current, (s.layer target).access key = .ok current ∧
      ((Layer.mergeable (s.layer current) (s.layer value) = .ok true ∧
          (mergeTo depth current value).effect s = (.ok (), s')) ∨
        (Layer.mergeable (s.layer current) (s.layer value) = .ok false ∧
          (assign target key value).effect s = (.ok (), s'))) := by
  cases haccess : (s.layer target).access key with
  | error fault =>
      rw [effect_mergeEntry_of_access_error haccess] at h
      cases h
  | ok current =>
      rw [effect_mergeEntry haccess] at h
      refine ⟨current, rfl, ?_⟩
      cases hmergeable : Layer.mergeable (s.layer current) (s.layer value) with
      | error fault =>
          rw [hmergeable] at h
          cases h
      | ok mergeable =>
          rw [hmergeable] at h
          cases mergeable with
          | true => exact .inl ⟨rfl, h⟩
          | false => exact .inr ⟨rfl, h⟩

theorem effect_assign_dict [Memory] {entries : Table Slot}
    (hcell : s.cells[address]? = some (.dict entries))
    (hk : k.IsTextOrInt) (v : Slot) :
    (assign (.at address) (.ofKey k) v).effect s =
      (.ok (), s.write (.at address) (.dict (Table.set entries k v))) := by
  have hassign : ((Layer.node (.dict entries)).assign (.ofKey k) v).result =
      .ok (.dict (Table.set entries k v)) := by
    show (liftM (Value.ofKey k).mustBeKey >>= fun k => pure (.dict (Table.set entries k v)) :
      Logged (Node Slot)).result = _
    rw [Logged.result_bind, Value.mustBeKey, hk.key?_ofKey]
    rfl
  rw [effect_assign, layer_at hcell, hassign]

/-- What a dictionary of trees finds under a key that it does not have: the entry of a number, or
null. -/
theorem exists_current_of_numericKey?
    (hcell : s.cells[address]? = some (.dict (front.map fun e => (e.1, e.2.slot))))
    (hk : k.IsTextOrInt) (hnone : Table.get? front k = none) {number : Option Nat}
    (hnumber : (Value.ofKey k).numericKey? = .ok number) :
    ∃ current, (s.layer (.at address)).access (.ofKey k) = .ok current ∧
      ((current = .atom .null ∧ (number.bind fun i =>
          Table.get? (front.map fun e => (e.1, e.2.value)) (.int i)) = none) ∨
        ∃ e ∈ front, current = e.2.slot ∧ (number.bind fun i =>
          Table.get? (front.map fun e => (e.1, e.2.value)) (.int i)) = some e.2.value) := by
  have haccess := access_of_get?_eq_none hk hnone
  rw [hnumber] at haccess
  have hvalues : (number.bind fun i => Table.get? (front.map fun e => (e.1, e.2.value)) (.int i)) =
      (number.bind fun i => Table.get? front (.int i)).map Tree.value := by
    simp only [Table.get?_map, Option.map_bind, Function.comp_def]
  rw [layer, hcell, hvalues]
  refine ⟨((number.bind fun i => Table.get? front (.int i)).map Tree.slot).getD (.atom .null),
    haccess, ?_⟩
  cases hfound : number.bind fun i => Table.get? front (.int i) with
  | none => exact .inl ⟨rfl, rfl⟩
  | some c =>
      obtain ⟨i, -, hget⟩ := Option.bind_eq_some_iff.mp hfound
      obtain ⟨e, he, rfl⟩ := List.mem_map.mp (Table.mem_of_get? hget)
      exact .inr ⟨e, he, rfl, rfl⟩

variable (depth) in
/-- **An entry that is separate** from what has been written is appended. -/
theorem effect_mergeEntry_of_separate [Memory]
    (hcell : s.cells[address]? = some (.dict (front.map fun e => (e.1, e.2.slot))))
    (hfront : ∀ e ∈ front, s.Holds e.2) (hy : s.Holds y) (hk : k.IsTextOrInt)
    (hnone : Table.get? front k = none)
    (hseparate : Table.Separate (front.map fun e => (e.1, e.2.value)) (k, y.value)) :
    (mergeEntry (mergeTo depth) (.at address) (.ofKey k, y.slot)).effect s =
      (.ok (), s.write (.at address)
        (.dict ((front ++ [(k, y)]).map fun e => (e.1, e.2.slot)))) := by
  obtain ⟨number, hnumber, hclear⟩ := hseparate
  have hslots : Table.get? (front.map fun e => (e.1, e.2.slot)) k = none := by
    rw [Table.get?_map, hnone]
    rfl
  have happend : (assign (.at address) (.ofKey k) y.slot).effect s = (.ok (), s.write (.at address)
      (.dict ((front ++ [(k, y)]).map fun e => (e.1, e.2.slot)))) := by
    rw [effect_assign_dict hcell hk, Table.set_of_get?_eq_none hslots, List.map_append]
    rfl
  obtain ⟨current, haccess, hcurrent⟩ := exists_current_of_numericKey? hcell hk hnone hnumber
  rw [effect_mergeEntry haccess]
  -- Whatever is found there, the value cannot be merged into it.
  have hmergeable : Layer.mergeable (s.layer current) (s.layer y.slot) = .ok false := by
    rcases hcurrent with ⟨rfl, -⟩ | ⟨e, he, rfl, hfound⟩
    · rfl
    · rw [mergeable_layer (hfront e he) hy]
      exact hclear e.2.value hfound
  rw [hmergeable]
  exact happend

/-- **An entry that is not separate** is not written under its key: where the merge goes on, it does
so among the cells of the region, into what is found there. -/
theorem confined_of_not_separate [Memory]
    (hcell : s.cells[address]? = some (.dict (front.map fun e => (e.1, e.2.slot))))
    (hfront : ∀ e ∈ front, s.Holds e.2 ∧ e.2.slot.In region) (hy : s.Holds y)
    (hyin : y.slot.In region) (hk : k.IsTextOrInt) (hnone : Table.get? front k = none)
    (hclosed : s.ClosedOn region)
    (hjoint : ¬ Table.Separate (front.map fun e => (e.1, e.2.value)) (k, y.value))
    (hrun : (mergeEntry (mergeTo depth) (.at address) (.ofKey k, y.slot)).effect s = (.ok (), s')) :
    Confined region s s' := by
  cases hnumber : (Value.ofKey k).numericKey? with
  | error fault =>
      have haccess : (s.layer (.at address)).access (.ofKey k) = .error fault := by
        rw [layer, hcell]
        exact (access_of_get?_eq_none hk hnone).trans (by rw [hnumber]; rfl)
      rw [effect_mergeEntry_of_access_error haccess] at hrun
      cases hrun
  | ok number =>
      obtain ⟨current, haccess, hcurrent⟩ := exists_current_of_numericKey? hcell hk hnone hnumber
      have hin : current.In region := by
        rcases hcurrent with ⟨rfl, -⟩ | ⟨e, he, rfl, -⟩
        · exact trivial
        · exact (hfront e he).2
      rw [effect_mergeEntry haccess] at hrun
      cases hmergeable : Layer.mergeable (s.layer current) (s.layer y.slot) with
      | error fault =>
          rw [hmergeable] at hrun
          cases hrun
      | ok mergeable =>
          rw [hmergeable] at hrun
          cases mergeable with
          | true =>
              have hconfined : Confined region s s := ⟨hclosed, fun _ _ => rfl⟩
              have hafter := keeps_mergeTo depth hin hyin s hconfined
              rwa [show (mergeTo depth current y.slot).effect s = (.ok (), s') from hrun] at hafter
          | false =>
              -- If the value replaced what is found, the entry would be separate.
              refine absurd ⟨number, hnumber, fun found hfound => ?_⟩ hjoint
              rcases hcurrent with ⟨-, hnothing⟩ | ⟨e, he, rfl, hvalue⟩
              · rw [hnothing] at hfound
                cases hfound
              · obtain rfl : e.2.value = found := Option.some.inj (hvalue.symm.trans hfound)
                rw [← mergeable_layer (hfront e he).1 hy, hmergeable]

/-! ## Keys that stay absent -/

/-- The region is closed, and the dictionary in the cell has contents of the region only and no
entry for the key. -/
structure Lacks (region : Multiset Nat) (address : Nat) (key : Key) (s : Store) : Prop where
  closed : s.ClosedOn region
  cell : ∃ entries : Table Slot, s.cells[address]? = some (.dict entries) ∧
    (Layer.node (.dict entries)).Forall (Slot.In region) ∧ Table.get? entries key = none

theorem Lacks.of_confined {key : Key} (h : s.Lacks region address key) (hout : address ∉ region)
    (hconfined : Confined region s s') : s'.Lacks region address key := by
  obtain ⟨entries, hcell, hentries, hnone⟩ := h.cell
  exact ⟨hconfined.closed, entries, (hconfined.frame address hout).trans hcell, hentries, hnone⟩

/-- A key stays absent when entries with other keys are merged. -/
theorem keeps_lacks_mergeEntry [Memory] {key : Key} (hout : address ∉ region)
    (hyin : y.slot.In region)
    (hk : k.IsTextOrInt) (hne : k.same key = false) :
    Keeps (Lacks region address key) (mergeEntry (mergeTo depth) (.at address) (.ofKey k, y.slot)) := by
  intro s hs
  obtain ⟨entries, hcell, hentries, hnone⟩ := hs.cell
  have hlayer : s.layer (.at address) = .node (.dict entries) := by rw [layer, hcell]
  cases haccess : (s.layer (.at address)).access (.ofKey k) with
  | error fault =>
      rw [effect_mergeEntry_of_access_error haccess]
      exact hs
  | ok current =>
      have hin : current.In region := by
        rw [hlayer] at haccess
        exact hentries.access Slot.in_atom haccess
      rw [effect_mergeEntry haccess]
      split
      · exact hs
      · have hconfined : Confined region s s := ⟨hs.closed, fun _ _ => rfl⟩
        exact hs.of_confined hout (keeps_mergeTo depth hin hyin s hconfined)
      · rw [effect_assign_dict hcell hk]
        refine ⟨fun a ha n hn => ?_, Table.set entries k y.slot, ?_, fun c hc => ?_, ?_⟩
        · have hne : a ≠ address := by
            rintro rfl
            exact hout ha
          exact hs.closed a ha n ((getElem?_write_of_ne hne _).symm.trans hn)
        · exact getElem?_write_self (Array.getElem?_eq_some_iff.mp hcell).1 _
        · exact (Table.mem_of_mem_set hc).elim (· ▸ hyin) (hentries c)
        · rw [Table.get?_set_of_same_eq_false hne, hnone]

/-! ## All entries -/

/-- The entries in `front` have been copied into the dictionary in the cell, and those in `rest` are
still to come. All of them are trees in a closed region. -/
structure Copying (region : Multiset Nat) (address : Nat) (front rest : Table Tree) (s : Store) :
    Prop where
  closed : s.ClosedOn region
  cell : s.cells[address]? = some (.dict (front.map fun e => (e.1, e.2.slot)))
  holds : ∀ e ∈ front ++ rest, s.Holds e.2 ∧ e.2.addresses ≤ region

variable {rest : Table Tree}

/-- **The step of a copy.** -/
theorem Copying.append {e : Key × Tree} (hout : address ∉ region)
    (h : s.Copying region address front (e :: rest)) :
    Copying region address (front ++ [e]) rest
      (s.write (.at address) (.dict ((front ++ [e]).map fun e => (e.1, e.2.slot)))) := by
  have hne {a : Nat} (ha : a ∈ region) : a ≠ address := by
    rintro rfl
    exact hout ha
  refine ⟨fun a ha n hn => ?_, ?_, fun d hd => ?_⟩
  · exact h.closed a ha n ((getElem?_write_of_ne (hne ha) _).symm.trans hn)
  · exact getElem?_write_self (Array.getElem?_eq_some_iff.mp h.cell).1 _
  · rw [List.append_assoc, List.singleton_append] at hd
    obtain ⟨hholds, hle⟩ := h.holds d hd
    exact ⟨hholds.frame fun a ha => getElem?_write_of_ne (hne (Multiset.mem_of_le hle ha)) _, hle⟩

/-- The merge of all entries that are to come. -/
def mergeRest [Memory] (depth address : Nat) (rest : Table Tree) : Edit Store Unit :=
  (rest.map fun e => (Value.ofKey e.1, e.2.slot)).forM (mergeEntry (mergeTo depth) (.at address))

theorem mergeRest_cons [Memory] (e : Key × Tree) :
    mergeRest depth address (e :: rest) =
      mergeEntry (mergeTo depth) (.at address) (.ofKey e.1, e.2.slot) >>= fun _ =>
        mergeRest depth address rest := rfl

theorem get?_front_eq_none {e : Key × Tree} (hdistinct : Table.Distinct (front ++ e :: rest)) :
    Table.get? front e.1 = none := by
  rw [Table.get?_eq_none_iff]
  intro d hd
  exact (List.pairwise_append.mp hdistinct).2.2 d hd e List.mem_cons_self

/-- **The run of a copy**: entries that are separate from those before them are all copied. -/
theorem Copying.run [Memory] (hout : address ∉ region) (h : s.Copying region address front rest)
    (hdistinct : Table.Distinct (front ++ rest)) (hkeys : ∀ e ∈ rest, e.1.IsTextOrInt)
    (hclear : Table.ClearBehind (front.map fun e => (e.1, e.2.value))
      (rest.map fun e => (e.1, e.2.value))) :
    ∃ s', (mergeRest depth address rest).effect s = (.ok (), s') ∧
      s'.Copying region address (front ++ rest) [] := by
  induction rest generalizing s front with
  | nil => exact ⟨s, rfl, by rwa [List.append_nil]⟩
  | cons e rest ih =>
      rw [List.forall_mem_cons] at hkeys
      have hstep := effect_mergeEntry_of_separate depth h.cell
        (fun d hd => (h.holds d (List.mem_append_left _ hd)).1)
        (h.holds e (by simp)).1 hkeys.1 (get?_front_eq_none hdistinct) hclear.1
      have happend : front ++ e :: rest = (front ++ [e]) ++ rest := by simp
      rw [happend] at hdistinct ⊢
      obtain ⟨s', hrun, hcopied⟩ := ih (h.append hout) hdistinct hkeys.2
        (by simpa using hclear.2)
      refine ⟨s', ?_, hcopied⟩
      rw [mergeRest_cons, effect_bind_ok hstep]
      exact hrun

/-- **The run of what is no copy**: the first entry that is not separate from those before it is
absent in the end. -/
theorem Copying.run_lacks [Memory] (hout : address ∉ region)
    (h : s.Copying region address front rest)
    (hdistinct : Table.Distinct (front ++ rest)) (hkeys : ∀ e ∈ rest, e.1.IsTextOrInt)
    (hjoint : ¬ Table.ClearBehind (front.map fun e => (e.1, e.2.value))
      (rest.map fun e => (e.1, e.2.value)))
    (hrun : (mergeRest depth address rest).effect s = (.ok (), s')) :
    ∃ e ∈ rest, s'.Lacks region address e.1 := by
  induction rest generalizing s front with
  | nil => exact absurd trivial hjoint
  | cons e rest ih =>
      rw [List.forall_mem_cons] at hkeys
      have hnone := get?_front_eq_none hdistinct
      have hheld (d : Key × Tree) (hd : d ∈ front ++ e :: rest) :
          s.Holds d.2 ∧ d.2.slot.In region :=
        ⟨(h.holds d hd).1, (h.holds d hd).1.slot_in (h.holds d hd).2⟩
      have hfront (d : Key × Tree) (hd : d ∈ front) := hheld d (List.mem_append_left _ hd)
      obtain ⟨hy, hyin⟩ := hheld e (by simp)
      rw [mergeRest_cons] at hrun
      by_cases hseparate : Table.Separate (front.map fun e => (e.1, e.2.value)) (e.1, e.2.value)
      · have hstep := effect_mergeEntry_of_separate depth h.cell
          (fun d hd => (hfront d hd).1) hy hkeys.1 hnone hseparate
        rw [effect_bind_ok hstep] at hrun
        have happend : front ++ e :: rest = (front ++ [e]) ++ rest := by simp
        rw [happend] at hdistinct
        obtain ⟨d, hd, hlacks⟩ := ih (h.append hout) hdistinct hkeys.2
          (fun hclear => hjoint ⟨hseparate, by simpa using hclear⟩) hrun
        exact ⟨d, List.mem_cons_of_mem _ hd, hlacks⟩
      · obtain ⟨_, s₁, hfirst, hrest⟩ := exists_of_effect_bind_eq_ok hrun
        have hconfined := confined_of_not_separate h.cell hfront hy hyin hkeys.1 hnone h.closed
          hseparate hfirst
        have hlacks : s.Lacks region address e.1 := by
          refine ⟨h.closed, _, h.cell, fun c hc => ?_, by rw [Table.get?_map, hnone]; rfl⟩
          obtain ⟨_, hslot, rfl⟩ := List.mem_map.mp hc
          obtain ⟨d, hd, rfl⟩ := List.mem_map.mp hslot
          exact (hfront d hd).2
        refine ⟨e, List.mem_cons_self, ?_⟩
        -- What is left are entries with other keys.
        have hkeeps : Keeps (Lacks region address e.1) (mergeRest depth address rest) := by
          refine keeps_forM_of_mem (List.forall_mem_map.mpr fun d hd => ?_)
          have hne : d.1.same e.1 = false := by
            rw [Key.same_comm]
            exact (List.pairwise_cons.mp (List.pairwise_append.mp hdistinct).2.1).1 d hd
          exact keeps_lacks_mergeEntry hout (hheld d (by simp [hd])).2 (hkeys.2 d hd) hne
        have hafter := hkeeps s₁ (hlacks.of_confined hout hconfined)
        rwa [show (mergeRest depth address rest).effect s₁ = (.ok (), s') from hrest] at hafter

/-! ## From the top -/

/-- What a store holds for a collection. -/
theorem Holds.exists_node {t : Tree} {n : Node Value} (h : s.Holds t) (hn : t.value = .node n) :
    ∃ a m, t = .ofNode a m ∧ m.map Tree.value = n ∧ s.cells[a]? = some (m.map Tree.slot) ∧
      ∀ c ∈ m.children, s.Holds c := by
  cases h with
  | atom a => cases hn
  | @node a m hcell hchildren => exact ⟨a, m, rfl, Value.node.inj hn, hcell, hchildren⟩

/-- Merging a collection into another one merges its entries. -/
theorem effect_mergeTo_succ [Memory] {target source : Slot} {entries : List (Value × Slot)}
    (htarget : (s.layer target).isNested = true) (hsource : (s.layer source).isNested = true)
    (hentries : (s.layer source).entries = .ok entries) (depth : Nat) :
    (mergeTo (depth + 1) target source).effect s =
      (entries.forM (mergeEntry (mergeTo depth) target)).effect s := by
  have heffect : (liftM (s.layer source).entries : Edit Store (List (Value × Slot))).effect s =
      (.ok entries, s) := by
    rw [effect_liftExcept, hentries]
  rw [mergeTo, effect_bind_ok (effect_layerOf source s), effect_bind_ok (effect_layerOf target s),
    htarget, hsource, Bool.and_self, if_pos rfl]
  exact effect_bind_ok heffect _

/-- Merging a mapping into an empty dictionary merges its entries. -/
theorem effect_mergeTo_dict_nil [Memory] {a b : Nat} {m : Node Tree}
    (hcell : s.cells[a]? = some (.dict [])) (hsource : s.cells[b]? = some (m.map Tree.slot))
    (hm : m.IsMap) (hkeys : ∀ e ∈ m.contents, e.1.IsTextOrInt) (depth : Nat) :
    (mergeTo (depth + 1) (.at a) (.at b)).effect s = (mergeRest depth a m.contents).effect s := by
  have hslots : (m.map Tree.slot).IsMap := Node.isMap_map.mpr hm
  have hentries := hslots.entries_eq (by
    rw [Node.contents_map]
    exact List.forall_mem_map.mpr hkeys)
  refine effect_mergeTo_succ ?_ ?_ ?_ depth
  · rw [layer_at hcell]
    rfl
  · rw [layer_at hsource]
    show (m.map Tree.slot).isNested = true
    rw [Node.isNested, hslots.isMapping, Bool.true_or]
  · rw [layer_at hsource, hentries, Node.contents_map, List.map_map]
    rfl

/-- A mapping that is about to be copied into an empty dictionary. -/
theorem copying_nil {a b : Nat} {m : Node Tree} (hcell : s.cells[a]? = some (.dict []))
    (hsource : s.cells[b]? = some (m.map Tree.slot)) (hchildren : ∀ c ∈ m.children, s.Holds c)
    (hm : m.IsMap) : s.Copying (Tree.ofNode b m).addresses a [] m.contents := by
  refine ⟨(Holds.node hsource hchildren).closedOn, hcell, fun e he => ?_⟩
  have hmem : e.2 ∈ m.children :=
    (Node.contents_sublist hm.isMapping).subset (List.mem_map_of_mem he)
  exact ⟨hchildren _ hmem,
    (Tree.addresses_le_allAddresses hmem).trans (Multiset.le_cons_self _ _)⟩

/-- What is read where everything has been copied. -/
theorem Copying.read_eq {m : Node Tree} (h : s.Copying region address m.contents []) :
    s.read (.at address) = .dict (m.contents.map fun e => (e.1, e.2.value)) := by
  have hholds : s.Holds (.ofNode address (.dict m.contents)) := by
    refine .node h.cell (List.forall_mem_map.mpr fun e he => ?_)
    exact (h.holds e (List.mem_append_left _ he)).1
  exact hholds.read_eq

/-- What is read where a key is absent is not what holds the key. -/
theorem Lacks.read_ne {key : Key} (h : s.Lacks region address key) {entries : Table Value}
    {v : Value} (hentries : Table.get? entries key = some v) :
    s.read (.at address) ≠ .dict entries := by
  obtain ⟨slots, hcell, -, hnone⟩ := h.cell
  have hread : s.read (.at address) =
      .dict (slots.map fun e => (e.1, s.readTo s.cells.size e.2)) := by
    rw [read, readTo, layer, hcell]
    rfl
  rw [hread]
  rintro ⟨⟩
  rw [Table.get?_map, hnone] at hentries
  cases hentries

end

end Store

/-- A mapping is merged into an empty dictionary by merging its entries, in a store in which nothing
else refers to them. -/
theorem Value.exists_merge_dict_nil [Memory] {n : Node Value} (hn : n.IsMap)
    (hkeys : ∀ e ∈ n.contents, e.1.IsTextOrInt) :
    ∃ (s : Store) (a b : Nat) (m : Node Tree), n = m.map Tree.value ∧
      a ∉ (Tree.ofNode b m).addresses ∧ s.Copying (Tree.ofNode b m).addresses a [] m.contents ∧
      (Value.merge (.dict []) [.node n]).result =
        ((Store.mergeRest s.cells.size a m.contents >>= fun _ =>
          Store.valueOf (.at a)).effect s).1 := by
  obtain ⟨t, s₁, hput, htarget, hext⟩ := Store.exists_effect_put (.dict []) .empty
  obtain ⟨t', s, hput', hsource, hext'⟩ := Store.exists_effect_put (.node n) s₁
  have hboth := hext.append hext'
  obtain ⟨a, m₀, rfl, hm₀, hcell, -⟩ := (hboth.holds t (by simp)).exists_node htarget
  obtain ⟨b, m, rfl, rfl, hcell', hchildren⟩ := (hboth.holds t' (by simp)).exists_node hsource
  rw [Node.isMap_map] at hn
  rw [Node.contents_map, List.forall_mem_map] at hkeys
  obtain rfl : m₀ = .dict [] := by
    cases m₀ with
    | dict entries =>
        have hnil : entries.map (fun e => (e.1, e.2.value)) = [] := Node.dict.inj hm₀
        rw [List.map_eq_nil_iff.mp hnil]
    | _ => cases hm₀
  have hnodup := hboth.nodup
  simp only [List.singleton_append, Tree.allAddresses_cons, Tree.allAddresses_nil, add_zero,
    Multiset.nodup_add, Multiset.disjoint_left] at hnodup
  have hself : a ∈ (Tree.ofNode a (.dict [])).addresses := by
    rw [Tree.addresses_ofNode]
    exact Multiset.mem_cons_self _ _
  refine ⟨s, a, b, m, rfl, hnodup.2.2 hself, Store.copying_nil hcell hcell' hchildren hn, ?_⟩
  have hsources : ([Value.node (m.map Tree.value)].mapM Store.put).effect s₁ =
      (.ok [.at b], s) := by
    show (Store.put _ >>= fun slot => pure [slot]).effect s₁ = _
    rw [effect_bind_ok hput']
    rfl
  have hmerge : (Store.mergeAll (.at a) [.at b]).effect s =
      (Store.mergeRest s.cells.size a m.contents).effect s := by
    rw [← Store.effect_mergeTo_dict_nil hcell hcell' hn hkeys]
    show (Store.merge (.at a) (.at b) >>= fun _ => pure ()).effect s = _
    rw [effect_bind, Store.merge, effect_bind_ok (effect_get s)]
    rcases (Store.mergeTo (s.cells.size + 1) (.at a) (.at b)).effect s with ⟨_ | _, _⟩ <;> rfl
  show (Edit.effect (do
    let target ← Store.put (.dict [])
    Store.mergeAll target (← [Value.node (m.map Tree.value)].mapM Store.put)
    Store.valueOf target) Store.empty).1 = _
  have htop : (Store.put (dict [])).effect Store.empty = (.ok (.at a), s₁) := hput
  rw [effect_bind_ok htop, effect_bind_ok hsources, effect_bind, effect_bind, hmerge]

/-- **When merging a mapping into an empty dictionary copies it.** Every entry of the mapping comes
out under its own key and with its own value, in the same order, exactly if each is separate from
those before it. -/
theorem Value.merge_empty_eq_iff [Memory] {n : Node Value} (hn : n.IsMap)
    (hkeys : ∀ e ∈ n.contents, e.1.IsTextOrInt) :
    (Value.merge (.dict []) [.node n]).result = .ok (.dict n.contents) ↔
      Table.Clear n.contents := by
  obtain ⟨s, a, b, m, rfl, hout, hcopying, hresult⟩ := exists_merge_dict_nil hn hkeys
  rw [Node.isMap_map] at hn
  have hdistinct := hn.distinct
  rw [Node.contents_map, List.forall_mem_map] at hkeys
  rw [hresult, Node.contents_map]
  constructor
  · intro hcopied
    by_contra hjoint
    obtain ⟨_, s', hrun, hread⟩ := exists_of_effect_bind_eq_ok (Prod.ext hcopied rfl)
    obtain ⟨e, he, hlacks⟩ := hcopying.run_lacks hout hdistinct hkeys hjoint hrun
    -- The mapping holds the key that is absent from what is read.
    have hvalue : Table.get? (m.contents.map fun e => (e.1, e.2.value)) e.1 = some e.2.value := by
      rw [Table.get?_map, hdistinct.get?_of_mem he]
      rfl
    exact hlacks.read_ne hvalue (Except.ok.inj (congrArg Prod.fst hread))
  · intro hclear
    obtain ⟨s', hrun, hcopied⟩ := hcopying.run hout hdistinct hkeys hclear
    rw [effect_bind_ok hrun]
    exact congrArg Except.ok hcopied.read_eq

/-- A number and the text of it as keys, with values that cannot be merged. -/
def numbersAndTexts : Table Value :=
  [(.int 1, .list [.text "x"]), (.text "1", .dict [(.text "b", .int 2)]),
    (.text "2", .dict []), (.int 2, .dict [])]

section

open scoped Memory

/-- A list does not take the key `b`, and a text before the number that it stands for finds
nothing. -/
theorem merge_empty_numbersAndTexts :
    (Value.merge (.dict []) [.node (.dict numbersAndTexts)]).result =
      .ok (.dict numbersAndTexts) := by
  have hdistinct : Table.Distinct numbersAndTexts := by
    unfold Table.Distinct
    decide
  have hkeys : ∀ e ∈ numbersAndTexts, e.1.IsTextOrInt := by
    simp [numbersAndTexts, Key.text, Key.int, Key.IsTextOrInt]
  have hclear : numbersAndTexts.Clear := by
    refine ⟨⟨none, rfl, nofun⟩, ⟨some 1, rfl, ?_⟩, ⟨some 2, rfl, nofun⟩, ⟨none, rfl, nofun⟩,
      trivial⟩
    rintro current ⟨⟩
    rfl
  exact (Value.merge_empty_eq_iff (Node.isMap_dict hdistinct) hkeys).mpr hclear

end

/-- Values under a number and under the text of it that can be merged. -/
def numberAndText : Table Value :=
  [(.int 1, .dict [(.text "a", .int 1)]), (.text "1", .dict [(.text "b", .int 2)])]

section

open scoped Memory

/-- The value under the text goes into the one under the number. -/
theorem exists_merge_empty_ne :
    ¬ ∀ n : Node Value, n.IsMap → (∀ e ∈ n.contents, e.1.IsTextOrInt) →
        (Value.merge (.dict []) [.node n]).result = .ok (.dict n.contents) := by
  intro h
  have hcopied := h (.dict numberAndText) (Node.isMap_dict (List.pairwise_pair.mpr rfl))
    (List.forall_mem_cons.mpr ⟨trivial, List.forall_mem_singleton.mpr trivial⟩)
  have hmerged : (Value.merge (.dict []) [.node (.dict numberAndText)]).result =
      .ok (.dict [(.int 1, .dict [(.text "a", .int 1), (.text "b", .int 2)])]) := by
    cbv
  cases hcopied.symm.trans hmerged

end

end LooseData
