import LooseData.Proofs.Merge.Level

set_option autoImplicit false

/-! # Laying one value over another

The outcome of a deep merge as a function of the two values, by recursion on the source and
without a store. The rules are those of the four pairs of kinds.

* A dictionary over a dictionary keeps the entries of the target in their places and adds the new
  ones of the source behind them (`overlaidBy_dict_dict`).
* A list over a dictionary is laid over it as the dictionary of its items under their indices
  (`overlaidBy_dict_list`).
* A list over a list goes item by item (`getElem?_overlaidItems`).
* A dictionary over a list goes entry by entry, in order, since two keys may stand for one index
  (`overlaidBy_list_dict`).

In all four it is the same to go through the entries of the source in order and to revise the
target's value under each key (`overlaidBy_eq_foldl`).
-/

namespace LooseData

/-- The level with the value under a key changed, which is null where there is none. -/
def Node.revise (n : Node Value) (key : Key) (change : Value → Value) : Node Value :=
  n.put key (change ((n.at? key).getD .null))

theorem Node.revise_list (items : List Value) (key : Key) (change : Value → Value) :
    (Node.list items).revise key change =
      .list (writeAt items key.index (change (items[key.index]?.getD .null)) .null) := rfl

namespace Value

/-! ## The overlay -/

/-- Whether a value can take all keys of another one. -/
def takes : (target source : Value) → Bool
  | .node n, .node m => n.takes m
  | _, _ => false

/-- Whether a value is merged with another one rather than replaced by it. -/
def joins (current value : Value) : Bool :=
  current.isNested && value.isNested && current.takes value

/-- What comes in the place of `current` when `value` is written there: what results from laying
the one over the other, if both are nested and the keys fit, and otherwise `value` itself. -/
def joined (current value laid : Value) : Value :=
  if current.isNested && value.isNested && current.takes value then laid else value

/-- An entry with the change made that is meant for its key. -/
def changed (changes : Table (Value → Value)) (e : Key × Value) : Key × Value :=
  (e.1, match Table.get? changes e.1 with
    | some change => change e.2
    | none => e.2)

/-- A dictionary with changes made to the values under the given keys. Keys that are new to it
come behind its own, in their order. -/
def overlaidEntries (target : Table Value) (changes : Table (Value → Value)) : Table Value :=
  target.map (changed changes) ++
    (changes.filter fun e => !Table.has target e.1).map fun e => (e.1, e.2 .null)

/-- A list with changes made to its items from the first one on. Where it has no more items the
changes are made to null. -/
def overlaidItems : (target : List Value) → (changes : List (Value → Value)) → List Value
  | target, [] => target
  | [], change :: changes => change .null :: overlaidItems [] changes
  | current :: target, change :: changes => change current :: overlaidItems target changes

mutual

/-- **The overlay**: what a collection becomes when a source is laid over it. -/
def overlaidBy (target : Value) : (source : Value) → Value
  | .node (.dict entries) =>
    match target with
    | .node (.dict held) => .dict (overlaidEntries held (entryChanges entries))
    | .node n => .node ((entryChanges entries).foldl (fun n e => n.revise e.1 e.2) n)
    | .atom a => .atom a
  | .node (.list items) =>
    match target with
    | .node (.dict held) =>
      .dict (overlaidEntries held (Table.numbered 0 (itemChanges items)))
    | .node (.list held) => .list (overlaidItems held (itemChanges items))
    | target => target
  | _ => target
termination_by structural source => source

/-- The entries of a source, each with the change that its value makes to the one that it
meets. -/
def entryChanges : (entries : Table Value) → Table (Value → Value)
  | [] => []
  | (k, value) :: rest =>
    (k, fun current => joined current value (overlaidBy current value)) :: entryChanges rest
termination_by structural entries => entries

/-- The changes that the items of a source make to the ones that they meet. -/
def itemChanges : (items : List Value) → List (Value → Value)
  | [] => []
  | value :: rest =>
    (fun current => joined current value (overlaidBy current value)) :: itemChanges rest
termination_by structural items => items

end

/-- The change that a value makes to the one that it meets. -/
def laidOver (value current : Value) : Value := joined current value (overlaidBy current value)

theorem entryChanges_eq (entries : Table Value) :
    entryChanges entries = entries.map fun e => (e.1, laidOver e.2) := by
  induction entries with
  | nil => rfl
  | cons e rest ih =>
      rw [entryChanges, ih]
      rfl

theorem itemChanges_eq (items : List Value) : itemChanges items = items.map laidOver := by
  induction items with
  | nil => rfl
  | cons value rest ih =>
      rw [itemChanges, ih]
      rfl

@[simp] theorem laidOver_null (value : Value) : value.laidOver .null = value := rfl

/-! ## The rules for the four pairs of kinds -/

theorem overlaidBy_dict_dict (d e : Table Value) :
    overlaidBy (.dict d) (.dict e) =
      .dict ((d.map fun x => (x.1, match Table.get? e x.1 with
          | some value => value.laidOver x.2
          | none => x.2)) ++
        e.filter fun y => !Table.has d y.1) := by
  show Value.dict (overlaidEntries d (entryChanges e)) = _
  rw [entryChanges_eq, overlaidEntries]
  congr 2
  · apply List.map_congr_left
    intro x _
    rw [changed, Table.get?_map]
    cases Table.get? e x.1 <;> rfl
  · rw [List.filter_map, List.map_map]
    exact List.map_id _

theorem overlaidBy_dict_list (d : Table Value) (items : List Value) :
    overlaidBy (.dict d) (.list items) = overlaidBy (.dict d) (.dict (Table.numbered 0 items)) := by
  show Value.dict (overlaidEntries d (Table.numbered 0 (itemChanges items))) =
    Value.dict (overlaidEntries d (entryChanges _))
  rw [entryChanges_eq, itemChanges_eq, Table.numbered_map]

theorem overlaidBy_list_list (l m : List Value) :
    overlaidBy (.list l) (.list m) = .list (overlaidItems l (m.map laidOver)) := by
  show Value.list (overlaidItems l (itemChanges m)) = _
  rw [itemChanges_eq]

/-- The items of a list over a list. -/
theorem getElem?_overlaidItems (l m : List Value) (i : Nat) :
    (overlaidItems l (m.map laidOver))[i]? = match l[i]?, m[i]? with
      | some current, some value => some (value.laidOver current)
      | none, some value => some value
      | current, none => current := by
  induction m generalizing l i with
  | nil =>
      rw [List.map_nil, overlaidItems]
      cases l[i]? <;> rfl
  | cons value m ih =>
      cases l with
      | nil =>
          rw [List.map_cons, overlaidItems]
          cases i with
          | zero => rfl
          | succ i => exact ih [] i
      | cons current l =>
          rw [List.map_cons, overlaidItems]
          cases i with
          | zero => rfl
          | succ i => exact ih l i

theorem overlaidBy_list_dict (l : List Value) (e : Table Value) :
    overlaidBy (.list l) (.dict e) =
      .node (e.foldl (fun n y => n.revise y.1 y.2.laidOver) (.list l)) := by
  show Value.node ((entryChanges e).foldl _ _) = _
  rw [entryChanges_eq, List.foldl_map]

/-! ## The overlay one entry at a time -/

theorem changed_cons_of_same_eq_false {changes : Table (Value → Value)} {k : Key}
    {e : Key × Value} (h : e.1.same k = false) (change : Value → Value) :
    changed ((k, change) :: changes) e = changed changes e := by
  rw [Key.same_comm] at h
  simp [changed, Table.get?, h]

theorem changed_cons_of_same {changes : Table (Value → Value)} {k : Key} {e : Key × Value}
    (h : e.1.same k = true) (change : Value → Value) :
    changed ((k, change) :: changes) e = (e.1, change e.2) := by
  rw [Key.same_comm] at h
  simp [changed, Table.get?, h]

/-- No other change of a table is for a key that is the same as that of the first one. -/
theorem changed_of_same {changes : Table (Value → Value)} {k : Key} {e : Key × Value}
    (hk : ∀ c ∈ changes, k.same c.1 = false) (h : e.1.same k = true) : changed changes e = e := by
  have hnone : Table.get? changes e.1 = none := by
    rw [Table.get?_eq_none_iff]
    intro c hc
    by_contra hsame
    rw [Bool.not_eq_false, Key.same_iff] at hsame
    rw [Key.same_iff] at h
    have hkc := hk c hc
    rw [Key.same_iff.mpr (h.symm.trans hsame.symm)] at hkc
    cases hkc
  rw [changed, hnone]

/-- **A dictionary over a dictionary, in order.** The induction is on the changes. The first one
sets its key, and none of the later ones is for that key. -/
theorem overlaidEntries_eq_foldl {changes : Table (Value → Value)} (hc : changes.Distinct)
    {target : Table Value} (ht : target.Distinct) :
    overlaidEntries target changes = changes.foldl
      (fun d e => Table.set d e.1 (e.2 ((Table.get? d e.1).getD .null))) target := by
  induction changes generalizing target with
  | nil =>
      rw [overlaidEntries]
      exact (List.append_nil _).trans (List.map_id target)
  | cons c changes ih =>
      obtain ⟨k, change⟩ := c
      obtain ⟨hk, hc⟩ := List.pairwise_cons.mp hc
      rw [List.foldl_cons, ← ih hc (ht.set _ _), overlaidEntries, overlaidEntries]
      -- The first change either appends an entry or changes the one entry with its key.
      cases hget : Table.get? target k with
      | none =>
          have habsent := Table.get?_eq_none_iff.mp hget
          rw [Table.set_of_get?_eq_none hget, List.filter_cons_of_pos (by simp [Table.has, hget]),
            List.map_cons, List.map_append, List.map_singleton, List.append_assoc,
            List.singleton_append, changed_of_same hk (Key.same_refl k)]
          congr 1
          · exact List.map_congr_left fun e he => changed_cons_of_same_eq_false (habsent e he) _
          · congr 2
            apply List.filter_congr
            intro e he
            simp [Table.has_eq_any, hk e he]
      | some w =>
          obtain ⟨front, k', back, rfl, hk', hfront⟩ := Table.exists_split_of_get? hget
          have hback : ∀ e ∈ back, e.1.same k = false := by
            intro e he
            have hapart := (List.pairwise_cons.mp (List.pairwise_append.mp ht).2.1).1 e he
            by_contra hsame
            rw [Bool.not_eq_false, Key.same_comm] at hsame
            rw [Key.same_trans hk' hsame] at hapart
            cases hapart
          rw [Table.set_append_cons hk' hfront, List.filter_cons_of_neg (by simp [Table.has, hget]),
            List.map_append, List.map_cons, List.map_append, List.map_cons,
            changed_cons_of_same hk', changed_of_same hk hk']
          congr 1
          · congr 1
            · exact List.map_congr_left fun e he => changed_cons_of_same_eq_false (hfront e he) _
            · congr 1
              exact List.map_congr_left fun e he => changed_cons_of_same_eq_false (hback e he) _
          · congr 1
            apply List.filter_congr
            intro e _
            simp [Table.has_eq_any]

/-- **A list over a list, in order.** `done` are the items that the changes made so far have
brought to their final values, so the next index is their number. -/
theorem overlaidItems_eq_foldl (changes : List (Value → Value)) (done target : List Value) :
    Node.list (done ++ overlaidItems target changes) =
      (Table.numbered done.length changes).foldl (fun n e => n.revise e.1 e.2)
        (.list (done ++ target)) := by
  induction changes generalizing done target with
  | nil => rw [overlaidItems]; rfl
  | cons change changes ih =>
      have hindex : (Key.text (toString done.length)).index = done.length :=
        numeralValue_toString done.length
      rw [Table.numbered, List.foldl_cons]
      -- The next index is that of the first item that is left, or one past the end.
      cases target with
      | nil =>
          have hput : (Node.list (done ++ [])).revise (.text (toString done.length)) change =
              .list ((done ++ [change .null]) ++ []) := by
            rw [Node.revise_list, hindex]
            simp [writeAt]
          have hrest := ih (done ++ [change .null]) []
          rw [List.length_append, List.append_assoc] at hrest
          rw [hput]
          exact hrest
      | cons current target =>
          have hput : (Node.list (done ++ current :: target)).revise
              (.text (toString done.length)) change =
              .list ((done ++ [change current]) ++ target) := by
            rw [Node.revise_list, hindex]
            simp [writeAt]
          have hrest := ih (done ++ [change current]) target
          rw [List.length_append, List.append_assoc] at hrest
          rw [hput]
          exact hrest

/-- **The overlay, one entry at a time**: every entry of the source in turn changes the target's
value under its key. -/
theorem overlaidBy_eq_foldl {n m : Node Value} (hn : n.Plain) (hm : m.Plain) :
    overlaidBy (.node n) (.node m) =
      .node (m.fields.foldl (fun n e => n.revise e.1 e.2.laidOver) n) := by
  have hrevise (changes : Table (Value → Value)) (d : Table Value) :
      changes.foldl (fun n e => Node.revise n e.1 e.2) (.dict d) =
        .dict (changes.foldl
          (fun d e => Table.set d e.1 (e.2 ((Table.get? d e.1).getD .null))) d) :=
    List.foldl_hom Node.dict fun _ _ => rfl
  have hentries (entries : Table Value) (he : entries.Distinct) (d : Table Value)
      (hd : d.Distinct) : overlaidBy (.dict d) (.dict entries) =
        .node (entries.foldl (fun n e => n.revise e.1 e.2.laidOver) (.dict d)) := by
    have hchanges : (entryChanges entries).Distinct := by
      rw [entryChanges_eq]
      exact List.pairwise_map.mpr he
    show Value.node (.dict (overlaidEntries d (entryChanges entries))) = _
    rw [overlaidEntries_eq_foldl hchanges hd, ← hrevise, entryChanges_eq, List.foldl_map]
  rcases hn.dict_or_list with ⟨d, rfl⟩ | ⟨l, rfl⟩ <;>
    rcases hm.dict_or_list with ⟨e, rfl⟩ | ⟨items, rfl⟩
  · exact hentries e hm.1 d hn.1
  · exact (overlaidBy_dict_list d items).trans (hentries _ hm.fields_distinct d hn.1)
  · exact overlaidBy_list_dict l e
  · show Value.node (.list (overlaidItems l (itemChanges items))) = _
    have hitems := overlaidItems_eq_foldl (itemChanges items) [] l
    rw [List.nil_append, List.nil_append, itemChanges_eq, List.length_nil, Table.numbered_map,
      List.foldl_map] at hitems
    rw [itemChanges_eq, hitems]
    rfl

/-! ## Values that documents consist of -/

/-- A value that consists of dictionaries with texts as keys, of lists, and of atoms. -/
inductive Plain : Value → Prop where
  | atom (a : Atom) : Plain (.atom a)
  | node {n : Node Value} (hn : n.Plain) (hchildren : ∀ v ∈ n.children, Plain v) :
      Plain (.node n)

theorem Plain.isNested_eq {n : Node Value} (h : Plain (.node n)) :
    isNested (.node n) = true := by
  cases h with
  | node hn _ => exact hn.isNested_eq

/-- A property of plain values that null has, that goes over to the contents of a value, and that is
kept where a content is written under a text. -/
structure Revisable (P : Value → Prop) : Prop where
  plain : ∀ {v}, P v → v.Plain
  null : P .null
  child : ∀ {n : Node Value}, P (.node n) → ∀ v ∈ n.children, P v
  put : ∀ {n : Node Value} {v}, P (.node n) → ∀ name, P v → P (.node (n.put (.text name) v))

variable {P : Value → Prop}

theorem Revisable.revise (hP : Revisable P) {n : Node Value} (hn : P (.node n)) (name : String)
    {change : Value → Value} (hchange : ∀ v, P v → P (change v)) :
    P (.node (n.revise (.text name) change)) := by
  refine hP.put hn name (hchange _ ?_)
  cases hat : n.at? (.text name) with
  | none => exact hP.null
  | some c => exact hP.child hn c (Node.mem_children_of_at? hat)

/-- The overlay stays among the values with such a property. -/
theorem Revisable.laidOver (hP : Revisable P) {value : Value} (hv : P value) :
    ∀ current : Value, P current → P (value.laidOver current) := by
  have hplain := hP.plain hv
  induction hplain with
  | atom a =>
      intro current _
      have hatom : Value.laidOver (.atom a) current = .atom a := by
        simp [Value.laidOver, joined, isNested]
      rw [hatom]
      exact hv
  | @node m hm hchildren ih =>
      intro current hc
      unfold Value.laidOver joined
      split
      -- One entry at a time: each revises a value with a change that keeps the property.
      · cases hP.plain hc with
        | atom a => rename_i hjoins; simp [isNested] at hjoins
        | @node n hn hvalues =>
            rw [overlaidBy_eq_foldl hn hm]
            refine List.foldlRecOn (motive := fun n => P (.node n)) m.fields _ hc ?_
            intro n hn e he
            obtain ⟨name, hname, -⟩ := hm.of_mem_fields he
            have hmem := hm.mem_children_of_mem_fields he
            rw [hname]
            exact hP.revise hn name (ih e.2 hmem (hP.child hv e.2 hmem))
      · exact hv

theorem revisable_plain : Revisable Plain where
  plain := id
  null := .atom .null
  child := fun h => by
    cases h with
    | node _ hchildren => exact hchildren
  put := fun {n v} h name hv => by
    cases h with
    | node hn hchildren =>
        refine .node (hn.put name _) fun w hw => ?_
        rcases hn.mem_children_put hw with hw | rfl | rfl
        · exact hchildren w hw
        · exact hv
        · exact .atom .null

theorem Plain.laidOver {value : Value} (hv : value.Plain) :
    ∀ current : Value, current.Plain → (value.laidOver current).Plain := revisable_plain.laidOver hv

/-- What is no collection is neither laid over anything nor anything over it. -/
theorem overlaidBy_of_not_nested {target source : Value} (ht : target.Plain) (hs : source.Plain)
    (h : (target.isNested && source.isNested) = false) : target.overlaidBy source = target := by
  cases hs with
  | atom a => rfl
  | @node m hm hchildren =>
      cases ht with
      | atom a => rcases hm.dict_or_list with ⟨e, rfl⟩ | ⟨items, rfl⟩ <;> rfl
      | node hn _ =>
          rw [show isNested (.node _) = true from hn.isNested_eq,
            show isNested (.node m) = true from hm.isNested_eq] at h
          cases h

end Value

end LooseData
