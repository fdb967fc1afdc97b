import LooseData.Proofs.Layer.OwnKeys
import LooseData.Proofs.Merge.Level

set_option autoImplicit false

/-! # Going through the entries

A level stores its entries in an order (`Layer.stored`), and going through them looks each one up
under its own key. So an entry has to survive the lookup: an index is written and read again, a name
must be public, a mapping must answer for its key.

Two sorts of keys do not survive it. The null key is in a mapping, but access by null finds nothing.
A caseless map can be given a byte string as a label and is asked for texts only. All other entries
come back as they are stored, in their order and each of them once (`Value.entries_iff_stored`).
-/

namespace LooseData

variable {α : Type}

/-! ## Keys as values -/

namespace Value

mutual

/-- A key is read back from its value. -/
theorem key?_ofKey (k : Key) : (ofKey k).key? = some k :=
  match k with
  | .atom a => by simp [ofKey, key?]
  | .tuple items => by
    have hitems : tupleKeys ((ofKeys items).map key?) = some items := tupleKeys_ofKeys items
    have hnode : (ofKey (.tuple items)).key? =
        (tupleKeys ((ofKeys items).map key?)).map .tuple := by
      rw [ofKey, key?, fold_node]
      rfl
    rw [hnode, hitems]
    rfl

/-- Keys are read back from their values. -/
theorem tupleKeys_ofKeys (ks : List Key) : tupleKeys ((ofKeys ks).map key?) = some ks :=
  match ks with
  | [] => rfl
  | k :: rest => by
    rw [ofKeys, List.map_cons, key?_ofKey k, tupleKeys, tupleKeys_ofKeys rest]
    rfl

end

/-- Only a text can be read as a number in place of a key. -/
theorem numericKey?_ofKey {k : Key} (hk : ∀ s, k ≠ .text s) :
    (ofKey k).numericKey? = .ok none := by
  cases k with
  | tuple items => rfl
  | atom a =>
      cases a with
      | text s => exact absurd rfl (hk s)
      | _ => rfl

end Value

/-- Where the names differ, an attribute is found under its name. -/
theorem lookup_eq_some_of_mem {attributes : List (String × α)}
    (h : (attributes.map Prod.fst).Nodup) {e : String × α} (he : e ∈ attributes) :
    attributes.lookup e.1 = some e.2 := by
  obtain ⟨front, back, rfl⟩ := List.append_of_mem he
  have hfront : ∀ d ∈ front, (e.1 != d.1) = true := by
    intro d hd
    rw [List.map_append, List.map_cons] at h
    have hne := (List.nodup_append.mp h).2.2 d.1 (List.mem_map_of_mem hd) e.1 List.mem_cons_self
    simpa [bne_iff_ne] using hne.symm
  exact List.lookup_eq_some_iff.mpr ⟨front, back, rfl, hfront⟩

/-- Indices differ, so items under their indices have different keys. -/
theorem Table.distinct_numbered (items : List α) : Distinct (numbered 0 items) :=
  Node.Plain.fields_distinct (n := .list items) trivial

namespace Layer

/-! ## What a level stores -/

/-- A level as it can be made: no two entries, attributes or constants have the same name, the index
of a caseless map is in step, and no sequence is longer than a length can be. -/
structure WellFormed [HoldsAtoms α] (l : Layer α) : Prop where
  wellMade : l.WellMade
  attributes : ∀ attributes, l = .node (.object attributes) → (attributes.map Prod.fst).Nodup
  constants : ∀ e, l = .atom (.enumeration e) → (e.constants.map Prod.fst).Nodup
  length_le : ∀ items, l.sequence? = some items → items.length ≤ maxLength

/-- What a level stores, in order: the entries of a mapping, the items of a sequence under their
indices, the public attributes of an object, the members of an enumeration under all of their
names. -/
def stored [HoldsAtoms α] (l : Layer α) : Table α :=
  match l.sequence? with
  | some items => Table.numbered 0 items
  | none => match l with
    | .atom (.enumeration e) => (e.constants.filter fun c => !hiddenName c.1).map fun c =>
        (.text c.1, HoldsAtoms.ofAtom (.member e ((e.memberName? c.1).getD c.1)))
    | .atom _ => []
    | .node (.object attributes) =>
      (attributes.filter fun a => !hiddenName a.1).map fun a => (.text a.1, a.2)
    | .node n => n.contents

/-- Whether a level can be asked for a key. -/
def isAsked : Layer α → Key → Bool
  | .atom _, _ => true
  | .node n, k => n.isAsked k

/-- Whether access by a key gives what the level stores under it. -/
def givesOut (l : Layer α) (k : Key) : Bool := l.isAsked k && k != .atom .null

/-- A mapping finds an entry under its key, if it can be asked for it. Only a text that is no key
would be read as a number. -/
theorem lookupEntry_of_mem_contents {n : Node α} (hn : n.IsMap) {e : Key × α}
    (he : e ∈ n.contents) :
    lookupEntry n (.ofKey e.1) = .ok (if n.isAsked e.1 then some e.2 else none) := by
  have hitem := hn.item?_eq_of_mem he
  unfold lookupEntry
  rw [Value.key?_ofKey]
  dsimp only
  by_cases hasked : n.isAsked e.1 = true
  · rw [if_pos hasked] at hitem ⊢
    rw [hitem]
  · rw [if_neg hasked] at hitem ⊢
    have htext : ∀ s, e.1 ≠ .text s := by
      intro s hs
      rw [hs] at hasked
      cases n <;> exact hasked rfl
    rw [hitem, Value.numericKey?_ofKey htext]
    rfl

variable [HoldsAtoms α] {l : Layer α}

theorem stored_of_sequence? {items : List α} (h : l.sequence? = some items) :
    l.stored = Table.numbered 0 items := by
  unfold stored
  rw [h]

/-- The levels whose entries are not numbered: enumerations, objects and mappings. -/
inductive Unnumbered : Layer α → Prop where
  | enumeration (e : Enumeration) : Unnumbered (.atom (.enumeration e))
  | object (attributes : List (String × α)) : Unnumbered (.node (.object attributes))
  | mapping {n : Node α} (hn : n.isMapping = true) : Unnumbered (.node n)

theorem unnumbered_of_mem_stored (hseq : l.sequence? = none) {e : Key × α} (he : e ∈ l.stored) :
    l.Unnumbered := by
  unfold stored at he
  rw [hseq] at he
  cases l with
  | atom a =>
      cases a with
      | enumeration e => exact .enumeration e
      | _ => cases he
  | node n =>
      cases n with
      | tuple _ => cases hseq
      | list _ => cases hseq
      | buffer _ => cases hseq
      | object attributes => exact .object attributes
      | _ => exact .mapping rfl

theorem stored_mapping {n : Node α} (hn : n.isMapping = true) :
    (Layer.node n).stored = n.contents := by
  cases n with
  | dict _ => rfl
  | frozen _ => rfl
  | caseless _ => rfl
  | world _ => rfl
  | view _ _ => rfl
  | _ => cases hn

/-- **The keys of a level** are those of what it stores. -/
theorem ownKeys_eq_stored (l : Layer α) :
    l.ownKeys = l.stored.map fun e => Value.ofKey e.1 := by
  cases hseq : l.sequence? with
  | some items =>
      have hkeys := congrArg (List.map Value.ofKey) (Table.keys_numbered 0 items)
      rw [List.map_map, List.map_map, ← List.range_eq_range'] at hkeys
      rw [ownKeys_of_sequence? hseq, stored_of_sequence? hseq]
      exact hkeys.symm
  | none =>
      unfold ownKeys stored
      rw [hseq]
      cases l with
      | atom a =>
          cases a with
          | enumeration e =>
              rw [List.map_map]
              rfl
          | _ => rfl
      | node n =>
          cases n with
          | object attributes =>
              rw [List.map_map]
              rfl
          | _ => rfl

/-- **Every key is listed once.** -/
theorem WellFormed.distinct_stored (h : l.WellFormed) : l.stored.Distinct := by
  have hnames {β : Type} {named : List (String × β)} (f : String × β → α)
      (hnodup : (named.map Prod.fst).Nodup) :
      Table.Distinct ((named.filter fun a => !hiddenName a.1).map fun a => (.text a.1, f a)) := by
    have hne : named.Pairwise fun a b => a.1 ≠ b.1 := List.pairwise_map.mp hnodup
    refine List.pairwise_map.mpr ((hne.filter _).imp fun {a b} hab => ?_)
    rw [← Bool.not_eq_true, Key.same_text_iff]
    exact hab
  cases hseq : l.sequence? with
  | some items =>
      rw [stored_of_sequence? hseq]
      exact Table.distinct_numbered items
  | none =>
      unfold stored
      rw [hseq]
      cases l with
      | atom a =>
          cases a with
          | enumeration e => exact hnames _ (h.constants e rfl)
          | _ => exact List.Pairwise.nil
      | node n =>
          cases n with
          | tuple _ => cases hseq
          | list _ => cases hseq
          | buffer _ => cases hseq
          | object attributes => exact hnames Prod.snd (h.attributes attributes rfl)
          | _ => exact (h.wellMade _ rfl rfl).distinct

/-! ## Looking up what is stored -/

/-- **What is found under the key of an entry.** -/
theorem WellFormed.lookup_of_mem_stored (h : l.WellFormed) {e : Key × α} (he : e ∈ l.stored) :
    l.lookup (.ofKey e.1) = .ok (if l.isAsked e.1 then some e.2 else none) := by
  cases hseq : l.sequence? with
  | some items =>
      rw [stored_of_sequence? hseq] at he
      obtain ⟨i, v, hitem, rfl⟩ := Table.mem_numbered.mp he
      rw [Nat.zero_add]
      have hlt : i < items.length := (List.getElem?_eq_some_iff.mp hitem).1
      have hindex : numeral? (toString i) = .ok (some i) :=
        numeral?_toString_of_lt (hlt.trans_le (h.length_le items hseq))
      have hasked : l.isAsked (.text (toString i)) = true := by
        cases l with
        | atom a => rfl
        | node n => cases n <;> rfl
      have hlookup : l.lookup (.text (toString i)) =
          (numeral? (toString i)).map fun i => i.bind fun i => items[i]? := by
        unfold lookup
        rw [hseq]
        rfl
      rw [hasked, if_pos rfl]
      show l.lookup (.text (toString i)) = _
      rw [hlookup, hindex]
      exact congrArg Except.ok hitem
  | none =>
      cases unnumbered_of_mem_stored hseq he with
      | enumeration enumeration =>
          obtain ⟨c, hc, rfl⟩ := List.mem_map.mp he
          obtain ⟨hc, hpublic⟩ := List.mem_filter.mp hc
          have hname : (Value.text c.1).publicName? = some c.1 :=
            Value.publicName?_text (by simpa using hpublic)
          obtain ⟨name, hmember⟩ :=
            Option.ne_none_iff_exists'.mp (Enumeration.memberName?_ne_none hc)
          show Except.ok (((Value.text c.1).publicName?.bind _).map _) = _
          rw [hname, Option.bind_some, Atom.attribute?, hmember]
          rfl
      | object attributes =>
          obtain ⟨a, ha, rfl⟩ := List.mem_map.mp he
          obtain ⟨ha, hpublic⟩ := List.mem_filter.mp ha
          have hname : (Value.text a.1).publicName? = some a.1 :=
            Value.publicName?_text (by simpa using hpublic)
          show Except.ok ((Value.text a.1).publicName?.bind _) = _
          rw [hname]
          exact congrArg Except.ok (lookup_eq_some_of_mem (h.attributes attributes rfl) ha)
      | @mapping n hn =>
          rw [stored_mapping hn] at he
          rw [lookup_mapping hn]
          exact lookupEntry_of_mem_contents (h.wellMade n rfl hn) he

/-- A level says that it has a key of its own, if it can be asked for it. -/
theorem WellFormed.hasKey_of_mem_stored (h : l.WellFormed) {e : Key × α} (he : e ∈ l.stored) :
    l.hasKey (.ofKey e.1) = .ok (l.isAsked e.1) := by
  rw [hasKey, h.lookup_of_mem_stored he]
  cases l.isAsked e.1 <;> rfl

theorem isNull_ofKey (k : Key) : (Value.ofKey k).isNull = (k == .atom .null) := by
  cases k with
  | tuple items => rfl
  | atom a => cases a <;> rfl

/-- **Access by the key of an entry** gives its value, or null where the level does not give it
out. -/
theorem WellFormed.access_of_mem_stored (h : l.WellFormed) {e : Key × α} (he : e ∈ l.stored) :
    l.access (.ofKey e.1) = .ok (if l.givesOut e.1 then e.2 else HoldsAtoms.ofAtom .null) := by
  have hlookup := h.lookup_of_mem_stored he
  unfold access
  dsimp only
  by_cases hnull : e.1 = .atom .null
  · simp [isNull_ofKey, hnull, givesOut]
  · rw [isNull_ofKey, hlookup]
    by_cases hasked : l.isAsked e.1 = true
    · simp [hnull, hasked, givesOut, Except.map]
    · simp [hnull, hasked, givesOut, Except.map]

/-- **Going through the entries of a level.** -/
theorem WellFormed.entries_eq (h : l.WellFormed) :
    l.entries = .ok (l.stored.map fun e =>
      (Value.ofKey e.1, if l.givesOut e.1 then e.2 else HoldsAtoms.ofAtom .null)) := by
  unfold entries
  rw [ownKeys_eq_stored, List.mapM_map]
  refine Except.mapM_eq_ok fun e he => ?_
  show (l.access (.ofKey e.1)).map _ = _
  rw [h.access_of_mem_stored he]
  rfl

end Layer

namespace Value

/-- **Going through the entries of a value.** Every key that it stores is listed once, in order, and
it says that it has the key unless it cannot be asked for it. The values are those that it stores, if
and only if it stores null under each key that it does not give out. -/
theorem entries_iff_stored (v : Value) (hv : v.layer.WellFormed) :
    v.ownKeys = v.layer.stored.map (fun e => ofKey e.1) ∧ v.layer.stored.Distinct ∧
      (∀ e ∈ v.layer.stored, v.hasKey (ofKey e.1) = .ok (v.layer.isAsked e.1)) ∧
      v.entries = .ok (v.layer.stored.map fun e =>
        (ofKey e.1, if v.layer.givesOut e.1 then e.2 else .null)) ∧
      (v.entries = .ok (v.layer.stored.map fun e => (ofKey e.1, e.2)) ↔
        ∀ e ∈ v.layer.stored, v.layer.givesOut e.1 = false → e.2 = .null) := by
  have hentries : v.entries = .ok (v.layer.stored.map fun e =>
      (ofKey e.1, if v.layer.givesOut e.1 then e.2 else .null)) := hv.entries_eq
  refine ⟨v.layer.ownKeys_eq_stored, hv.distinct_stored, fun e => hv.hasKey_of_mem_stored,
    hentries, ?_⟩
  rw [hentries, Except.ok.injEq, List.map_inj_left]
  refine forall₂_congr fun e _ => ?_
  cases v.layer.givesOut e.1 with
  | true => simp
  | false => simp [eq_comm]

/-- A dictionary with a number under the null key. -/
def portUnderNull : Value := .dict [(.atom .null, .int 80), (.text "host", .text "web-1")]

theorem entries_portUnderNull_iff_stored :
    portUnderNull.layer.WellFormed ∧
      portUnderNull.ownKeys = [.null, .text "host"] ∧
      portUnderNull.entries = .ok [(.null, .null), (.text "host", .text "web-1")] := by
  have hmap : portUnderNull.layer.WellMade := by
    rintro n hn -
    cases hn
    exact List.pairwise_pair.mpr rfl
  have hformed : portUnderNull.layer.WellFormed :=
    ⟨hmap, fun _ h => (by cases h), fun _ h => (by cases h), fun _ h => (by cases h)⟩
  obtain ⟨hkeys, -, -, hentries, -⟩ := entries_iff_stored portUnderNull hformed
  exact ⟨hformed, hkeys, hentries⟩

/-- **Not every entry comes back**: a dictionary that has the null key lists it with null. -/
theorem exists_entries_ne_stored :
    portUnderNull.hasKey .null = .ok true ∧
      portUnderNull.layer.stored = [(.atom .null, .int 80), (.text "host", .text "web-1")] ∧
      portUnderNull.entries ≠ .ok [(.null, .int 80), (.text "host", .text "web-1")] := by
  refine ⟨rfl, rfl, fun h => ?_⟩
  have hlisted : portUnderNull.entries = .ok [(.null, .null), (.text "host", .text "web-1")] := rfl
  cases hlisted.symm.trans h

end Value

end LooseData
