import LooseData.Proofs.Layer.Ordinary
import LooseData.Proofs.Layer.Unreadable
import LooseData.Proofs.Merge.Places

set_option autoImplicit false

/-! # Levels of documents

Documents consist of dictionaries with texts as keys, of lists and of tuples (`Node.Textual`). What
such a level holds under a key is found by the key itself, or at the index that the key stands for.
So a write under one key leaves alone what is found under another one, unless the two are texts of
digits for the same number (`Key.Apart`).

A document is unambiguous if no dictionary in it has two such keys (`Value.Unambiguous`). Then all
entries of a level are found under their own keys, and going through them yields them all.
-/

namespace LooseData

variable {α β : Type}

/-! ## Keys that stand for different places -/

theorem Key.isTextOrInt_text (s : String) : (Key.text s).IsTextOrInt := trivial

/-- Two keys stand for different places of every level: they are not the same key, and no index is
that of both. -/
def Key.Apart (k k' : Key) : Prop :=
  k.same k' = false ∧
    ∀ i, (Value.ofKey k).index? = .ok (some i) → (Value.ofKey k').index? ≠ .ok (some i)

theorem Key.Apart.symm {k k' : Key} (h : k.Apart k') : k'.Apart k :=
  ⟨(Key.same_comm k' k).trans h.1, fun i hi hi' => h.2 i hi' hi⟩

/-- The indices of a sequence stand for different places. -/
theorem Key.apart_toString {i j : Nat} (h : i ≠ j) :
    (Key.text (toString i)).Apart (.text (toString j)) := by
  constructor
  · rw [← Bool.not_eq_true, Key.same_text_iff]
    exact fun heq => h (toString_injective heq)
  · intro x hi hj
    obtain rfl := Option.some.inj ((numeral?_toString i).2 _ hi)
    exact h (Option.some.inj ((numeral?_toString j).2 _ hj))

namespace Node

/-- A dictionary with texts as keys, a list or a tuple. -/
def Textual : Node α → Prop
  | .dict entries => ∀ e ∈ entries, ∃ s, e.1 = .text s
  | .list _ | .tuple _ => True
  | _ => False

theorem textual_map {f : α → β} {n : Node α} : (n.map f).Textual ↔ n.Textual := by
  cases n with
  | dict entries => exact List.forall_mem_map
  | _ => rfl

theorem Textual.isNested_eq {n : Node α} (h : n.Textual) : n.isNested = true := by
  cases n with
  | dict entries => rfl
  | list items => rfl
  | tuple items => rfl
  | _ => exact h.elim

end Node

/-! ## Looking things up -/

namespace Layer

section

variable [HoldsAtoms α] {k : Key} {c : α} {items : List α} {entries : Table α}

theorem lookup_items_eq_some_iff {n : Node α} (hn : n = .list items ∨ n = .tuple items) :
    (Layer.node n).lookup (.ofKey k) = .ok (some c) ↔
      ∃ i, (Value.ofKey k).index? = .ok (some i) ∧ items[i]? = some c := by
  have hlookup : (Layer.node n).lookup (.ofKey k) =
      (Value.ofKey k).index?.map fun i => i.bind fun i => items[i]? := by
    rcases hn with rfl | rfl <;> rfl
  rw [hlookup, Except.map_eq_ok_iff]
  constructor
  · rintro ⟨i, hi, hitem⟩
    obtain ⟨i, rfl, hitem⟩ := Option.bind_eq_some_iff.mp hitem
    exact ⟨i, hi, hitem⟩
  · rintro ⟨i, hi, hitem⟩
    exact ⟨some i, hi, hitem⟩

theorem access_of_lookup {l : Layer α} (hk : k.IsTextOrInt)
    (h : l.lookup (.ofKey k) = .ok (some c)) : l.access (.ofKey k) = .ok c := by
  unfold Layer.access
  rw [hk.isNull_ofKey, h]
  rfl

/-- In a dictionary with texts as keys the number that a text stands for finds nothing. -/
theorem lookup_dict_eq_some_iff (htexts : ∀ e ∈ entries, ∃ s, e.1 = .text s)
    (hk : k.IsTextOrInt) :
    (Layer.node (.dict entries)).lookup (.ofKey k) = .ok (some c) ↔
      Table.get? entries k = some c := by
  have hnumber (i : Int) : Table.get? entries (.int i) = none := by
    rw [Table.get?_eq_none_iff]
    intro e he
    obtain ⟨s, hs⟩ := htexts e he
    rw [hs]
    rfl
  have hitem (key : Key) : (Node.dict entries).item? key = Table.get? entries key := rfl
  show lookupEntry _ _ = _ ↔ _
  rw [lookupEntry, hk.key?_ofKey]
  simp only [hitem]
  cases Table.get? entries k with
  | some v =>
      constructor
      · intro h
        exact Except.ok.inj h
      · intro h
        exact congrArg Except.ok h
  | none =>
      constructor
      · intro h
        obtain ⟨i, -, hi⟩ := Except.map_eq_ok_iff.mp h
        obtain ⟨i, -, hi⟩ := Option.bind_eq_some_iff.mp hi
        cases (hnumber i).symm.trans hi
      · intro h
        cases h

variable {n n' : Node α} {k' : Key} {v c' : α}

/-- **Different places hold different contents**: what is found under one key is left when a content
that is found under another one is taken out. -/
theorem exists_split_of_lookup (h : n.Textual) (hk : k.IsTextOrInt)
    (hlookup : (Layer.node n).lookup (.ofKey k) = .ok (some c)) :
    ∃ front back, n.children = front ++ c :: back ∧ ∀ k' c', k'.IsTextOrInt → k.Apart k' →
      (Layer.node n).lookup (.ofKey k') = .ok (some c') → c' ∈ front ++ back := by
  have hitems {items : List α} (hn : n = .list items ∨ n = .tuple items) :
      ∃ front back, items = front ++ c :: back ∧ ∀ k' c', k'.IsTextOrInt → k.Apart k' →
        (Layer.node n).lookup (.ofKey k') = .ok (some c') → c' ∈ front ++ back := by
    obtain ⟨i, hi, hitem⟩ := (lookup_items_eq_some_iff hn).mp hlookup
    obtain ⟨hlt, rfl⟩ := List.getElem?_eq_some_iff.mp hitem
    refine ⟨items.take i, items.drop (i + 1), ?_, fun k' c' _ hapart hlookup' => ?_⟩
    · rw [List.getElem_cons_drop, List.take_append_drop]
    · obtain ⟨j, hj, hitem'⟩ := (lookup_items_eq_some_iff hn).mp hlookup'
      have hne : i ≠ j := by
        rintro rfl
        exact hapart.2 i hi hj
      rw [← List.eraseIdx_eq_take_drop_succ]
      exact List.mem_eraseIdx_iff_getElem?.mpr ⟨j, hne.symm, hitem'⟩
  cases n with
  | dict entries =>
      rw [lookup_dict_eq_some_iff h hk] at hlookup
      obtain ⟨front, key, back, rfl, hkey, -⟩ := Table.exists_split_of_get? hlookup
      refine ⟨front.map Prod.snd, back.map Prod.snd, by simp [Node.children],
        fun k' c' hk' hapart hlookup' => ?_⟩
      rw [lookup_dict_eq_some_iff h hk', Table.get?_append, Table.get?,
        if_neg (fun hkey' => ?_), ← Table.get?_append] at hlookup'
      · rw [← List.map_append]
        exact Table.mem_of_get? hlookup'
      · rw [Key.same_comm] at hkey
        exact Bool.eq_false_iff.mp hapart.1 (Key.same_trans hkey hkey')
  | list items => exact hitems (.inl rfl)
  | tuple items => exact hitems (.inr rfl)
  | _ => exact h.elim

theorem mem_children_of_lookup (h : n.Textual) (hk : k.IsTextOrInt)
    (hlookup : (Layer.node n).lookup (.ofKey k) = .ok (some c)) : c ∈ n.children := by
  obtain ⟨front, back, hsplit, -⟩ := exists_split_of_lookup h hk hlookup
  rw [hsplit]
  exact List.mem_append_right _ List.mem_cons_self

theorem lookup_map_eq_some_iff [HoldsAtoms β] {f : α → β} {b : β} (h : n.Textual)
    (hk : k.IsTextOrInt) : (Layer.node (n.map f)).lookup (.ofKey k) = .ok (some b) ↔
      ∃ c, (Layer.node n).lookup (.ofKey k) = .ok (some c) ∧ f c = b := by
  have hitems {n : Node α} {m : Node β} {items : List α} (hn : n = .list items ∨ n = .tuple items)
      (hm : m = .list (items.map f) ∨ m = .tuple (items.map f)) :
      (Layer.node m).lookup (.ofKey k) = .ok (some b) ↔
        ∃ c, (Layer.node n).lookup (.ofKey k) = .ok (some c) ∧ f c = b := by
    simp only [lookup_items_eq_some_iff hn, lookup_items_eq_some_iff hm, List.getElem?_map,
      Option.map_eq_some_iff]
    constructor
    · rintro ⟨i, hi, c, hc, rfl⟩
      exact ⟨c, ⟨i, hi, hc⟩, rfl⟩
    · rintro ⟨c, ⟨i, hi, hc⟩, rfl⟩
      exact ⟨i, hi, c, hc, rfl⟩
  cases n with
  | dict entries =>
      have htexts : ((Node.dict entries).map f).Textual := Node.textual_map.mpr h
      show (Layer.node (.dict (entries.map fun e => (e.1, f e.2)))).lookup (.ofKey k) = _ ↔ _
      rw [lookup_dict_eq_some_iff htexts hk, Table.get?_map, Option.map_eq_some_iff]
      simp only [lookup_dict_eq_some_iff h hk]
  | list items => exact hitems (.inl rfl) (.inl rfl)
  | tuple items => exact hitems (.inr rfl) (.inr rfl)
  | _ => exact h.elim

/-! ## Writing -/

/-- **What a write does**: a dictionary takes every key, a list an index unless the gap up to it is
too long, and a tuple none. -/
theorem assign_eq_ok_iff [Memory] (h : n.Textual) (hk : k.IsTextOrInt) :
    ((Layer.node n).assign (.ofKey k) v).result = .ok n' ↔
      (∃ entries, n = .dict entries ∧ n' = .dict (Table.set entries k v)) ∨
      ∃ items i, n = .list items ∧ (Value.ofKey k).index? = .ok (some i) ∧
        checkGap (i - items.length) = .ok () ∧
        n' = .list (writeAt items i v (HoldsAtoms.ofAtom .null)) := by
  cases n with
  | dict entries =>
      constructor
      · intro hn'
        obtain ⟨key, hkey, hn'⟩ := Logged.bind_eq_ok_iff.mp hn'
        obtain rfl := Except.ok.inj (hk.mustBeKey_ofKey.symm.trans hkey)
        exact .inl ⟨entries, rfl, (Except.ok.inj hn').symm⟩
      · rintro (⟨_, heq, rfl⟩ | ⟨_, _, heq, -⟩)
        · obtain rfl := Node.dict.inj heq
          exact Logged.bind_eq_ok_iff.mpr ⟨k, hk.mustBeKey_ofKey, rfl⟩
        · cases heq
  | list items =>
      constructor
      · intro hn'
        obtain ⟨i, hi, hn'⟩ := Logged.bind_eq_ok_iff.mp hn'
        obtain ⟨_, hgap, hn'⟩ := Logged.bind_eq_ok_iff.mp hn'
        have hindex := Value.mustBeIndex_eq_ok_iff.mp hi
        exact .inr ⟨items, i, rfl, hindex, hgap, (Except.ok.inj hn').symm⟩
      · rintro (⟨_, heq, -⟩ | ⟨_, i, heq, hi, hgap, rfl⟩)
        · cases heq
        · obtain rfl := Node.list.inj heq
          have hindex : (Value.ofKey k).mustBeIndex = .ok i := Value.mustBeIndex_eq_ok_iff.mpr hi
          exact Logged.bind_eq_ok_iff.mpr ⟨i, hindex, Logged.bind_eq_ok_iff.mpr ⟨(), hgap, rfl⟩⟩
  | tuple items =>
      constructor
      · intro hn'
        cases hn'
      · rintro (⟨_, heq, -⟩ | ⟨_, _, heq, -⟩) <;> cases heq
  | _ => exact h.elim

theorem takes_of_assign [Memory] (h : n.Textual) (hk : k.IsTextOrInt)
    (hn' : ((Layer.node n).assign (.ofKey k) v).result = .ok n') :
    (Layer.node n).Takes (.ofKey k) := by
  rcases (assign_eq_ok_iff h hk).mp hn' with ⟨entries, rfl, -⟩ | ⟨items, i, rfl, hi, -, -⟩
  · trivial
  · exact ⟨i, hi⟩

theorem textual_of_assign [Memory] (h : n.Textual) {name : String}
    (hn' : ((Layer.node n).assign (.text name) v).result = .ok n') : n'.Textual := by
  rcases (assign_eq_ok_iff (k := .text name) h trivial).mp hn' with
    ⟨entries, rfl, rfl⟩ | ⟨items, i, rfl, -, -, rfl⟩
  · intro e he
    rcases Table.key_of_mem_set he with heq | ⟨d, hd, heq⟩
    · exact ⟨name, heq⟩
    · rw [heq]
      exact h d hd
  · trivial

/-- **Writing what is found changes nothing.** -/
theorem assign_of_lookup [Memory] (h : n.Textual) (hk : k.IsTextOrInt)
    (htakes : (Layer.node n).Takes (.ofKey k))
    (hlookup : (Layer.node n).lookup (.ofKey k) = .ok (some c)) :
    ((Layer.node n).assign (.ofKey k) c).result = .ok n := by
  rw [assign_eq_ok_iff h hk]
  cases n with
  | dict entries =>
      rw [lookup_dict_eq_some_iff h hk] at hlookup
      obtain ⟨front, key, back, rfl, hkey, hfront⟩ := Table.exists_split_of_get? hlookup
      exact .inl ⟨_, rfl, congrArg Node.dict (Table.set_append_cons hkey hfront c c).symm⟩
  | list items =>
      obtain ⟨i, hi, hitem⟩ := (lookup_items_eq_some_iff (.inl rfl)).mp hlookup
      obtain ⟨hlt, rfl⟩ := List.getElem?_eq_some_iff.mp hitem
      refine .inr ⟨items, i, rfl, hi, ?_, ?_⟩
      · rw [Nat.sub_eq_zero_of_le hlt.le]
        rfl
      · rw [writeAt, if_pos hlt, List.set_getElem_self]
  | tuple items => exact htakes.elim
  | _ => exact h.elim

/-- **A write leaves alone what is found elsewhere.** -/
theorem lookup_assign_of_apart [Memory] (h : n.Textual) (h' : n'.Textual) (hk : k.IsTextOrInt)
    (hk' : k'.IsTextOrInt) (hapart : k.Apart k')
    (hn' : ((Layer.node n).assign (.ofKey k) v).result = .ok n')
    (hlookup : (Layer.node n).lookup (.ofKey k') = .ok (some c)) :
    (Layer.node n').lookup (.ofKey k') = .ok (some c) := by
  rcases (assign_eq_ok_iff h hk).mp hn' with ⟨entries, rfl, rfl⟩ | ⟨items, i, rfl, hi, -, rfl⟩
  · rw [lookup_dict_eq_some_iff h hk'] at hlookup
    rwa [lookup_dict_eq_some_iff h' hk', Table.get?_set_of_same_eq_false hapart.1]
  · obtain ⟨j, hj, hitem⟩ := (lookup_items_eq_some_iff (.inl rfl)).mp hlookup
    refine (lookup_items_eq_some_iff (.inl rfl)).mpr ⟨j, hj, ?_⟩
    have hne : i ≠ j := by
      rintro rfl
      exact hapart.2 i hi hj
    have hlt := (List.getElem?_eq_some_iff.mp hitem).1
    unfold writeAt
    split
    · rwa [List.getElem?_set_ne hne]
    · rwa [List.append_assoc, List.getElem?_append_left hlt]

/-- What is found elsewhere after a write has been there before, but for the nulls that fill a
gap. -/
theorem lookup_of_lookup_assign [Memory] (h : n.Textual) (h' : n'.Textual) (hk : k.IsTextOrInt)
    (hk' : k'.IsTextOrInt) (hapart : k.Apart k')
    (hn' : ((Layer.node n).assign (.ofKey k) v).result = .ok n')
    (hlookup : (Layer.node n').lookup (.ofKey k') = .ok (some c)) :
    c = HoldsAtoms.ofAtom .null ∨ (Layer.node n).lookup (.ofKey k') = .ok (some c) := by
  rcases (assign_eq_ok_iff h hk).mp hn' with ⟨entries, rfl, rfl⟩ | ⟨items, i, rfl, hi, -, rfl⟩
  · rw [lookup_dict_eq_some_iff h' hk', Table.get?_set_of_same_eq_false hapart.1] at hlookup
    exact .inr ((lookup_dict_eq_some_iff h hk').mpr hlookup)
  · obtain ⟨j, hj, hitem⟩ := (lookup_items_eq_some_iff (.inl rfl)).mp hlookup
    have hne : i ≠ j := by
      rintro rfl
      exact hapart.2 i hi hj
    have heq := getElem?_writeAt_of_ne items hne v (HoldsAtoms.ofAtom .null)
    rw [hitem, Option.getD_some] at heq
    cases hbefore : items[j]? with
    | none =>
        rw [hbefore] at heq
        exact .inl heq
    | some w =>
        rw [hbefore] at heq
        refine .inr ((lookup_items_eq_some_iff (.inl rfl)).mpr ⟨j, hj, ?_⟩)
        rw [hbefore, heq]
        rfl
end

end Layer

/-! ## Unambiguous documents -/

theorem Layer.allIndices_eq_ok_true {keys : List Value}
    (h : ∀ key ∈ keys, ∃ i, key.index? = .ok (some i)) :
    acceptsKeys.allIndices keys = .ok true := by
  induction keys with
  | nil => rfl
  | cons key rest ih =>
      obtain ⟨⟨i, hi⟩, hrest⟩ := List.forall_mem_cons.mp h
      rw [acceptsKeys.allIndices, hi]
      exact ih hrest

namespace Node

/-- A dictionary with texts as keys which stand for different places, or a list or a tuple. None of
these is longer than a length can be. -/
def Unambiguous : Node α → Prop
  | .dict entries =>
    (∀ e ∈ entries, ∃ s, e.1 = .text s) ∧ entries.Pairwise fun e e' => e.1.Apart e'.1
  | .list items | .tuple items => items.length ≤ maxLength
  | _ => False

theorem unambiguous_map {f : α → β} {n : Node α} : (n.map f).Unambiguous ↔ n.Unambiguous := by
  cases n with
  | dict entries =>
      show (∀ e ∈ entries.map _, _) ∧ (entries.map _).Pairwise _ ↔ _
      rw [List.forall_mem_map, List.pairwise_map]
      rfl
  | list items =>
      show (items.map f).length ≤ maxLength ↔ _
      rw [List.length_map]
      rfl
  | tuple items =>
      show (items.map f).length ≤ maxLength ↔ _
      rw [List.length_map]
      rfl
  | _ => rfl

namespace Unambiguous

variable {n : Node α} {e : Key × α}

theorem textual (h : n.Unambiguous) : n.Textual := by
  cases n with
  | dict entries => exact h.1
  | list items => trivial
  | tuple items => trivial
  | _ => exact h.elim

theorem ordinary (h : n.Unambiguous) : n.Ordinary := by
  cases n with
  | dict entries =>
      refine ⟨h.2.imp fun hapart => hapart.1, fun e he => ?_⟩
      obtain ⟨s, hs⟩ := h.1 e he
      rw [hs]
      trivial
  | list items => trivial
  | tuple items => trivial
  | _ => exact h.elim

theorem isNested_eq (h : n.Unambiguous) : n.isNested = true := h.textual.isNested_eq

theorem mem_children_of_mem_offers (h : n.Unambiguous) (he : e ∈ n.offers) : e.2 ∈ n.children := by
  rw [← h.ordinary.map_snd_offers]
  exact List.mem_map_of_mem he

/-- Every entry is under a text. -/
theorem exists_text (h : n.Unambiguous) (he : e ∈ n.offers) : ∃ s, e.1 = .text s := by
  have hitems {items : List α} (he : e ∈ Table.numbered 0 items) : ∃ s, e.1 = .text s := by
    obtain ⟨i, v, -, rfl⟩ := Table.mem_numbered.mp he
    exact ⟨_, rfl⟩
  cases n with
  | dict entries => exact h.1 e he
  | list items => exact hitems he
  | tuple items => exact hitems he
  | _ => exact h.elim

theorem offers_apart (h : n.Unambiguous) : n.offers.Pairwise fun e e' => e.1.Apart e'.1 := by
  have hitems (items : List α) :
      (Table.numbered 0 items).Pairwise fun e e' => e.1.Apart e'.1 := by
    rw [← List.pairwise_map (f := Prod.fst) (R := Key.Apart), Table.keys_numbered,
      List.pairwise_map]
    have hnodup : (List.range' 0 items.length).Nodup := List.nodup_range'
    exact hnodup.imp fun hne => Key.apart_toString hne
  cases n with
  | dict entries => exact h.2
  | list items => exact hitems items
  | tuple items => exact hitems items
  | _ => exact h.elim

variable [HoldsAtoms α]

/-- **Every entry is found under its own key.** -/
theorem lookup_of_mem_offers (h : n.Unambiguous) (he : e ∈ n.offers) :
    (Layer.node n).lookup (.ofKey e.1) = .ok (some e.2) := by
  have hitems {items : List α} (hn : n = .list items ∨ n = .tuple items)
      (hlength : items.length ≤ maxLength) (he : e ∈ Table.numbered 0 items) :
      (Layer.node n).lookup (.ofKey e.1) = .ok (some e.2) := by
    obtain ⟨i, v, hitem, rfl⟩ := Table.mem_numbered.mp he
    rw [Nat.zero_add]
    refine (Layer.lookup_items_eq_some_iff hn).mpr ⟨i, ?_, hitem⟩
    have hlt := (List.getElem?_eq_some_iff.mp hitem).1
    exact numeral?_toString_of_lt (hlt.trans_le hlength)
  cases n with
  | dict entries =>
      have hkey := h.ordinary.isTextOrInt_of_mem_offers he
      exact (Layer.lookup_dict_eq_some_iff h.1 hkey).mpr
        (Table.Distinct.get?_of_mem h.ordinary.1 he)
  | list items => exact hitems (.inl rfl) h he
  | tuple items => exact hitems (.inr rfl) h he
  | _ => exact h.elim

/-- Going through the entries of a level yields them all. -/
theorem entries_eq (h : n.Unambiguous) :
    (Layer.node n).entries = .ok (n.offers.map fun e => (Value.ofKey e.1, e.2)) := by
  rw [Layer.entries, h.ordinary.ownKeys_eq, List.mapM_map]
  refine Except.mapM_eq_ok fun e he => ?_
  have hkey := h.ordinary.isTextOrInt_of_mem_offers he
  show ((Layer.node n).access (.ofKey e.1)).map _ = _
  rw [Layer.access_of_lookup hkey (h.lookup_of_mem_offers he)]
  rfl

/-- Whether a level takes its own keys can be told: a dictionary or a list does, a tuple does
not. -/
theorem exists_acceptsKeys_self (h : n.Unambiguous) :
    ∃ accepts, (Layer.node n).acceptsKeys (Layer.node n).ownKeys = .ok accepts := by
  cases n with
  | dict entries => exact ⟨true, rfl⟩
  | list items =>
      refine ⟨true, Layer.allIndices_eq_ok_true fun key hkey => ?_⟩
      rw [h.ordinary.ownKeys_eq] at hkey
      obtain ⟨e, he, rfl⟩ := List.mem_map.mp hkey
      have hfound := h.lookup_of_mem_offers he
      obtain ⟨i, hi, -⟩ := (Layer.lookup_items_eq_some_iff (.inl rfl)).mp hfound
      exact ⟨i, hi⟩
  | tuple items => exact ⟨false, rfl⟩
  | _ => exact h.elim

end Unambiguous

end Node

/-- A value that consists of unambiguous dictionaries, lists and tuples and of atoms. -/
inductive Value.Unambiguous : Value → Prop where
  | atom (a : Atom) : Unambiguous (.atom a)
  | node {n : Node Value} (hn : n.Unambiguous) (hchildren : ∀ v ∈ n.children, Unambiguous v) :
      Unambiguous (.node n)

end LooseData
