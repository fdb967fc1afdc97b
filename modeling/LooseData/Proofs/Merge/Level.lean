import LooseData.Proofs.Layer.Index
import LooseData.Proofs.Table
import LooseData.Store.Merge
import Mathlib.Data.List.Basic

set_option autoImplicit false

/-! # One level of a merge

Merging looks at one level of its target and one level of its source at a time. On the two kinds
of collections that documents consist of, dictionaries with texts as keys and lists
(`Node.Plain`), the operations on a level are ordinary ones: look up an entry or an item
(`Node.at?`), write it (`Node.put`), list the entries, those of a list under its indices
(`Node.fields`). None of them depends on what the contents are, so they commute with replacing
every content by its image.
-/

namespace LooseData

open Edit

variable {α β : Type}

/-! ## Keys -/

/-- Whether a key is a text that consists of digits. -/
def Key.digitsOnly : Key → Bool
  | .atom (.text s) => Text.isDigits s.toList
  | _ => false

/-- The index that a text of digits stands for. -/
def Key.index : Key → Nat
  | .atom (.text s) => numeralValue s.toList
  | _ => 0

/-- Items under their indices as texts, counted from `i` on. -/
def Table.numbered : (i : Nat) → (items : List α) → Table α
  | _, [] => []
  | i, v :: rest => (.text (toString i), v) :: numbered (i + 1) rest

namespace Node

/-! ## Operations on a level -/

/-- A dictionary whose keys are different texts, or a list. -/
def Plain : Node α → Prop
  | .dict entries => Table.Distinct entries ∧ ∀ e ∈ entries, ∃ s, e.1 = .text s
  | .list _ => True
  | _ => False

/-- What a level holds under a key. -/
def at? : Node α → Key → Option α
  | .dict entries, key => Table.get? entries key
  | .list items, key => items[key.index]?
  | _, _ => none

/-- The level with a content written under a key. A list is padded with nulls up to the index. -/
def put [HoldsAtoms α] : Node α → Key → α → Node α
  | .dict entries, key, v => .dict (Table.set entries key v)
  | .list items, key, v => .list (writeAt items key.index v (HoldsAtoms.ofAtom .null))
  | n, _, _ => n

/-- The entries of a level, those of a list under its indices. -/
def fields : Node α → Table α
  | .dict entries => entries
  | .list items => Table.numbered 0 items
  | _ => []

/-- Whether a level can take a key: a dictionary takes any, a list only those of digits. -/
def takesKey : Node α → Key → Bool
  | .dict _, _ => true
  | .list _, key => key.digitsOnly
  | _, _ => false

/-- Whether a level can take all keys of another one. -/
def takes : Node α → Node β → Bool
  | .dict _, _ => true
  | .list _, source => source.fields.all fun e => e.1.digitsOnly
  | _, _ => false

end Node

/-! ## The entries of a level -/

theorem Table.mem_numbered {items : List α} {i : Nat} {e : Key × α} :
    e ∈ numbered i items ↔ ∃ j v, items[j]? = some v ∧ e = (.text (toString (i + j)), v) := by
  induction items generalizing i with
  | nil => simp [numbered]
  | cons w rest ih =>
      rw [numbered, List.mem_cons, ih]
      constructor
      · rintro (rfl | ⟨j, v, hj, rfl⟩)
        · exact ⟨0, w, rfl, rfl⟩
        · refine ⟨j + 1, v, hj, ?_⟩
          rw [Nat.add_right_comm, Nat.add_assoc]
      · rintro ⟨j, v, hj, rfl⟩
        cases j with
        | zero =>
            obtain rfl : w = v := Option.some.inj hj
            exact .inl rfl
        | succ j =>
            refine .inr ⟨j, v, hj, ?_⟩
            rw [Nat.add_right_comm, Nat.add_assoc]

theorem Table.keys_numbered (i : Nat) (items : List α) :
    (numbered i items).map Prod.fst =
      (List.range' i items.length).map fun j => .text (toString j) := by
  induction items generalizing i with
  | nil => rfl
  | cons v rest ih =>
      rw [numbered, List.map_cons, ih, List.length_cons, List.range'_succ, List.map_cons]

/-- Every entry of a level is under a text that the level takes, and is what it holds there. -/
theorem Node.Plain.of_mem_fields {n : Node α} (h : n.Plain) {e : Key × α} (he : e ∈ n.fields) :
    ∃ s, e.1 = .text s ∧ n.takesKey (.text s) = true ∧ n.at? (.text s) = some e.2 := by
  cases n with
  | dict entries =>
      obtain ⟨s, hs⟩ := h.2 e he
      have hget : Table.get? entries e.1 = some e.2 := h.1.get?_of_mem he
      exact ⟨s, hs, rfl, by rw [← hs]; exact hget⟩
  | list items =>
      obtain ⟨j, v, hj, rfl⟩ := Table.mem_numbered.mp he
      rw [Nat.zero_add]
      refine ⟨toString j, rfl, isDigits_toString j, ?_⟩
      show items[numeralValue (toString j).toList]? = some v
      rw [numeralValue_toString, hj]
  | _ => exact h.elim

/-- The contents of a level are those of its entries. -/
theorem Node.Plain.map_snd_fields {n : Node α} (h : n.Plain) :
    n.fields.map Prod.snd = n.children := by
  have hnumbered (items : List α) (i : Nat) :
      (Table.numbered i items).map Prod.snd = items := by
    induction items generalizing i with
    | nil => rfl
    | cons v rest ih => rw [Table.numbered, List.map_cons, ih]
  cases n with
  | dict entries => rfl
  | list items => exact hnumbered items 0
  | _ => exact h.elim

theorem Node.Plain.mem_children_of_mem_fields {n : Node α} (h : n.Plain) {e : Key × α}
    (he : e ∈ n.fields) : e.2 ∈ n.children := by
  rw [← h.map_snd_fields]
  exact List.mem_map_of_mem he

theorem Node.Plain.fields_distinct {n : Node α} (h : n.Plain) : Table.Distinct n.fields := by
  cases n with
  | dict entries => exact h.1
  | list items =>
      have hkeys : ((Table.numbered 0 items).map Prod.fst).Pairwise
          fun a b => a.same b = false := by
        rw [Table.keys_numbered, List.pairwise_map]
        refine (List.pairwise_lt_range' 1).imp ?_
        intro i j hlt
        rw [← Bool.not_eq_true, Key.same_text_iff]
        exact fun hij => Nat.ne_of_lt hlt (toString_injective hij)
      exact List.pairwise_map.mp hkeys
  | _ => exact h.elim

theorem Node.takes_of_takesKey {n : Node α} {m : Node β} (hn : n.Plain)
    (h : ∀ e ∈ m.fields, n.takesKey e.1 = true) : n.takes m = true := by
  cases n with
  | dict entries => rfl
  | list items => exact List.all_eq_true.mpr h
  | _ => exact hn.elim

/-! ## Contents do not matter -/

theorem Table.numbered_map (f : α → β) (i : Nat) (items : List α) :
    numbered i (items.map f) = (numbered i items).map fun e => (e.1, f e.2) := by
  induction items generalizing i with
  | nil => rfl
  | cons v rest ih => rw [List.map_cons, numbered, numbered, ih, List.map_cons]

theorem writeAt_map (f : α → β) (items : List α) (i : Nat) (v filler : α) :
    writeAt (items.map f) i (f v) (f filler) = (writeAt items i v filler).map f := by
  unfold writeAt
  rw [List.length_map]
  split
  · rw [List.map_set]
  · simp

namespace Node

theorem isNested_map (f : α → β) (n : Node α) : (n.map f).isNested = n.isNested := by
  cases n <;> rfl

theorem plain_map (f : α → β) {n : Node α} : (n.map f).Plain ↔ n.Plain := by
  cases n with
  | dict entries =>
      show (Table.Distinct (entries.map _) ∧ _) ↔ _
      unfold Table.Distinct
      rw [List.pairwise_map, List.forall_mem_map]
      rfl
  | _ => rfl

theorem at?_map (f : α → β) (n : Node α) (key : Key) :
    (n.map f).at? key = (n.at? key).map f := by
  cases n with
  | dict entries => exact Table.get?_map f entries key
  | list items => exact List.getElem?_map
  | _ => rfl

theorem put_map [HoldsAtoms α] [HoldsAtoms β] (f : α → β)
    (hf : f (HoldsAtoms.ofAtom .null) = HoldsAtoms.ofAtom .null) (n : Node α) (key : Key) (v : α) :
    (n.map f).put key (f v) = (n.put key v).map f := by
  cases n with
  | dict entries => exact congrArg Node.dict (Table.set_map f entries key v)
  | list items =>
      show Node.list (writeAt (items.map f) key.index (f v) (HoldsAtoms.ofAtom .null)) = _
      rw [← hf, writeAt_map]
      rfl
  | _ => rfl

theorem fields_map (f : α → β) (n : Node α) :
    (n.map f).fields = n.fields.map fun e => (e.1, f e.2) := by
  cases n with
  | list items => exact Table.numbered_map f 0 items
  | _ => rfl

theorem takesKey_map (f : α → β) (n : Node α) : (n.map f).takesKey = n.takesKey := by
  cases n <;> rfl

theorem takes_map {γ δ : Type} (f : α → β) (g : γ → δ) (n : Node α) (m : Node γ) :
    (n.map f).takes (m.map g) = n.takes m := by
  cases n with
  | list items =>
      show (m.map g).fields.all _ = m.fields.all _
      rw [fields_map, List.all_map]
      rfl
  | _ => rfl

/-! ## Writing replaces one content -/

section

variable [HoldsAtoms α]

theorem Plain.put {n : Node α} (h : n.Plain) (s : String) (v : α) :
    (n.put (.text s) v).Plain := by
  cases n with
  | dict entries =>
      refine ⟨h.1.set _ v, fun e he => ?_⟩
      rcases Table.key_of_mem_set he with heq | ⟨d, hd, heq⟩
      · exact ⟨s, heq⟩
      · obtain ⟨t, ht⟩ := h.2 d hd
        exact ⟨t, heq.trans ht⟩
  | _ => exact h

theorem takesKey_put (n : Node α) (key k : Key) (v : α) :
    (n.put key v).takesKey k = n.takesKey k := by
  cases n <;> rfl

/-- **Where something is held under a key**, writing replaces it and nothing else. -/
theorem children_put_of_at?_eq_some {n : Node α} {key : Key} {c : α} (h : n.at? key = some c) :
    ∃ front back, n.children = front ++ c :: back ∧
      ∀ v, (n.put key v).children = front ++ v :: back := by
  cases n with
  | dict entries =>
      obtain ⟨front, k, back, rfl, hk, hfront⟩ := Table.exists_split_of_get? h
      refine ⟨front.map Prod.snd, back.map Prod.snd, ?_, fun v => ?_⟩
      · simp [children]
      · simp [put, children, Table.set_append_cons hk hfront]
  | list items =>
      obtain ⟨hlt, rfl⟩ := List.getElem?_eq_some_iff.mp h
      refine ⟨items.take key.index, items.drop (key.index + 1), ?_, fun v => ?_⟩
      · rw [List.getElem_cons_drop, List.take_append_drop]
        rfl
      · show (writeAt items key.index v _) = _
        rw [writeAt, if_pos hlt, List.set_eq_take_append_cons_drop, if_pos hlt]
  | _ => cases h

theorem mem_children_of_at? {n : Node α} {key : Key} {c : α} (h : n.at? key = some c) :
    c ∈ n.children := by
  obtain ⟨front, back, hbefore, -⟩ := children_put_of_at?_eq_some h
  rw [hbefore]
  exact List.mem_append_right _ List.mem_cons_self

/-- Writing what is held already changes nothing. -/
theorem put_of_at?_eq_some {n : Node α} {key : Key} {c : α} (h : n.at? key = some c) :
    n.put key c = n := by
  cases n with
  | dict entries =>
      obtain ⟨front, k, back, rfl, hk, hfront⟩ := Table.exists_split_of_get? h
      exact congrArg Node.dict (Table.set_append_cons hk hfront c c)
  | list items =>
      obtain ⟨hlt, rfl⟩ := List.getElem?_eq_some_iff.mp h
      show Node.list (writeAt items key.index _ _) = _
      rw [writeAt, if_pos hlt, List.set_getElem_self]
  | _ => cases h

/-- Where nothing is held under a key, writing adds to what is there, with nulls in the gap. -/
theorem children_put_of_at?_eq_none {n : Node α} (hn : n.Plain) {key : Key}
    (h : n.at? key = none) (v : α) :
    ∃ gap, (n.put key v).children =
      n.children ++ List.replicate gap (HoldsAtoms.ofAtom .null) ++ [v] := by
  cases n with
  | dict entries =>
      refine ⟨0, ?_⟩
      simp [put, children, Table.set_of_get?_eq_none h]
  | list items =>
      have hle : items.length ≤ key.index := List.getElem?_eq_none_iff.mp h
      refine ⟨key.index - items.length, ?_⟩
      show (writeAt items key.index v _) = _
      rw [writeAt, if_neg (Nat.not_lt.mpr hle)]
      rfl
  | _ => exact hn.elim

/-- After writing, a content is one from before, the one that was written, or a null in the
gap. -/
theorem Plain.mem_children_put {n : Node α} (hn : n.Plain) {key : Key} {v c : α}
    (h : c ∈ (n.put key v).children) :
    c ∈ n.children ∨ c = v ∨ c = HoldsAtoms.ofAtom .null := by
  cases hat : n.at? key with
  | some w =>
      obtain ⟨front, back, hbefore, hafter⟩ := children_put_of_at?_eq_some hat
      rw [hafter] at h
      rw [hbefore]
      simp only [List.mem_append, List.mem_cons] at h ⊢
      rcases h with h | h | h
      · exact .inl (.inl h)
      · exact .inr (.inl h)
      · exact .inl (.inr (.inr h))
  | none =>
      obtain ⟨gap, hafter⟩ := children_put_of_at?_eq_none hn hat v
      rw [hafter] at h
      simp only [List.mem_append, List.mem_replicate, List.mem_singleton] at h
      rcases h with (h | ⟨-, h⟩) | h
      · exact .inl h
      · exact .inr (.inr h)
      · exact .inr (.inl h)

end

/-! ## What the operations on a layer do there -/

theorem Plain.dict_or_list {n : Node α} (h : n.Plain) :
    (∃ entries, n = .dict entries) ∨ ∃ items, n = .list items := by
  cases n with
  | dict entries => exact .inl ⟨entries, rfl⟩
  | list items => exact .inr ⟨items, rfl⟩
  | _ => exact h.elim

theorem Plain.isNested_eq {n : Node α} (h : n.Plain) : n.isNested = true := by
  rcases h.dict_or_list with ⟨entries, rfl⟩ | ⟨items, rfl⟩ <;> rfl

section

variable [HoldsAtoms α] {n : Node α}

/-- Looking up a text. In a dictionary the number that the text may stand for is no key. -/
theorem yields_access (h : n.Plain) (s : String) :
    Yields (· ≠ .bottomless) ((Layer.node n).access (.text s)) (· =
      if n.takesKey (.text s) then (n.at? (.text s)).getD (HoldsAtoms.ofAtom .null)
      else HoldsAtoms.ofAtom .null) := by
  cases n with
  | dict entries =>
      show Yields _ ((Layer.lookupEntry (.dict entries) (.text s)).map _) _
      have hkey : (Value.text s).key? = some (.text s) := rfl
      have hitem (key : Key) : (Node.dict entries).item? key = Table.get? entries key := rfl
      simp only [Layer.lookupEntry, hkey, hitem]
      cases hget : Table.get? entries (.text s) with
      | some v => exact yields_ok (by simp [takesKey, at?, hget])
      | none =>
          -- All keys are texts, so the number that `s` may stand for is none of them.
          have hnumber : ∀ i : Int, Table.get? entries (.int i) = none := by
            intro i
            rw [Table.get?_eq_none_iff]
            intro e he
            obtain ⟨name, hname⟩ := h.2 e he
            rw [hname]
            rfl
          refine (yields_numeral?.map (R := (· = none)) ?_).map ?_
          · intro i _
            cases i with
            | none => rfl
            | some i => exact hnumber i
          · rintro _ rfl
            simp [takesKey, at?, hget]
  | list items =>
      show Yields _ (((numeral? s).map fun i => i.bind fun i => items[i]?).map _) _
      refine (yields_numeral?.map (R := (· =
        (if Text.isDigits s.toList then some (numeralValue s.toList) else none).bind
          fun i => items[i]?)) ?_).map ?_
      · rintro i rfl
        rfl
      · rintro _ rfl
        show _ = if Text.isDigits s.toList then (items[numeralValue s.toList]?).getD _ else _
        split
        · rfl
        · rfl
  | _ => exact h.elim

/-- Writing under a text, which stops with a fault where the level cannot take the text. -/
theorem yields_assign [Memory] (h : n.Plain) (s : String) (v : α) :
    Yields (· ≠ .bottomless) ((Layer.node n).assign (.text s) v).result
      fun n' => n.takesKey (.text s) = true ∧ n' = n.put (.text s) v := by
  cases n with
  | dict entries => exact yields_ok ⟨rfl, rfl⟩
  | list items =>
      have hindex : Yields (· ≠ .bottomless) (Value.text s).mustBeIndex
          fun i => Text.isDigits s.toList = true ∧ i = numeralValue s.toList := by
        refine yields_numeral?.bind ?_
        rintro _ rfl
        split
        · rename_i i hi
          split at hi
          · rename_i hdigits
            exact yields_ok ⟨hdigits, (Option.some.inj hi).symm⟩
          · cases hi
        · show Yields _ (.error _) _
          exact yields_error nofun
      have hgap (gap : Nat) : Yields (· ≠ .bottomless) (checkGap gap) fun _ => True := by
        unfold checkGap
        split
        · exact yields_error nofun
        · split
          · exact yields_error nofun
          · exact yields_ok trivial
      show Yields _ (Logged.result ((liftM (Value.text s).mustBeIndex : Logged Nat) >>= fun i =>
        (liftM (checkGap (i - items.length)) : Logged Unit) >>= fun _ =>
          pure (Node.list (writeAt items i v (HoldsAtoms.ofAtom .null))))) _
      rw [Logged.result_bind]
      refine hindex.bind ?_
      rintro i ⟨hdigits, rfl⟩
      rw [Logged.result_bind]
      exact (hgap _).bind fun _ _ => yields_ok ⟨hdigits, rfl⟩
  | _ => exact h.elim

/-- The keys of a level are those of its entries. -/
theorem Plain.ownKeys_eq (h : n.Plain) :
    (Layer.node n).ownKeys = n.fields.map fun e => Value.ofKey e.1 := by
  cases n with
  | dict entries => rfl
  | list items =>
      have hkeys := congrArg (List.map Value.ofKey) (Table.keys_numbered 0 items)
      rw [List.map_map, List.map_map, ← List.range_eq_range'] at hkeys
      exact hkeys.symm
  | _ => exact h.elim

/-- Going through the entries of a level. -/
theorem yields_entries (h : n.Plain) :
    Yields (· ≠ .bottomless) (Layer.node n).entries
      (· = n.fields.map fun e => (Value.ofKey e.1, e.2)) := by
  rw [Layer.entries, h.ownKeys_eq, List.mapM_map]
  refine yields_mapM fun e he => ?_
  obtain ⟨s, hs, htakes, hat⟩ := h.of_mem_fields he
  refine Yields.map (Q := (· = e.2)) ?_ ?_
  · have haccess := yields_access h s
    rw [htakes, hat] at haccess
    show Yields _ ((Layer.node n).access (Value.ofKey e.1)) _
    rw [hs]
    exact haccess
  · rintro v rfl
    rfl

/-- Whether a list takes keys: all of them must be texts of digits. -/
theorem yields_allIndices {entries : Table β} (h : ∀ e ∈ entries, ∃ s, e.1 = .text s) :
    Yields (· ≠ .bottomless)
      (Layer.acceptsKeys.allIndices (entries.map fun e => Value.ofKey e.1))
      (· = entries.all fun e => e.1.digitsOnly) := by
  induction entries with
  | nil => exact yields_ok rfl
  | cons e rest ih =>
      obtain ⟨⟨s, hs⟩, hrest⟩ := List.forall_mem_cons.mp h
      rw [List.map_cons, List.all_cons, hs]
      refine yields_numeral?.bind ?_
      rintro _ rfl
      show Yields _ _ (· = (Text.isDigits s.toList && _))
      split
      · rename_i i hi
        split at hi
        · rename_i hdigits
          rw [hdigits, Bool.true_and]
          exact ih hrest
        · cases hi
      · rename_i hi
        split at hi
        · cases hi
        · rename_i hdigits
          rw [Bool.eq_false_iff.mpr hdigits, Bool.false_and]
          exact yields_ok rfl

/-- Whether one level takes the keys of another one. -/
theorem yields_acceptsKeys (h : n.Plain) {m : Node α} (hm : m.Plain) :
    Yields (· ≠ .bottomless) ((Layer.node n).acceptsKeys (Layer.node m).ownKeys)
      (· = n.takes m) := by
  rw [hm.ownKeys_eq]
  cases n with
  | dict entries => exact yields_ok rfl
  | list items =>
      refine yields_allIndices fun e he => ?_
      obtain ⟨s, hs, -⟩ := hm.of_mem_fields he
      exact ⟨s, hs⟩
  | _ => exact h.elim

end

end Node

end LooseData
