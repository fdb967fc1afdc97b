import LooseData.Proofs.CaselessMap.Coherence
import LooseData.Proofs.Layer.Contents

set_option autoImplicit false

/-! # Mappings by their texts and numbers

A mapping shows its entries in order, whatever its kind. Each of them is found under its own key
(`Node.IsMap.item?_of_mem`), so going through the entries yields all of them
(`Node.IsMap.entries_eq`). A text or a number that is no key may still find an entry: that of the
number which a text of digits stands for (`Layer.access_mapping`).
-/

namespace LooseData

variable {α β : Type}

/-- A text or a whole number. -/
def Key.IsTextOrInt : Key → Prop
  | .atom (.text _) | .atom (.int _) => True
  | _ => False

theorem Key.IsTextOrInt.text_or_int {k : Key} (h : k.IsTextOrInt) :
    (∃ s, k = .text s) ∨ ∃ i, k = .int i := by
  unfold IsTextOrInt at h
  split at h
  · exact .inl ⟨_, rfl⟩
  · exact .inr ⟨_, rfl⟩
  · exact h.elim

/-- A mapping as it is made: no two entries have the same key, and a caseless map has its index in
step. -/
def Node.IsMap : Node α → Prop
  | .dict entries | .frozen entries | .view entries _ => Table.Distinct entries
  | .world w => Table.Distinct w.state
  | .caseless m => m.Coherent
  | _ => False

theorem Table.distinct_map {f : α → β} {t : Table α} :
    Distinct (t.map fun e => (e.1, f e.2)) ↔ t.Distinct := by
  unfold Distinct
  rw [List.pairwise_map]

theorem CaselessMap.coherent_mapValues {f : α → β} {m : CaselessMap α} :
    (m.mapValues f).Coherent ↔ m.Coherent := by
  have hentries (folded : Label) (position : Nat) :
      (∃ e, (m.mapValues f).entries[position]? = some e ∧ e.1.fold = folded) ↔
        ∃ e, m.entries[position]? = some e ∧ e.1.fold = folded := by
    simp [mapValues]
  constructor
  · rintro ⟨hnodup, hindex⟩
    exact ⟨hnodup, fun folded position => (hindex folded position).trans (hentries _ _)⟩
  · rintro ⟨hnodup, hindex⟩
    exact ⟨hnodup, fun folded position => (hindex folded position).trans (hentries _ _).symm⟩

theorem Node.same_labelKey_iff {a b : Label} : (labelKey a).same (labelKey b) = true ↔ a = b := by
  rw [Key.same_iff]
  constructor
  · intro h
    cases a <;> cases b <;> cases h <;> rfl
  · rintro rfl
    rfl

namespace Node

theorem isMap_map {f : α → β} {n : Node α} : (n.map f).IsMap ↔ n.IsMap := by
  cases n with
  | caseless m => exact CaselessMap.coherent_mapValues
  | dict entries => exact Table.distinct_map
  | frozen entries => exact Table.distinct_map
  | world w => exact Table.distinct_map
  | view selected fallback => exact Table.distinct_map
  | _ => rfl

theorem isMap_dict {entries : Table α} (h : Table.Distinct entries) : (Node.dict entries).IsMap := h

theorem IsMap.isMapping {n : Node α} (h : n.IsMap) : n.isMapping = true := by
  cases n with
  | tuple _ => exact h.elim
  | list _ => exact h.elim
  | buffer _ => exact h.elim
  | object _ => exact h.elim
  | _ => rfl

/-- The labels of a caseless map differ even in their folded forms. -/
theorem IsMap.distinct {n : Node α} (h : n.IsMap) : Table.Distinct n.contents := by
  cases n with
  | caseless m =>
      have hfolds : m.entries.Pairwise fun a b => a.1.fold ≠ b.1.fold :=
        List.pairwise_map.mp (CaselessMap.Coherent.nodup_folds h)
      refine List.pairwise_map.mpr (hfolds.imp ?_)
      intro a b hab
      rw [← Bool.not_eq_true, same_labelKey_iff]
      exact fun heq => hab (congrArg Label.fold heq)
  | dict entries => exact h
  | frozen entries => exact h
  | world w => exact h
  | view selected fallback => exact h
  | _ => exact h.elim

/-- Whether a mapping can be asked for a key: a caseless map is asked for texts only. -/
def isAsked : Node α → Key → Bool
  | .caseless _, .atom (.text _) => true
  | .caseless _, _ => false
  | _, _ => true

/-- Every entry is found under its key, if the mapping can be asked for it. -/
theorem IsMap.item?_eq_of_mem {n : Node α} (h : n.IsMap) {e : Key × α} (he : e ∈ n.contents) :
    n.item? e.1 = if n.isAsked e.1 then some e.2 else none := by
  cases n with
  | caseless m =>
      obtain ⟨⟨label, v⟩, hlabel, rfl⟩ := List.mem_map.mp he
      cases label with
      | bytes bs => rfl
      | text s =>
          obtain ⟨i, hi⟩ := List.mem_iff_getElem?.mp hlabel
          have hposition := (CaselessMap.Coherent.position?_eq_some_iff h (.text s) i).mpr
            ⟨_, hi, rfl⟩
          show (m.position? (.text s)).bind _ = some v
          rw [hposition, Option.bind_some, hi]
          rfl
  | dict entries => exact Table.Distinct.get?_of_mem h he
  | frozen entries => exact Table.Distinct.get?_of_mem h he
  | world w => exact Table.Distinct.get?_of_mem h he
  | view selected fallback => exact Table.Distinct.get?_of_mem h he
  | _ => exact h.elim

/-- Every entry under a text or a number is found under its key. -/
theorem IsMap.item?_of_mem {n : Node α} (h : n.IsMap) {e : Key × α} (he : e ∈ n.contents)
    (hk : e.1.IsTextOrInt) : n.item? e.1 = some e.2 := by
  have hasked : n.isAsked e.1 = true := by
    cases n with
    | caseless m =>
        obtain ⟨⟨label, v⟩, -, rfl⟩ := List.mem_map.mp he
        cases label with
        | bytes bs => exact hk.elim
        | text s => rfl
    | _ => rfl
  rw [h.item?_eq_of_mem he, if_pos hasked]

end Node

/-! ## Reading texts and numbers as keys -/

section

variable [HoldsAtoms α] {k : Key}

theorem Key.IsTextOrInt.isNull_ofKey (h : k.IsTextOrInt) : (Value.ofKey k).isNull = false := by
  rcases h.text_or_int with ⟨s, rfl⟩ | ⟨i, rfl⟩ <;> rfl

theorem Key.IsTextOrInt.key?_ofKey (h : k.IsTextOrInt) : (Value.ofKey k).key? = some k := by
  rcases h.text_or_int with ⟨s, rfl⟩ | ⟨i, rfl⟩ <;> rfl

theorem Key.IsTextOrInt.mustBeKey_ofKey (h : k.IsTextOrInt) :
    (Value.ofKey k).mustBeKey = .ok k := by
  rw [Value.mustBeKey, h.key?_ofKey]

/-- A lookup in a mapping looks among its entries. -/
theorem Layer.lookup_mapping {n : Node α} (hn : n.isMapping = true) (key : Value) :
    (Layer.node n).lookup key = Layer.lookupEntry n key := by
  cases n with
  | dict _ => rfl
  | frozen _ => rfl
  | caseless _ => rfl
  | world _ => rfl
  | view _ _ => rfl
  | _ => cases hn

theorem Layer.access_mapping {n : Node α} (hn : n.isMapping = true) (hk : k.IsTextOrInt) :
    (Layer.node n).access (.ofKey k) =
      match n.item? k with
      | some v => .ok v
      | none => (Value.ofKey k).numericKey?.map fun number =>
          (number.bind fun i => n.item? (.int i)).getD (HoldsAtoms.ofAtom .null) := by
  unfold Layer.access
  rw [hk.isNull_ofKey, Layer.lookup_mapping hn, Layer.lookupEntry, hk.key?_ofKey]
  dsimp only
  cases n.item? k with
  | some v => rfl
  | none => cases (Value.ofKey k).numericKey? <;> rfl

end

/-- Going through the entries of a mapping. -/
theorem Node.IsMap.entries_eq [HoldsAtoms α] {n : Node α} (h : n.IsMap)
    (hkeys : ∀ e ∈ n.contents, e.1.IsTextOrInt) :
    (Layer.node n).entries = .ok (n.contents.map fun e => (Value.ofKey e.1, e.2)) := by
  have hown : (Layer.node n).ownKeys = n.contents.map fun e => Value.ofKey e.1 := by
    cases n with
    | dict _ => rfl
    | frozen _ => rfl
    | caseless _ => rfl
    | world _ => rfl
    | view _ _ => rfl
    | _ => exact h.elim
  unfold Layer.entries
  rw [hown, List.mapM_map]
  refine Except.mapM_eq_ok fun e he => ?_
  show ((Layer.node n).access (.ofKey e.1)).map _ = _
  rw [Layer.access_mapping h.isMapping (hkeys e he), h.item?_of_mem he (hkeys e he)]
  rfl

end LooseData
