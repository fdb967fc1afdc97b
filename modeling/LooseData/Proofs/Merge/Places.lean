import LooseData.Proofs.Layer.Contents
import LooseData.Proofs.Merge.Level

set_option autoImplicit false

/-! # Places of a level

Two keys stand for one place of a dictionary if they are the same, and for one place of a list if
they stand for the same index (`Node.SamePlace`). Writing at one place leaves what a level holds at
the others (`Node.held_put_of_not_samePlace`).
-/

namespace LooseData

variable {α β : Type}

/-- Past the end of a list that is padded there is the padding. -/
theorem getElem?_writeAt_of_ne (items : List α) {i j : Nat} (hne : i ≠ j) (v filler : α) :
    ((writeAt items i v filler)[j]?).getD filler = (items[j]?).getD filler := by
  unfold writeAt
  split
  · rw [List.getElem?_set_ne hne]
  · rename_i hle
    by_cases hj : j < items.length
    · rw [List.append_assoc, List.getElem?_append_left hj]
    · have hnone : items[j]? = none := List.getElem?_eq_none (Nat.le_of_not_lt hj)
      rw [hnone, List.append_assoc, List.getElem?_append_right (Nat.le_of_not_lt hj)]
      by_cases hgap : j < i
      · rw [List.getElem?_append_left (by rw [List.length_replicate]; omega),
          List.getElem?_replicate, if_pos (by omega)]
        rfl
      · rw [List.getElem?_eq_none (by simp; omega)]

namespace Node

/-- Whether two keys stand for one place of a level. -/
def SamePlace : Node α → Key → Key → Prop
  | .dict _, k, k' => k.same k' = true
  | .list _, k, k' => k.index = k'.index
  | _, _, _ => False

instance (n : Node α) (k k' : Key) : Decidable (n.SamePlace k k') :=
  match n with
  | .dict _ => inferInstanceAs (Decidable (k.same k' = true))
  | .list _ => inferInstanceAs (Decidable (k.index = k'.index))
  | .tuple _ | .buffer _ | .frozen _ | .object _ | .caseless _ | .world _ | .view .. =>
    inferInstanceAs (Decidable False)

theorem SamePlace.symm {n : Node α} {k k' : Key} (h : n.SamePlace k k') : n.SamePlace k' k := by
  cases n with
  | dict _ => exact (Key.same_comm k' k).trans h
  | list _ => exact Eq.symm h
  | _ => exact h

theorem SamePlace.trans {n : Node α} {k k' k'' : Key} (h : n.SamePlace k k')
    (h' : n.SamePlace k' k'') : n.SamePlace k k'' := by
  cases n with
  | dict _ => exact Key.same_trans h h'
  | list _ => exact Eq.trans h h'
  | _ => exact h.elim

theorem Plain.samePlace_self {n : Node α} (h : n.Plain) (k : Key) : n.SamePlace k k := by
  cases n with
  | dict _ => exact Key.same_refl k
  | list _ => exact Eq.refl k.index
  | _ => exact h.elim

theorem samePlace_map (f : α → β) (n : Node α) : (n.map f).SamePlace = n.SamePlace := by
  cases n <;> rfl

/-- Whether a level takes keys does not depend on what it holds. -/
theorem takes_map_left {γ : Type} (f : α → β) (n : Node α) (m : Node γ) :
    (n.map f).takes m = n.takes m := by
  cases n <;> rfl

theorem takes_map_right {γ δ : Type} (g : γ → δ) (n : Node α) (m : Node γ) :
    n.takes (m.map g) = n.takes m :=
  (takes_map_left id n (m.map g)).symm.trans (takes_map id g n m)

/-- What a level holds at a place, which is null where it holds nothing. -/
def held [HoldsAtoms α] (n : Node α) (key : Key) : α :=
  (n.at? key).getD (HoldsAtoms.ofAtom .null)

theorem held_map [HoldsAtoms α] [HoldsAtoms β] (f : α → β)
    (hf : f (HoldsAtoms.ofAtom .null) = HoldsAtoms.ofAtom .null) (n : Node α) (key : Key) :
    (n.map f).held key = f (n.held key) := by
  rw [held, held, at?_map]
  cases n.at? key with
  | none => exact hf.symm
  | some c => rfl

section

variable [HoldsAtoms α] {n : Node α} {k k' : Key} {v : α}

theorem samePlace_put (n : Node α) (key : Key) (v : α) : (n.put key v).SamePlace = n.SamePlace := by
  cases n <;> rfl

theorem isNested_put (n : Node α) (key : Key) (v : α) : (n.put key v).isNested = n.isNested := by
  cases n <;> rfl

theorem takes_put (n : Node α) (key : Key) (v : α) (m : Node β) :
    (n.put key v).takes m = n.takes m := by
  cases n <;> rfl

theorem held_of_at? {c : α} (h : n.at? k = some c) : n.held k = c := by
  rw [held, h]
  rfl

/-- What is held is null, or one of the contents. -/
theorem held_mem (n : Node α) (key : Key) :
    n.held key = HoldsAtoms.ofAtom .null ∨ n.at? key = some (n.held key) := by
  unfold held
  cases n.at? key with
  | none => exact .inl rfl
  | some c => exact .inr rfl

theorem held_eq_of_samePlace (h : n.SamePlace k k') : n.held k = n.held k' := by
  unfold held
  cases n with
  | dict entries =>
      show (Table.get? entries k).getD _ = (Table.get? entries k').getD _
      rw [Table.get?_congr h]
  | list items =>
      show (items[k.index]?).getD _ = (items[k'.index]?).getD _
      rw [show k.index = k'.index from h]
  | _ => exact h.elim

theorem Plain.held_put_self (h : n.Plain) (key : Key) (v : α) : (n.put key v).held key = v := by
  refine held_of_at? ?_
  cases n with
  | dict entries => exact Table.get?_set_self entries key v
  | list items => exact getElem?_writeAt_self items key.index v _
  | _ => exact h.elim

/-- Writing at one place leaves what is held at the others. -/
theorem held_put_of_not_samePlace (h : ¬ n.SamePlace k k') : (n.put k v).held k' = n.held k' := by
  unfold held
  cases n with
  | dict entries =>
      show (Table.get? (Table.set entries k v) k').getD _ = (Table.get? entries k').getD _
      rw [Table.get?_set_of_same_eq_false (Bool.eq_false_iff.mpr h)]
  | list items => exact getElem?_writeAt_of_ne items h v _
  | _ => rfl

end

end Node

end LooseData
