import LooseData.Text.Split

set_option autoImplicit false

/-! # The fields of a text

The fields of a text are its longest pieces without separators. Everything about them follows
from one equation: a text with a separator inside has the fields of what stands before it and then
those of what stands behind it (`fields_append_cons`). So separators at the ends of a text do not
count, a text of nothing but separators has no fields, and words between separators are read back.
-/

namespace LooseData.Text

variable {separates : Char → Bool}

/-- Splitting is that of lists. -/
theorem splitBy_eq_splitOnP (separates : Char → Bool) (cs : List Char) :
    splitBy separates cs = cs.splitOnP separates := by
  induction cs with
  | nil => rw [splitBy, List.splitOnP_nil]
  | cons c cs ih =>
      rw [splitBy, List.splitOnP_cons_eq_if_modifyHead, ih]
      split
      · rfl
      · obtain ⟨piece, pieces, hsplit⟩ :=
          List.exists_cons_of_ne_nil (List.splitOnP_ne_nil separates cs)
        rw [hsplit, List.modifyHead_cons]

/-- **A separator divides the fields of a text.** -/
theorem fields_append_cons {c : Char} (hc : separates c = true) (before after : List Char) :
    fields separates (before ++ c :: after) =
      fields separates before ++ fields separates after := by
  simp only [fields, splitBy_eq_splitOnP]
  rw [List.splitOnP_append_cons before after hc, List.filter_append]

@[simp] theorem fields_nil (separates : Char → Bool) : fields separates [] = [] := rfl

/-- A text without separators is its only field, unless it is empty. -/
theorem fields_of_forall_not {word : List Char} (hne : word ≠ [])
    (h : ∀ c ∈ word, separates c = false) : fields separates word = [word] := by
  rw [fields, splitBy_eq_splitOnP, List.splitOnP_eq_singleton h]
  simp [hne]

theorem fields_cons {c : Char} (hc : separates c = true) (cs : List Char) :
    fields separates (c :: cs) = fields separates cs :=
  fields_append_cons hc [] cs

theorem fields_concat {c : Char} (hc : separates c = true) (cs : List Char) :
    fields separates (cs ++ [c]) = fields separates cs := by
  rw [fields_append_cons hc, fields_nil, List.append_nil]

/-- Separators in front of a text belong to no field. -/
theorem fields_append_of_forall {gap : List Char} (h : ∀ c ∈ gap, separates c = true)
    (cs : List Char) : fields separates (gap ++ cs) = fields separates cs := by
  induction gap with
  | nil => rfl
  | cons c gap ih =>
      rw [List.forall_mem_cons] at h
      rw [List.cons_append, fields_cons h.1, ih h.2]

/-- A word is read back in front of a text that starts with separators. -/
theorem fields_word_append {word gap : List Char} (hne : word ≠ [])
    (hword : ∀ c ∈ word, separates c = false) (hgap : ∀ c ∈ gap, separates c = true)
    {rest : List Char} (hrest : gap = [] → rest = []) :
    fields separates (word ++ gap ++ rest) = word :: fields separates rest := by
  cases gap with
  | nil =>
      rw [hrest rfl, List.append_nil, List.append_nil, fields_of_forall_not hne hword, fields_nil]
  | cons c gap =>
      rw [List.forall_mem_cons] at hgap
      rw [List.append_assoc, List.cons_append, fields_append_cons hgap.1,
        fields_of_forall_not hne hword, fields_append_of_forall hgap.2, List.singleton_append]

/-! ## What a separator divides -/

/-- A character divides what a function finds in a text: it finds what stands before the character
and then what stands behind it. -/
structure DividedBy {β : Type} (c : Char) (find : List Char → List β) : Prop where
  nil : find [] = []
  append_cons : ∀ before after, find (before ++ c :: after) = find before ++ find after

/-- **Joining pieces with a character that divides what is found** joins what is found in them. -/
theorem DividedBy.joinWith {β : Type} {c : Char} {find : List Char → List β}
    (h : DividedBy c find) (pieces : List (List Char)) :
    find (joinWith c pieces) = pieces.flatMap find := by
  induction pieces with
  | nil => exact h.nil
  | cons piece rest ih =>
      cases rest with
      | nil => rw [Text.joinWith, List.flatMap_singleton]
      | cons next rest =>
          show find (piece ++ c :: Text.joinWith c (next :: rest)) = _
          rw [h.append_cons, ih, ← List.flatMap_cons]

theorem dividedBy_fields {c : Char} (hc : separates c = true) :
    DividedBy c (fields separates) :=
  ⟨fields_nil separates, fields_append_cons hc⟩

/-- **Joining pieces with a separator joins their fields.** -/
theorem fields_joinWith {c : Char} (hc : separates c = true) (pieces : List (List Char)) :
    fields separates (joinWith c pieces) = pieces.flatMap (fields separates) :=
  (dividedBy_fields hc).joinWith pieces

end LooseData.Text
