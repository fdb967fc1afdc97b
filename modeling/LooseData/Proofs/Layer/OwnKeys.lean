import LooseData.Proofs.Layer.Unreadable

set_option autoImplicit false

/-! # Own keys are found

A layer holds something under each of its own keys that is a text: a sequence the item of the index,
a mapping the entry, an object or an enumeration the public attribute
(`Layer.WellMade.lookup_of_mem_ownKeys`). An index with too many digits cannot be read, and so is
left out.
-/

namespace LooseData

variable {α : Type}

/-- The name of a constant is a name of a member. -/
theorem Enumeration.memberName?_ne_none {e : Enumeration} {c : String × Constant}
    (hc : c ∈ e.constants) : e.memberName? c.1 ≠ none := by
  have hlookup : (e.constants.lookup c.1).isSome = true := by
    rw [List.lookup_isSome_iff]
    exact ⟨c, hc, by simp⟩
  obtain ⟨constant, hconstant⟩ := Option.isSome_iff_exists.mp hlookup
  obtain ⟨front, back, hsplit, -⟩ := List.lookup_eq_some_iff.mp hconstant
  have hfind : (e.constants.find? fun entry => entry.2 == constant).isSome = true := by
    rw [List.find?_isSome, hsplit]
    exact ⟨(c.1, constant), by simp, by simp⟩
  rw [Enumeration.memberName?, hconstant, Option.bind_some, ← Option.isSome_iff_ne_none,
    Option.isSome_map]
  exact hfind

theorem Value.publicName?_text {name : String} (h : hiddenName name = false) :
    (Value.text name).publicName? = some name := by
  show (if hiddenName name then none else some name) = _
  rw [h]
  rfl

namespace Layer

open Value

/-- A key of a layer is found in it, if it can be read at all. -/
theorem WellMade.lookup_of_mem_ownKeys [HoldsAtoms α] {l : Layer α} (hl : l.WellMade) {s : String}
    (hs : .text s ∈ l.ownKeys) {v : α} (hv : l.access (.text s) = .ok v) :
    l.lookup (.text s) = .ok (some v) := by
  have hfound : ∀ o, l.lookup (.text s) = .ok o → o ≠ none := by
    cases hseq : l.sequence? with
    | some items =>
        rw [ownKeys_of_sequence? hseq] at hs
        obtain ⟨i, hi, hname⟩ := List.mem_map.mp hs
        cases hname
        intro o ho
        unfold lookup at ho
        rw [hseq] at ho
        obtain ⟨found, hindex, rfl⟩ := Except.map_eq_ok_iff.mp ho
        obtain rfl := (numeral?_toString i).2 found hindex
        rw [Option.bind_some, List.getElem?_eq_getElem (List.mem_range.mp hi)]
        exact Option.some_ne_none _
    | none =>
        cases l with
        | atom a =>
            cases a with
            | text _ => cases hseq
            | bytes _ => cases hseq
            | enumeration e =>
                obtain ⟨c, hc, hname⟩ := List.mem_map.mp hs
                obtain ⟨hc, hpublic⟩ := List.mem_filter.mp hc
                cases hname
                rintro o ho rfl
                have hnone := Except.ok.inj ho
                rw [publicName?_text (by simpa using hpublic), Option.bind_some,
                  Option.map_eq_none_iff] at hnone
                exact Enumeration.memberName?_ne_none hc
                  (Option.map_eq_none_iff.mp (Option.or_eq_none_iff.mp hnone).1)
            | _ => cases hs
        | node n =>
            have hmapping (hn : n.IsMap) (hs : .text s ∈ n.contents.map fun e => Value.ofKey e.1) :
                ∀ o, lookupEntry n (.text s) = .ok o → o ≠ none := by
              obtain ⟨w, hw⟩ := hn.exists_item?_text hs
              have hkey : (Value.text s).key? = some (.text s) := rfl
              rintro o ho rfl
              simp only [lookupEntry, hkey, hw] at ho
              cases ho
            cases n with
            | tuple _ => cases hseq
            | list _ => cases hseq
            | buffer _ => cases hseq
            | object attributes =>
                obtain ⟨e, he, hname⟩ := List.mem_map.mp hs
                obtain ⟨he, hpublic⟩ := List.mem_filter.mp he
                cases hname
                rintro o ho rfl
                have hnone := Except.ok.inj ho
                rw [publicName?_text (by simpa using hpublic), Option.bind_some] at hnone
                have hsome : (attributes.lookup e.1).isSome = true := by
                  rw [List.lookup_isSome_iff]
                  exact ⟨e, he, by simp⟩
                rw [hnone] at hsome
                cases hsome
            | _ => exact hmapping (hl _ rfl rfl) hs
  obtain ⟨o, ho, hov⟩ := Except.map_eq_ok_iff.mp hv
  cases o with
  | none => exact absurd rfl (hfound none ho)
  | some w =>
      obtain rfl : w = v := hov
      exact ho

end Layer

end LooseData
