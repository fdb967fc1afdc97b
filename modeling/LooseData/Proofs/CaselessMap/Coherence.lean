import LooseData.CaselessMap
import Mathlib.Data.List.Basic
import Mathlib.Data.List.Nodup

set_option autoImplicit false

/-! # The index of a caseless map stays in step with its entries

`CaselessMap.Coherent` says that the index holds the folded label of every entry with its
position, and nothing else. Setting, deleting and clearing keep it (`coherent_set`,
`coherent_delete`, `coherent_clear`). In a coherent map no two entries have the same folded
label, so every lookup through the index finds what a scan of the entries finds
(`position?_eq_some_iff`, `get?_eq_scan`), and the index need not be mentioned again.
-/

namespace LooseData.CaselessMap

variable {α : Type}

/-! ## Writing positions into the index -/

theorem mem_keys_place (index : List (Label × Nat)) (folded f : Label) (position : Nat) :
    f ∈ (place index folded position).map Prod.fst ↔ f = folded ∨ f ∈ index.map Prod.fst := by
  induction index with
  | nil => simp [place]
  | cons entry rest ih =>
      obtain ⟨f', p'⟩ := entry
      by_cases h : f' = folded
      · simp [place, h]
      · simp only [place, if_neg h, List.map_cons, List.mem_cons, ih]
        tauto

theorem nodup_place {index : List (Label × Nat)} (h : (index.map Prod.fst).Nodup)
    (folded : Label) (position : Nat) : ((place index folded position).map Prod.fst).Nodup := by
  induction index with
  | nil => simp [place]
  | cons entry rest ih =>
      obtain ⟨f', p'⟩ := entry
      rw [List.map_cons, List.nodup_cons] at h
      by_cases hf : f' = folded
      · rw [place, if_pos hf, List.map_cons, List.nodup_cons]
        exact h
      · rw [place, if_neg hf, List.map_cons, List.nodup_cons]
        refine ⟨fun hmem => ?_, ih h.2⟩
        rcases (mem_keys_place rest folded f' position).mp hmem with heq | hrest
        · exact hf heq
        · exact h.1 hrest

theorem mem_place {index : List (Label × Nat)} (h : (index.map Prod.fst).Nodup)
    (folded f : Label) (position p : Nat) :
    (f, p) ∈ place index folded position ↔
      (f = folded ∧ p = position) ∨ (f ≠ folded ∧ (f, p) ∈ index) := by
  induction index with
  | nil => simp [place]
  | cons entry rest ih =>
      obtain ⟨f', p'⟩ := entry
      rw [List.map_cons, List.nodup_cons] at h
      by_cases hf : f' = folded
      · subst hf
        have hrest : ∀ q, (f', q) ∉ rest := fun q hq =>
          h.1 (List.mem_map.mpr ⟨(f', q), hq, rfl⟩)
        simp only [place, if_pos, List.mem_cons, Prod.mk.injEq]
        constructor
        · rintro (⟨rfl, rfl⟩ | hmem)
          · exact Or.inl ⟨rfl, rfl⟩
          · refine Or.inr ⟨?_, Or.inr hmem⟩
            rintro rfl
            exact hrest p hmem
        · rintro (⟨rfl, rfl⟩ | ⟨hne, ⟨rfl, -⟩ | hmem⟩)
          · exact Or.inl ⟨rfl, rfl⟩
          · exact absurd rfl hne
          · exact Or.inr hmem
      · simp only [place, if_neg hf, List.mem_cons, Prod.mk.injEq, ih h.2]
        constructor
        · rintro (⟨rfl, rfl⟩ | hnew | ⟨hne, hmem⟩)
          · exact Or.inr ⟨hf, Or.inl ⟨rfl, rfl⟩⟩
          · exact Or.inl hnew
          · exact Or.inr ⟨hne, Or.inr hmem⟩
        · rintro (hnew | ⟨hne, ⟨rfl, rfl⟩ | hmem⟩)
          · exact Or.inr (Or.inl hnew)
          · exact Or.inl ⟨rfl, rfl⟩
          · exact Or.inr (Or.inr ⟨hne, hmem⟩)

theorem nodup_placeFrom {index : List (Label × Nat)} (h : (index.map Prod.fst).Nodup)
    (entries : List (Label × α)) (position : Nat) :
    ((placeFrom index position entries).map Prod.fst).Nodup := by
  induction entries generalizing index position with
  | nil => exact h
  | cons entry rest ih => exact ih (nodup_place h entry.1.fold position) (position + 1)

/-- Writing the positions of consecutive entries with distinct folded labels: these labels are at
their positions, and all others are where they were. -/
theorem mem_placeFrom {index : List (Label × Nat)} (h : (index.map Prod.fst).Nodup)
    {entries : List (Label × α)} (hd : (entries.map fun e => e.1.fold).Nodup)
    (position : Nat) (f : Label) (p : Nat) :
    (f, p) ∈ placeFrom index position entries ↔
      (∃ j entry, entries[j]? = some entry ∧ entry.1.fold = f ∧ p = position + j) ∨
        ((f, p) ∈ index ∧ ∀ entry ∈ entries, entry.1.fold ≠ f) := by
  induction entries generalizing index position with
  | nil => simp [placeFrom]
  | cons entry rest ih =>
      rw [List.map_cons, List.nodup_cons] at hd
      rw [placeFrom, ih (nodup_place h _ _) hd.2, mem_place h]
      constructor
      · rintro (⟨j, e, hj, hf, hp⟩ | ⟨⟨rfl, rfl⟩ | ⟨hne, hmem⟩, hrest⟩)
        · exact Or.inl ⟨j + 1, e, by simpa using hj, hf, by omega⟩
        · exact Or.inl ⟨0, entry, by simp, rfl, by omega⟩
        · refine Or.inr ⟨hmem, ?_⟩
          intro e he
          rcases List.mem_cons.mp he with rfl | he
          · exact Ne.symm hne
          · exact hrest e he
      · rintro (⟨j, e, hj, hf, hp⟩ | ⟨hmem, hrest⟩)
        · cases j with
          | zero =>
              obtain rfl : entry = e := by simpa using hj
              refine Or.inr ⟨Or.inl ⟨hf.symm, by omega⟩, fun e' he' hf' => hd.1 ?_⟩
              rw [hf, ← hf']
              exact List.mem_map.mpr ⟨e', he', rfl⟩
          | succ j => exact Or.inl ⟨j, e, by simpa using hj, hf, by omega⟩
        · refine Or.inr ⟨Or.inr ⟨?_, hmem⟩, fun e he => hrest e (List.mem_cons_of_mem _ he)⟩
          exact Ne.symm (hrest entry List.mem_cons_self)

/-! ## Lookups in a coherent map -/

variable {m : CaselessMap α}

/-- The entry whose folded label is that of `label`, found by going through all entries. -/
def scan (m : CaselessMap α) (label : Label) : Option (Label × α) :=
  m.entries.find? fun entry => entry.1.fold == label.fold

/-- Entries at different positions have different folded labels. -/
theorem Coherent.position_unique (h : m.Coherent) {i j : Nat} {e e' : Label × α}
    (hi : m.entries[i]? = some e) (hj : m.entries[j]? = some e')
    (hf : e.1.fold = e'.1.fold) : i = j := by
  have hi' : (e.1.fold, i) ∈ m.index := (h.mem_index_iff _ _).mpr ⟨e, hi, rfl⟩
  have hj' : (e.1.fold, j) ∈ m.index := (h.mem_index_iff _ _).mpr ⟨e', hj, hf.symm⟩
  have hpair := List.inj_on_of_nodup_map h.nodup hi' hj' rfl
  exact (Prod.mk.inj hpair).2

/-- The folded labels of the entries, in order. -/
def folds (m : CaselessMap α) : List Label := m.entries.map fun entry => entry.1.fold

theorem Coherent.nodup_folds (h : m.Coherent) : m.folds.Nodup := by
  rw [folds, List.nodup_iff_getElem?_ne_getElem?]
  intro i j hij hj heq
  rw [List.length_map] at hj
  have hi : i < m.entries.length := Nat.lt_trans hij hj
  rw [List.getElem?_map, List.getElem?_map, List.getElem?_eq_getElem hj,
    List.getElem?_eq_getElem hi] at heq
  have hf : m.entries[i].1.fold = m.entries[j].1.fold := by simpa using heq
  have := h.position_unique (List.getElem?_eq_getElem hi) (List.getElem?_eq_getElem hj) hf
  omega

/-- The index holds the position at which an entry with the folded label stands. -/
theorem Coherent.position?_eq_some_iff (h : m.Coherent) (label : Label) (i : Nat) :
    m.position? label = some i ↔
      ∃ entry, m.entries[i]? = some entry ∧ entry.1.fold = label.fold := by
  rw [← h.mem_index_iff, position?, List.lookup_eq_some_iff]
  constructor
  · rintro ⟨before, after, heq, -⟩
    rw [heq]
    exact List.mem_append_right _ List.mem_cons_self
  · intro hmem
    obtain ⟨before, after, heq⟩ := List.append_of_mem hmem
    -- The lookup takes the first pair with the label, and there is no other.
    refine ⟨before, after, heq, fun p hp => ?_⟩
    have hnd := h.nodup
    rw [heq, List.map_append, List.map_cons] at hnd
    have hne := (List.nodup_append.mp hnd).2.2 p.1 (List.mem_map_of_mem hp) label.fold
      List.mem_cons_self
    simpa using Ne.symm hne

theorem Coherent.position?_eq_none_iff (h : m.Coherent) (label : Label) :
    m.position? label = none ↔ ∀ entry ∈ m.entries, entry.1.fold ≠ label.fold := by
  rw [Option.eq_none_iff_forall_ne_some]
  constructor
  · intro hnone entry hmem hf
    obtain ⟨i, hi⟩ := List.mem_iff_getElem?.mp hmem
    exact hnone i ((h.position?_eq_some_iff label i).mpr ⟨entry, hi, hf⟩)
  · intro hall i hi
    obtain ⟨entry, hentry, hf⟩ := (h.position?_eq_some_iff label i).mp hi
    exact hall entry (List.mem_of_getElem? hentry) hf

/-- Where the index has a position, the scan finds the entry there; where it has none, the scan
finds nothing. -/
theorem Coherent.scan_eq (h : m.Coherent) (label : Label) :
    m.scan label = (m.position? label).bind fun i => m.entries[i]? := by
  cases hp : m.position? label with
  | none =>
      rw [h.position?_eq_none_iff] at hp
      simpa [scan, List.find?_eq_none] using hp
  | some i =>
      obtain ⟨entry, hentry, hf⟩ := (h.position?_eq_some_iff label i).mp hp
      rw [scan, Option.bind_some, hentry]
      obtain ⟨e, he⟩ : ∃ e, m.scan label = some e := by
        rw [scan, ← Option.isSome_iff_exists, List.find?_isSome]
        exact ⟨entry, List.mem_of_getElem? hentry, by simpa using hf⟩
      have hfe : e.1.fold = label.fold := by simpa using List.find?_some he
      obtain ⟨j, hj⟩ := List.mem_iff_getElem?.mp (List.mem_of_find?_eq_some he)
      obtain rfl : i = j := h.position_unique hentry hj (hf.trans hfe.symm)
      rw [hentry] at hj
      exact he.trans hj.symm

theorem Coherent.get?_eq_scan (h : m.Coherent) (label : Label) :
    m.get? label = (m.scan label).map Prod.snd := by
  rw [get?, h.scan_eq, Option.map_bind]
  rfl

theorem Coherent.has_eq_scan (h : m.Coherent) (label : Label) :
    m.has label = (m.scan label).isSome := by
  rw [has, h.scan_eq]
  cases hp : m.position? label with
  | none => rfl
  | some i =>
      obtain ⟨entry, hentry, -⟩ := (h.position?_eq_some_iff label i).mp hp
      simp [hentry]

/-! ## Changes of a coherent map -/

theorem coherent_empty (silent : Bool) : (empty silent : CaselessMap α).Coherent where
  nodup := by simp [empty]
  mem_index_iff := by simp [empty]

theorem coherent_clear (m : CaselessMap α) : m.clear.Coherent where
  nodup := by simp [clear]
  mem_index_iff := by simp [clear]

/-- Setting a label keeps the map coherent: a new label is indexed at the end, and an old one is
spelled anew without a change of its folded form. -/
theorem coherent_set (h : m.Coherent) (label : Label) (value : α) :
    (m.set label value).Coherent := by
  rw [set]
  cases hp : m.position? label with
  | none =>
      rw [h.position?_eq_none_iff] at hp
      refine ⟨nodup_place h.nodup _ _, fun f p => ?_⟩
      show (f, p) ∈ place _ _ _ ↔ ∃ e, (m.entries ++ [(label, value)])[p]? = some e ∧ _
      rw [mem_place h.nodup, h.mem_index_iff]
      constructor
      · rintro (⟨rfl, rfl⟩ | ⟨-, e, he, hf⟩)
        · exact ⟨(label, value), by simp, rfl⟩
        · have hlt : p < m.entries.length := (List.getElem?_eq_some_iff.mp he).1
          exact ⟨e, by rw [List.getElem?_append_left hlt]; exact he, hf⟩
      · rintro ⟨e, he, rfl⟩
        by_cases hlt : p < m.entries.length
        · rw [List.getElem?_append_left hlt] at he
          exact Or.inr ⟨hp e (List.mem_of_getElem? he), e, he, rfl⟩
        · rw [List.getElem?_append_right (Nat.le_of_not_lt hlt),
            List.getElem?_singleton] at he
          split at he
          · obtain rfl : (label, value) = e := by simpa using he
            exact Or.inl ⟨rfl, by omega⟩
          · cases he
  | some i =>
      obtain ⟨old, hold, hf⟩ := (h.position?_eq_some_iff label i).mp hp
      have hlt : i < m.entries.length := (List.getElem?_eq_some_iff.mp hold).1
      refine ⟨h.nodup, fun f p => ?_⟩
      show (f, p) ∈ m.index ↔ ∃ e, (m.entries.set i (label, value))[p]? = some e ∧ _
      rw [h.mem_index_iff, List.getElem?_set]
      -- Only the spelling at position `i` changes, and its folded form does not.
      by_cases hip : i = p
      · subst hip
        rw [if_pos rfl, if_pos hlt, hold]
        simp [hf]
      · rw [if_neg hip]

/-- Deleting a label keeps the map coherent: every later entry moves down by one position, and
its new position is written into the index. -/
theorem coherent_delete (h : m.Coherent) (label : Label) : (m.delete label).Coherent := by
  rw [delete]
  cases hp : m.position? label with
  | none => exact h
  | some i =>
      obtain ⟨old, hold, hfold⟩ := (h.position?_eq_some_iff label i).mp hp
      have hkept : ((m.index.filter fun e => e.1 != label.fold).map Prod.fst).Nodup :=
        h.nodup.sublist (List.filter_sublist.map Prod.fst)
      have hmoved : (((m.entries.eraseIdx i).drop i).map fun e => e.1.fold).Nodup :=
        h.nodup_folds.sublist
          (((List.drop_sublist _ _).trans (List.eraseIdx_sublist _ _)).map _)
      refine ⟨nodup_placeFrom hkept _ _, fun f p => ?_⟩
      show (f, p) ∈ placeFrom _ i ((m.entries.eraseIdx i).drop i) ↔
        ∃ e, (m.entries.eraseIdx i)[p]? = some e ∧ _
      rw [mem_placeFrom hkept hmoved, List.mem_filter, h.mem_index_iff]
      constructor
      · rintro (⟨j, e, hj, hf, rfl⟩ | ⟨⟨⟨e, he, hf⟩, hne⟩, hlater⟩)
        · exact ⟨e, by rwa [List.getElem?_drop] at hj, hf⟩
        · -- An old position that was not written anew lies before the gap.
          have hne' : f ≠ label.fold := by simpa using hne
          rcases Nat.lt_trichotomy p i with hlt | rfl | hgt
          · exact ⟨e, by rw [List.getElem?_eraseIdx, if_pos hlt]; exact he, hf⟩
          · rw [hold] at he
            obtain rfl := Option.some.inj he
            exact absurd (hf.symm.trans hfold) hne'
          · have hmem : e ∈ (m.entries.eraseIdx i).drop i := by
              refine List.mem_of_getElem? (i := p - 1 - i) ?_
              rw [List.getElem?_drop, List.getElem?_eraseIdx, if_neg (by omega)]
              rwa [show i + (p - 1 - i) + 1 = p by omega]
            exact absurd hf (hlater e hmem)
      · rintro ⟨e, he, rfl⟩
        -- Entries before the gap keep their positions; all others have just been written.
        by_cases hlt : p < i
        · rw [List.getElem?_eraseIdx, if_pos hlt] at he
          refine Or.inr ⟨⟨⟨e, he, rfl⟩, ?_⟩, fun e' he' hf => ?_⟩
          · have hne : e.1.fold ≠ label.fold := fun hf => by
              have := h.position_unique he hold (hf.trans hfold.symm)
              omega
            simpa using hne
          · obtain ⟨j, hj⟩ := List.mem_iff_getElem?.mp he'
            rw [List.getElem?_drop, List.getElem?_eraseIdx, if_neg (by omega)] at hj
            have := h.position_unique he hj hf.symm
            omega
        · refine Or.inl ⟨p - i, e, ?_, rfl, by omega⟩
          rwa [List.getElem?_drop, show i + (p - i) = p by omega]

/-! ## What a change does to the entries -/

/-- Setting a label puts its entry in the place of any entry with the same folded label. -/
theorem Coherent.mem_entries_set (h : m.Coherent) (label : Label) (value : α)
    (entry : Label × α) :
    entry ∈ (m.set label value).entries ↔
      entry = (label, value) ∨ (entry ∈ m.entries ∧ entry.1.fold ≠ label.fold) := by
  rw [set]
  cases hp : m.position? label with
  | none =>
      rw [h.position?_eq_none_iff] at hp
      show entry ∈ m.entries ++ [(label, value)] ↔ _
      rw [List.mem_append, List.mem_singleton]
      constructor
      · rintro (hmem | rfl)
        · exact Or.inr ⟨hmem, hp entry hmem⟩
        · exact Or.inl rfl
      · rintro (rfl | ⟨hmem, -⟩)
        · exact Or.inr rfl
        · exact Or.inl hmem
  | some i =>
      obtain ⟨old, hold, hf⟩ := (h.position?_eq_some_iff label i).mp hp
      have hlt : i < m.entries.length := (List.getElem?_eq_some_iff.mp hold).1
      show entry ∈ m.entries.set i (label, value) ↔ _
      constructor
      · intro hmem
        obtain ⟨j, hj⟩ := List.mem_iff_getElem?.mp hmem
        rw [List.getElem?_set] at hj
        by_cases hij : i = j
        · rw [if_pos hij, if_pos hlt] at hj
          exact Or.inl (Option.some.inj hj).symm
        · rw [if_neg hij] at hj
          refine Or.inr ⟨List.mem_of_getElem? hj, fun hfe => hij ?_⟩
          exact h.position_unique hold hj (hf.trans hfe.symm)
      · rintro (rfl | ⟨hmem, hne⟩)
        · exact List.mem_set hlt _
        · obtain ⟨j, hj⟩ := List.mem_iff_getElem?.mp hmem
          have hij : i ≠ j := by
            rintro rfl
            rw [hold] at hj
            exact hne ((Option.some.inj hj) ▸ hf)
          refine List.mem_of_getElem? (i := j) ?_
          rwa [List.getElem?_set, if_neg hij]

/-- Setting a label keeps the order of the folded labels, and appends a new one. -/
theorem Coherent.folds_set (h : m.Coherent) (label : Label) (value : α) :
    (m.set label value).folds =
      if m.has label then m.folds else m.folds ++ [label.fold] := by
  rw [set, has]
  cases hp : m.position? label with
  | none => simp [folds]
  | some i =>
      obtain ⟨old, hold, hf⟩ := (h.position?_eq_some_iff label i).mp hp
      have hsame : (m.entries.map fun e => e.1.fold)[i]? = some label.fold := by
        rw [List.getElem?_map, hold, Option.map_some, hf]
      show (m.entries.set i (label, value)).map (fun e => e.1.fold) = _
      rw [List.map_set]
      obtain ⟨hlt, hget⟩ := List.getElem?_eq_some_iff.mp hsame
      rw [← hget, List.set_getElem_self]
      rfl

/-- Deleting a label removes the entry with the same folded label and leaves the others as they
are, in their order. -/
theorem Coherent.entries_delete (h : m.Coherent) (label : Label) :
    (m.delete label).entries = m.entries.filter fun e => e.1.fold != label.fold := by
  rw [delete]
  cases hp : m.position? label with
  | none =>
      rw [h.position?_eq_none_iff] at hp
      symm
      rw [List.filter_eq_self]
      intro e he
      simpa using hp e he
  | some i =>
      obtain ⟨old, hold, hf⟩ := (h.position?_eq_some_iff label i).mp hp
      obtain ⟨hlt, hget⟩ := List.getElem?_eq_some_iff.mp hold
      have hother : ∀ j e, m.entries[j]? = some e → j ≠ i → (e.1.fold != label.fold) = true := by
        intro j e hj hji
        have hne : e.1.fold ≠ label.fold := fun hfe =>
          hji (h.position_unique hj hold (hfe.trans hf.symm))
        simpa using hne
      have hbefore : ∀ e ∈ m.entries.take i, (e.1.fold != label.fold) = true := by
        intro e he
        obtain ⟨j, hj⟩ := List.mem_iff_getElem?.mp he
        rw [List.getElem?_take] at hj
        split at hj
        · exact hother j e hj (by omega)
        · cases hj
      have hafter : ∀ e ∈ m.entries.drop (i + 1), (e.1.fold != label.fold) = true := by
        intro e he
        obtain ⟨j, hj⟩ := List.mem_iff_getElem?.mp he
        rw [List.getElem?_drop] at hj
        exact hother _ e hj (by omega)
      calc m.entries.eraseIdx i
          = m.entries.take i ++ m.entries.drop (i + 1) := List.eraseIdx_eq_take_drop_succ _ _
        _ = (m.entries.take i ++ m.entries[i] :: m.entries.drop (i + 1)).filter
              (fun e => e.1.fold != label.fold) := by
            rw [List.filter_append, List.filter_cons_of_neg (by simp [hget, hf]),
              List.filter_eq_self.mpr hbefore, List.filter_eq_self.mpr hafter]
        _ = m.entries.filter (fun e => e.1.fold != label.fold) := by
            rw [← List.drop_eq_getElem_cons hlt, List.take_append_drop]

end LooseData.CaselessMap
