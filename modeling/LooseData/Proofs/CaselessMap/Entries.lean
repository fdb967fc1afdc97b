import LooseData.Proofs.CaselessMap.Runs
import Mathlib.Data.List.Induction

set_option autoImplicit false

/-! # A caseless map is the list of its entries

What the operations of a coherent map do to its entries can be said without the index: setting a
label writes it in place of the entry with the same folded label, or behind all entries
(`Coherent.entries_set`). So a map that is made of a list holds the last entry of the list for every
folded label (`scan_ofList`), and setting entries whose folded labels are apart gives these entries
again in the same order (`foldl_setEntry`).
-/

namespace LooseData.CaselessMap

variable {α : Type} {m : CaselessMap α}

/-! ## Entries as a list -/

/-- Set a label in a list of entries: in place and with the new spelling if an entry has the same
folded label, at the end if none has. -/
def setEntry : List (Label × α) → Label → α → List (Label × α)
  | [], label, v => [(label, v)]
  | e :: rest, label, v =>
    if e.1.fold = label.fold then (label, v) :: rest else e :: setEntry rest label v

/-- The last of some entries that has a label, whatever the letter case. -/
def lastAlike (entries : List (Label × α)) (label : Label) : Option (Label × α) :=
  entries.reverse.find? fun e => e.1.fold == label.fold

theorem setEntry_of_absent {entries : List (Label × α)} {label : Label}
    (h : ∀ e ∈ entries, e.1.fold ≠ label.fold) (v : α) :
    setEntry entries label v = entries ++ [(label, v)] := by
  induction entries with
  | nil => rfl
  | cons e rest ih =>
      rw [List.forall_mem_cons] at h
      rw [setEntry, if_neg h.1, ih h.2, List.cons_append]

theorem setEntry_eq_set {entries : List (Label × α)} {label : Label} {i : Nat} {e : Label × α}
    (he : entries[i]? = some e) (hfold : e.1.fold = label.fold)
    (hbefore : ∀ d ∈ entries.take i, d.1.fold ≠ label.fold) (v : α) :
    setEntry entries label v = entries.set i (label, v) := by
  induction entries generalizing i with
  | nil => cases he
  | cons d rest ih =>
      cases i with
      | zero =>
          obtain rfl : d = e := Option.some.inj he
          rw [setEntry, if_pos hfold, List.set_cons_zero]
      | succ i =>
          rw [List.take_succ_cons, List.forall_mem_cons] at hbefore
          rw [setEntry, if_neg hbefore.1, ih he hbefore.2, List.set_cons_succ]

/-- The entry of a folded label after a label has been set. -/
theorem find?_setEntry (entries : List (Label × α)) (label : Label) (v : α) (f : Label) :
    (setEntry entries label v).find? (fun e => e.1.fold == f) =
      if label.fold = f then some (label, v) else entries.find? fun e => e.1.fold == f := by
  induction entries with
  | nil =>
      by_cases hf : label.fold = f
      · rw [if_pos hf, setEntry, List.find?_cons_of_pos (by simpa using hf)]
      · rw [if_neg hf, setEntry, List.find?_cons_of_neg (by simpa using hf)]
  | cons e rest ih =>
      rw [setEntry]
      by_cases hfold : e.1.fold = label.fold
      · rw [if_pos hfold]
        by_cases hf : label.fold = f
        · rw [if_pos hf, List.find?_cons_of_pos (by simpa using hf)]
        · rw [if_neg hf, List.find?_cons_of_neg (by simpa using hf),
            List.find?_cons_of_neg (by simpa [hfold] using hf)]
      · rw [if_neg hfold]
        by_cases hf : e.1.fold = f
        · rw [if_neg fun h => hfold (hf.trans h.symm), List.find?_cons_of_pos (by simpa using hf),
            List.find?_cons_of_pos (by simpa using hf)]
        · rw [List.find?_cons_of_neg (by simpa using hf), ih,
            List.find?_cons_of_neg (by simpa using hf)]

/-- Entries whose folded labels are apart are set one behind the other. -/
theorem foldl_setEntry {front entries : List (Label × α)}
    (h : ((front ++ entries).map fun e => e.1.fold).Nodup) :
    entries.foldl (fun t e => setEntry t e.1 e.2) front = front ++ entries := by
  induction entries generalizing front with
  | nil => simp
  | cons e rest ih =>
      have habsent : ∀ d ∈ front, d.1.fold ≠ e.1.fold := by
        intro d hd
        rw [List.map_append] at h
        exact (List.nodup_append.mp h).2.2 _ (List.mem_map_of_mem hd) _ List.mem_cons_self
      rw [← List.singleton_append, ← List.append_assoc] at h
      rw [List.foldl_cons, setEntry_of_absent habsent, ih h, List.append_assoc,
        List.singleton_append]

theorem lastAlike_append_singleton (entries : List (Label × α)) (e : Label × α) (label : Label) :
    lastAlike (entries ++ [e]) label =
      if e.1.fold = label.fold then some e else lastAlike entries label := by
  rw [lastAlike, List.reverse_append, List.reverse_singleton, List.singleton_append]
  by_cases hfold : e.1.fold = label.fold
  · rw [if_pos hfold, List.find?_cons_of_pos (by simpa using hfold)]
  · rw [if_neg hfold, List.find?_cons_of_neg (by simpa using hfold), lastAlike]

theorem fold_of_lastAlike {entries : List (Label × α)} {label : Label} {e : Label × α}
    (h : lastAlike entries label = some e) : e.1.fold = label.fold := by
  simpa using List.find?_some h

theorem mem_of_lastAlike {entries : List (Label × α)} {label : Label} {e : Label × α}
    (h : lastAlike entries label = some e) : e ∈ entries :=
  List.mem_reverse.mp (List.mem_of_find?_eq_some h)

theorem lastAlike_congr {label label' : Label} (h : label.fold = label'.fold)
    (entries : List (Label × α)) : lastAlike entries label = lastAlike entries label' := by
  rw [lastAlike, lastAlike, h]

theorem exists_lastAlike_of_mem {entries : List (Label × α)} {e : Label × α} (he : e ∈ entries) :
    ∃ d, lastAlike entries e.1 = some d := by
  rw [← Option.isSome_iff_exists, lastAlike, List.find?_isSome]
  exact ⟨e, List.mem_reverse.mpr he, by simp⟩

/-! ## Operations of a coherent map on its entries -/

theorem Coherent.scan_eq_some_iff (h : m.Coherent) (label : Label) (e : Label × α) :
    m.scan label = some e ↔ e ∈ m.entries ∧ e.1.fold = label.fold := by
  constructor
  · intro hscan
    exact ⟨List.mem_of_find?_eq_some hscan, by simpa using List.find?_some hscan⟩
  · rintro ⟨he, hfold⟩
    obtain ⟨i, hi⟩ := List.mem_iff_getElem?.mp he
    rw [h.scan_eq, (h.position?_eq_some_iff label i).mpr ⟨e, hi, hfold⟩]
    exact hi

/-- **What setting a label does to the entries.** -/
theorem Coherent.entries_set (h : m.Coherent) (label : Label) (v : α) :
    (m.set label v).entries = setEntry m.entries label v := by
  rw [set]
  cases hp : m.position? label with
  | none => exact (setEntry_of_absent ((h.position?_eq_none_iff label).mp hp) v).symm
  | some i =>
      obtain ⟨e, he, hfold⟩ := (h.position?_eq_some_iff label i).mp hp
      refine (setEntry_eq_set he hfold (fun d hd hdfold => ?_) v).symm
      -- An earlier entry with the folded label would stand at the same position.
      obtain ⟨j, hj⟩ := List.mem_iff_getElem?.mp hd
      rw [List.getElem?_take] at hj
      split at hj
      · rename_i hlt
        exact absurd (h.position_unique hj he (hdfold.trans hfold.symm)) (Nat.ne_of_lt hlt)
      · cases hj

/-- What is found after a label has been set. -/
theorem Coherent.get?_set (h : m.Coherent) (label : Label) (v : α) (f : Label) :
    (m.set label v).get? f = if label.fold = f.fold then some v else m.get? f := by
  have hset : (m.set label v).Coherent := coherent_set h label v
  rw [hset.get?_eq_scan, h.get?_eq_scan, scan, h.entries_set, find?_setEntry]
  by_cases hfold : label.fold = f.fold
  · rw [if_pos hfold, if_pos hfold]
    rfl
  · rw [if_neg hfold, if_neg hfold]
    rfl

/-! ## Maps made of a list -/

theorem ofList_append_singleton (entries : List (Label × α)) (e : Label × α) (silent : Bool) :
    ofList (entries ++ [e]) silent = (ofList entries silent).set e.1 e.2 := by
  rw [ofList, List.foldl_append]
  rfl

theorem coherent_ofList (entries : List (Label × α)) (silent : Bool) :
    (ofList entries silent).Coherent := by
  induction entries using List.reverseRecOn with
  | nil => exact coherent_empty silent
  | append_singleton entries e ih =>
      rw [ofList_append_singleton]
      exact coherent_set ih e.1 e.2

/-- **What a map made of a list finds** is the last entry of the list that has the label. -/
theorem scan_ofList (entries : List (Label × α)) (silent : Bool) (label : Label) :
    (ofList entries silent).scan label = lastAlike entries label := by
  induction entries using List.reverseRecOn with
  | nil => rfl
  | append_singleton entries e ih =>
      rw [ofList_append_singleton, scan, (coherent_ofList entries silent).entries_set,
        find?_setEntry, lastAlike_append_singleton]
      congr 1

theorem get?_ofList (entries : List (Label × α)) (silent : Bool) (label : Label) :
    (ofList entries silent).get? label = (lastAlike entries label).map Prod.snd := by
  rw [(coherent_ofList entries silent).get?_eq_scan, scan_ofList]

/-- The entries of a map made of a list are those that nothing later in the list replaces. -/
theorem mem_entries_ofList {entries : List (Label × α)} {silent : Bool} {e : Label × α} :
    e ∈ (ofList entries silent).entries ↔ lastAlike entries e.1 = some e := by
  rw [← scan_ofList entries silent, (coherent_ofList entries silent).scan_eq_some_iff]
  simp

end LooseData.CaselessMap
