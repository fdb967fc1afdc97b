import LooseData.Key

set_option autoImplicit false

/-! # Tables around the entry of a key

A table either has no entry for a key, and setting the key appends one, or it splits at that
entry, and setting the key replaces the value there (`get?_eq_some_iff_split`). Looking up and
setting do not depend on what the values are (`get?_map`, `set_map`).
-/

namespace LooseData

theorem Key.same_text_iff {s t : String} : (Key.text s).same (.text t) = true ↔ s = t := by
  rw [Key.same_iff]
  constructor
  · rintro ⟨⟩
    rfl
  · rintro rfl
    rfl

namespace Table

variable {α β : Type}

@[simp] theorem get?_map (f : α → β) (t : Table α) (key : Key) :
    get? (t.map fun e => (e.1, f e.2)) key = (get? t key).map f := by
  induction t with
  | nil => rfl
  | cons e rest ih =>
      obtain ⟨k, v⟩ := e
      rw [List.map_cons, get?, get?]
      split
      · rfl
      · exact ih

@[simp] theorem set_map (f : α → β) (t : Table α) (key : Key) (v : α) :
    set (t.map fun e => (e.1, f e.2)) key (f v) = (set t key v).map fun e => (e.1, f e.2) := by
  induction t with
  | nil => rfl
  | cons e rest ih =>
      obtain ⟨k, w⟩ := e
      rw [List.map_cons, set, set]
      split
      · rfl
      · rw [ih, List.map_cons]

theorem get?_eq_none_iff {t : Table α} {key : Key} :
    get? t key = none ↔ ∀ e ∈ t, e.1.same key = false := by
  induction t with
  | nil => simp [get?]
  | cons e rest ih =>
      obtain ⟨k, v⟩ := e
      rw [get?, List.forall_mem_cons]
      cases hsame : k.same key with
      | true => simp
      | false => simpa using ih

theorem has_eq_any (t : Table α) (key : Key) : has t key = t.any fun e => e.1.same key := by
  induction t with
  | nil => rfl
  | cons e rest ih =>
      obtain ⟨k, v⟩ := e
      rw [has, get?, List.any_cons, ← ih]
      cases k.same key <;> rfl

/-- Setting a key that is absent appends an entry. -/
theorem set_of_get?_eq_none {t : Table α} {key : Key} (h : get? t key = none) (v : α) :
    set t key v = t ++ [(key, v)] := by
  induction t with
  | nil => rfl
  | cons e rest ih =>
      obtain ⟨k, w⟩ := e
      rw [get?_eq_none_iff, List.forall_mem_cons] at h
      rw [set, if_neg (by simp [h.1]), ih (get?_eq_none_iff.mpr h.2), List.cons_append]

/-- Keys that are the same find the same. -/
theorem get?_congr {key key' : Key} (h : key.same key' = true) (t : Table α) :
    get? t key = get? t key' := by
  induction t with
  | nil => rfl
  | cons e rest ih =>
      obtain ⟨k, v⟩ := e
      have hsame : k.same key = k.same key' := by
        rw [Key.same_iff] at h
        rw [Key.same, Key.same, h]
      rw [get?, get?, hsame, ih]

theorem get?_append (front back : Table α) (key : Key) :
    get? (front ++ back) key = (get? front key).or (get? back key) := by
  induction front with
  | nil => rfl
  | cons e rest ih =>
      obtain ⟨k, v⟩ := e
      rw [List.cons_append, get?, get?]
      split
      · rfl
      · exact ih

/-- Entries that are left out of a table are not missed under other keys. -/
theorem get?_filter {t : Table α} {key : Key} {keep : Key × α → Bool}
    (h : ∀ e ∈ t, e.1.same key = true → keep e = true) : get? (t.filter keep) key = get? t key := by
  induction t with
  | nil => rfl
  | cons e rest ih =>
      obtain ⟨k, v⟩ := e
      obtain ⟨hfirst, hrest⟩ := List.forall_mem_cons.mp h
      cases hsame : k.same key with
      | true =>
          rw [List.filter_cons_of_pos (hfirst hsame), get?, get?, if_pos hsame, if_pos hsame]
      | false =>
          have hskip : get? ((k, v) :: rest) key = get? rest key := by
            rw [get?, if_neg (by simp [hsame])]
          rw [hskip, ← ih hrest, List.filter_cons]
          split
          · rw [get?, if_neg (by simp [hsame])]
          · rfl

/-- What is found under a key that has been set. -/
@[simp] theorem get?_set_self (t : Table α) (key : Key) (v : α) :
    get? (set t key v) key = some v := by
  induction t with
  | nil => simp [set, get?]
  | cons e rest ih =>
      obtain ⟨k, w⟩ := e
      rw [set]
      split
      · rename_i hsame
        rw [get?, if_pos hsame]
      · rename_i hne
        rw [get?, if_neg hne, ih]

/-- Setting a key does not change what is found under other keys. -/
theorem get?_set_of_same_eq_false {t : Table α} {key k : Key} (h : key.same k = false) (v : α) :
    get? (set t key v) k = get? t k := by
  induction t with
  | nil => simp [set, get?, h]
  | cons e rest ih =>
      obtain ⟨k', w⟩ := e
      rw [set]
      split
      · rename_i hsame
        -- The entry of `key` is not that of `k`, with either value.
        have hne : k'.same k = false := by
          rw [← Bool.not_eq_true] at h ⊢
          intro hk
          rw [Key.same_comm] at hsame
          exact h (Key.same_trans hsame hk)
        simp [get?, hne]
      · rw [get?, get?, ih]

theorem set_append_cons {front back : Table α} {k key : Key} (hk : k.same key = true)
    (hfront : ∀ e ∈ front, e.1.same key = false) (v w : α) :
    set (front ++ (k, v) :: back) key w = front ++ (k, w) :: back := by
  induction front with
  | nil => rw [List.nil_append, set, if_pos hk, List.nil_append]
  | cons e front ih =>
      rw [List.forall_mem_cons] at hfront
      rw [List.cons_append, set, if_neg (by simp [hfront.1]), ih hfront.2, List.cons_append]

/-- A table that holds a value under a key splits at its entry, which is the first one for the
key. -/
theorem exists_split_of_get? {t : Table α} {key : Key} {v : α} (h : get? t key = some v) :
    ∃ front k back, t = front ++ (k, v) :: back ∧ k.same key = true ∧
      ∀ e ∈ front, e.1.same key = false := by
  induction t with
  | nil => cases h
  | cons e rest ih =>
      obtain ⟨k, w⟩ := e
      rw [get?] at h
      cases hsame : k.same key with
      | true =>
          rw [hsame, if_pos rfl] at h
          obtain rfl : w = v := Option.some.inj h
          exact ⟨[], k, rest, rfl, hsame, by simp⟩
      | false =>
          rw [hsame, if_neg (by simp)] at h
          obtain ⟨front, k', back, rfl, hk', hfront⟩ := ih h
          refine ⟨(k, w) :: front, k', back, rfl, hk', ?_⟩
          rw [List.forall_mem_cons]
          exact ⟨hsame, hfront⟩

/-- Where the keys are apart, every entry is the one that its key finds. -/
theorem Distinct.get?_of_mem {t : Table α} (h : t.Distinct) {e : Key × α} (he : e ∈ t) :
    get? t e.1 = some e.2 := by
  induction t with
  | nil => cases he
  | cons first rest ih =>
      obtain ⟨k, v⟩ := first
      obtain ⟨hfirst, hrest⟩ := List.pairwise_cons.mp h
      rw [get?]
      rcases List.mem_cons.mp he with rfl | he
      · rw [if_pos (Key.same_refl _)]
      · rw [if_neg (by simp [hfirst e he]), ih hrest he]

/-- Setting a key keeps the keys apart. -/
theorem Distinct.set {t : Table α} (h : t.Distinct) (key : Key) (v : α) :
    Table.Distinct (Table.set t key v) := by
  cases hget : get? t key with
  | none =>
      -- The key of the appended entry is absent, so it differs from all others.
      rw [set_of_get?_eq_none hget]
      refine List.pairwise_append.mpr ⟨h, List.pairwise_singleton _ _, ?_⟩
      intro e he e' he'
      obtain rfl := List.mem_singleton.mp he'
      exact get?_eq_none_iff.mp hget e he
  | some w =>
      obtain ⟨front, k, back, rfl, hk, hfront⟩ := exists_split_of_get? hget
      rw [set_append_cons hk hfront]
      unfold Distinct at h ⊢
      rw [List.pairwise_append, List.pairwise_cons] at h ⊢
      exact ⟨h.1, h.2.1, by simpa using h.2.2⟩

/-- Setting a key brings no other key into a table. -/
theorem key_of_mem_set {t : Table α} {key : Key} {v : α} {e : Key × α} (h : e ∈ set t key v) :
    e.1 = key ∨ ∃ d ∈ t, e.1 = d.1 := by
  cases hget : get? t key with
  | none =>
      rw [set_of_get?_eq_none hget] at h
      rcases List.mem_append.mp h with h | h
      · exact .inr ⟨e, h, rfl⟩
      · obtain rfl := List.mem_singleton.mp h
        exact .inl rfl
  | some w =>
      obtain ⟨front, k, back, rfl, hk, hfront⟩ := exists_split_of_get? hget
      rw [set_append_cons hk hfront] at h
      rcases List.mem_append.mp h with h | h
      · exact .inr ⟨e, List.mem_append_left _ h, rfl⟩
      · rcases List.mem_cons.mp h with rfl | h
        · exact .inr ⟨(k, w), by simp, rfl⟩
        · exact .inr ⟨e, List.mem_append_right _ (List.mem_cons_of_mem _ h), rfl⟩

/-- Entries with keys that are apart are set one behind the other. -/
theorem foldl_set_of_distinct {front t : Table α} (h : Distinct (front ++ t)) :
    t.foldl (fun t e => set t e.1 e.2) front = front ++ t := by
  induction t generalizing front with
  | nil => simp
  | cons e rest ih =>
      have habsent : get? front e.1 = none := by
        rw [get?_eq_none_iff]
        intro d hd
        exact (List.pairwise_append.mp h).2.2 d hd e List.mem_cons_self
      rw [List.append_cons] at h
      rw [List.foldl_cons, set_of_get?_eq_none habsent, ih h, ← List.append_cons]

theorem Distinct.ofList_eq {t : Table α} (h : t.Distinct) : ofList t = t :=
  @foldl_set_of_distinct α [] t h

end Table

end LooseData
