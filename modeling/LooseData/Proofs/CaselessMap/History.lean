import LooseData.Proofs.CaselessMap.Runs

set_option autoImplicit false

/-! # A caseless map is determined by the history of its calls

The calls `set`, `delete` and `clear` on an empty map make up a history. What the map holds in
the end is said here by the history alone:

* a folded label **stands** for the pair of its last `set` when no `delete` of it and no `clear`
  came later (`standing`);
* it was **born** with the first `set` since it was last absent (`Born`).

`performAll_effect` is the law: the map holds the standing pair of every label, in the order of
birth, and every `delete` has told whether its label stood. It is an induction over the calls
that carries the invariant `Follows` between a map and the history so far.
-/

namespace LooseData.CaselessMap

open Edit

/-! ## Calls and histories -/

/-- A call on a caseless map. -/
inductive Call where
  | set (key : String) (value : Value)
  | delete (key : String)
  | clear

/-- Perform a call. A `delete` answers whether it removed an entry; the others answer nothing. -/
def Call.perform : Call → Change (Option Bool)
  | .set key value => do
    CaselessMap.assign (.text key) value
    pure none
  | .delete key => do
    let found ← CaselessMap.remove (.text key)
    pure (some found)
  | .clear => do
    clearAll
    pure none

/-- Perform calls one after another, and collect their answers. -/
def performAll : List Call → Change (List (Option Bool))
  | [] => pure []
  | call :: rest => do
    let answer ← call.perform
    let answers ← performAll rest
    pure (answer :: answers)

/-- Whether a call can change what a folded label stands for. -/
def Call.concerns (f : Label) : Call → Bool
  | .set key _ | .delete key => (Label.text key).fold == f
  | .clear => true

/-- The pair that a folded label stands for after the given calls: that of the last call that
concerns the label, if this is a `set`. -/
def standing (f : Label) (calls : List Call) : Option (Label × Value) :=
  match calls.reverse.find? fun call => call.concerns f with
  | some (.set key value) => some (.text key, value)
  | _ => none

/-- Whether a folded label stands for a pair after the given calls. -/
def live (f : Label) (calls : List Call) : Bool := (standing f calls).isSome

/-- The folded label `f` was born with call number `i`: it was absent before this call, which is
a `set` of it, and it has been live ever since. -/
structure Born (f : Label) (calls : List Call) (i : Nat) : Prop where
  set : ∃ key value, calls[i]? = some (.set key value) ∧ (Label.text key).fold = f
  absent : live f (calls.take i) = false
  alive : ∀ j, i < j → j ≤ calls.length → live f (calls.take j) = true

/-! ## One more call -/

variable (f : Label) (past : List Call)

theorem standing_set (key : String) (value : Value) :
    standing f (past ++ [.set key value]) =
      if (Label.text key).fold = f then some (.text key, value) else standing f past := by
  rw [standing, List.reverse_append, List.reverse_singleton, List.singleton_append]
  by_cases h : (Label.text key).fold = f
  · rw [List.find?_cons_of_pos (by simpa [Call.concerns] using h), if_pos h]
  · rw [List.find?_cons_of_neg (by simpa [Call.concerns] using h), if_neg h]
    rfl

theorem standing_delete (key : String) :
    standing f (past ++ [.delete key]) =
      if (Label.text key).fold = f then none else standing f past := by
  rw [standing, List.reverse_append, List.reverse_singleton, List.singleton_append]
  by_cases h : (Label.text key).fold = f
  · rw [List.find?_cons_of_pos (by simpa [Call.concerns] using h), if_pos h]
  · rw [List.find?_cons_of_neg (by simpa [Call.concerns] using h), if_neg h]
    rfl

theorem standing_clear : standing f (past ++ [.clear]) = none := by
  rw [standing, List.reverse_append, List.reverse_singleton, List.singleton_append,
    List.find?_cons_of_pos rfl]

variable {f past}

/-- A pair stands under its own folded label. -/
theorem fold_eq_of_standing {entry : Label × Value} (h : standing f past = some entry) :
    entry.1.fold = f := by
  unfold standing at h
  split at h
  · rename_i key value hlast
    obtain rfl : (Label.text key, value) = entry := Option.some.inj h
    have := List.find?_some hlast
    simpa [Call.concerns] using this
  · cases h

/-- A birth is not forgotten as long as the label stays live. -/
theorem Born.append {i : Nat} (h : Born f past i) (call : Call)
    (hlive : live f (past ++ [call]) = true) : Born f (past ++ [call]) i := by
  obtain ⟨⟨key, value, hset, hf⟩, habsent, halive⟩ := h
  have hi : i < past.length := (List.getElem?_eq_some_iff.mp hset).1
  refine ⟨⟨key, value, ?_, hf⟩, ?_, fun j hij hj => ?_⟩
  · rw [List.getElem?_append_left hi]
    exact hset
  · rw [List.take_append_of_le_length (Nat.le_of_lt hi)]
    exact habsent
  · rw [List.length_append, List.length_singleton] at hj
    rcases Nat.lt_or_eq_of_le hj with hlt | rfl
    · rw [List.take_append_of_le_length (Nat.le_of_lt_succ hlt)]
      exact halive j hij (Nat.le_of_lt_succ hlt)
    · rw [List.take_of_length_le (by simp)]
      exact hlive

/-- A `set` of a label that is absent is its birth. -/
theorem born_set {key : String} (value : Value) (hf : (Label.text key).fold = f)
    (habsent : live f past = false) : Born f (past ++ [.set key value]) past.length := by
  refine ⟨⟨key, value, by simp, hf⟩, ?_, fun j hij hj => ?_⟩
  · rw [List.take_append_of_le_length (Nat.le_refl _), List.take_length]
    exact habsent
  · rw [List.length_append, List.length_singleton] at hj
    rw [List.take_of_length_le (by simp; omega), live, standing_set, if_pos hf]
    rfl

/-- A label has one birth at most: between two births it would have been absent while live. -/
theorem Born.unique {i j : Nat} (hi : Born f past i) (hj : Born f past j) : i = j := by
  have hbound : ∀ {k : Nat}, Born f past k → k ≤ past.length := by
    intro k hk
    obtain ⟨key, value, hset, -⟩ := hk.set
    exact Nat.le_of_lt (List.getElem?_eq_some_iff.mp hset).1
  rcases Nat.lt_trichotomy i j with hlt | heq | hgt
  · have hlive := hi.alive j hlt (hbound hj)
    rw [hj.absent] at hlive
    cases hlive
  · exact heq
  · have hlive := hj.alive i hgt (hbound hi)
    rw [hi.absent] at hlive
    cases hlive

/-! ## The invariant between a map and its history -/

/-- The map `m` holds what the history `past` says. -/
structure Follows (m : CaselessMap Value) (past : List Call) : Prop where
  coherent : m.Coherent
  /-- The entries are the standing pairs. -/
  mem_iff : ∀ entry, entry ∈ m.entries ↔ standing entry.1.fold past = some entry
  /-- Every entry has a birth. -/
  born : ∀ f ∈ m.folds, ∃ i, Born f past i
  /-- The entries stand in the order of their births. -/
  ordered : m.folds.Pairwise fun f g => ∃ i j, Born f past i ∧ Born g past j ∧ i < j

variable {m : CaselessMap Value}

theorem Follows.mem_folds_iff (h : Follows m past) (f : Label) :
    f ∈ m.folds ↔ live f past = true := by
  rw [live, Option.isSome_iff_exists, folds, List.mem_map]
  constructor
  · rintro ⟨entry, hmem, rfl⟩
    exact ⟨entry, (h.mem_iff entry).mp hmem⟩
  · rintro ⟨entry, hstanding⟩
    obtain rfl := fold_eq_of_standing hstanding
    exact ⟨entry, (h.mem_iff entry).mpr hstanding, rfl⟩

theorem Follows.has_eq_live (h : Follows m past) (label : Label) :
    m.has label = live label.fold past := by
  rw [h.coherent.has_eq_scan, Bool.eq_iff_iff, ← h.mem_folds_iff, scan, List.find?_isSome, folds,
    List.mem_map]
  simp only [beq_iff_eq]

/-- Births and their order survive a call for the labels that stay live. -/
theorem Follows.ordered_append (h : Follows m past) (call : Call) {kept : List Label}
    (hsub : kept.Sublist m.folds) (hlive : ∀ f ∈ kept, live f (past ++ [call]) = true) :
    (∀ f ∈ kept, ∃ i, Born f (past ++ [call]) i) ∧
      kept.Pairwise fun f g =>
        ∃ i j, Born f (past ++ [call]) i ∧ Born g (past ++ [call]) j ∧ i < j := by
  constructor
  · intro f hf
    obtain ⟨i, hi⟩ := h.born f (hsub.subset hf)
    exact ⟨i, hi.append call (hlive f hf)⟩
  · refine (h.ordered.sublist hsub).imp_of_mem ?_
    rintro f g hf hg ⟨i, j, hi, hj, hij⟩
    exact ⟨i, j, hi.append call (hlive f hf), hj.append call (hlive g hg), hij⟩

theorem follows_empty (silent : Bool) : Follows (empty silent) [] where
  coherent := coherent_empty silent
  mem_iff := by simp [empty, standing]
  born := by simp [empty, folds]
  ordered := by simp [empty, folds]

theorem follows_clear (m : CaselessMap Value) (past : List Call) :
    Follows m.clear (past ++ [.clear]) where
  coherent := coherent_clear m
  mem_iff := by simp [CaselessMap.clear, standing_clear]
  born := by simp [CaselessMap.clear, folds]
  ordered := by simp [CaselessMap.clear, folds]

theorem Follows.delete (h : Follows m past) (key : String) :
    Follows (m.delete (.text key)) (past ++ [.delete key]) := by
  have hentries := h.coherent.entries_delete (.text key)
  have hmem : ∀ entry, entry ∈ (m.delete (.text key)).entries ↔
      standing entry.1.fold (past ++ [.delete key]) = some entry := by
    intro entry
    rw [hentries, List.mem_filter, h.mem_iff, standing_delete]
    by_cases hf : (Label.text key).fold = entry.1.fold
    · simp [hf]
    · simp [hf, Ne.symm hf]
  have hsub : (m.delete (.text key)).folds.Sublist m.folds := by
    rw [folds, hentries]
    exact List.filter_sublist.map _
  have hlive : ∀ f ∈ (m.delete (.text key)).folds, live f (past ++ [.delete key]) = true := by
    intro f hf
    obtain ⟨entry, hentry, rfl⟩ := List.mem_map.mp hf
    rw [live, (hmem entry).mp hentry]
    rfl
  obtain ⟨hborn, hordered⟩ := h.ordered_append (.delete key) hsub hlive
  exact ⟨coherent_delete h.coherent _, hmem, hborn, hordered⟩

theorem Follows.set (h : Follows m past) (key : String) (value : Value) :
    Follows (m.set (.text key) value) (past ++ [.set key value]) := by
  have hmem : ∀ entry, entry ∈ (m.set (.text key) value).entries ↔
      standing entry.1.fold (past ++ [.set key value]) = some entry := by
    intro entry
    rw [h.coherent.mem_entries_set, h.mem_iff, standing_set]
    by_cases hf : (Label.text key).fold = entry.1.fold
    · simp [hf, eq_comm]
    · have hne : entry ≠ (.text key, value) := by
        rintro rfl
        exact hf rfl
      simp [hf, Ne.symm hf, hne]
  have hlive : ∀ f ∈ m.folds, live f (past ++ [.set key value]) = true := by
    intro f hf
    rw [h.mem_folds_iff] at hf
    rw [live, standing_set]
    split
    · rfl
    · exact hf
  -- No label dies, so all births survive; what is left to show is the birth of a new label.
  obtain ⟨hborn, hordered⟩ := h.ordered_append (.set key value) (List.Sublist.refl _) hlive
  have hfolds := h.coherent.folds_set (.text key) value
  rw [h.has_eq_live] at hfolds
  refine ⟨coherent_set h.coherent _ _, hmem, ?_, ?_⟩
  · rw [hfolds]
    split
    · exact hborn
    · rename_i habsent
      intro f hf
      rcases List.mem_append.mp hf with hold | hnew
      · exact hborn f hold
      · exact ⟨_, born_set value (List.mem_singleton.mp hnew).symm (by
          rw [List.mem_singleton.mp hnew]; simpa using habsent)⟩
  · rw [hfolds]
    split
    · exact hordered
    · rename_i habsent
      -- A label that was absent is born now, after every label that is there.
      rw [List.pairwise_append]
      refine ⟨hordered, List.pairwise_singleton _ _, fun f hf g hg => ?_⟩
      obtain rfl := List.mem_singleton.mp hg
      obtain ⟨i, hi⟩ := h.born f hf
      obtain ⟨k, v, hset, -⟩ := hi.set
      exact ⟨i, past.length, hi.append _ (hlive f hf), born_set value rfl (by simpa using habsent),
        (List.getElem?_eq_some_iff.mp hset).1⟩

/-! ## Runs -/

/-- What a call answers after the calls `past`. -/
def Call.answer (past : List Call) : Call → Option Bool
  | .delete key => some (live (Label.text key).fold past)
  | _ => none

/-- **One step of the history.** A call never fails, answers what the history says, and leaves a
map that follows the longer history. -/
theorem Follows.perform (h : Follows m past) (call : Call) :
    ∃ m', call.perform.effect m = (.ok (call.answer past), m') ∧
      Follows m' (past ++ [call]) := by
  cases call with
  | set key value =>
      refine ⟨m.set (.text key) value, ?_, h.set key value⟩
      simp [Call.perform, CaselessMap.assign, Call.answer]
  | delete key =>
      refine ⟨m.delete (.text key), ?_, h.delete key⟩
      simp [Call.perform, CaselessMap.remove, Call.answer, h.has_eq_live]
  | clear =>
      refine ⟨m.clear, ?_, follows_clear m past⟩
      simp [Call.perform, clearAll, Call.answer]

/-- **The whole history**, by induction over the calls that are still to come. -/
theorem Follows.run (h : Follows m past) (calls : List Call) :
    ∃ m', (performAll calls).effect m =
        (.ok (calls.mapIdx fun i call => call.answer (past ++ calls.take i)), m') ∧
      Follows m' (past ++ calls) := by
  induction calls generalizing m past with
  | nil => exact ⟨m, rfl, by rwa [List.append_nil]⟩
  | cons call rest ih =>
      obtain ⟨m₁, hcall, h₁⟩ := h.perform call
      obtain ⟨m', hrest, h'⟩ := ih h₁
      refine ⟨m', ?_, ?_⟩
      · rw [performAll, effect_bind_ok hcall, effect_bind_ok hrest, effect_pure, List.mapIdx_cons]
        simp
      · rwa [List.append_assoc, List.singleton_append] at h'

/-- The entries under one folded label are the standing pair and nothing else. -/
theorem Follows.filter_eq (h : Follows m past) (f : Label) :
    (m.entries.filter fun entry => entry.1.fold == f) = (standing f past).toList := by
  have hmem : ∀ entry, entry ∈ (m.entries.filter fun entry => entry.1.fold == f) ↔
      entry ∈ (standing f past).toList := by
    intro entry
    rw [List.mem_filter, h.mem_iff, beq_iff_eq, Option.mem_toList]
    constructor
    · rintro ⟨hstanding, rfl⟩
      exact hstanding
    · intro hstanding
      obtain rfl := fold_eq_of_standing hstanding
      exact ⟨hstanding, rfl⟩
  have hnodup : (m.entries.filter fun entry => entry.1.fold == f).Nodup :=
    (List.Nodup.of_map _ h.coherent.nodup_folds).filter _
  have hone : (standing f past).toList.Nodup := by
    cases standing f past <;> simp
  have hperm := (List.perm_ext_iff_of_nodup hnodup hone).mpr hmem
  cases hst : standing f past with
  | none =>
      rw [hst] at hperm
      exact List.Perm.eq_nil hperm
  | some entry =>
      rw [hst] at hperm
      exact List.perm_singleton.mp hperm

/-- **The history law.** Calls on an empty map never fail. Afterwards the map holds under every
folded label exactly the pair of its last `set`, if no `delete` of it and no `clear` came later;
the entries stand in the order in which their labels were born, each of which has one birth; and
each `delete` has answered whether its label was live at that moment. -/
theorem performAll_effect (silent : Bool) (calls : List Call) :
    ∃ answers m, (performAll calls).effect (empty silent) = (.ok answers, m) ∧
      (∀ f, (m.entries.filter fun entry => entry.1.fold == f) = (standing f calls).toList) ∧
      (m.entries.Pairwise fun a b =>
        ∃ i j, Born a.1.fold calls i ∧ Born b.1.fold calls j ∧ i < j) ∧
      (∀ entry ∈ m.entries, ∃! i, Born entry.1.fold calls i) ∧
      answers.length = calls.length ∧
      (∀ (i : Nat) key, calls[i]? = some (.delete key) →
        answers[i]? = some (some (live (Label.text key).fold (calls.take i)))) := by
  obtain ⟨m, hrun, h⟩ := (follows_empty silent).run calls
  simp only [List.nil_append] at hrun h
  refine ⟨_, m, hrun, h.filter_eq, List.pairwise_map.mp h.ordered, ?_, List.length_mapIdx, ?_⟩
  · intro entry hentry
    obtain ⟨i, hi⟩ := h.born entry.1.fold (List.mem_map_of_mem hentry)
    exact ⟨i, hi, fun j hj => hj.unique hi⟩
  · intro i key hi
    rw [List.getElem?_mapIdx, hi]
    rfl

end LooseData.CaselessMap
