import LooseData.Proofs.CaselessMap.Runs
import LooseData.Proofs.Layer.Index
import LooseData.Proofs.Layer.Mapping

set_option autoImplicit false

/-! # When the operations on a level fail

A lookup fails only at a text of digits that cannot be read as a number
(`exists_text_of_access_eq_error`), and so does going through the entries of a level or asking
whether keys can be written (`exists_key_of_acceptsKeys_eq_error`). A level that takes a text or a
number as a key (`Layer.Takes`) can still fail to be written there: a caseless map does not hold
numbers, and a list has no room for any gap (`assign_cases`). After a write the level holds what
was written (`lookup_of_assign`), and it is of the same kind as before.
-/

namespace LooseData

open Edit

variable {α : Type}

/-! ## Keys that stand in the way -/

/-- A key can stand in the way of a lookup or of a write with a fault: it is a text of digits that
cannot be read, an index far behind the end of any list, or, where there is a caseless map, a key
without letter case. -/
inductive Value.Obstructs [Memory] (caseless : Prop) (key : Value) : Fault → Prop where
  | unreadable {s : String} {fault : Fault} (hkey : key = .text s)
      (h : numeral? s = .error fault) : Obstructs caseless key fault
  | far {i : Nat} {fault : Fault} (hkey : key.index? = .ok (some i)) (hfar : maxGap < i)
      (hfault : fault = .gapOverflow ∨ fault = .noRoom) : Obstructs caseless key fault
  | uncased {fault : Fault} (hcaseless : caseless) (hkey : key.label? = .error fault) :
      Obstructs caseless key fault

theorem Value.Obstructs.mono [Memory] {caseless caseless' : Prop} {key : Value} {fault : Fault}
    (h : key.Obstructs caseless fault) (hcaseless : caseless → caseless') :
    key.Obstructs caseless' fault := by
  cases h with
  | unreadable hkey h => exact .unreadable hkey h
  | far hkey hfar hfault => exact .far hkey hfar hfault
  | uncased h hkey => exact .uncased (hcaseless h) hkey

/-- A text that does not consist of digits stands in no way. -/
theorem Value.not_obstructs_text [Memory] {s : String} (hs : numeral? s = .ok none)
    {caseless : Prop}
    {fault : Fault} : ¬ (Value.text s).Obstructs caseless fault := by
  intro h
  cases h with
  | unreadable hkey h =>
      cases hkey
      cases hs.symm.trans h
  | far hkey _ _ => cases hs.symm.trans hkey
  | uncased _ hkey => cases hkey

theorem exists_text_of_index?_eq_error {key : Value} {fault : Fault}
    (h : key.index? = .error fault) : ∃ s, key = .text s ∧ numeral? s = .error fault := by
  cases key with
  | node n => cases h
  | atom a =>
      cases a with
      | text s => exact ⟨s, rfl, h⟩
      | _ => cases h

theorem exists_text_of_numericKey?_eq_error {key : Value} {fault : Fault}
    (h : key.numericKey? = .error fault) : ∃ s, key = .text s ∧ numeral? s = .error fault := by
  cases key with
  | node n => cases h
  | atom a =>
      cases a with
      | text s => exact ⟨s, rfl, h⟩
      | _ => cases h

/-- There is room for a gap exactly up to the longest one. -/
theorem checkGap_cases [Memory] (gap : Nat) :
    (gap ≤ maxGap ∧ checkGap gap = .ok ()) ∨
      (maxGap < gap ∧ ∃ fault, checkGap gap = .error fault ∧
        (fault = .gapOverflow ∨ fault = .noRoom)) := by
  have hless : maxGap < maxLength := Memory.maxGap_lt
  unfold checkGap
  split
  · rename_i hlong
    exact .inr ⟨hless.trans hlong, _, rfl, .inl rfl⟩
  · split
    · rename_i hgap
      exact .inr ⟨hgap, _, rfl, .inr rfl⟩
    · rename_i hgap
      exact .inl ⟨not_lt.mp hgap, rfl⟩

namespace Layer

/-! ## Reading -/

section

variable [HoldsAtoms α] {l : Layer α}

theorem exists_text_of_lookup_eq_error {key : Value} {fault : Fault}
    (h : l.lookup key = .error fault) : ∃ s, key = .text s ∧ numeral? s = .error fault := by
  unfold lookup at h
  split at h
  · exact exists_text_of_index?_eq_error (Except.map_eq_error_iff.mp h)
  · split at h
    · cases h
    · cases h
    · split at h
      · unfold lookupEntry at h
        split at h
        · cases h
        · split at h
          · cases h
          · exact exists_text_of_numericKey?_eq_error (Except.map_eq_error_iff.mp h)
      · cases h

/-- **A lookup fails only at a text of digits** that cannot be read as a number. -/
theorem exists_text_of_access_eq_error {key : Value} {fault : Fault}
    (h : l.access key = .error fault) : ∃ s, key = .text s ∧ numeral? s = .error fault := by
  unfold access at h
  dsimp only at h
  split at h
  · cases h
  · exact exists_text_of_lookup_eq_error (Except.map_eq_error_iff.mp h)

/-- Going through the entries of a level fails only at one of its keys. -/
theorem exists_key_of_entries_eq_error {fault : Fault} (h : l.entries = .error fault) :
    ∃ key ∈ l.ownKeys, l.access key = .error fault := by
  obtain ⟨front, key, back, hkeys, -, hkey⟩ := Except.mapM_eq_error_iff.mp h
  have hmem : key ∈ l.ownKeys := by simp [hkeys]
  exact ⟨key, hmem, Except.map_eq_error_iff.mp hkey⟩

/-- The entries of a level have its keys. -/
theorem key_mem_ownKeys_of_entries {entries : List (Value × α)} (h : l.entries = .ok entries)
    {e : Value × α} (he : e ∈ entries) : e.1 ∈ l.ownKeys := by
  obtain ⟨key, hmem, hkey⟩ := Except.exists_of_mem_mapM h he
  obtain ⟨v, -, rfl⟩ := Except.map_eq_ok_iff.mp hkey
  exact hmem

end

/-! ## Which keys are taken -/

/-- The level can be written under a key: a mapping that can change under any, a list under an
index. -/
def Takes (l : Layer α) (key : Value) : Prop :=
  match l with
  | .node (.dict _) | .node (.world _) | .node (.caseless _) => True
  | .node (.list _) => ∃ i, key.index? = .ok (some i)
  | _ => False

theorem exists_key_of_allIndices_eq_error {keys : List Value} {fault : Fault}
    (h : acceptsKeys.allIndices keys = .error fault) :
    ∃ key ∈ keys, key.index? = .error fault := by
  induction keys with
  | nil => cases h
  | cons key rest ih =>
      rw [acceptsKeys.allIndices] at h
      rcases Except.bind_eq_error_iff.mp h with h | ⟨i, -, h⟩
      · exact ⟨key, List.mem_cons_self, h⟩
      · cases i with
        | none => cases h
        | some i =>
            obtain ⟨k, hk, hfault⟩ := ih h
            exact ⟨k, List.mem_cons_of_mem _ hk, hfault⟩

theorem forall_index?_of_allIndices {keys : List Value}
    (h : acceptsKeys.allIndices keys = .ok true) :
    ∀ key ∈ keys, ∃ i, key.index? = .ok (some i) := by
  induction keys with
  | nil => exact List.forall_mem_nil _
  | cons key rest ih =>
      rw [acceptsKeys.allIndices] at h
      obtain ⟨i, hi, h⟩ := Except.bind_eq_ok_iff.mp h
      cases i with
      | none => cases Except.ok.inj h
      | some i => exact List.forall_mem_cons.mpr ⟨⟨i, hi⟩, ih h⟩

section

variable {l : Layer α}

/-- Asking whether keys can be written fails only at one of the keys. -/
theorem exists_key_of_acceptsKeys_eq_error {keys : List Value} {fault : Fault}
    (h : l.acceptsKeys keys = .error fault) : ∃ key ∈ keys, key.index? = .error fault := by
  unfold acceptsKeys at h
  split at h
  · cases h
  · cases h
  · cases h
  · exact exists_key_of_allIndices_eq_error h
  · exact exists_key_of_allIndices_eq_error h
  · cases h

/-- Asking for several keys fails where asking for one of them does. -/
theorem exists_mem_of_acceptsKeys_eq_error {keys : List Value} {fault : Fault}
    (h : l.acceptsKeys keys = .error fault) : ∃ key ∈ keys, l.acceptsKeys [key] = .error fault := by
  obtain ⟨key, hmem, hindex⟩ := exists_key_of_acceptsKeys_eq_error h
  refine ⟨key, hmem, ?_⟩
  have hone : acceptsKeys.allIndices [key] = .error fault := by
    rw [acceptsKeys.allIndices, hindex]
    rfl
  unfold acceptsKeys at h ⊢
  split at h
  · cases h
  · cases h
  · cases h
  · exact hone
  · exact hone
  · cases h

theorem takes_of_acceptsKeys {keys : List Value} (hnested : l.isNested = true)
    (h : l.acceptsKeys keys = .ok true) : ∀ key ∈ keys, l.Takes key := by
  unfold acceptsKeys at h
  split at h
  · exact fun _ _ => trivial
  · exact fun _ _ => trivial
  · exact fun _ _ => trivial
  · exact forall_index?_of_allIndices h
  · cases hnested
  · cases h

/-- Writing does not change the kind of a level. -/
theorem kind_of_assign [Memory] [HoldsAtoms α] {key : Value} {v : α} {n : Node α}
    (h : (l.assign key v).result = .ok n) :
    n.kind = l.kind := by
  cases assigned_of_assign h <;> rfl

end

/-- Which keys a level takes depends on its kind alone. -/
theorem takes_node_iff {n : Node α} {key : Value} :
    (Layer.node n).Takes key ↔ n.kind ∈ ["dict", "World", "CaselessMap"] ∨
      n.kind = "list" ∧ ∃ i, key.index? = .ok (some i) := by
  cases n <;> simp [Takes, Node.kind]

theorem Takes.of_kind {n m : Node α} {key : Value} (h : (Layer.node n).Takes key)
    (hkind : m.kind = n.kind) : (Layer.node m).Takes key := by
  rw [takes_node_iff] at h ⊢
  rwa [hkind]

/-! ## Writing -/

/-- There is room in a level for a write under a key, after writes under the earlier ones: a
caseless map has to find letter case in the key, and the gap that a list has to fill, from its own
end or the furthest earlier index, must not be too long. -/
def HasRoom [Memory] (l : Layer α) (earlier : List Value) (key : Value) : Prop :=
  match l with
  | .node (.caseless _) => ∃ label, key.label? = .ok label
  | .node (.list items) => ∀ i, key.index? = .ok (some i) →
      i ≤ items.length + maxGap ∨
        ∃ before ∈ earlier, ∃ j, before.index? = .ok (some j) ∧ i ≤ j + 1 + maxGap
  | _ => True

section

variable [HoldsAtoms α] {l : Layer α} {k : Key}

/-- **A write under a key that the level takes** succeeds if there is room, and fails at that key if
there is none. -/
theorem assign_cases [Memory] {key : Value} (hkey : key.key? = some k) (htakes : l.Takes key)
    (v : α) :
    (l.HasRoom [] key ∧ ∃ n, (l.assign key v).result = .ok n) ∨
      (¬ l.HasRoom [] key ∧ ∃ fault, (l.assign key v).result = .error fault ∧
        key.Obstructs (∃ m, l = .node (.caseless m)) fault) := by
  have hmust : key.mustBeKey = .ok k := by rw [Value.mustBeKey, hkey]
  cases l with
  | atom a => exact htakes.elim
  | node n =>
      cases n with
      | dict entries | world w =>
          exact .inl ⟨trivial, _, Logged.bind_eq_ok_iff.mpr ⟨k, hmust, rfl⟩⟩
      | caseless m =>
          cases hlabel : key.label? with
          | ok label =>
              refine .inl ⟨⟨label, hlabel⟩, .caseless (m.set label v), ?_⟩
              exact Logged.bind_eq_ok_iff.mpr ⟨label, hlabel,
                Logged.bind_eq_ok_iff.mpr ⟨_, m.result_setLogged label v, rfl⟩⟩
          | error fault =>
              refine .inr ⟨?_, fault, Logged.bind_eq_error_iff.mpr (.inl hlabel),
                .uncased ⟨m, rfl⟩ hlabel⟩
              rintro ⟨label, hok⟩
              cases hlabel.symm.trans hok
      | list items =>
          obtain ⟨i, hi⟩ := htakes
          have hindex : key.mustBeIndex = .ok i := Value.mustBeIndex_eq_ok_iff.mpr hi
          rcases checkGap_cases (i - items.length) with ⟨hle, hgap⟩ | ⟨hlong, fault, hgap, hfault⟩
          · refine .inl ⟨?_, .list (writeAt items i v (HoldsAtoms.ofAtom .null)), ?_⟩
            · intro j hj
              obtain rfl := Option.some.inj (Except.ok.inj (hi.symm.trans hj))
              exact .inl (by omega)
            · exact Logged.bind_eq_ok_iff.mpr ⟨i, hindex,
                Logged.bind_eq_ok_iff.mpr ⟨(), hgap, rfl⟩⟩
          · refine .inr ⟨?_, fault, ?_, .far hi (by omega) hfault⟩
            · intro hroom
              rcases hroom i hi with hle | ⟨before, hbefore, -⟩
              · omega
              · cases hbefore
            · exact Logged.bind_eq_error_iff.mpr (.inr ⟨i, hindex,
                Logged.bind_eq_error_iff.mpr (.inl hgap)⟩)
      | _ => exact htakes.elim

/-- **When a write fails** under a text or a number that the level takes as a key. -/
theorem obstructs_of_assign [Memory] (hk : k.IsTextOrInt) (h : l.Takes (.ofKey k)) {v : α}
    {fault : Fault}
    (hfault : (l.assign (.ofKey k) v).result = .error fault) :
    (Value.ofKey k).Obstructs (∃ m, l = .node (.caseless m)) fault := by
  rcases assign_cases hk.key?_ofKey h v with ⟨-, n, hn⟩ | ⟨-, fault', hfault', hobstructs⟩
  · cases hn.symm.trans hfault
  · obtain rfl := Except.error.inj (hfault'.symm.trans hfault)
    exact hobstructs

/-- **What a level holds under a key that has been written.** -/
theorem lookup_of_assign [Memory] (hk : k.IsTextOrInt) (h : l.Takes (.ofKey k))
    (hcoherent : ∀ m, l = .node (.caseless m) → m.Coherent) {v : α} {n : Node α}
    (hn : (l.assign (.ofKey k) v).result = .ok n) :
    (Layer.node n).lookup (.ofKey k) = .ok (some v) := by
  have hentry {n : Node α} (hitem : n.item? k = some v) :
      lookupEntry n (.ofKey k) = .ok (some v) := by
    rw [lookupEntry, hk.key?_ofKey]
    simp only [hitem]
  cases l with
  | atom a => exact h.elim
  | node m =>
      cases m with
      | dict entries | world _ =>
          obtain ⟨key, hkey, hn⟩ := Logged.bind_eq_ok_iff.mp hn
          obtain rfl := Except.ok.inj (hk.mustBeKey_ofKey.symm.trans hkey)
          obtain rfl := Except.ok.inj hn
          exact hentry (Table.get?_set_self _ _ v)
      | caseless m =>
          obtain ⟨label, hlabel, hset⟩ := Logged.bind_eq_ok_iff.mp hn
          obtain ⟨m', hm', hn⟩ := Logged.bind_eq_ok_iff.mp hset
          obtain rfl := Except.ok.inj ((m.result_setLogged label v).symm.trans hm')
          obtain rfl := Except.ok.inj hn
          -- A number has no label, so the key is a text.
          rcases hk.text_or_int with ⟨s, rfl⟩ | ⟨i, rfl⟩
          · obtain rfl := Except.ok.inj hlabel
            have hmem : (Label.text s, v) ∈ (m.set (.text s) v).entries :=
              ((hcoherent m rfl).mem_entries_set _ v _).mpr (.inl rfl)
            have hmap : (Node.caseless (m.set (.text s) v)).IsMap :=
              CaselessMap.coherent_set (hcoherent m rfl) _ v
            exact hentry (hmap.item?_of_mem (List.mem_map_of_mem hmem) hk)
          · cases hlabel
      | list items =>
          obtain ⟨i, hi⟩ := h
          have hindex : (Value.ofKey k).mustBeIndex = .ok i := Value.mustBeIndex_eq_ok_iff.mpr hi
          obtain ⟨j, hj, hwrite⟩ := Logged.bind_eq_ok_iff.mp hn
          obtain rfl := Except.ok.inj (hindex.symm.trans hj)
          obtain ⟨_, -, hn⟩ := Logged.bind_eq_ok_iff.mp hwrite
          obtain rfl := Except.ok.inj hn
          show (Value.ofKey k).index?.map _ = _
          rw [hi]
          exact congrArg Except.ok (getElem?_writeAt_self items i v _)
      | _ => exact h.elim

end

end Layer

end LooseData
