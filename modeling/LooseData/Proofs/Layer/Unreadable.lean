import LooseData.Proofs.Layer.Faults
import Mathlib

set_option autoImplicit false

/-! # Texts that are looked up as numbers

A lookup takes a text for a number where the level is a sequence, and where it is a mapping without
an entry under the text itself (`Layer.ReadsNumber`). Nowhere else can it fail, and there it fails
exactly if the text is a numeral that cannot be read (`Layer.lookup_text_eq_error_iff`).

Going through the entries of a level looks up its own keys. Those of a mapping are there, so only
the indices of a sequence are read as numbers, and only the first index with too many digits is a
fault (`Layer.entries_eq_error_iff`).
-/

namespace LooseData

/-! ## Indices with too many digits -/

/-- The text of an index is read unless it has too many digits. -/
theorem numeral?_toString_eq_error_iff {i : Nat} {fault : Fault} :
    numeral? (toString i) = .error fault ↔
      10 ^ maxNumeralDigits ≤ i ∧ fault = .numeralTooLong (toString i).toList.length := by
  have hleading : (toString i).toList.takeWhile Text.isDecimal = (toString i).toList :=
    List.takeWhile_eq_self_iff.mpr fun c hc => isDecimal_of_mem_toString hc
  have hlength : maxNumeralDigits < (toString i).toList.length ↔ 10 ^ maxNumeralDigits ≤ i := by
    have hpositive : 0 < maxNumeralDigits := by decide
    rw [toList_toString, ← not_le, Nat.length_toDigits_le_iff (by decide) hpositive, not_lt]
  unfold numeral?
  dsimp only
  rw [if_pos (isDigits_toString i), hleading]
  split
  · rename_i hlong
    rw [hlength] at hlong
    constructor
    · intro h
      exact ⟨hlong, (Except.error.inj h).symm⟩
    · rintro ⟨-, rfl⟩
      rfl
  · rename_i hshort
    rw [if_neg (Nat.lt_irrefl _)]
    constructor
    · intro h
      cases h
    · rintro ⟨hlong, -⟩
      exact absurd (hlength.mpr hlong) hshort

/-- No length is so great that it has too many digits to be read. -/
theorem maxLength_lt : maxLength < 10 ^ maxNumeralDigits := by
  calc maxLength
      < 2 ^ 63 := by decide
    _ ≤ 10 ^ 63 := Nat.pow_le_pow_left (by decide) 63
    _ ≤ 10 ^ maxNumeralDigits := Nat.pow_le_pow_right (by decide) (by decide)

/-- Every index of a sequence is read as it was written. -/
theorem numeral?_toString_of_lt {i : Nat} (h : i < maxLength) :
    numeral? (toString i) = .ok (some i) := by
  cases hread : numeral? (toString i) with
  | ok index => exact congrArg Except.ok ((numeral?_toString i).2 _ hread)
  | error fault =>
      have hlong := (numeral?_toString_eq_error_iff.mp hread).1
      exact absurd (hlong.trans_lt h) (Nat.lt_asymm maxLength_lt)

/-- The first index with too many digits has one digit too many. -/
theorem length_toString_pow (n : Nat) : (toString (10 ^ n)).toList.length = n + 1 := by
  have hlow : ¬ (Nat.toDigits 10 (10 ^ n)).length ≤ n := by
    cases n with
    | zero => decide
    | succ n =>
        rw [Nat.length_toDigits_le_iff (by decide) (by omega)]
        exact Nat.lt_irrefl _
  have hhigh : (Nat.toDigits 10 (10 ^ n)).length ≤ n + 1 := by
    rw [Nat.length_toDigits_le_iff (by decide) (by omega)]
    exact Nat.pow_lt_pow_right (by decide) (by omega)
  rw [toList_toString]
  omega

/-- A range is cut at one of its numbers. -/
theorem range_eq_append_cons_iff {n i : Nat} {front back : List Nat} :
    List.range n = front ++ i :: back ↔
      i < n ∧ front = List.range i ∧ back = List.range' (i + 1) (n - i - 1) := by
  simp only [List.range_eq_range']
  rw [List.range'_eq_append_iff]
  constructor
  · rintro ⟨k, -, rfl, hback⟩
    obtain ⟨hk, hlt, rfl⟩ := List.range'_eq_cons_iff.mp hback.symm
    obtain rfl : k = i := by omega
    exact ⟨by omega, rfl, rfl⟩
  · rintro ⟨hlt, rfl, rfl⟩
    refine ⟨i, hlt.le, rfl, (List.range'_eq_cons_iff.mpr ⟨by omega, by omega, rfl⟩).symm⟩

/-- A text among the keys of a mapping is found there. -/
theorem Node.IsMap.exists_item?_text {α : Type} {n : Node α} {s : String} (hn : n.IsMap)
    (hs : .text s ∈ n.contents.map fun e => Value.ofKey e.1) : ∃ v, n.item? (.text s) = some v := by
  obtain ⟨⟨k, v⟩, he, hk⟩ := List.mem_map.mp hs
  obtain rfl : k = .text s := by
    cases k with
    | atom a =>
        cases hk
        rfl
    | tuple items => cases hk
  exact ⟨v, hn.item?_of_mem he trivial⟩

namespace Layer

variable {α : Type}

/-! ## Looking up a text -/

/-- A lookup under the text takes it for a number: a sequence always does, and a mapping does if it
has no entry under the text itself. -/
def ReadsNumber (l : Layer α) (s : String) : Prop :=
  match l with
  | .atom (.text _) | .atom (.bytes _) => True
  | .node (.tuple _) | .node (.list _) | .node (.buffer _) => True
  | .atom _ | .node (.object _) => False
  | .node n => n.item? (.text s) = none

theorem lookupEntry_text_eq_error_iff {n : Node α} {s : String} {fault : Fault} :
    lookupEntry n (.text s) = .error fault ↔
      n.item? (.text s) = none ∧ numeral? s = .error fault := by
  have hkey : (Value.text s).key? = some (.text s) := rfl
  simp only [lookupEntry, hkey]
  cases n.item? (.text s) with
  | some v =>
      constructor
      · intro h
        cases h
      · rintro ⟨hnone, -⟩
        cases hnone
  | none =>
      show ((numeral? s).map _ = _) ↔ _
      rw [Except.map_eq_error_iff]
      exact ⟨fun h => ⟨rfl, h⟩, And.right⟩

variable [HoldsAtoms α] {l : Layer α} {s : String} {fault : Fault}

/-- **When a lookup under a text fails.** -/
theorem lookup_text_eq_error_iff :
    l.lookup (.text s) = .error fault ↔ l.ReadsNumber s ∧ numeral? s = .error fault := by
  have hindexed (items : List α) :
      ((numeral? s).map fun i => i.bind fun i => items[i]?) = .error fault ↔
        True ∧ numeral? s = .error fault := by
    rw [Except.map_eq_error_iff, true_and]
  cases l with
  | atom a =>
      cases a with
      | text _ => exact hindexed _
      | bytes _ => exact hindexed _
      | _ =>
          refine ⟨fun h => ?_, fun h => h.1.elim⟩
          cases h
  | node n =>
      cases n with
      | tuple _ => exact hindexed _
      | list _ => exact hindexed _
      | buffer _ => exact hindexed _
      | object _ =>
          refine ⟨fun h => ?_, fun h => h.1.elim⟩
          cases h
      | _ => exact lookupEntry_text_eq_error_iff

theorem hasKey_text_eq_error_iff :
    l.hasKey (.text s) = .error fault ↔ l.ReadsNumber s ∧ numeral? s = .error fault := by
  rw [hasKey, Except.map_eq_error_iff, lookup_text_eq_error_iff]

theorem access_text_eq_error_iff :
    l.access (.text s) = .error fault ↔ l.ReadsNumber s ∧ numeral? s = .error fault := by
  have hnull : (Value.text s).isNull = false := rfl
  simp only [access, hnull, Bool.false_eq_true, if_false]
  rw [Except.map_eq_error_iff, lookup_text_eq_error_iff]

/-! ## Going through the entries -/

/-- The level as it is made: if it is a mapping, no two entries have the same key and the index of
a caseless map is in step. -/
def WellMade (l : Layer α) : Prop := ∀ n, l = .node n → n.isMapping = true → n.IsMap

/-- The level is a sequence with an index that has too many digits to be read. -/
def Overlong (l : Layer α) : Prop :=
  ∃ items, l.sequence? = some items ∧ 10 ^ maxNumeralDigits < items.length

/-- The entries of a level are those of its keys. -/
theorem map_fst_of_entries {es : List (Value × α)} (h : l.entries = .ok es) :
    es.map Prod.fst = l.ownKeys := by
  unfold entries at h
  generalize l.ownKeys = keys at h
  induction keys generalizing es with
  | nil =>
      obtain rfl := Except.ok.inj h
      rfl
  | cons key rest ih =>
      rw [List.mapM_cons] at h
      obtain ⟨e, he, h⟩ := Except.bind_eq_ok_iff.mp h
      obtain ⟨es', hes', h⟩ := Except.bind_eq_ok_iff.mp h
      obtain rfl := Except.ok.inj h
      obtain ⟨v, -, rfl⟩ := Except.map_eq_ok_iff.mp he
      rw [List.map_cons, ih hes']

/-- What is no sequence never takes its own keys for numbers. -/
theorem WellMade.not_readsNumber (hl : l.WellMade) (hseq : l.sequence? = none)
    (hs : .text s ∈ l.ownKeys) : ¬ l.ReadsNumber s := by
  have hmapping {n : Node α} (hn : n.IsMap)
      (hs : .text s ∈ n.contents.map fun e => Value.ofKey e.1) : n.item? (.text s) ≠ none := by
    obtain ⟨v, hv⟩ := hn.exists_item?_text hs
    rw [hv]
    exact Option.some_ne_none _
  cases l with
  | atom a =>
      cases a with
      | text _ => cases hseq
      | bytes _ => cases hseq
      | _ => exact id
  | node n =>
      cases n with
      | tuple _ => cases hseq
      | list _ => cases hseq
      | buffer _ => cases hseq
      | object _ => exact id
      | _ => exact hmapping (hl _ rfl rfl) hs

/-- The keys of a sequence are the texts of its indices. -/
theorem ownKeys_of_sequence? {items : List α} (h : l.sequence? = some items) :
    l.ownKeys = (List.range items.length).map fun i => .text (toString i) := by
  unfold ownKeys
  rw [h]

theorem readsNumber_of_sequence? {items : List α} (h : l.sequence? = some items) (s : String) :
    l.ReadsNumber s := by
  unfold sequence? at h
  split at h
  · trivial
  · trivial
  · trivial
  · trivial
  · trivial
  · cases h

/-- **Going through the entries of a level** fails only for a sequence that is too long. -/
theorem entries_eq_error_iff (hl : l.WellMade) :
    l.entries = .error fault ↔
      l.Overlong ∧ fault = .numeralTooLong (maxNumeralDigits + 1) := by
  cases hseq : l.sequence? with
  | none =>
      constructor
      · intro h
        obtain ⟨key, hkey, haccess⟩ := exists_key_of_entries_eq_error h
        obtain ⟨s, rfl, -⟩ := exists_text_of_access_eq_error haccess
        exact absurd (access_text_eq_error_iff.mp haccess).1 (hl.not_readsNumber hseq hkey)
      · rintro ⟨⟨items, hitems, -⟩, -⟩
        rw [hseq] at hitems
        cases hitems
  | some items =>
      -- The indices are looked up in order, so the first that cannot be read is the fault.
      have hindex (i : Nat) (fault : Fault) :
          (l.access (.text (toString i))).map (fun v => (Value.text (toString i), v)) =
              .error fault ↔
            10 ^ maxNumeralDigits ≤ i ∧ fault = .numeralTooLong (toString i).toList.length := by
        rw [Except.map_eq_error_iff, access_text_eq_error_iff, numeral?_toString_eq_error_iff]
        exact and_iff_right (readsNumber_of_sequence? hseq _)
      have hfirst : (toString (10 ^ maxNumeralDigits)).toList.length = maxNumeralDigits + 1 :=
        length_toString_pow _
      unfold entries
      rw [ownKeys_of_sequence? hseq, List.mapM_map, Except.mapM_eq_error_iff]
      constructor
      · rintro ⟨front, i, back, hrange, hfront, hi⟩
        obtain ⟨hlt, rfl, -⟩ := range_eq_append_cons_iff.mp hrange
        obtain ⟨hlong, rfl⟩ := (hindex i fault).mp hi
        have heq : i = 10 ^ maxNumeralDigits := by
          refine le_antisymm (not_lt.mp fun hless => ?_) hlong
          obtain ⟨e, he⟩ := hfront _ (List.mem_range.mpr hless)
          have hfault := (hindex (10 ^ maxNumeralDigits) _).mpr ⟨le_rfl, rfl⟩
          cases he.symm.trans hfault
        rw [heq] at hlt ⊢
        exact ⟨⟨items, hseq, hlt⟩, congrArg _ hfirst⟩
      · rintro ⟨⟨items', hitems, hlong⟩, rfl⟩
        obtain rfl : items = items' := Option.some.inj (hseq.symm.trans hitems)
        refine ⟨_, 10 ^ maxNumeralDigits, _, range_eq_append_cons_iff.mpr ⟨hlong, rfl, rfl⟩,
          fun i hi => ?_, (hindex _ _).mpr ⟨le_rfl, congrArg _ hfirst.symm⟩⟩
        cases hread : (l.access (.text (toString i))).map
            (fun v => (Value.text (toString i), v)) with
        | ok e => exact ⟨e, hread⟩
        | error fault =>
            exact absurd ((hindex i fault).mp hread).1 (not_le.mpr (List.mem_range.mp hi))

end Layer

end LooseData
