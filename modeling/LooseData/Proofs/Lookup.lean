import LooseData.Path.Normal
import LooseData.Proofs.Layer.Unreadable
import LooseData.Proofs.Path.Moves
import LooseData.Search

set_option autoImplicit false

/-! # When looking something up fails

Lookups are lenient: a key that is missing, an index out of bounds and a null on the way all find
nothing. What remains are texts of digits. A value that takes a text for a number fails if the text
cannot be read as one (`Value.Misreads`), whatever it holds, and so does every lookup along a path
that comes to such a key. A search moreover writes the keys of the entries that it passes, and a
whole number can be too long to be written.

`Value.lookup_eq_error_iff` says this for all six ways of looking something up, each with the exact
condition and the fault.
-/

namespace LooseData

namespace Value

variable {matcher : Matcher} {v key default : Value} {s : String} {fault : Fault}

/-- A lookup under the text takes it for a number, and it cannot be read as one. -/
def Misreads (v : Value) (s : String) (fault : Fault) : Prop :=
  v.layer.ReadsNumber s ∧ numeral? s = .error fault

theorem access_text_eq_error_iff : v.access (.text s) = .error fault ↔ v.Misreads s fault :=
  Layer.access_text_eq_error_iff

theorem hasKey_text_eq_error_iff : v.hasKey (.text s) = .error fault ↔ v.Misreads s fault :=
  Layer.hasKey_text_eq_error_iff

/-! ## Along a path -/

/-- Following a plain path fails at one of its keys. -/
theorem follow_text_eq_error_iff :
    v.follow (.text s) = .error fault ↔
      ∃ front key back w, Path.keys s.toList = front ++ key :: back ∧
        v.followKeys front = .ok w ∧ w.Misreads key fault := by
  have hkeys : v.follow (.text s) = v.followKeys (Path.keys s.toList) := rfl
  rw [hkeys, followKeys, Except.foldlM_eq_error_iff]
  simp only [access_text_eq_error_iff]
  rfl

/-- Resolving a path fails at one of its moves to a key. -/
theorem resolve_eq_error_iff {path : Value} :
    (v.resolve path).result = .error fault ↔
      ∃ front key back w, Path.moves path = front ++ .key key :: back ∧
        Path.follow v front = .ok w ∧ w.Misreads key fault := by
  rw [resolve_eq_follow, Path.follow_eq_error_iff]
  simp only [access_text_eq_error_iff]

/-! ## In a search -/

/-- A text is no number that is too long to be written, and equal to none. -/
theorem equal_of_tooLong (h : key.tooLong = true) : (text s).equal key = false := by
  cases key with
  | atom a =>
      cases a with
      | int i => rfl
      | _ => cases h
  | node n => cases n <;> rfl

/-- Comparing a text with the key of an entry writes the key, unless the two are equal. -/
theorem meets_text_eq_error_iff :
    (text s).meets matcher key = .error fault ↔ key.tooLong = true ∧ fault = .integerTooLong := by
  cases hlong : key.tooLong with
  | true =>
      have hequal : (Value.atom (.text s)).equal key = false := equal_of_tooLong hlong
      have hmeets : (text s).meets matcher key = .error .integerTooLong := by
        simp only [meets, text, hequal, shown?, hlong, if_true]
        rfl
      rw [hmeets]
      constructor
      · intro h
        exact ⟨rfl, (Except.error.inj h).symm⟩
      · rintro ⟨-, rfl⟩
        rfl
  | false =>
      have hshown : key.shown? = .ok key.shown := by
        rw [shown?, hlong]
        rfl
      constructor
      · intro h
        unfold meets at h
        split at h
        · cases h
        · rw [text, hshown] at h
          cases h
      · rintro ⟨⟨⟩, -⟩

/-- Looking for the first entry that is met fails at an entry, none before which is met. -/
theorem firstMet_eq_error_iff {entries : List (Value × Value)} :
    firstMet matcher key entries = .error fault ↔
      ∃ front e back, entries = front ++ e :: back ∧
        (∀ d ∈ front, key.meets matcher d.1 = .ok false) ∧ key.meets matcher e.1 = .error fault := by
  induction entries with
  | nil =>
      constructor
      · rintro ⟨⟩
      · rintro ⟨front, e, back, hentries, -⟩
        cases front <;> cases hentries
  | cons entry rest ih =>
      obtain ⟨k, w⟩ := entry
      rw [firstMet]
      constructor
      · intro h
        rcases Except.bind_eq_error_iff.mp h with h | ⟨met, hmet, h⟩
        · exact ⟨[], (k, w), rest, rfl, List.forall_mem_nil _, h⟩
        · cases met with
          | true => cases h
          | false =>
              obtain ⟨front, e, back, rfl, hfront, he⟩ := ih.mp h
              exact ⟨(k, w) :: front, e, back, rfl, List.forall_mem_cons.mpr ⟨hmet, hfront⟩, he⟩
      · rintro ⟨front, e, back, hentries, hfront, he⟩
        cases front with
        | nil =>
            obtain ⟨rfl, rfl⟩ := List.cons.inj hentries
            exact Except.bind_eq_error_iff.mpr (.inl he)
        | cons d front =>
            obtain ⟨rfl, rfl⟩ := List.cons.inj hentries
            obtain ⟨hd, hfront⟩ := List.forall_mem_cons.mp hfront
            exact Except.bind_eq_error_iff.mpr
              (.inr ⟨false, hd, ih.mpr ⟨front, e, back, rfl, hfront, he⟩⟩)

/-- A search passes entries that are not met and comes to a key that is too long to be written. -/
def StopsAtKey (matcher : Matcher) (v : Value) (s : String) : Prop :=
  ∃ front key back, v.ownKeys = front ++ key :: back ∧
    (∀ k ∈ front, (text s).meets matcher k = .ok false) ∧ key.tooLong = true

theorem firstMet_text_eq_error_iff {entries : List (Value × Value)}
    (hentries : v.entries = .ok entries) :
    firstMet matcher (.text s) entries = .error fault ↔
      v.StopsAtKey matcher s ∧ fault = .integerTooLong := by
  have hkeys : entries.map Prod.fst = v.ownKeys := Layer.map_fst_of_entries hentries
  rw [firstMet_eq_error_iff]
  constructor
  · rintro ⟨front, e, back, rfl, hfront, he⟩
    obtain ⟨hlong, rfl⟩ := meets_text_eq_error_iff.mp he
    refine ⟨⟨front.map Prod.fst, e.1, back.map Prod.fst, ?_, ?_, hlong⟩, rfl⟩
    · rw [← hkeys, List.map_append, List.map_cons]
    · exact List.forall_mem_map.mpr hfront
  · rintro ⟨⟨front, key, back, hown, hfront, hlong⟩, rfl⟩
    rw [hown] at hkeys
    obtain ⟨frontEntries, rest, rfl, rfl, hrest⟩ := List.map_eq_append_iff.mp hkeys
    obtain ⟨e, backEntries, rfl, rfl, -⟩ := List.map_eq_cons_iff.mp hrest
    exact ⟨frontEntries, e, backEntries, rfl, List.forall_mem_map.mp hfront,
      meets_text_eq_error_iff.mpr ⟨hlong, rfl⟩⟩

/-- The keys of a sequence are texts, which can always be written. -/
theorem not_stopsAtKey_of_overlong (h : v.layer.Overlong) : ¬ v.StopsAtKey matcher s := by
  rintro ⟨front, key, back, hown, -, hlong⟩
  obtain ⟨items, hitems, -⟩ := h
  have hmem : key ∈ v.layer.ownKeys := by
    show key ∈ v.ownKeys
    simp [hown]
  rw [Layer.ownKeys_of_sequence? hitems] at hmem
  obtain ⟨i, -, rfl⟩ := List.mem_map.mp hmem
  cases hlong

/-- **When searching for a text fails.** -/
theorem search_text_eq_error_iff (hv : v.layer.WellMade) :
    v.search matcher (.text s) default = .error fault ↔
      v.Misreads s fault ∨ v.hasKey (.text s) = .ok false ∧
        (v.layer.Overlong ∧ fault = .numeralTooLong (maxNumeralDigits + 1) ∨
          v.StopsAtKey matcher s ∧ fault = .integerTooLong) := by
  have hsearch : v.search matcher (.text s) default = (v.hasKey (.text s)).bind fun found =>
      if found then v.access (.text s)
      else v.entries.bind fun entries =>
        (firstMet matcher (.text s) entries).map fun found => found.getD default := rfl
  rw [hsearch, Except.bind_eq_error_iff, hasKey_text_eq_error_iff]
  constructor
  · rintro (hkey | ⟨found, hfound, h⟩)
    · exact .inl hkey
    · cases found with
      | true =>
          have hkey := hasKey_text_eq_error_iff.mpr (access_text_eq_error_iff.mp h)
          cases hfound.symm.trans hkey
      | false =>
          rcases Except.bind_eq_error_iff.mp h with h | ⟨entries, hentries, h⟩
          · exact .inr ⟨hfound, .inl ((Layer.entries_eq_error_iff hv).mp h)⟩
          · have hmet := Except.map_eq_error_iff.mp h
            exact .inr ⟨hfound, .inr ((firstMet_text_eq_error_iff hentries).mp hmet)⟩
  · rintro (hkey | ⟨hfound, h⟩)
    · exact .inl hkey
    · refine .inr ⟨false, hfound, ?_⟩
      rcases h with hlong | ⟨hstops, rfl⟩
      · exact Except.bind_eq_error_iff.mpr (.inl ((Layer.entries_eq_error_iff hv).mpr hlong))
      · cases hentries : v.entries with
        | error fault =>
            have hlong := ((Layer.entries_eq_error_iff hv).mp hentries).1
            exact absurd hstops (not_stopsAtKey_of_overlong hlong)
        | ok entries =>
            exact Except.map_eq_error_iff.mpr
              ((firstMet_text_eq_error_iff hentries).mpr ⟨hstops, rfl⟩)

/-- **When checking a text against options fails.** -/
theorem text_oneOf_eq_error_iff (hv : v.layer.WellMade) (hnull : v ≠ .null) :
    (text s).oneOf v default = .error fault ↔
      v.Misreads s fault ∨ v.hasKey (.text s) = .ok false ∧ v.layer.Overlong ∧
        fault = .numeralTooLong (maxNumeralDigits + 1) := by
  unfold oneOf
  split
  · exact absurd rfl hnull
  · constructor
    · rintro ⟨⟩
    · rintro (⟨hreads, -⟩ | ⟨-, ⟨items, hitems, -⟩, -⟩)
      · exact hreads.elim
      · cases hitems
  · refine Except.bind_eq_error_iff.trans ?_
    rw [hasKey_text_eq_error_iff]
    refine or_congr_right ?_
    constructor
    · rintro ⟨found, hfound, h⟩
      cases found with
      | true => cases h
      | false =>
          rcases Except.bind_eq_error_iff.mp h with h | ⟨values, -, h⟩
          · exact ⟨hfound, (Layer.entries_eq_error_iff hv).mp (Except.map_eq_error_iff.mp h)⟩
          · split at h <;> cases h
    · rintro ⟨hfound, hlong⟩
      have hvalues : v.values = .error fault :=
        Except.map_eq_error_iff.mpr ((Layer.entries_eq_error_iff hv).mpr hlong)
      exact ⟨false, hfound, Except.bind_eq_error_iff.mpr (.inl hvalues)⟩

/-- **When looking something up under a text fails**: a lookup, asking whether there is a key,
following a plain path, resolving a path, searching, and checking the text against options. -/
theorem lookup_eq_error_iff (v : Value) (s : String) (fault : Fault) :
    (v.access (.text s) = .error fault ↔ v.Misreads s fault) ∧
    (v.hasKey (.text s) = .error fault ↔ v.Misreads s fault) ∧
    (v.follow (.text s) = .error fault ↔
      ∃ front key back w, Path.keys s.toList = front ++ key :: back ∧
        v.followKeys front = .ok w ∧ w.Misreads key fault) ∧
    ((v.resolve (.text s)).result = .error fault ↔
      ∃ front key back w, Path.moves (.text s) = front ++ .key key :: back ∧
        Path.follow v front = .ok w ∧ w.Misreads key fault) ∧
    (v.layer.WellMade → ∀ default,
      (v.search matcher (.text s) default = .error fault ↔
        v.Misreads s fault ∨ v.hasKey (.text s) = .ok false ∧
          (v.layer.Overlong ∧ fault = .numeralTooLong (maxNumeralDigits + 1) ∨
            v.StopsAtKey matcher s ∧ fault = .integerTooLong)) ∧
      (v ≠ .null → ((text s).oneOf v default = .error fault ↔
        v.Misreads s fault ∨ v.hasKey (.text s) = .ok false ∧ v.layer.Overlong ∧
          fault = .numeralTooLong (maxNumeralDigits + 1)))) :=
  ⟨access_text_eq_error_iff, hasKey_text_eq_error_iff, follow_text_eq_error_iff,
    resolve_eq_error_iff, fun hv _ =>
      ⟨search_text_eq_error_iff hv, text_oneOf_eq_error_iff hv⟩⟩

/-- A superscript two is a digit without a place in a numeral, so that even an empty dictionary
cannot be asked for it. -/
theorem lookup_superscript :
    (dict []).layer.WellMade ∧ dict [] ≠ .null ∧
      (dict []).access (.text "²") = .error (.notDecimal "²") ∧
      (dict []).search (fun _ _ => false) (.text "²") .null = .error (.notDecimal "²") ∧
      (text "²").oneOf (dict []) .null = .error (.notDecimal "²") := by
  have hmade : (dict []).layer.WellMade := by
    rintro n ⟨⟩ -
    exact List.Pairwise.nil
  have hmisreads : (dict []).Misreads "²" (.notDecimal "²") := by
    refine ⟨rfl, ?_⟩
    cbv
  obtain ⟨haccess, -, -, -, hothers⟩ := lookup_eq_error_iff (dict []) "²" (.notDecimal "²")
  obtain ⟨hsearch, honeOf⟩ := hothers hmade .null
  have hnull : dict [] ≠ .null := by rintro ⟨⟩
  exact ⟨hmade, hnull, haccess.mpr hmisreads, hsearch.mpr (.inl hmisreads),
    (honeOf hnull).mpr (.inl hmisreads)⟩

/-- A lookup under a text need not find anything, not even null. -/
theorem exists_lookup_fault :
    ¬ ∀ (v : Value) (s : String), ∃ w, v.access (.text s) = .ok w := by
  intro h
  have hfault : (dict []).access (.text "²") = .error (.notDecimal "²") := by cbv
  obtain ⟨w, hw⟩ := h (dict []) "²"
  cases hfault.symm.trans hw

end Value

end LooseData
