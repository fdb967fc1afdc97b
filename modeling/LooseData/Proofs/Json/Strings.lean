import LooseData.Json.Writer
import LooseData.Proofs.Number.Grammar

set_option autoImplicit false

/-! # Texts are read as they are written

Every character is written so that the reader gives it back and goes on behind it
(`readString_escapeChar`): as itself, by a letter behind a backslash, by its code unit, or by two
code units that make up a pair of surrogates. So a quoted text is read up to its closing quote
(`readString_quote`). What is written is printable ASCII (`isPlain_of_mem_quote`).
-/

namespace LooseData.Json

variable {start ahead : List Char} {n : Nat}

/-! ## Code units -/

theorem hexValue?_digitChar {d : Nat} (h : d < 16) : hexValue? d.digitChar = some d :=
  Numeral.hexValue?_eq_some_iff.mpr ⟨h, .inl rfl⟩

/-- An escape is read as the code unit that it was written for. -/
theorem escapedUnit?_unitEscape (hn : n < 0x10000) (hahead : ahead ≠ []) :
    escapedUnit? (unitEscape n ++ ahead) = some (.ok n) := by
  have hunit : unit? (Nat.digitChar (n / Nat.pow 16 3 % 16)) (Nat.digitChar (n / Nat.pow 16 2 % 16))
      (Nat.digitChar (n / Nat.pow 16 1 % 16)) (Nat.digitChar (n / Nat.pow 16 0 % 16)) = some n := by
    have hmod (k : Nat) : k % 16 < 16 := Nat.mod_lt _ (by omega)
    have hvalue :
        ((n / 4096 % 16 * 16 + n / 256 % 16) * 16 + n / 16 % 16) * 16 + n / 1 % 16 = n := by
      omega
    unfold unit?
    simp only [hexValue?_digitChar (hmod _)]
    exact congrArg some hvalue
  cases ahead with
  | nil => exact absurd rfl hahead
  | cons c cs =>
      have hwritten : unitEscape n ++ c :: cs = '\\' :: 'u' ::
          Nat.digitChar (n / Nat.pow 16 3 % 16) :: Nat.digitChar (n / Nat.pow 16 2 % 16) ::
          Nat.digitChar (n / Nat.pow 16 1 % 16) :: Nat.digitChar (n / Nat.pow 16 0 % 16) ::
          c :: cs := rfl
      rw [hwritten, escapedUnit?, hunit]

theorem code_bounds (c : Char) :
    Text.code c < 0x110000 ∧
      ((Text.code c = c.toNat ∧ c.toNat < Text.firstStandIn ∧
        (c.toNat < 0xD800 ∨ 0xDFFF < c.toNat)) ∨
      (Text.code c = 0xD800 + (c.toNat - Text.firstStandIn) ∧ Text.firstStandIn ≤ c.toNat ∧
        c.toNat < 0x110000)) := by
  have hvalid : c.toNat < 0xD800 ∨ (0xDFFF < c.toNat ∧ c.toNat < 0x110000) := c.valid
  unfold Text.code Text.firstStandIn
  split <;> omega

/-- A character is found again by its code point. -/
theorem charAt_code (c : Char) : Text.charAt (Text.code c) = c := by
  obtain ⟨-, ⟨hcode, -, hvalid⟩ | ⟨hcode, hfirst, hlast⟩⟩ := code_bounds c
  · rw [hcode, Text.charAt, if_pos hvalid, Char.ofNat_toNat]
  · have hsurrogate : ¬ (Text.code c < 0xD800 ∨ 0xDFFF < Text.code c) := by
      unfold Text.firstStandIn at *
      omega
    have hoffset : Text.firstStandIn + Text.code c % 0x800 = c.toNat := by
      unfold Text.firstStandIn at *
      omega
    rw [Text.charAt, if_neg hsurrogate, Text.standIn, hoffset, Char.ofNat_toNat]

/-- No escape for the second of a pair of surrogates starts here. -/
def EndsUnit (ahead : List Char) : Prop :=
  escapedUnit? ahead = none ∨
    ∃ n, escapedUnit? ahead = some (.ok n) ∧ Text.isLowSurrogate n = false

theorem escape_unit (hn : n < 0x10000)
    (hhigh : Text.isHighSurrogate n = true → EndsUnit ahead) (hahead : ahead ≠ []) :
    escape start ('u' :: (Text.hexDigits 4 n ++ ahead)) = .ok (Text.charAt n, 5) := by
  have hunit := escapedUnit?_unitEscape hn hahead
  have hdrop : (Text.hexDigits 4 n ++ ahead).drop 4 = ahead := rfl
  rw [escape, show escapedUnit? ('\\' :: 'u' :: (Text.hexDigits 4 n ++ ahead)) = _ from hunit]
  dsimp only
  rw [hdrop]
  cases hsurrogate : Text.isHighSurrogate n with
  | false => rfl
  | true =>
      rw [if_pos rfl]
      rcases hhigh hsurrogate with hnone | ⟨low, hlow, hother⟩
      · rw [hnone]
      · rw [hlow]
        dsimp only
        rw [hother, if_neg Bool.false_ne_true]

theorem escape_pair {high low : Nat} (hhigh : Text.isHighSurrogate high = true)
    (hlow : Text.isLowSurrogate low = true) (hahead : ahead ≠ []) :
    escape start ('u' :: (Text.hexDigits 4 high ++ (unitEscape low ++ ahead))) =
      .ok (Text.charAt (Text.joinSurrogates high low), 11) := by
  have hbounds : high < 0x10000 ∧ low < 0x10000 := by
    simp only [Text.isHighSurrogate, Text.isLowSurrogate, Bool.and_eq_true, decide_eq_true_eq] at *
    omega
  have hfirst : escapedUnit? ('\\' :: 'u' :: (Text.hexDigits 4 high ++ (unitEscape low ++ ahead))) =
      some (.ok high) := escapedUnit?_unitEscape hbounds.1 (List.cons_ne_nil _ _)
  have hsecond := escapedUnit?_unitEscape hbounds.2 hahead
  have hdrop : (Text.hexDigits 4 high ++ (unitEscape low ++ ahead)).drop 4 =
      unitEscape low ++ ahead := rfl
  rw [escape, hfirst]
  dsimp only
  rw [hhigh, if_pos rfl, hdrop, hsecond]
  dsimp only
  rw [if_pos hlow]

/-! ## Characters -/

/-- What an escape takes up is left out. -/
theorem readString_skip (cs : List Char) :
    readString start cs.length (cs ++ ahead) = readString start 0 ahead := by
  induction cs with
  | nil => rfl
  | cons c cs ih => exact ih

/-- A character is read from its escape, and reading goes on behind it. -/
theorem readString_escape {c : Char} (cs : List Char)
    (h : escape start (cs ++ ahead) = .ok (c, cs.length)) :
    readString start 0 ('\\' :: (cs ++ ahead)) = precede c (readString start 0 ahead) := by
  rw [readString, h]
  dsimp only
  rw [readString_skip]

theorem readString_self {c : Char} (hquote : c ≠ '"') (hslash : c ≠ '\\') (hc : 0x20 ≤ c.toNat) :
    readString start 0 (c :: ahead) = precede c (readString start 0 ahead) := by
  rw [readString]
  · exact if_neg (Nat.not_lt.mpr hc)
  · exact hquote
  · exact hslash

theorem readString_unitEscape (hn : n < 0x10000)
    (hhigh : Text.isHighSurrogate n = true → EndsUnit ahead) (hahead : ahead ≠ []) :
    readString start 0 (unitEscape n ++ ahead) =
      precede (Text.charAt n) (readString start 0 ahead) :=
  readString_escape ('u' :: Text.hexDigits 4 n) (escape_unit hn hhigh hahead)

theorem readString_pair {high low : Nat} (hhigh : Text.isHighSurrogate high = true)
    (hlow : Text.isLowSurrogate low = true) (hahead : ahead ≠ []) :
    readString start 0 (unitEscape high ++ (unitEscape low ++ ahead)) =
      precede (Text.charAt (Text.joinSurrogates high low)) (readString start 0 ahead) :=
  readString_escape ('u' :: (Text.hexDigits 4 high ++ unitEscape low))
    (escape_pair hhigh hlow hahead)

/-- **A character is read as it is written**, with something behind it. A stand-in for the first of
a pair of surrogates must not be followed by one for the second. -/
theorem readString_escapeChar (c : Char) (hahead : ahead ≠ [])
    (hhigh : Text.isHighSurrogate (Text.code c) = true → EndsUnit ahead) :
    readString start 0 (escapeChar c ++ ahead) = precede c (readString start 0 ahead) := by
  have hletter {c d : Char} (h : escape start (d :: ahead) = .ok (c, 1)) :
      readString start 0 (['\\', d] ++ ahead) = precede c (readString start 0 ahead) :=
    readString_escape [d] h
  unfold escapeChar
  -- Seven characters are written by a letter each.
  iterate 7
    split
    · subst_vars
      exact hletter rfl
  split
  · rename_i hquote hslash _ _ _ _ _ hprintable
    exact readString_self hquote hslash hprintable.1
  split
  · rename_i hunit
    rw [readString_unitEscape hunit hhigh hahead, charAt_code]
  · rename_i hbeyond
    obtain ⟨hbound, ⟨hcode, -⟩ | ⟨hcode, -, hlast⟩⟩ := code_bounds c
    · have hjoin : Text.joinSurrogates (0xD800 + (c.toNat - 0x10000) / 0x400)
          (0xDC00 + (c.toNat - 0x10000) % 0x400) = Text.code c := by
        unfold Text.joinSurrogates
        omega
      rw [List.append_assoc, readString_pair _ _ hahead, hjoin, charAt_code]
      · simp only [Text.isHighSurrogate, Bool.and_eq_true, decide_eq_true_eq]
        omega
      · simp only [Text.isLowSurrogate, Bool.and_eq_true, decide_eq_true_eq]
        omega
    · unfold Text.firstStandIn at hcode
      omega

/-- After a character that stands in for no second of a pair of surrogates, the first of a pair stays
alone. -/
theorem endsUnit_escapeChar {c : Char} (hlow : Text.isLowSurrogate (Text.code c) = false)
    (hahead : ahead ≠ []) : EndsUnit (escapeChar c ++ ahead) := by
  unfold escapeChar
  iterate 7
    split
    · exact .inl rfl
  split
  · rename_i hslash _ _ _ _ _ _
    refine .inl ?_
    unfold escapedUnit?
    split
    · rename_i heq
      exact absurd (List.cons.inj heq).1 ‹_›
    · rfl
  split
  · rename_i hunit
    exact .inr ⟨_, escapedUnit?_unitEscape hunit hahead, hlow⟩
  · have hbound : c.toNat < 0x110000 := by
      obtain ⟨hbound, ⟨hcode, -⟩ | ⟨-, -, hlast⟩⟩ := code_bounds c <;> omega
    rw [List.append_assoc]
    refine .inr ⟨_, escapedUnit?_unitEscape (by omega) (List.append_ne_nil_of_left_ne_nil ?_ _), ?_⟩
    · exact List.cons_ne_nil _ _
    · simp only [Text.isLowSurrogate, Bool.and_eq_false_iff, decide_eq_false_iff_not]
      omega

/-! ## Texts -/

/-- The characters with pairs of stand-ins for surrogates replaced by the characters that the
surrogates make up. -/
def rejoined : List Char → List Char
  | a :: b :: cs =>
    if Text.isHighSurrogate (Text.code a) && Text.isLowSurrogate (Text.code b) then
      Text.charAt (Text.joinSurrogates (Text.code a) (Text.code b)) :: rejoined cs
    else a :: rejoined (b :: cs)
  | cs => cs

/-- A stand-in is written by the surrogate. -/
theorem escapeChar_of_surrogate {c : Char}
    (h : 0xD800 ≤ Text.code c ∧ Text.code c < 0xE000) : escapeChar c = unitEscape (Text.code c) := by
  obtain ⟨-, ⟨hcode, -, hvalid⟩ | ⟨-, hfirst, -⟩⟩ := code_bounds c
  · omega
  · unfold Text.firstStandIn at hfirst
    unfold escapeChar
    -- A stand-in is none of the characters that are written otherwise.
    iterate 7
      split
      · subst_vars
        exact absurd hfirst (by decide)
    rw [if_neg (by omega), if_pos (by omega)]

/-- **A quoted text is read up to its closing quote**, and pairs of surrogates are joined. -/
theorem readString_quote (cs : List Char) :
    readString start 0 (cs.flatMap escapeChar ++ '"' :: ahead) = .ok (rejoined cs, ahead) := by
  have hclosed (cs : List Char) : cs.flatMap escapeChar ++ '"' :: ahead ≠ [] :=
    List.append_ne_nil_of_right_ne_nil _ (List.cons_ne_nil _ _)
  induction cs using rejoined.induct with
  | case1 a b cs hpair ih =>
      obtain ⟨hhigh, hlow⟩ := (Bool.and_eq_true _ _).mp hpair
      have hfirst := escapeChar_of_surrogate (c := a) (by
        simp only [Text.isHighSurrogate, Bool.and_eq_true, decide_eq_true_eq] at hhigh
        omega)
      have hsecond := escapeChar_of_surrogate (c := b) (by
        simp only [Text.isLowSurrogate, Bool.and_eq_true, decide_eq_true_eq] at hlow
        omega)
      rw [rejoined, if_pos hpair, List.flatMap_cons, List.flatMap_cons, hfirst, hsecond,
        List.append_assoc, List.append_assoc, readString_pair hhigh hlow (hclosed cs), ih]
      rfl
  | case2 a b cs hpair ih =>
      rw [rejoined, if_neg hpair, List.flatMap_cons, List.append_assoc,
        readString_escapeChar a (hclosed _), ih]
      · rfl
      · intro hhigh
        rw [List.flatMap_cons, List.append_assoc]
        refine endsUnit_escapeChar ?_ (hclosed cs)
        simpa [hhigh] using hpair
  | case3 cs hshort =>
      match cs, hshort with
      | [], _ => rfl
      | [a], _ =>
          rw [List.flatMap_cons, List.append_assoc, readString_escapeChar a (hclosed [])]
          · rfl
          · exact fun _ => .inl rfl
      | a :: b :: cs, hshort => exact (hshort a b cs rfl).elim

theorem toList_quote (s : String) :
    (quote s).toList = '"' :: (s.toList.flatMap escapeChar ++ ['"']) := by
  rw [quote, String.toList_ofList]
  rfl

/-! ## What is written -/

/-- The character is printable ASCII. -/
def IsPlain (c : Char) : Prop := 0x20 ≤ c.toNat ∧ c.toNat < 0x7F

instance (c : Char) : Decidable (IsPlain c) := inferInstanceAs (Decidable (_ ∧ _))

theorem isPlain_digitChar {d : Nat} (h : d < 16) : IsPlain d.digitChar := by
  interval_cases d <;> decide

theorem isPlain_of_mem_unitEscape {c : Char} (h : c ∈ unitEscape n) : IsPlain c := by
  rcases List.mem_cons.mp h with rfl | h
  · decide
  · rcases List.mem_cons.mp h with rfl | h
    · decide
    · obtain ⟨i, -, rfl⟩ := List.mem_map.mp h
      exact isPlain_digitChar (Nat.mod_lt _ (by omega))

theorem isPlain_of_mem_escapeChar {c d : Char} (h : d ∈ escapeChar c) : IsPlain d := by
  have hletter {e : Char} (he : IsPlain e) (h : d ∈ ['\\', e]) : IsPlain d := by
    rcases List.mem_cons.mp h with rfl | h
    · decide
    · obtain rfl := List.mem_singleton.mp h
      exact he
  unfold escapeChar at h
  iterate 7
    split at h
    · exact hletter (by decide) h
  split at h
  · rename_i hprintable
    obtain rfl := List.mem_singleton.mp h
    exact hprintable
  split at h
  · exact isPlain_of_mem_unitEscape h
  · exact (List.mem_append.mp h).elim isPlain_of_mem_unitEscape isPlain_of_mem_unitEscape

/-- **A quoted text is printable ASCII.** -/
theorem isPlain_of_mem_quote {s : String} {c : Char} (h : c ∈ (quote s).toList) : IsPlain c := by
  have hmark : IsPlain '"' := by decide
  rw [toList_quote] at h
  rcases List.mem_cons.mp h with rfl | h
  · exact hmark
  · rcases List.mem_append.mp h with h | h
    · obtain ⟨d, -, hd⟩ := List.mem_flatMap.mp h
      exact isPlain_of_mem_escapeChar hd
    · obtain rfl := List.mem_singleton.mp h
      exact hmark

end LooseData.Json
