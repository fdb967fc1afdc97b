import LooseData.Proofs.Data
import LooseData.Proofs.Number.Attempts

set_option autoImplicit false

/-! # Numerals are what is read as numbers

What is left of the attempts to read a text as a number are the four readers of numerals, one after
another (`ofTrimmed_eq_firstRead`). So the texts that are read as a NaN are those that are no numeral
(`isNaN_ofTrimmed_iff`), and the whole numbers are those that the digits stand for.
-/

namespace LooseData.Numeral

variable {cs sign digits : List Char} {negative : Bool} {ds : List Nat} {base : Nat} {c : Char}

/-- **What is read between blanks**: a numeral, or else a NaN. -/
theorem isNaN_ofTrimmed_iff (cs : List Char) :
    (∃ mark, ofTrimmed cs = .double (.nan mark)) ↔ ¬ IsNumeral cs := by
  have hinteger (i : Int) : ¬ ∃ mark, Value.int i = .double (.nan mark) := by
    rintro ⟨mark, heq⟩
    cases heq
  have hdouble {x : Double} (hx : x.isNaN = false) :
      ¬ ∃ mark, Value.double x = .double (.nan mark) := by
    rintro ⟨mark, heq⟩
    obtain rfl : x = .nan mark := Atom.double.inj (Value.atom.inj heq)
    cases hx
  rw [isNumeral_iff, ofTrimmed_eq_firstRead]
  unfold firstRead
  -- The first reader that accepts the text decides, and none of them gives a NaN.
  cases hi : integer? cs with
  | some i => exact iff_of_false (hinteger i) (not_not.mpr (.inl ⟨i, rfl⟩))
  | none =>
      cases hn : prefixed? cs with
      | some n => exact iff_of_false (hinteger n) (not_not.mpr (.inr (.inl ⟨n, rfl⟩)))
      | none =>
          cases hx : infinity? cs with
          | some x =>
              obtain ⟨-, negative, -, -, rfl⟩ := infinity?_eq_some_iff.mp hx
              exact iff_of_false (hdouble rfl) (not_not.mpr (.inr (.inr (.inl ⟨_, rfl⟩))))
          | none =>
              cases hd : decimal? cs with
              | some x =>
                  exact iff_of_false (hdouble (isNaN_of_decimal? hd))
                    (not_not.mpr (.inr (.inr (.inr ⟨x, rfl⟩))))
              | none =>
                  refine iff_of_true ⟨0, rfl⟩ ?_
                  rintro (⟨_, h⟩ | ⟨_, h⟩ | ⟨_, h⟩ | ⟨_, h⟩) <;> cases h

/-- Digits with an optional sign are read as the whole number that they stand for, unless they are
too many. -/
theorem ofTrimmed_integer (hsign : IsSign sign negative) (hdigits : IsDigits 10 digits ds)
    (hlength : digits.length ≤ maxNumeralDigits) :
    ofTrimmed (sign ++ digits) = .int (withSign negative (value 10 ds)) := by
  have h : integer? (sign ++ digits) = some (withSign negative (value 10 ds)) :=
    integer?_eq_some_iff.mpr ⟨sign, negative, digits, ds, hsign, hdigits, rfl, hlength, rfl⟩
  rw [ofTrimmed_eq_firstRead, firstRead, h]

/-- Digits behind a mark for their base are read as the whole number that they stand for. -/
theorem ofTrimmed_based (hbase : IsBase c base) (hdigits : IsDigits base digits ds) :
    ofTrimmed ('0' :: c :: digits) = .int (value base ds) := by
  have hinteger : integer? ('0' :: c :: digits) = none := by
    rw [Option.eq_none_iff_forall_ne_some]
    intro i hi
    -- The mark is not a digit.
    obtain ⟨⟨-, hall, -⟩, -⟩ := integer?_eq_some_iff_signed.mp hi
    have hmark : c.isDigit = true := hall c (List.mem_cons_of_mem _ List.mem_cons_self)
    cases hbase with
    | hexadecimal h => rcases h with rfl | rfl <;> cases hmark
    | octal h => rcases h with rfl | rfl <;> cases hmark
    | binary h => rcases h with rfl | rfl <;> cases hmark
  have hbased : prefixed? ('0' :: c :: digits) = some (value base ds) :=
    prefixed?_eq_some_iff.mpr ⟨c, base, digits, ds, hbase, hdigits, rfl, rfl⟩
  rw [ofTrimmed_eq_firstRead, firstRead, hinteger, hbased]

end LooseData.Numeral

namespace LooseData

open Numeral

/-- **Texts count as the numbers that they spell.** A text is read between its blanks. It counts as
zero if there is nothing, as a NaN exactly if that is no numeral, and as a whole number or another
double otherwise. Digits with an optional sign, not too many of them, and digits behind a mark for
their base count as the very number that they stand for. -/
theorem toNumber_text (s : String) :
    ((∃ i, (Value.text s).toNumber = .int i) ∨ ∃ x, (Value.text s).toNumber = .double x) ∧
    (Text.trim s.toList = [] → (Value.text s).toNumber = .int 0) ∧
    (Text.trim s.toList ≠ [] →
      ((∃ mark, (Value.text s).toNumber = .double (.nan mark)) ↔
        ¬ IsNumeral (Text.trim s.toList))) ∧
    (∀ sign negative digits ds, IsSign sign negative → IsDigits 10 digits ds →
      Text.trim s.toList = sign ++ digits → digits.length ≤ 4300 →
      (Value.text s).toNumber = .int (withSign negative (value 10 ds))) ∧
    ∀ mark base digits ds, IsBase mark base → IsDigits base digits ds →
      Text.trim s.toList = '0' :: mark :: digits →
      (Value.text s).toNumber = .int (value base ds) := by
  have hread : (Value.text s).toNumber = if (Text.trim s.toList).isEmpty then .int 0
      else ofTrimmed (Text.trim s.toList) := rfl
  have hnumeral (hne : Text.trim s.toList ≠ []) :
      (Value.text s).toNumber = ofTrimmed (Text.trim s.toList) := by
    rw [hread, if_neg (by simpa using hne)]
  refine ⟨Value.toNumber_eq _, ?_, ?_, ?_, ?_⟩
  · intro hnil
    rw [hread, hnil]
    rfl
  · intro hne
    rw [hnumeral hne]
    exact isNaN_ofTrimmed_iff _
  · intro sign negative digits ds hsign hdigits htrim hlength
    have hne : Text.trim s.toList ≠ [] := by
      rw [htrim]
      exact List.append_ne_nil_of_right_ne_nil _ hdigits.ne_nil
    rw [hnumeral hne, htrim]
    exact ofTrimmed_integer hsign hdigits hlength
  · intro mark base digits ds hbase hdigits htrim
    have hne : Text.trim s.toList ≠ [] := by
      rw [htrim]
      exact List.cons_ne_nil _ _
    rw [hnumeral hne, htrim]
    exact ofTrimmed_based hbase hdigits

/-- Digits with a sign between blanks, digits of the base sixteen, a blank text, and one that is no
numeral because its digits are separated. -/
theorem toNumber_text_samples :
    (Value.text "\t-0042 ").toNumber = .int (-42) ∧ (Value.text "0Xff").toNumber = .int 255 ∧
      (Value.text " \n").toNumber = .int 0 ∧
      (∃ mark, (Value.text "1_0").toNumber = .double (.nan mark)) ∧ ¬ IsNumeral "1_0".toList := by
  have hdecimal : IsDigits 10 ['0', '0', '4', '2'] [0, 0, 4, 2] :=
    ⟨nofun, by decide,
      .cons (.inl rfl) (.cons (.inl rfl) (.cons (.inl rfl) (.cons (.inl rfl) .nil)))⟩
  have hhexadecimal : IsDigits 16 ['f', 'f'] [15, 15] :=
    ⟨nofun, by decide, .cons (.inl rfl) (.cons (.inl rfl) .nil)⟩
  obtain ⟨-, -, -, hsigned, -⟩ := toNumber_text "\t-0042 "
  obtain ⟨-, -, -, -, hbased⟩ := toNumber_text "0Xff"
  obtain ⟨-, hblank, -⟩ := toNumber_text " \n"
  obtain ⟨-, -, hnan, -⟩ := toNumber_text "1_0"
  have hmark : ∃ mark, (Value.text "1_0").toNumber = .double (.nan mark) := ⟨0, rfl⟩
  exact ⟨hsigned ['-'] true _ _ .minus hdecimal (by decide) (by decide),
    hbased 'X' 16 _ _ (.hexadecimal (.inr rfl)) hhexadecimal (by decide), hblank (by decide), hmark,
    (hnan (by decide)).mp hmark⟩

end LooseData
