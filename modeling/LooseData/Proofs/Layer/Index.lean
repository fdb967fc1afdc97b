import LooseData.Layer.Index
import LooseData.Proofs.Effect
import Mathlib.Data.List.Basic
import Mathlib.Data.List.TakeWhile

set_option autoImplicit false

/-! # Indices as texts

The keys of a list are its indices as texts, and a key that is a text of digits is read as an
index again. Reading gives back the index that was written (`numeral?_toString`), unless the text
has more digits than are read at all.
-/

namespace LooseData

open Edit

/-! ## Digits that are written for numbers -/

theorem isDecimal_of_isDigit {c : Char} (h : c.isDigit = true) : Text.isDecimal c = true := by
  obtain ⟨hlow, hhigh⟩ : 48 ≤ c.toNat ∧ c.toNat ≤ 57 := Char.isDigit_iff_toNat.mp h
  have hlow' : ¬ c.toNat < 48 := by omega
  simp [Text.isDecimal, Text.decimalRanges, Text.within, hlow', hhigh]

theorem decimalValue?_of_isDigit {c : Char} (h : c.isDigit = true) :
    Text.decimalValue? c = some (c.toNat - 48) := by
  obtain ⟨hlow, hhigh⟩ : 48 ≤ c.toNat ∧ c.toNat ≤ 57 := Char.isDigit_iff_toNat.mp h
  have hvalue : (c.toNat - 48) % 10 = c.toNat - 48 := by omega
  simp [Text.decimalValue?, Text.decimalRanges, hlow, hhigh, hvalue]

theorem toList_toString (i : Nat) : (toString i).toList = Nat.toDigits 10 i := by
  rw [Nat.toString_eq_repr, Nat.toList_repr]

theorem isDecimal_of_mem_toString {i : Nat} {c : Char} (h : c ∈ (toString i).toList) :
    Text.isDecimal c = true := by
  rw [toList_toString] at h
  exact isDecimal_of_isDigit (Nat.isDigit_of_mem_toDigits (by decide) (by decide) h)

theorem isDigits_toString (i : Nat) : Text.isDigits (toString i).toList = true := by
  rw [Text.isDigits, Bool.and_eq_true, List.all_eq_true]
  refine ⟨by simp, fun c hc => ?_⟩
  rw [Text.isDigit, isDecimal_of_mem_toString hc, Bool.true_or]

/-! ## Reading them -/

theorem numeralValue_eq_ofDigitChars {digits : List Char} (h : ∀ c ∈ digits, c.isDigit = true) :
    numeralValue digits = Nat.ofDigitChars 10 digits 0 := by
  unfold numeralValue Nat.ofDigitChars
  apply List.foldl_ext
  intro n c hc
  rw [decimalValue?_of_isDigit (h c hc)]
  rfl

@[simp] theorem numeralValue_toString (i : Nat) : numeralValue (toString i).toList = i := by
  rw [toList_toString, numeralValue_eq_ofDigitChars fun c hc =>
    Nat.isDigit_of_mem_toDigits (by decide) (by decide) hc, Nat.ofDigitChars_ten_toDigits]

theorem toString_injective : Function.Injective (toString : Nat → String) := by
  intro i j h
  rw [← numeralValue_toString i, h, numeralValue_toString]

/-- **An index is read as it was written**, unless it has too many digits to be read. -/
theorem numeral?_toString (i : Nat) :
    Yields (fun fault => ∃ n, fault = .numeralTooLong n) (numeral? (toString i)) (· = some i) := by
  have hleading : (toString i).toList.takeWhile Text.isDecimal = (toString i).toList :=
    List.takeWhile_eq_self_iff.mpr fun c hc => isDecimal_of_mem_toString hc
  unfold numeral?
  dsimp only
  rw [if_pos (isDigits_toString i), hleading]
  split
  · exact yields_error ⟨_, rfl⟩
  · rw [if_neg (Nat.lt_irrefl _)]
    exact yields_ok (congrArg some (numeralValue_toString i))

/-- A text that does not consist of digits is no numeral, and one that does has the value of its
digits, wherever it has one. -/
theorem yields_numeral? {s : String} :
    Yields (· ≠ .bottomless) (numeral? s) (· = if Text.isDigits s.toList then
      some (numeralValue s.toList) else none) := by
  unfold numeral?
  dsimp only
  split
  · split
    · exact yields_error nofun
    · split
      · exact yields_error nofun
      · exact yields_ok rfl
  · exact yields_ok rfl

/-- A text that cannot be read as a number has a digit that is not decimal, or too many digits. -/
theorem fault_of_numeral? {s : String} {fault : Fault} (h : numeral? s = .error fault) :
    fault = .notDecimal s ∨ ∃ digits, fault = .numeralTooLong digits := by
  unfold numeral? at h
  dsimp only at h
  split at h
  · split at h
    · exact .inr ⟨_, (Except.error.inj h).symm⟩
    · split at h
      · exact .inl (Except.error.inj h).symm
      · cases h
  · cases h

end LooseData
