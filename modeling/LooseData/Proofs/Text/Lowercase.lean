import LooseData.Text.Lowercase
import LooseData.Text.Word

set_option autoImplicit false

/-! # Lower case in ASCII

In ASCII a text gets its lower case character by character, and what is outside stays outside.
-/

namespace LooseData.Text

variable {c : Char}

theorem lowerChar_of_ascii (h : c.toNat < 128) : lowerChar c = c.toLower := by
  have hall : ∀ n < 128, lowerChar (Char.ofNat n) = (Char.ofNat n).toLower := by decide
  simpa using hall c.toNat h

/-- Outside ASCII nothing is changed into a character inside. -/
theorem ascii_of_toLower (h : c.toLower.toNat < 128) : c.toNat < 128 := by
  unfold Char.toLower at h
  split at h
  · rename_i hupper
    have hle : c.toNat ≤ 90 := hupper.2
    omega
  · exact h

/-- **The lower case of an ASCII text** is that of its characters, one by one. -/
theorem lower_of_ascii {s : String} (h : ∀ c ∈ s.toList, c.toNat < 128) :
    lower s = String.ofList (s.toList.map Char.toLower) := by
  have hafter (before cs : List Char) (h : ∀ c ∈ cs, c.toNat < 128) :
      lowerAfter before cs = cs.map Char.toLower := by
    induction cs generalizing before with
    | nil => rfl
    | cons c cs ih =>
        rw [List.forall_mem_cons] at h
        have hsigma : c ≠ '\u03a3' := by
          rintro rfl
          exact absurd h.1 (by decide)
        have hdotted : c ≠ '\u0130' := by
          rintro rfl
          exact absurd h.1 (by decide)
        rw [lowerAfter, if_neg hsigma, if_neg hdotted, ih _ h.2, lowerChar_of_ascii h.1]
        rfl
  rw [lower, hafter [] s.toList h]

theorem ascii_of_isAsciiWord (h : isAsciiWord c = true) : c.toNat < 128 := by
  simp only [isAsciiWord, Bool.or_eq_true, Bool.and_eq_true, decide_eq_true_eq, beq_iff_eq,
    Char.le_def, UInt32.le_iff_toNat_le] at h
  rcases h with ((⟨-, h⟩ | ⟨-, h⟩) | ⟨-, h⟩) | rfl
  · exact Nat.lt_of_le_of_lt h (by decide)
  · exact Nat.lt_of_le_of_lt h (by decide)
  · exact Nat.lt_of_le_of_lt h (by decide)
  · decide

theorem isAsciiWord_toLower (h : c.toNat < 128) : isAsciiWord c.toLower = isAsciiWord c := by
  have hall : ∀ n < 128, isAsciiWord (Char.ofNat n).toLower = isAsciiWord (Char.ofNat n) := by
    decide
  simpa using hall c.toNat h

end LooseData.Text
