set_option autoImplicit false

/-! # Sets of characters given by ranges

A property of characters is stored as a list of inclusive code point ranges in ascending
order. `within` looks a code point up in such a list and stops at the first range that
begins beyond it.
-/

namespace LooseData.Text

/-- Whether the code point `n` lies in one of the ranges. The ranges are ascending, so the
search ends as soon as a range starts above `n`. -/
def within : List (Nat × Nat) → Nat → Bool
  | [], _ => false
  | (lo, hi) :: rest, n => if n < lo then false else decide (n ≤ hi) || within rest n

/-- A code point found in a list of ranges lies between the ends of one of them. -/
theorem exists_range_of_within {ranges : List (Nat × Nat)} {n : Nat}
    (h : within ranges n = true) : ∃ r ∈ ranges, r.1 ≤ n ∧ n ≤ r.2 := by
  induction ranges with
  | nil => simp [within] at h
  | cons r rest ih =>
    obtain ⟨lo, hi⟩ := r
    by_cases hlo : n < lo
    · simp [within, hlo] at h
    · by_cases hhi : n ≤ hi
      · exact ⟨(lo, hi), List.mem_cons_self, Nat.le_of_not_lt hlo, hhi⟩
      · have hrest : within rest n = true := by simpa [within, hlo, hhi] using h
        obtain ⟨r, hr, hle⟩ := ih hrest
        exact ⟨r, List.mem_cons_of_mem _ hr, hle⟩

end LooseData.Text
