import LooseData.Text.Ranges

set_option autoImplicit false

/-! # Columns

How many columns of a screen a text takes: most characters take one, the characters of East Asian
scripts and pictures two, and marks that are put over other characters none.
-/

namespace LooseData.Text

/-- The code points of characters that take two columns. -/
def wideRanges : List (Nat × Nat) :=
  [(0x1100, 0x115f), (0x231a, 0x231b), (0x23e9, 0x23ec), (0x2614, 0x2615), (0x2648, 0x2653),
    (0x26bd, 0x26be), (0x2705, 0x2705), (0x270a, 0x270b), (0x2728, 0x2728), (0x274c, 0x274c),
    (0x2753, 0x2755), (0x2795, 0x2797), (0x2b1b, 0x2b1c), (0x2e80, 0x303e), (0x3041, 0xa4cf),
    (0xa960, 0xa97c), (0xac00, 0xd7a3), (0xf900, 0xfaff), (0xfe30, 0xfe6f), (0xff00, 0xff60),
    (0xffe0, 0xffe6), (0x1f300, 0x1f320), (0x1f32d, 0x1f335), (0x1f337, 0x1f37c),
    (0x1f37e, 0x1f393), (0x1f3a0, 0x1f3ca), (0x1f3e0, 0x1f3f0), (0x1f400, 0x1f43e),
    (0x1f442, 0x1f4fc), (0x1f4ff, 0x1f53d), (0x1f5fb, 0x1f64f), (0x1f680, 0x1f6c5),
    (0x1f90c, 0x1f9ff), (0x20000, 0x3fffd)]

/-- The code points of marks that are put over other characters. -/
def markRanges : List (Nat × Nat) := [(0x300, 0x36f), (0x1ab0, 0x1aff), (0x20d0, 0x20f0)]

/-- How many columns a character takes. -/
def columnsOf (c : Char) : Nat :=
  if within markRanges c.toNat then 0 else if within wideRanges c.toNat then 2 else 1

/-- How many columns a text takes. -/
def columns (s : String) : Nat := s.toList.foldl (fun n c => n + columnsOf c) 0

end LooseData.Text
