import LooseData.Text.Ranges

set_option autoImplicit false

/-! # Blank characters

White space in the sense used for trimming and for separating path tokens: the controls
U+0009 to U+000D and U+001C to U+001F, the space, U+0085 and the Unicode spaces.
-/

namespace LooseData.Text

/-- The code points of blank characters. -/
def blankRanges : List (Nat × Nat) :=
  [(0x9, 0xd), (0x1c, 0x20), (0x85, 0x85), (0xa0, 0xa0), (0x1680, 0x1680), (0x2000, 0x200a),
    (0x2028, 0x2029), (0x202f, 0x202f), (0x205f, 0x205f), (0x3000, 0x3000)]

/-- Whether a character is white space. -/
def isBlank (c : Char) : Bool := within blankRanges c.toNat

/-- Whether a character is white space in the narrower sense, which leaves out the controls U+001C
to U+001F. -/
def isSpace (c : Char) : Bool := isBlank c && !within [(0x1c, 0x1f)] c.toNat

/-- The text without the characters at its start and at its end that `drops` holds of. -/
def trimBy (drops : Char → Bool) (cs : List Char) : List Char :=
  ((cs.dropWhile drops).reverse.dropWhile drops).reverse

/-- The text without its leading and trailing white space. -/
def trim (cs : List Char) : List Char := trimBy isBlank cs

end LooseData.Text
