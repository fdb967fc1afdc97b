set_option autoImplicit false

/-! # Surrogates

A code point beyond the code units of two bytes is given by a pair of surrogates. A surrogate
without a partner is no character. A text that holds one has another character in its place, one of
the last that are left to private use.
-/

namespace LooseData.Text

/-- Whether a code unit is the first of a pair of surrogates. -/
def isHighSurrogate (n : Nat) : Bool := 0xD800 ≤ n && n < 0xDC00

/-- Whether a code unit is the second of a pair of surrogates. -/
def isLowSurrogate (n : Nat) : Bool := 0xDC00 ≤ n && n < 0xE000

/-- The code point of a pair of surrogates. -/
def joinSurrogates (high low : Nat) : Nat := 0x10000 + (high - 0xD800) * 0x400 + (low - 0xDC00)

/-- The first of the characters that stand in for surrogates. -/
def firstStandIn : Nat := 0x10F800

/-- The character that stands in for a surrogate. -/
def standIn (n : Nat) : Char := Char.ofNat (firstStandIn + n % 0x800)

/-- The code point of a character. That of a stand-in is the surrogate. -/
def code (c : Char) : Nat :=
  if firstStandIn ≤ c.toNat then 0xD800 + (c.toNat - firstStandIn) else c.toNat

/-- The character of a code point, or the stand-in for a surrogate. -/
def charAt (n : Nat) : Char :=
  if n < 0xD800 ∨ 0xDFFF < n then Char.ofNat n else standIn n

/-- The character of a number, if this is a code point. -/
def charOf? (n : Nat) : Option Char := if n < 0x110000 then some (charAt n) else none

end LooseData.Text
