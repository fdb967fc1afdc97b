import LooseData.Text.Printable
import LooseData.Text.Surrogate

set_option autoImplicit false

/-! # Quoted text

The quoted form of texts and byte strings, as shown in messages and in the display of
values. A single quote encloses the text unless the text contains a single quote and no
double quote. Backslashes, the enclosing quote, line controls and everything that is not
printable are escaped.
-/

namespace LooseData.Text

/-- The last `width` hexadecimal digits of `n`, in small letters. -/
def hexDigits (width n : Nat) : List Char :=
  (List.range width).map fun i => Nat.digitChar (n / Nat.pow 16 (width - 1 - i) % 16)

/-- The quote that encloses a text with these characters. -/
def enclosingQuote (cs : List Char) : Char :=
  if cs.contains '\'' && !cs.contains '"' then '"' else '\''

/-- The escape for a character that is not printable: two, four or eight hexadecimal digits,
whichever suffice first. -/
def escapeCode (n : Nat) : List Char :=
  if n < 0x100 then '\\' :: 'x' :: hexDigits 2 n
  else if n < 0x10000 then '\\' :: 'u' :: hexDigits 4 n
  else '\\' :: 'U' :: hexDigits 8 n

/-- One character of a text enclosed in `quote`. -/
def escapeChar (quote c : Char) : List Char :=
  if c = quote ∨ c = '\\' then ['\\', c]
  else if c = '\n' then ['\\', 'n']
  else if c = '\r' then ['\\', 'r']
  else if c = '\t' then ['\\', 't']
  else if isPrintable c then [c]
  else escapeCode (code c)

/-- The quoted form of a list of characters. -/
def quoteChars (cs : List Char) : List Char :=
  let quote := enclosingQuote cs
  quote :: (cs.flatMap (escapeChar quote) ++ [quote])

/-- The quoted form of a text. -/
def quote (s : String) : String := String.ofList (quoteChars s.toList)

/-- One byte of a byte string enclosed in `quote`. Bytes beyond ASCII are escaped. -/
def escapeByte (quote : Char) (b : UInt8) : List Char :=
  if b < 0x7f then escapeChar quote (Char.ofNat b.toNat) else escapeCode b.toNat

/-- The quoted form of a byte string, marked by a leading `b`. -/
def quoteBytes (bytes : List UInt8) : String :=
  let quote := enclosingQuote (bytes.map fun b => Char.ofNat b.toNat)
  String.ofList ('b' :: quote :: (bytes.flatMap (escapeByte quote) ++ [quote]))

/-- The quoted form of the bytes of a buffer that can change. A single quote is escaped here even
between double quotes. -/
def quoteBuffer (bytes : List UInt8) : String :=
  let quote := enclosingQuote (bytes.map fun b => Char.ofNat b.toNat)
  String.ofList ('b' :: quote :: (bytes.flatMap (escapeByte '\'') ++ [quote]))

end LooseData.Text
