import LooseData.Config.Problem
import LooseData.Layer.Index
import LooseData.Text.Blank
import LooseData.Text.Split

set_option autoImplicit false

/-! # Whole numbers in the texts of settings

A text stands for a whole number if it is a literal: a minus if it is negative, and digits
without needless zeros. A text that is none is tidied up and tried again: white space around it,
a plus, leading zeros, zeros after a point, and single low lines between digits do not count.
-/

namespace LooseData.Config

/-- Whether a character is a digit other than zero. -/
def isLeadingDigit (c : Char) : Bool := c.isDigit && c != '0'

/-- The whole number of a literal with at most `maxNumeralDigits` characters. -/
def literal? (cs : List Char) : Option Int :=
  let (negative, digits) := match cs with
    | '-' :: digits => (true, digits)
    | digits => (false, digits)
  let n : Int := numeralValue digits
  let isNumeral := match digits with
    | ['0'] => true
    | c :: rest => isLeadingDigit c && rest.all Char.isDigit
    | [] => false
  if isNumeral && cs.length ≤ maxNumeralDigits then some (if negative then -n else n) else none

/-- Whether a text starts with the literal of a whole number of more than `maxNumeralDigits`
characters. -/
def startsTooLong (cs : List Char) : Bool :=
  let digits := if cs.head? = some '-' then cs.drop 1 else cs
  digits.head?.any isLeadingDigit
    && maxNumeralDigits < cs.length - (digits.dropWhile Char.isDigit).length

/-! ## Tidying up -/

/-- The text without a plus, behind which no other sign may stand. -/
def withoutPlus? : List Char → Option (List Char)
  | '+' :: '-' :: _ => none
  | '+' :: cs => some cs
  | cs => some cs

/-- The text after zeros and low lines at its start. Where no digit follows, the last of them,
`last`, stays. -/
def afterZeros? (last : Char) : List Char → Option (List Char)
  | [] => some [last]
  | c :: cs =>
    if c = '0' ∨ c = '_' then afterZeros? c cs
    else if c = '.' then some (last :: c :: cs)
    else if c.isDigit ∨ c = '-' then some (c :: cs)
    else none

/-- The text without needless zeros at its start, which must be a digit or a minus. -/
def withoutZeros? : List Char → Option (List Char)
  | [] => none
  | c :: cs =>
    if c = '0' then afterZeros? c cs
    else if c.isDigit ∨ c = '-' then some (c :: cs)
    else none

/-- The text without a point and the zeros after it, of which there must be some. -/
def withoutFraction (cs : List Char) : List Char :=
  match cs.dropWhile (· ≠ '.') with
  | _ :: zero :: zeros =>
    if (zero :: zeros).all (· == '0') then cs.takeWhile (· ≠ '.') else cs
  | _ => cs

/-- The text without low lines, if each of them stands alone between other characters. -/
def withoutLowLines (cs : List Char) : List Char :=
  let groups := Text.splitBy (· == '_') cs
  if groups.all fun group => !group.isEmpty then groups.flatten else cs

/-- The text tidied up. -/
def tidied? (cs : List Char) : Option (List Char) := do
  let cs ← withoutPlus? (Text.trimBy Text.isSpace cs)
  let cs ← withoutZeros? cs
  pure (withoutLowLines (withoutFraction cs))

/-- The whole number that a text stands for. -/
def wholeOfText (s : String) : Except Complaint Int :=
  let cs := s.toList
  match literal? cs with
  | some i => .ok i
  | none =>
    if startsTooLong cs then .error .numberTooLong
    else match (tidied? cs).bind literal? with
      | some i => .ok i
      | none => .error .unreadableNumber

end LooseData.Config
