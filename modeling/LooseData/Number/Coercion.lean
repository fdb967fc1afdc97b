import LooseData.Json.Reader
import LooseData.Text.Blank
import LooseData.Text.Lowercase

set_option autoImplicit false

/-! # Numbers from loosely typed values

`Value.toNumber` reads any value as a number, the way a loosely typed language would. A text is
a number if it is, between blanks, a numeral with an optional sign, a literal with one of the
prefixes `0x`, `0o` and `0b`, a decimal with an optional exponent, or the word `Infinity`.
Nothing and blank texts count as zero, and everything else is a NaN.

`Value.roundHalfUp` rounds to the nearest whole number, halves upwards.
-/

namespace LooseData

namespace Double

/-- The one NaN that coercion results in. -/
def coercionNaN : Double := .nan 0

/-- The rank of one half. -/
def halfRank : Nat := 1022 * Nat.pow 2 52

/-- Whether a number of units below one, rounded to the nearest double, is at least one half. -/
def atLeastHalf (u : Nat) : Bool := decide (halfRank ≤ nearestRank u unitsPerOne)

/-- The whole number nearest to a number of units, a half going upwards. -/
def roundUnits (u : Int) : Int :=
  let floor := floorUnits u
  if atLeastHalf (u - floor * unitsPerOne).toNat then floor + 1 else floor

end Double

/-! ## Texts as numbers -/

namespace Numeral

/-- A sign at the start, told by whether it is a minus, and the text after it. -/
def signed : List Char → Bool × List Char
  | '-' :: cs => (true, cs)
  | '+' :: cs => (false, cs)
  | cs => (false, cs)

/-- The whole number of a magnitude with a sign. -/
def withSign (negative : Bool) (n : Nat) : Int := if negative then -(n : Int) else n

/-- A text without the low lines that separate its digits. Each of them has to stand between two
digits; `behind` tells whether a digit stands in front of the text. -/
def unseparated? (isDigit : Char → Bool) : (behind : Bool) → List Char → Option (List Char)
  | _, [] => some []
  | behind, c :: cs =>
    if c = '_' then
      if behind && cs.head?.any isDigit then unseparated? isDigit false cs else none
    else (unseparated? isDigit (isDigit c) cs).map (c :: ·)

/-- The whole number of a numeral with an optional sign and at most `maxNumeralDigits`
digits. -/
def integer? (cs : List Char) : Option Int :=
  let (negative, digits) := signed cs
  if digits.isEmpty || !digits.all Char.isDigit || maxNumeralDigits < digits.length then none
  else some (withSign negative (numeralValue digits))

/-- The whole number of a numeral whose digits may be separated. -/
def wholeNumber? (cs : List Char) : Option Int :=
  (unseparated? Char.isDigit false cs).bind integer?

/-- The base that the letter after a leading zero stands for. -/
def base? (c : Char) : Option Nat :=
  if c = 'x' ∨ c = 'X' then some 16
  else if c = 'o' ∨ c = 'O' then some 8
  else if c = 'b' ∨ c = 'B' then some 2
  else none

/-- The number of digits in a base, if they all belong to the base and there are some. -/
def digitsInBase? (base : Nat) (cs : List Char) : Option Nat :=
  if cs.isEmpty then none
  else cs.foldlM (fun n c => do
    let d ← Json.hexValue? c
    if d < base then pure (n * base + d) else none) 0

/-- The number of digits behind the letter for their base. They may be separated, from the letter
as well. -/
def behindBase? (base : Nat) (cs : List Char) : Option Nat :=
  let digits := match cs with
    | '_' :: cs => cs
    | cs => cs
  (unseparated? (fun c => (Json.hexValue? c).any (· < base)) false digits).bind (digitsInBase? base)

/-- The whole number of a literal with an optional sign. It tells its base, or it is a numeral, and
then only zero starts with a zero. -/
def literal? (cs : List Char) : Option Int :=
  let (negative, magnitude) := signed cs
  match magnitude with
  | '0' :: c :: digits => match base? c with
    | some base => (behindBase? base digits).map (withSign negative)
    | none => (wholeNumber? cs).filter (· = 0)
  | _ => wholeNumber? cs

/-- Whether a text is a literal that tells its base, whatever hexadecimal digits it has. -/
def tellsBase : List Char → Bool
  | '0' :: c :: digits =>
    (base? c).isSome && !digits.isEmpty && digits.all fun d => (Json.hexValue? d).isSome
  | _ => false

/-- The digits before a point and after it. A point needs a digit on one side. -/
def mantissa? (cs : List Char) : Option ((List Char × List Char) × List Char) :=
  let (whole, ahead) := Json.digitsOf cs
  let (fraction, ahead) := match ahead with
    | '.' :: cs => Json.digitsOf cs
    | cs => ([], cs)
  if whole.isEmpty && fraction.isEmpty then none else some ((whole, fraction), ahead)

/-- The double of a decimal with an optional sign and an optional exponent. -/
def decimal? (cs : List Char) : Option Double := do
  let (negative, cs) := signed cs
  let ((whole, fraction), ahead) ← mantissa? cs
  let (exponent, ahead) := (Json.exponent? ahead).getD (0, ahead)
  if ahead.isEmpty then
    some (Decimal.toDouble negative
      ⟨numeralValue (whole ++ fraction), exponent - fraction.length⟩)
  else none

/-- The double of a text: that of one of the names of infinities and NaNs, in any letter case and
with an optional sign, or that of a decimal whose digits may be separated. -/
def float? (cs : List Char) : Option Double := do
  let cs ← unseparated? Char.isDigit false cs
  let (negative, name) := signed cs
  let name := Text.lower (String.ofList name)
  if name = "inf" ∨ name = "infinity" then some (.infinite negative)
  else if name = "nan" then some (.nan 0)
  else decimal? cs

/-- Whether a text, apart from the signs at its start, is one of the names of infinities and NaNs
that do not count as numbers. `Infinity` does, in this letter case. -/
def isDisregarded (cs : List Char) : Bool :=
  let name := String.ofList (cs.dropWhile fun c => c == '+' || c == '-')
  ["inf", "infinity", "nan"].contains (Text.lower name) && name != "Infinity"

/-- The number of a text between blanks: a whole number, a literal that tells its base, or else a
double. Separated digits are refused. -/
def ofTrimmed (cs : List Char) : Value :=
  let isSeparated := cs.contains '_'
  if !cs.all fun c => c.toNat < 128 then .double Double.coercionNaN
  else match (if isSeparated then none else wholeNumber? cs) with
    | some i => .int i
    | none =>
      if tellsBase cs then ((literal? cs).map Value.int).getD (.double Double.coercionNaN)
      else if isSeparated || isDisregarded cs then .double Double.coercionNaN
      else .double ((float? cs).getD Double.coercionNaN)

end Numeral

namespace Value

/-- The number that a value counts as. -/
def toNumber : Value → Value
  | .atom .null => .int 0
  | .atom (.bool b) => .int (if b then 1 else 0)
  | .atom (.int i) => .int i
  | .atom (.double d) => .double d
  | .atom (.text s) =>
    let cs := Text.trim s.toList
    if cs.isEmpty then .int 0 else Numeral.ofTrimmed cs
  | _ => .double Double.coercionNaN

/-- The nearest whole number of a number, halves going upwards. Whole numbers and booleans stay
as they are, and so do infinities and NaNs. -/
def roundHalfUp : Value → Except Fault Value
  | .atom (.double (.finite negative rank)) =>
    .ok (.int (Double.roundUnits (Double.units negative rank)))
  | .atom (.double d) => .ok (.double d)
  | .atom (.int i) => .ok (.int i)
  | .atom (.bool b) => .ok (.bool b)
  | _ => .error .notANumber

end Value

end LooseData
