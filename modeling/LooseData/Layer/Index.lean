import LooseData.Layer
import LooseData.Text.Digit

set_option autoImplicit false

/-! # Keys as indices

A key stands for a position in a sequence if it is a whole number from zero on or a text of
digits. A text may consist of digits and still have no value, because some digits, such as a
superscript two, are no decimal digits; reading it fails, and so does reading a very long one.
-/

namespace LooseData

/-- The number that decimal digits stand for, most significant digit first. -/
def numeralValue (digits : List Char) : Nat :=
  digits.foldl (fun n c => 10 * n + (Text.decimalValue? c).getD 0) 0

/-- The number that a text of digits stands for; no other text stands for one. -/
def numeral? (s : String) : Except Fault (Option Nat) :=
  let cs := s.toList
  if Text.isDigits cs then
    let leading := cs.takeWhile Text.isDecimal
    if maxNumeralDigits < leading.length then .error (.numeralTooLong leading.length)
    else if leading.length < cs.length then .error (.notDecimal s)
    else .ok (some (numeralValue cs))
  else .ok none

namespace Value

/-- The index that a value stands for. Booleans are no indices. -/
def index? : Value → Except Fault (Option Nat)
  | .atom (.int i) => .ok (if 0 ≤ i then some i.toNat else none)
  | .atom (.text s) => numeral? s
  | _ => .ok none

/-- The number that a value stands for as a key of a mapping if it is not itself a key there. -/
def numericKey? : Value → Except Fault (Option Nat)
  | .atom (.text s) => numeral? s
  | _ => .ok none

end Value

end LooseData
