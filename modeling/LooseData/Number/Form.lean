import LooseData.Number.Decimal

set_option autoImplicit false

/-! # How doubles are written

A double is written with the fewest digits that read back to it. Between `10 ^ -4` and
`10 ^ 16` the notation is positional and keeps at least one digit after the point; outside
that range it is scientific, with a signed exponent of at least two digits.
-/

namespace LooseData

/-- The choices of a written form for numbers. -/
structure NumberForm where
  /-- The least exponent of the leading digit that is written positionally. -/
  plainFrom : Int
  /-- The least exponent from which the scientific form is used again. -/
  plainBelow : Int
  /-- The least number of digits of an exponent. -/
  exponentWidth : Nat
  /-- The texts of the values that are no finite numbers. -/
  nan : String
  infinity : String

namespace NumberForm

/-- The form used for display. -/
def display : NumberForm where
  plainFrom := -4
  plainBelow := 16
  exponentWidth := 2
  nan := "nan"
  infinity := "inf"

/-- The form used in JSON texts, which differs from the display in the special values only. -/
def json : NumberForm :=
  { display with nan := "NaN", infinity := "Infinity" }

/-- Digits in scientific form: a point after the first digit if more follow. -/
def scientific (n : NumberForm) (digits : List Char) (exponent : Int) : List Char :=
  let mantissa := match digits with
    | [] => ['0']
    | [d] => [d]
    | d :: rest => d :: '.' :: rest
  let power := (toString exponent.natAbs).toList
  let padding := List.replicate (n.exponentWidth - power.length) '0'
  mantissa ++ ['e', if exponent < 0 then '-' else '+'] ++ padding ++ power

/-- Digits in positional form, the leading one standing for `10 ^ exponent`. -/
def positional (digits : List Char) (exponent : Int) : List Char :=
  if exponent < 0 then
    '0' :: '.' :: (List.replicate ((-exponent).toNat - 1) '0' ++ digits)
  else
    let whole := exponent.toNat + 1
    let padded := digits ++ List.replicate (whole - digits.length) '0'
    let fraction := padded.drop whole
    padded.take whole ++ '.' :: (if fraction.isEmpty then ['0'] else fraction)

/-- A finite magnitude in this form. -/
def magnitude (n : NumberForm) (rank : Nat) : List Char :=
  if rank = 0 then ['0', '.', '0']
  else
    let d := Decimal.ofMagnitude rank
    let digits := Nat.toDigits 10 d.digits
    let exponent : Int := d.exponent + (digits.length - 1 : Nat)
    if n.plainFrom ≤ exponent ∧ exponent < n.plainBelow then positional digits exponent
    else n.scientific digits exponent

/-- A double in this form. -/
def write (n : NumberForm) : Double → String
  | .finite negative rank => String.ofList ((if negative then ['-'] else []) ++ n.magnitude rank)
  | .infinite negative => (if negative then "-" else "") ++ n.infinity
  | .nan _ => n.nan

end NumberForm

end LooseData
