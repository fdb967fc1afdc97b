import LooseData.Number.Double

set_option autoImplicit false

/-! # Decimal numbers and doubles

A decimal is a natural number of digits times a power of ten. `Decimal.toDouble` gives the
nearest double. `Decimal.ofMagnitude` gives the shortest decimal that reads back to a
magnitude: the fewest digits for which one of the two neighbours on the decimal grid rounds
to it, and of two such neighbours the nearer one, a tie going to the even digit.
-/

namespace LooseData

/-- The number `digits * 10 ^ exponent`. -/
structure Decimal where
  digits : Nat
  exponent : Int
deriving DecidableEq

namespace Decimal

/-- How many decimal digits a natural number has; zero has none. -/
def digitCount (n : Nat) : Nat := if n = 0 then 0 else (Nat.toDigits 10 n).length

/-- The decimal as a ratio of natural numbers. -/
def ratio (d : Decimal) : Nat × Nat :=
  (d.digits * Nat.pow 10 d.exponent.toNat, Nat.pow 10 (-d.exponent).toNat)

/-- The double nearest to a decimal with the given sign. Decimals from `10 ^ 310` on are
infinite and those below `10 ^ -330` are zero, which spares huge powers of ten. -/
def toDouble (negative : Bool) (d : Decimal) : Double :=
  let top : Int := d.exponent + digitCount d.digits
  if d.digits = 0 ∨ top < -330 then Double.ofRatio negative 0 1
  else if 310 < top then .infinite negative
  else Double.ofRatio negative d.ratio.1 d.ratio.2

/-- The least `k` with `num / den < 10 ^ k`, sought upwards from `k`. -/
def decadeFrom (num den : Nat) : Nat → Int → Int
  | 0, k => k
  | fuel + 1, k =>
    if num * Nat.pow 10 (-k).toNat < den * Nat.pow 10 k.toNat then k
    else decadeFrom num den fuel (k + 1)

/-- The least `k` with `num / den < 10 ^ k` for a ratio that is neither zero nor too large for
a finite double. The search starts at a power of ten below the ratio, found from the binary
logarithms. -/
def decade (num den : Nat) : Int :=
  let bits : Int := (Nat.log2 num : Int) - (Nat.log2 den : Int) - 1
  decadeFrom num den 4 (bits * 30103 / 100000)

/-- The neighbours of `num / den` on the grid `10 ^ exponent`, the nearer one first. -/
def neighbours (num den : Nat) (exponent : Int) : List Decimal :=
  let scaled := num * Nat.pow 10 (-exponent).toNat
  let step := den * Nat.pow 10 exponent.toNat
  let below := scaled / step
  let twice := 2 * (scaled % step)
  let low : Decimal := ⟨below, exponent⟩
  let high : Decimal := ⟨below + 1, exponent⟩
  if twice < step ∨ (twice = step ∧ below % 2 = 0) then [low, high] else [high, low]

/-- Whether a decimal rounds to the magnitude of the given rank. -/
def readsBackTo (rank : Nat) (d : Decimal) : Bool :=
  Double.nearestRank d.ratio.1 d.ratio.2 == rank

/-- The decimal without the zeros at the end of its digits. -/
def stripZeros : Nat → Decimal → Decimal
  | 0, d => d
  | fuel + 1, d =>
    if d.digits % 10 = 0 then stripZeros fuel ⟨d.digits / 10, d.exponent + 1⟩ else d

/-- The exact decimal value of a number of units. -/
def exactUnits (u : Nat) : Decimal := ⟨u * Nat.pow 5 1074, -1074⟩

/-- The shortest decimal that reads back to the magnitude of a rank that is not zero. At most
seventeen digits are tried; the exact value stands behind them. -/
def ofMagnitude (rank : Nat) : Decimal :=
  let u := Double.unitsOfRank rank
  let top := decade u Double.unitsPerOne
  let found := (List.range 17).findSome? fun (i : Nat) =>
    (neighbours u Double.unitsPerOne (top - 1 - (i : Int))).find? (readsBackTo rank)
  let chosen := found.getD (exactUnits u)
  stripZeros (digitCount chosen.digits) chosen

end Decimal

end LooseData
