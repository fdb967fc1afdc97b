set_option autoImplicit false

/-! # Double precision numbers

A finite number of the 64-bit binary format is a sign and a **rank**: its place among the
finite magnitudes, counted from zero. Ranks and magnitudes ascend together, and the rank of a
number is its bit pattern without the sign. The magnitude is a whole number of **units**, one
unit being `2 ^ -1074`, the least positive magnitude; comparisons and arithmetic are exact
computations on units.

`Double.ofRatio` rounds a ratio to the nearest magnitude, a tie going to the even rank.
-/

namespace LooseData

/-- The number of finite magnitudes. -/
def Double.rankCount : Nat := 2047 * Nat.pow 2 52

/-- A number of the 64-bit binary format. A NaN carries a mark that tells it apart from other
NaNs: no NaN equals a number, but a container still finds the very NaN that it holds. -/
inductive Double where
  | finite (negative : Bool) (rank : Fin Double.rankCount)
  | infinite (negative : Bool)
  | nan (mark : Nat)
deriving DecidableEq

namespace Double

/-- The quotient rounded to the nearest whole number, a tie going to the even one. -/
def roundQuotient (num den : Nat) : Nat :=
  let q := num / den
  let twice := 2 * (num % den)
  if twice < den then q else if den < twice then q + 1 else q + q % 2

/-- The magnitude of a rank, in units. Ranks below `2 ^ 52` are the subnormal numbers; above
them every `2 ^ 52` ranks the distance between neighbours doubles. -/
def unitsOfRank (rank : Nat) : Nat :=
  let span := Nat.pow 2 52
  if rank < span then rank else (rank % span + span) * Nat.pow 2 (rank / span - 1)

/-- The value of a finite number in units of `2 ^ -1074`. -/
def units (negative : Bool) (rank : Nat) : Int :=
  if negative then -(unitsOfRank rank : Int) else unitsOfRank rank

/-- The number zero without a sign. -/
def zero : Double := .finite false ⟨0, by decide⟩

/-- The number of units in one. -/
def unitsPerOne : Nat := Nat.pow 2 1074

/-- The rank nearest to the ratio `num / den`, as if ranks had no upper end. The whole part of
the ratio in units fixes the spacing of the ranks around it. -/
def nearestRank (num den : Nat) : Nat :=
  let scaled := num * unitsPerOne
  let spacing := Nat.log2 (scaled / den) - 52
  spacing * Nat.pow 2 52 + roundQuotient scaled (den * Nat.pow 2 spacing)

/-- The number nearest to `num / den` with the given sign, infinite when it is beyond the
finite ones. -/
def ofRatio (negative : Bool) (num den : Nat) : Double :=
  if h : nearestRank num den < rankCount then .finite negative ⟨nearestRank num den, h⟩
  else .infinite negative

/-- The number nearest to a whole number. -/
def ofInt (i : Int) : Double := ofRatio (decide (i < 0)) i.natAbs 1

/-- Whether this is a NaN. -/
def isNaN : Double → Bool
  | .nan _ => true
  | _ => false

/-- The whole number that a finite number equals, if there is one. -/
def toInt? : Double → Option Int
  | .finite negative rank =>
    if unitsOfRank rank % unitsPerOne = 0 then some (units negative rank / unitsPerOne) else none
  | _ => none

/-- The greatest whole number not above a number given in units. -/
def floorUnits (u : Int) : Int := u / unitsPerOne

/-- The number of a bit pattern; NaN patterns get the given mark. -/
def ofBits (mark : Nat) (bits : UInt64) : Double :=
  let negative := decide (Nat.pow 2 63 ≤ bits.toNat)
  let rank := bits.toNat % Nat.pow 2 63
  if h : rank < rankCount then .finite negative ⟨rank, h⟩
  else if rank = rankCount then .infinite negative
  else .nan mark

/-- The bit pattern of a number; a NaN has none of its own. -/
def toBits? : Double → Option UInt64
  | .finite negative rank => some (UInt64.ofNat ((if negative then Nat.pow 2 63 else 0) + rank))
  | .infinite negative => some (UInt64.ofNat ((if negative then Nat.pow 2 63 else 0) + rankCount))
  | .nan _ => none

end Double

end LooseData
