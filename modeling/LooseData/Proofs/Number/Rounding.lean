import LooseData.Proofs.Data
import LooseData.Tag.Handler
import Mathlib.Algebra.Order.Floor.Ring
import Mathlib.Data.Nat.Log
import Mathlib.Data.Rat.Floor
import Mathlib.Tactic

set_option autoImplicit false

/-! # Rounding to whole numbers

A double is rounded by taking its floor, subtracting that from the double, and comparing the
difference with one half. The subtraction may be inexact, but it never changes the outcome of the
comparison. It could do so only just below one half, where the doubles are `2 ^ -54` apart
(`nearestRank_lt`). But a double with a fraction there is at least a quarter in magnitude, so it is
itself a multiple of `2 ^ -54`, and the subtraction is exact (`two_pow_dvd_of_emod`).

Magnitudes are counted in units of `2 ^ -1074`, and the exponents are those of units: with
`k = 1020`, a quarter is `2 ^ (k + 52)` units, one half `2 ^ (k + 53)`, and one `2 ^ (k + 54)`.
-/

namespace LooseData

namespace Double

/-! ## The rational number of a double -/

/-- The rational number that a finite double denotes. The high part of the rank is the field of the
exponent, which is biased by 1023, and the low 52 bits are the fraction. Where the field is zero,
the number is subnormal and has no leading one. -/
def rational (negative : Bool) (rank : Nat) : ℚ :=
  let field : Nat := rank / 2 ^ 52
  let fraction : ℚ := ((rank % 2 ^ 52 : Nat) : ℚ) / 2 ^ 52
  let magnitude := if field = 0 then fraction * 2 ^ (-1022 : ℤ)
    else (1 + fraction) * 2 ^ ((field : ℤ) - 1023)
  if negative then -magnitude else magnitude

theorem unitsPerOne_eq : unitsPerOne = 2 ^ (1020 + 54) := by
  have hexponent : 1020 + 54 = 1074 := rfl
  rw [hexponent]
  unfold unitsPerOne
  -- With a number in place of the exponent, the power would be computed.
  generalize 1074 = n
  rfl

theorem unitsPerOne_pos : 0 < unitsPerOne := by
  rw [unitsPerOne_eq]
  exact pow_pos two_pos (1020 + 54)

theorem cast_unitsPerOne : (unitsPerOne : ℚ) = 2 ^ (1074 : ℤ) := by
  have hexponent : (1074 : ℤ) = ((1020 + 54 : Nat) : ℤ) := rfl
  rw [hexponent, zpow_natCast, unitsPerOne_eq, Nat.cast_pow, Nat.cast_ofNat]

theorem unitsOfRank_of_lt {rank : Nat} (h : rank < 2 ^ 52) : unitsOfRank rank = rank := if_pos h

theorem unitsOfRank_of_le {rank : Nat} (h : 2 ^ 52 ≤ rank) :
    unitsOfRank rank = (rank % 2 ^ 52 + 2 ^ 52) * 2 ^ (rank / 2 ^ 52 - 1) :=
  if_neg (Nat.not_lt.mpr h)

/-- A magnitude in units is the rational number times the units in one. -/
theorem unitsOfRank_eq (rank : Nat) :
    (unitsOfRank rank : ℚ) = rational false rank * unitsPerOne := by
  have htwo : (2 : ℚ) ≠ 0 := two_ne_zero
  rw [cast_unitsPerOne]
  unfold rational
  by_cases hfield : rank / 2 ^ 52 = 0
  · have hlt : rank < 2 ^ 52 := by omega
    simp only [hfield, if_true, Bool.false_eq_true, if_false]
    rw [unitsOfRank_of_lt hlt, Nat.mod_eq_of_lt hlt, mul_assoc, ← zpow_add₀ htwo]
    norm_num
  · have hle : 2 ^ 52 ≤ rank := by omega
    have hexponent : ((rank / 2 ^ 52 : Nat) : ℤ) - 1023 + 1074 =
        52 + ((rank / 2 ^ 52 - 1 : Nat) : ℤ) := by omega
    simp only [hfield, Bool.false_eq_true, if_false]
    rw [unitsOfRank_of_le hle, mul_assoc, ← zpow_add₀ htwo, hexponent, zpow_add₀ htwo, zpow_natCast]
    push_cast
    ring

/-- A finite double in units is its rational number times the units in one. -/
theorem units_eq (negative : Bool) (rank : Nat) :
    (units negative rank : ℚ) = rational negative rank * unitsPerOne := by
  have hmagnitude := unitsOfRank_eq rank
  cases negative with
  | false =>
      show ((unitsOfRank rank : ℤ) : ℚ) = _
      rw [Int.cast_natCast, hmagnitude]
  | true =>
      show ((-(unitsOfRank rank : ℤ) : ℤ) : ℚ) = -rational false rank * _
      rw [Int.cast_neg, Int.cast_natCast, hmagnitude, neg_mul]

/-! ## Rounded quotients -/

theorem roundQuotient_mul_left {c : Nat} (hc : 0 < c) (num den : Nat) :
    roundQuotient (c * num) (c * den) = roundQuotient num den := by
  have hquotient : c * num / (c * den) = num / den := Nat.mul_div_mul_left num den hc
  have htwice : 2 * (c * num % (c * den)) = c * (2 * (num % den)) := by
    rw [Nat.mul_mod_mul_left, Nat.mul_left_comm]
  unfold roundQuotient
  simp only [hquotient, htwice, Nat.mul_lt_mul_left hc]

theorem div_le_roundQuotient (num den : Nat) : num / den ≤ roundQuotient num den := by
  unfold roundQuotient
  dsimp only
  split
  · omega
  · split <;> omega

theorem roundQuotient_le (num den : Nat) : roundQuotient num den ≤ num / den + 1 := by
  unfold roundQuotient
  dsimp only
  split
  · omega
  · split <;> omega

/-- A quotient without a remainder is not rounded. -/
theorem roundQuotient_of_dvd {num den : Nat} (hden : 0 < den) (h : den ∣ num) :
    roundQuotient num den = num / den := by
  unfold roundQuotient
  dsimp only
  rw [Nat.mod_eq_zero_of_dvd h, if_pos (by omega)]

/-! ## The nearest rank -/

variable {u k rank d : Nat} {negative : Bool}

/-- The rank nearest to a number of units. -/
theorem nearestRank_unitsPerOne (u : Nat) :
    nearestRank u unitsPerOne =
      (Nat.log2 u - 52) * 2 ^ 52 + roundQuotient u (2 ^ (Nat.log2 u - 52)) := by
  unfold nearestRank
  dsimp only
  rw [Nat.mul_div_cancel u unitsPerOne_pos, Nat.mul_comm u unitsPerOne]
  exact congrArg _ (roundQuotient_mul_left unitsPerOne_pos u _)

/-- A ratio is not rounded down below a power of two that its whole part in units reaches. -/
theorem le_nearestRank_of_le_div {num den : Nat} (h : 2 ^ (k + 53) ≤ num * unitsPerOne / den) :
    (k + 2) * 2 ^ 52 ≤ nearestRank num den := by
  unfold nearestRank
  dsimp only
  generalize num * unitsPerOne = scaled at h ⊢
  have hne : scaled / den ≠ 0 := by
    intro hzero
    rw [hzero] at h
    exact absurd h (Nat.not_le.mpr (Nat.two_pow_pos _))
  have hlog : k + 53 ≤ Nat.log2 (scaled / den) := (Nat.le_log2 hne).mpr h
  obtain ⟨s, hs⟩ : ∃ s, Nat.log2 (scaled / den) = s + 52 :=
    ⟨Nat.log2 (scaled / den) - 52, by omega⟩
  rw [hs, Nat.add_sub_cancel]
  -- The spacing is such that the quotient has 53 bits.
  have hlow : 2 ^ 52 * 2 ^ s ≤ scaled / den := by
    rw [← Nat.pow_add, Nat.add_comm, ← hs]
    exact Nat.log2_self_le hne
  have hquotient : 2 ^ 52 ≤ scaled / (den * 2 ^ s) := by
    rw [← Nat.div_div_eq_div_mul]
    exact (Nat.le_div_iff_mul_le (Nat.two_pow_pos s)).mpr hlow
  have hrounded : scaled / (den * 2 ^ s) ≤ roundQuotient scaled (den * Nat.pow 2 s) :=
    div_le_roundQuotient _ _
  have hk : (k + 2) * 2 ^ 52 ≤ (s + 1) * 2 ^ 52 := Nat.mul_le_mul_right _ (by omega)
  show _ ≤ s * 2 ^ 52 + _
  omega

theorem le_nearestRank (h : 2 ^ (k + 53) ≤ u) : (k + 2) * 2 ^ 52 ≤ nearestRank u unitsPerOne := by
  refine le_nearestRank_of_le_div ?_
  rw [Nat.mul_div_cancel u unitsPerOne_pos]
  exact h

/-- A number of units below a power of two is not rounded up to it, unless it is too near to be
exact. -/
theorem nearestRank_lt (hk : 0 < k) (h : u < 2 ^ (k + 53)) (hexact : 2 ^ (k + 52) ≤ u → 2 ^ k ∣ u) :
    nearestRank u unitsPerOne < (k + 2) * 2 ^ 52 := by
  rw [nearestRank_unitsPerOne]
  by_cases htop : 2 ^ (k + 52) ≤ u
  · have hne : u ≠ 0 := by
      rintro rfl
      exact absurd htop (Nat.not_le.mpr (Nat.two_pow_pos _))
    have hlog : Nat.log2 u = k + 52 := (Nat.log2_eq_iff hne).mpr ⟨htop, h⟩
    rw [hlog, Nat.add_sub_cancel, roundQuotient_of_dvd (Nat.two_pow_pos k) (hexact htop)]
    have hquotient : u / 2 ^ k < 2 ^ 53 := by
      rw [Nat.div_lt_iff_lt_mul (Nat.two_pow_pos k), ← Nat.pow_add, Nat.add_comm]
      exact h
    omega
  · -- The spacing is at most half as wide, so a quotient of 53 bits may well be rounded up.
    generalize hs : Nat.log2 u - 52 = s
    have hsk : s + 1 ≤ k := by
      by_cases hzero : u = 0
      · subst hzero
        have hlog : Nat.log2 0 = 0 := by decide
        omega
      · have hlog : Nat.log2 u < k + 52 := (Nat.log2_lt hzero).mpr (Nat.not_le.mp htop)
        omega
    have hbits : u < 2 ^ (s + 53) := by
      calc u < 2 ^ (Nat.log2 u + 1) := Nat.lt_log2_self
        _ ≤ 2 ^ (s + 53) := Nat.pow_le_pow_right two_pos (by omega)
    have hquotient : u / 2 ^ s < 2 ^ 53 := by
      rw [Nat.div_lt_iff_lt_mul (Nat.two_pow_pos s), ← Nat.pow_add, Nat.add_comm]
      exact hbits
    have hrounded := roundQuotient_le u (2 ^ s)
    have hrank : (s + 2) * 2 ^ 52 < (k + 2) * 2 ^ 52 := by omega
    omega

/-! ## Differences that are exact -/

/-- A magnitude of at least `2 ^ (k + 52)` units has a spacing of `2 ^ k` units or more. -/
theorem two_pow_dvd_unitsOfRank (h : 2 ^ (k + 52) ≤ unitsOfRank rank) :
    2 ^ k ∣ unitsOfRank rank := by
  rcases Nat.lt_or_ge rank (2 ^ 52) with hlt | hle
  · rw [unitsOfRank_of_lt hlt] at h
    have hpow : 2 ^ 52 ≤ 2 ^ (k + 52) := Nat.pow_le_pow_right two_pos (Nat.le_add_left 52 k)
    exact absurd hlt (Nat.not_lt.mpr (hpow.trans h))
  · rw [unitsOfRank_of_le hle] at h ⊢
    generalize rank / 2 ^ 52 - 1 = e at h ⊢
    have hsignificand : rank % 2 ^ 52 + 2 ^ 52 < 2 ^ 53 := by
      have hmod : rank % 2 ^ 52 < 2 ^ 52 := Nat.mod_lt _ (Nat.two_pow_pos 52)
      omega
    have hbits : 2 ^ (k + 52) < 2 ^ (53 + e) := by
      calc 2 ^ (k + 52) ≤ (rank % 2 ^ 52 + 2 ^ 52) * 2 ^ e := h
        _ < 2 ^ 53 * 2 ^ e := Nat.mul_lt_mul_of_pos_right hsignificand (Nat.two_pow_pos e)
        _ = 2 ^ (53 + e) := (Nat.pow_add 2 53 e).symm
    have hexponent : k + 52 < 53 + e := (Nat.pow_lt_pow_iff_right one_lt_two).mp hbits
    exact Dvd.dvd.mul_left (Nat.pow_dvd_pow 2 (by omega)) _

/-- **The subtraction is exact** where the fraction is from a quarter up to one half: then the
number is at least a quarter in magnitude, and its spacing is no finer than that of the fraction. -/
theorem two_pow_dvd_of_emod (hd : (d : ℤ) = units negative rank % 2 ^ (k + 54))
    (hlow : 2 ^ (k + 52) ≤ d) (hhigh : d < 2 ^ (k + 53)) : 2 ^ k ∣ d := by
  have hone : (2 : ℤ) ^ (k + 54) = 4 * 2 ^ (k + 52) := by ring
  have hhalf : 2 ^ (k + 53) = 2 * 2 ^ (k + 52) := by ring
  have hsplit := Int.emod_add_mul_ediv (units negative rank) (2 ^ (k + 54))
  rw [← hd] at hsplit
  have hmagnitude : 2 ^ (k + 52) ≤ unitsOfRank rank := by
    by_contra hsmall
    have hbound : -(2 ^ (k + 52) : ℤ) < units negative rank ∧
        units negative rank < 2 ^ (k + 52) := by
      have hcast : (unitsOfRank rank : ℤ) < 2 ^ (k + 52) := by exact_mod_cast Nat.not_le.mp hsmall
      unfold units
      split <;> omega
    have hlow' : (2 ^ (k + 52) : ℤ) ≤ d := by exact_mod_cast hlow
    have hhigh' : (d : ℤ) < 2 * 2 ^ (k + 52) := by
      rw [hhalf] at hhigh
      exact_mod_cast hhigh
    rw [hone] at hsplit
    generalize (2 ^ (k + 52) : ℤ) = q at *
    generalize units negative rank / (4 * q) = f at *
    -- The number would be its fraction, or one or more less than its fraction.
    rcases lt_or_ge f 0 with hf | hf
    · nlinarith
    · nlinarith
  have hunits : (2 ^ k : ℤ) ∣ units negative rank := by
    have hdvd : ((2 ^ k : Nat) : ℤ) ∣ unitsOfRank rank :=
      Int.natCast_dvd_natCast.mpr (two_pow_dvd_unitsOfRank hmagnitude)
    rw [Nat.cast_pow, Nat.cast_ofNat] at hdvd
    unfold units
    split
    · exact hdvd.neg_right
    · exact hdvd
  have hpow : (2 ^ k : ℤ) ∣ 2 ^ (k + 54) := pow_dvd_pow 2 (Nat.le_add_right k 54)
  have hdvd : (2 ^ k : ℤ) ∣ d := by
    rw [← hsplit] at hunits
    exact (dvd_add_left (hpow.mul_right _)).mp hunits
  exact_mod_cast hdvd

/-- **The comparison is right** if the difference is exact just below one half. -/
theorem atLeastHalf_iff (hexact : 2 ^ (1020 + 52) ≤ d → d < 2 ^ (1020 + 53) → 2 ^ 1020 ∣ d) :
    atLeastHalf d = true ↔ 2 ^ (1020 + 53) ≤ d := by
  have hhalf : halfRank = (1020 + 2) * 2 ^ 52 := rfl
  rw [atLeastHalf, decide_eq_true_iff, hhalf]
  constructor
  · intro hle
    by_contra hlt
    have hbelow := nearestRank_lt (k := 1020) (by omega) (Nat.not_le.mp hlt)
      fun hlow => hexact hlow (Nat.not_le.mp hlt)
    exact absurd hle (Nat.not_le.mpr hbelow)
  · exact le_nearestRank

/-! ## Halves upwards -/

/-- The floor of a ratio and one half, by the quotient and the remainder. -/
theorem floor_add_half (u : ℤ) {one : ℤ} (hone : 0 < one) :
    ⌊(u : ℚ) / one + 1 / 2⌋ = if one ≤ 2 * (u % one) then u / one + 1 else u / one := by
  have hpos : (0 : ℚ) < one := by exact_mod_cast hone
  -- The remainder is what the ratio has beyond its floor.
  have hsplit : (u : ℚ) / one = (u / one : ℤ) + (u % one : ℤ) / (one : ℚ) := by
    have hu : (u : ℚ) = (u % one : ℤ) + one * (u / one : ℤ) := by
      exact_mod_cast (Int.emod_add_mul_ediv u one).symm
    rw [div_eq_iff hpos.ne', add_mul, div_mul_cancel₀ _ hpos.ne']
    linarith
  have hlow : (0 : ℚ) ≤ (u % one : ℤ) / (one : ℚ) :=
    div_nonneg (by exact_mod_cast Int.emod_nonneg u hone.ne') hpos.le
  have hhigh : (u % one : ℤ) / (one : ℚ) < 1 :=
    (div_lt_one hpos).mpr (by exact_mod_cast Int.emod_lt_of_pos u hone)
  have hhalf : (1 / 2 : ℚ) ≤ (u % one : ℤ) / (one : ℚ) ↔ one ≤ 2 * (u % one) := by
    rw [div_le_div_iff₀ two_pos hpos, one_mul, mul_comm]
    exact_mod_cast Iff.rfl
  rw [Int.floor_eq_iff, hsplit]
  split
  · rename_i hle
    have hge := hhalf.mpr hle
    push_cast
    constructor <;> linarith
  · rename_i hlt
    have hless := not_le.mp fun h => hlt (hhalf.mp h)
    constructor <;> linarith

/-- **Half-up rounding is exact**: it gives the floor of the double and one half. -/
theorem roundUnits_units (negative : Bool) (rank : Nat) :
    roundUnits (units negative rank) = ⌊rational negative rank + 1 / 2⌋ := by
  have hone : (0 : ℤ) < unitsPerOne := by exact_mod_cast unitsPerOne_pos
  have hrational : rational negative rank = (units negative rank : ℚ) / (unitsPerOne : ℤ) := by
    have hne : (unitsPerOne : ℚ) ≠ 0 := by exact_mod_cast unitsPerOne_pos.ne'
    rw [units_eq, Int.cast_natCast, mul_div_cancel_right₀ _ hne]
  rw [hrational, floor_add_half _ hone, roundUnits, floorUnits]
  have hdifference : units negative rank - units negative rank / unitsPerOne * unitsPerOne =
      units negative rank % unitsPerOne := by
    rw [Int.emod_def, mul_comm]
  rw [hdifference]
  obtain ⟨d, hd⟩ := Int.eq_ofNat_of_zero_le (Int.emod_nonneg (units negative rank) hone.ne')
  rw [hd, Int.toNat_natCast]
  have hexact : 2 ^ (1020 + 52) ≤ d → d < 2 ^ (1020 + 53) → 2 ^ 1020 ∣ d := by
    rw [unitsPerOne_eq, Nat.cast_pow, Nat.cast_ofNat] at hd
    exact two_pow_dvd_of_emod hd.symm
  have hhalf : (unitsPerOne : ℤ) ≤ 2 * (d : ℤ) ↔ 2 ^ (1020 + 53) ≤ d := by
    have htwice : unitsPerOne = 2 * 2 ^ (1020 + 53) := by
      rw [unitsPerOne_eq, ← Nat.pow_succ']
    rw [htwice]
    generalize 2 ^ (1020 + 53) = half
    omega
  simp only [hhalf, atLeastHalf_iff hexact]

end Double

/-- **Half-up rounding is exact and leaves no fraction.** A finite double is rounded to the floor of
its rational number and one half. The handler for whole numbers gives a whole number, an infinity or
a NaN for every payload. -/
theorem roundHalfUp_exact_and_int_whole :
    (∀ (negative : Bool) (rank : Fin Double.rankCount),
      (Value.double (.finite negative rank)).roundHalfUp =
        .ok (.int ⌊Double.rational negative rank + 1 / 2⌋)) ∧
    ∀ context : Tag.Context, ∃ w, (Builtin.int.apply context).result = .ok w ∧
      ((∃ i, w = .int i) ∨ (∃ negative, w = .double (.infinite negative)) ∨
        ∃ mark, w = .double (.nan mark)) := by
  constructor
  · intro negative rank
    show Except.ok (Value.int (Double.roundUnits (Double.units negative rank))) = _
    rw [Double.roundUnits_units]
  · intro context
    have happly : (Builtin.int.apply context).result = context.payload.toNumber.roundHalfUp := rfl
    rw [happly]
    rcases context.payload.toNumber_eq with ⟨i, hi⟩ | ⟨d, hd⟩
    · rw [hi]
      exact ⟨_, rfl, .inl ⟨i, rfl⟩⟩
    · rw [hd]
      cases d with
      | finite negative rank => exact ⟨_, rfl, .inl ⟨_, rfl⟩⟩
      | infinite negative => exact ⟨_, rfl, .inr (.inl ⟨negative, rfl⟩)⟩
      | nan mark => exact ⟨_, rfl, .inr (.inr ⟨mark, rfl⟩)⟩

end LooseData
