import LooseData.Proofs.Number.Rounding

set_option autoImplicit false

/-! # Decimals that read back to a double

The rank nearest to a ratio depends on the ratio alone (`nearestRank_congr`), and the rank nearest
to the magnitude of a rank is that rank (`nearestRank_unitsOfRank`). Both together carry the search
for the shortest decimal: whatever it finds reads back to the rank that it was made for, and the
exact decimal that stands behind the search does so as well (`readsBackTo_ofMagnitude`).

Reading a decimal decides very large and very small ones by their digits alone. That is a shortcut
only (`toDouble_eq_ofRatio`), so that every spelling of the decimal found gives the double again
(`toDouble_of_same`).
-/

namespace LooseData

namespace Double

variable {num den num' den' : Nat}

/-- The rank depends on the ratio alone. -/
theorem nearestRank_mul_left {c : Nat} (hc : 0 < c) (num den : Nat) :
    nearestRank (c * num) (c * den) = nearestRank num den := by
  have hquotient : c * num * unitsPerOne / (c * den) = num * unitsPerOne / den := by
    rw [Nat.mul_assoc, Nat.mul_div_mul_left _ _ hc]
  unfold nearestRank
  dsimp only
  rw [hquotient, Nat.mul_assoc c num, Nat.mul_assoc c den, roundQuotient_mul_left hc]

theorem nearestRank_congr (hden : 0 < den) (hden' : 0 < den') (h : num * den' = num' * den) :
    nearestRank num den = nearestRank num' den' := by
  calc nearestRank num den = nearestRank (den' * num) (den' * den) :=
        (nearestRank_mul_left hden' _ _).symm
    _ = nearestRank (den * num') (den * den') := by
        rw [Nat.mul_comm den' num, h, Nat.mul_comm num' den, Nat.mul_comm den' den]
    _ = nearestRank num' den' := nearestRank_mul_left hden _ _

/-- Less than half a unit is rounded to zero. -/
theorem nearestRank_eq_zero (h : 2 * (num * unitsPerOne) < den) : nearestRank num den = 0 := by
  unfold nearestRank roundQuotient
  dsimp only
  generalize num * unitsPerOne = scaled at h ⊢
  have hzero : scaled / den = 0 := Nat.div_eq_of_lt (by omega)
  have hmod : scaled % den = scaled := Nat.mod_eq_of_lt (by omega)
  have hspacing : Nat.log2 0 - 52 = 0 := by decide
  have hone : den * Nat.pow 2 0 = den := Nat.mul_one den
  rw [hzero, hspacing, hone, hmod, if_pos h, hzero, Nat.zero_mul]

theorem nearestRank_zero (hden : 0 < den) : nearestRank 0 den = 0 :=
  nearestRank_eq_zero (by rwa [Nat.zero_mul])

/-- **The magnitude of a rank is nearest to itself.** Below `2 ^ 52` ranks are units; from there on
the spacing of the ranks around a magnitude is that of the rank itself. -/
theorem nearestRank_unitsOfRank (rank : Nat) :
    nearestRank (unitsOfRank rank) unitsPerOne = rank := by
  rw [nearestRank_unitsPerOne]
  rcases Nat.lt_or_ge rank (2 ^ 52) with hlt | hle
  · have hlog : Nat.log2 rank - 52 = 0 := by
      by_cases hzero : rank = 0
      · subst hzero
        decide
      · have hbits := (Nat.log2_lt hzero).mpr hlt
        omega
    rw [unitsOfRank_of_lt hlt, hlog, Nat.pow_zero, roundQuotient_of_dvd Nat.one_pos (Nat.one_dvd _),
      Nat.div_one, Nat.zero_mul, Nat.zero_add]
  · rw [unitsOfRank_of_le hle]
    have hsplit := Nat.mod_add_div rank (2 ^ 52)
    have hfraction : rank % 2 ^ 52 < 2 ^ 52 := Nat.mod_lt _ (Nat.two_pow_pos 52)
    have hfield : 0 < rank / 2 ^ 52 := Nat.div_pos hle (Nat.two_pow_pos 52)
    obtain ⟨e, he⟩ : ∃ e, rank / 2 ^ 52 = e + 1 := ⟨rank / 2 ^ 52 - 1, by omega⟩
    rw [he, Nat.add_sub_cancel]
    rw [he] at hsplit
    generalize rank % 2 ^ 52 = fraction at *
    -- The significand has 53 bits, so the number has as many more as its spacing has.
    have hlog : Nat.log2 ((fraction + 2 ^ 52) * 2 ^ e) = e + 52 := by
      refine (Nat.log2_eq_iff (by positivity)).mpr ⟨?_, ?_⟩
      · calc 2 ^ (e + 52) = 2 ^ 52 * 2 ^ e := by rw [Nat.add_comm, Nat.pow_add]
          _ ≤ (fraction + 2 ^ 52) * 2 ^ e := Nat.mul_le_mul_right _ (by omega)
      · calc (fraction + 2 ^ 52) * 2 ^ e < 2 ^ 53 * 2 ^ e :=
              Nat.mul_lt_mul_of_pos_right (by omega) (Nat.two_pow_pos e)
          _ = 2 ^ (e + 52 + 1) := by rw [← Nat.pow_add, Nat.add_comm]
    rw [hlog, Nat.add_sub_cancel, roundQuotient_of_dvd (Nat.two_pow_pos e) (Nat.dvd_mul_left _ _),
      Nat.mul_div_cancel _ (Nat.two_pow_pos e), ← hsplit]
    ring

theorem ofRatio_of_nearestRank_eq {rank : Fin rankCount} (h : nearestRank num den = rank)
    (negative : Bool) : ofRatio negative num den = .finite negative rank := by
  have hlt : nearestRank num den < rankCount := by
    rw [h]
    exact rank.isLt
  unfold ofRatio
  rw [dif_pos hlt]
  exact congrArg _ (Fin.ext h)

theorem ofRatio_of_le (h : rankCount ≤ nearestRank num den) (negative : Bool) :
    ofRatio negative num den = .infinite negative := dif_neg (Nat.not_lt.mpr h)

end Double

namespace Decimal

variable {d e : Decimal}

/-! ## The same number -/

/-- Two decimals are the same number. -/
def Same (d e : Decimal) : Prop := d.ratio.1 * e.ratio.2 = e.ratio.1 * d.ratio.2

theorem ratio_snd_pos (d : Decimal) : 0 < d.ratio.2 := Nat.pow_pos (by omega)

theorem Same.nearestRank_eq (h : d.Same e) :
    Double.nearestRank d.ratio.1 d.ratio.2 = Double.nearestRank e.ratio.1 e.ratio.2 :=
  Double.nearestRank_congr d.ratio_snd_pos e.ratio_snd_pos h

/-- Zeros at the end of the digits can be told by the exponent. -/
theorem same_shift (digits : Nat) (exponent : Int) (zeros : Nat) :
    Same ⟨digits * 10 ^ zeros, exponent⟩ ⟨digits, exponent + zeros⟩ := by
  have hexponents : zeros + exponent.toNat + (-(exponent + zeros)).toNat =
      (exponent + zeros).toNat + (-exponent).toNat := by omega
  show digits * 10 ^ zeros * 10 ^ exponent.toNat * 10 ^ (-(exponent + zeros)).toNat =
    digits * 10 ^ (exponent + zeros).toNat * 10 ^ (-exponent).toNat
  rw [Nat.mul_assoc, Nat.mul_assoc, Nat.mul_assoc, ← Nat.pow_add, ← Nat.pow_add, ← Nat.pow_add,
    ← Nat.add_assoc, hexponents]

/-! ## The search for the shortest decimal -/

theorem readsBackTo_iff {rank : Nat} :
    readsBackTo rank d = true ↔ Double.nearestRank d.ratio.1 d.ratio.2 = rank := beq_iff_eq

theorem Same.readsBackTo (h : d.Same e) (rank : Nat) : readsBackTo rank d = readsBackTo rank e := by
  rw [Decimal.readsBackTo, Decimal.readsBackTo, h.nearestRank_eq]

theorem readsBackTo_stripZeros (rank fuel : Nat) (d : Decimal) :
    readsBackTo rank (stripZeros fuel d) = readsBackTo rank d := by
  induction fuel generalizing d with
  | zero => rfl
  | succ fuel ih =>
      rw [stripZeros]
      split
      · rename_i hzero
        have hshift := same_shift (d.digits / 10) d.exponent 1
        have hdigits : d.digits / 10 * 10 ^ 1 = d.digits := by
          rw [Nat.pow_one, Nat.div_mul_cancel (Nat.dvd_of_mod_eq_zero hzero)]
        rw [hdigits] at hshift
        rw [ih]
        exact (hshift.readsBackTo rank).symm
      · rfl

/-- A unit is a power of two, which five to the same power makes a power of ten. -/
theorem nearestRank_exact {k : Nat} (hk : Double.unitsPerOne = Nat.pow 2 k) (u : Nat) :
    Double.nearestRank (ratio ⟨u * Nat.pow 5 k, -(k : Int)⟩).1
        (ratio ⟨u * Nat.pow 5 k, -(k : Int)⟩).2 =
      Double.nearestRank u Double.unitsPerOne := by
  have hratio : ratio ⟨u * Nat.pow 5 k, -(k : Int)⟩ = (5 ^ k * u, 5 ^ k * Double.unitsPerOne) := by
    have hten : (5 ^ k * 2 ^ k : Nat) = 10 ^ k := (Nat.mul_pow 5 2 k).symm
    have hzero : (-(k : Int)).toNat = 0 := by omega
    have hback : (-(-(k : Int))).toNat = k := by omega
    show (u * 5 ^ k * 10 ^ (-(k : Int)).toNat, 10 ^ (-(-(k : Int))).toNat) = _
    rw [hk, hzero, hback, Nat.pow_zero, Nat.mul_one, Nat.mul_comm u]
    exact congrArg _ hten.symm
  rw [hratio]
  exact Double.nearestRank_mul_left (Nat.pow_pos (by omega)) _ _

theorem readsBackTo_exactUnits (rank : Nat) :
    readsBackTo rank (exactUnits (Double.unitsOfRank rank)) = true := by
  have hunits : Double.unitsPerOne = Nat.pow 2 1074 := by
    unfold Double.unitsPerOne
    -- With a number in place of the exponent, the power would be computed.
    generalize 1074 = n
    rfl
  rw [readsBackTo_iff]
  exact (nearestRank_exact hunits _).trans (Double.nearestRank_unitsOfRank rank)

/-- **What the search gives reads back.** -/
theorem readsBackTo_ofMagnitude (rank : Nat) : readsBackTo rank (ofMagnitude rank) = true := by
  unfold ofMagnitude
  dsimp only
  rw [readsBackTo_stripZeros]
  generalize hfound : (List.range 17).findSome? _ = found
  cases found with
  | none => exact readsBackTo_exactUnits rank
  | some d =>
      obtain ⟨i, -, hi⟩ := List.exists_of_findSome?_eq_some hfound
      exact List.find?_some hi

theorem nearestRank_ofMagnitude (rank : Nat) :
    Double.nearestRank (ofMagnitude rank).ratio.1 (ofMagnitude rank).ratio.2 = rank :=
  readsBackTo_iff.mp (readsBackTo_ofMagnitude rank)

theorem digits_ofMagnitude_ne_zero {rank : Nat} (h : rank ≠ 0) : (ofMagnitude rank).digits ≠ 0 := by
  intro hzero
  have hnearest := nearestRank_ofMagnitude rank
  have hratio : (ofMagnitude rank).ratio.1 = 0 := by rw [ratio, hzero, Nat.zero_mul]
  rw [hratio, Double.nearestRank_zero (ratio_snd_pos _)] at hnearest
  exact h hnearest.symm

/-! ## Reading decimals -/

theorem lt_pow_digitCount (n : Nat) : n < 10 ^ digitCount n := by
  unfold digitCount
  split
  · omega
  · exact (Nat.length_toDigits_le_iff (by omega) Nat.length_toDigits_pos).mp (Nat.le_refl _)

theorem pow_le_of_lt_digitCount {n k : Nat} (h : k < digitCount n) : 10 ^ k ≤ n := by
  unfold digitCount at h
  split at h
  · omega
  · rcases Nat.eq_zero_or_pos k with rfl | hk
    · omega
    · exact Nat.not_lt.mp fun hlt =>
        absurd h (Nat.not_lt.mpr ((Nat.length_toDigits_le_iff (by omega) hk).mpr hlt))

/-- Two units are more than `10 ^ -330`. -/
theorem two_mul_unitsPerOne_lt : 2 * Double.unitsPerOne < 10 ^ (66 * 5) := by
  have hexponent : 1 + (1020 + 54) = 215 * 5 := rfl
  calc 2 * Double.unitsPerOne = 2 ^ (1 + (1020 + 54)) := by
        rw [Double.unitsPerOne_eq, Nat.pow_add 2 1, Nat.pow_one]
    _ = (2 ^ 215) ^ 5 := by rw [hexponent, Nat.pow_mul]
    _ < (10 ^ 66) ^ 5 := Nat.pow_lt_pow_left (by norm_num) (by omega)
    _ = 10 ^ (66 * 5) := by rw [Nat.pow_mul]

/-- The magnitudes that are finite are less than `10 ^ 310`. -/
theorem two_pow_le_ten_pow : 2 ^ (256 * 4) ≤ 10 ^ (155 * 2) := by
  calc 2 ^ (256 * 4) = ((2 ^ 256) ^ 2) ^ 2 := by rw [Nat.pow_mul, ← Nat.pow_mul _ 2 2]
    _ ≤ (10 ^ 155) ^ 2 := Nat.pow_le_pow_left (by norm_num) 2
    _ = 10 ^ (155 * 2) := by rw [Nat.pow_mul]

theorem nearestRank_of_small (h : d.exponent + digitCount d.digits < -330) :
    Double.nearestRank d.ratio.1 d.ratio.2 = 0 := by
  have hexponent : d.exponent.toNat = 0 := by omega
  have hbound : 66 * 5 + digitCount d.digits ≤ (-d.exponent).toNat := by omega
  apply Double.nearestRank_eq_zero
  show 2 * (d.digits * 10 ^ d.exponent.toNat * Double.unitsPerOne) < 10 ^ (-d.exponent).toNat
  rw [hexponent, Nat.pow_zero, Nat.mul_one]
  calc 2 * (d.digits * Double.unitsPerOne) = 2 * Double.unitsPerOne * d.digits := by ring
    _ < 10 ^ (66 * 5) * 10 ^ digitCount d.digits :=
        Nat.mul_lt_mul'' two_mul_unitsPerOne_lt (lt_pow_digitCount _)
    _ ≤ 10 ^ (-d.exponent).toNat := by
        rw [← Nat.pow_add]
        exact Nat.pow_le_pow_right (by omega) hbound

theorem rankCount_le_nearestRank (hdigits : d.digits ≠ 0)
    (h : 310 < d.exponent + digitCount d.digits) :
    Double.rankCount ≤ Double.nearestRank d.ratio.1 d.ratio.2 := by
  have hpos : 0 < digitCount d.digits := by
    unfold digitCount
    rw [if_neg hdigits]
    exact Nat.length_toDigits_pos
  have hleading : 10 ^ (digitCount d.digits - 1) ≤ d.digits := pow_le_of_lt_digitCount (by omega)
  have hexponents : (-d.exponent).toNat + 155 * 2 ≤ digitCount d.digits - 1 + d.exponent.toNat := by
    omega
  refine Double.le_nearestRank_of_le_div (k := 2045) ?_
  refine (Nat.le_div_iff_mul_le d.ratio_snd_pos).mpr ?_
  have hpower : 2045 + 53 = 256 * 4 + (1020 + 54) := rfl
  calc 2 ^ (2045 + 53) * d.ratio.2
      = 10 ^ (-d.exponent).toNat * 2 ^ (256 * 4) * Double.unitsPerOne := by
        rw [Double.unitsPerOne_eq, Nat.mul_assoc, ← Nat.pow_add, ← hpower, Nat.mul_comm]
        rfl
    _ ≤ 10 ^ (-d.exponent).toNat * 10 ^ (155 * 2) * Double.unitsPerOne :=
        Nat.mul_le_mul_right _ (Nat.mul_le_mul_left _ two_pow_le_ten_pow)
    _ ≤ 10 ^ (digitCount d.digits - 1) * 10 ^ d.exponent.toNat * Double.unitsPerOne := by
        rw [← Nat.pow_add, ← Nat.pow_add]
        exact Nat.mul_le_mul_right _ (Nat.pow_le_pow_right (by omega) hexponents)
    _ ≤ d.digits * 10 ^ d.exponent.toNat * Double.unitsPerOne :=
        Nat.mul_le_mul_right _ (Nat.mul_le_mul_right _ hleading)

/-- **Reading a decimal gives the nearest double**, however large or small it is. -/
theorem toDouble_eq_ofRatio (negative : Bool) (d : Decimal) :
    toDouble negative d = Double.ofRatio negative d.ratio.1 d.ratio.2 := by
  have hzero : Double.nearestRank 0 1 = 0 := Double.nearestRank_zero Nat.one_pos
  have hsmall (h : Double.nearestRank d.ratio.1 d.ratio.2 = 0) :
      Double.ofRatio negative 0 1 = Double.ofRatio negative d.ratio.1 d.ratio.2 := by
    have hcount : 0 < Double.rankCount := by decide
    have hnone : Double.ofRatio negative 0 1 = .finite negative ⟨0, hcount⟩ :=
      Double.ofRatio_of_nearestRank_eq hzero negative
    exact hnone.trans (Double.ofRatio_of_nearestRank_eq h negative).symm
  unfold toDouble
  dsimp only
  split
  -- Zero and what is too small by its digits, then what is too large by them.
  · rename_i h
    rcases h with hdigits | htop
    · apply hsmall
      rw [ratio, hdigits, Nat.zero_mul]
      exact Double.nearestRank_zero d.ratio_snd_pos
    · exact hsmall (nearestRank_of_small htop)
  · rename_i h
    split
    · rename_i htop
      exact (Double.ofRatio_of_le (rankCount_le_nearestRank (fun hd => h (.inl hd)) htop) _).symm
    · rfl

/-- **Every spelling of the decimal found gives the double again.** -/
theorem toDouble_of_same {rank : Fin Double.rankCount} (h : d.Same (ofMagnitude rank))
    (negative : Bool) : toDouble negative d = .finite negative rank := by
  rw [toDouble_eq_ofRatio]
  exact Double.ofRatio_of_nearestRank_eq (h.nearestRank_eq.trans (nearestRank_ofMagnitude rank)) _

end Decimal

end LooseData
