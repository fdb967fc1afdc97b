import LooseData.Number.Form
import LooseData.Proofs.Number.Numeral
import LooseData.Proofs.Number.ReadBack

set_option autoImplicit false

/-! # Numbers are read as they are written

A number that is written consists of a sign, digits in front of a point, and perhaps digits behind
it and an exponent. What the reader of numbers makes of each shape is one lemma, with anything
behind it that does not go on with the number (`EndsNumber`). The two notations of a double are such
shapes of one decimal (`exists_positional`, `readNumber_scientific`), so both give the double again
(`readNumber_magnitude`), whatever form the notation is chosen by.
-/

namespace LooseData.Json

open Numeral (AllDigits NoDigit withSign)

variable {digits whole fraction ahead : List Char} {negative : Bool}

/-! ## Shapes of numbers -/

/-- The sign in front of a number. -/
def sign (negative : Bool) : List Char := if negative then ['-'] else []

/-- No number goes on with these characters. -/
def EndsNumber (ahead : List Char) : Prop :=
  ∀ c, ahead.head? = some c → c.isDigit = false ∧ c ≠ '.' ∧ c ≠ 'e' ∧ c ≠ 'E'

theorem EndsNumber.noDigit (h : EndsNumber ahead) : NoDigit ahead := fun c hc => (h c hc).1

/-- Digits in front of a point. A zero at their start stands alone. -/
structure IsWhole (digits : List Char) : Prop where
  allDigits : AllDigits digits
  nonempty : digits ≠ []
  leading : digits.head? = some '0' → digits = ['0']

theorem isWhole_zero : IsWhole ['0'] :=
  ⟨List.forall_mem_singleton.mpr rfl, List.cons_ne_nil _ _, fun _ => rfl⟩

/-- Digits that start with none of the needless zeros. -/
theorem isWhole_of_head_ne (hall : AllDigits digits) (hne : digits ≠ [])
    (hhead : digits.head? ≠ some '0') : IsWhole digits := ⟨hall, hne, fun h => absurd h hhead⟩

/-! ## Reading the parts -/

theorem wholeDigits_append (h : IsWhole whole) (hahead : NoDigit ahead) :
    wholeDigits (whole ++ ahead) = (whole, ahead) := by
  unfold wholeDigits
  split
  · rename_i rest heq
    have hhead : whole.head? = some '0' := by
      cases whole with
      | nil => exact absurd rfl h.nonempty
      | cons c cs => exact congrArg some (List.cons.inj heq).1
    obtain rfl := h.leading hhead
    rw [(List.cons.inj heq).2.symm]
    rfl
  · exact Numeral.digitsOf_append h.allDigits hahead

theorem fractionDigits_append (hall : AllDigits fraction) (hne : fraction ≠ [])
    (hahead : NoDigit ahead) : fractionDigits ('.' :: (fraction ++ ahead)) = (fraction, ahead) := by
  rw [fractionDigits, Numeral.digitsOf_append hall hahead]
  cases fraction with
  | nil => exact absurd rfl hne
  | cons c cs => rfl

theorem fractionDigits_of_head_ne (h : ahead.head? ≠ some '.') :
    fractionDigits ahead = ([], ahead) := by
  unfold fractionDigits
  split
  · exact absurd rfl h
  · rfl

theorem exponent?_of_ends (h : EndsNumber ahead) : exponent? ahead = none := by
  cases ahead with
  | nil => rfl
  | cons c cs =>
      obtain ⟨-, -, hlower, hupper⟩ := h c rfl
      rw [Numeral.exponent?_cons, if_neg (by simp [hlower, hupper])]

theorem exponent?_append {mark : List Char} (hmark : Numeral.IsSign mark negative)
    (hall : AllDigits digits) (hne : digits ≠ []) (hahead : NoDigit ahead) :
    exponent? ('e' :: (mark ++ (digits ++ ahead))) =
      some (withSign negative (numeralValue digits), ahead) := by
  have hunsigned : Numeral.Unsigned (digits ++ ahead) := by
    refine Numeral.unsigned_of_isDigit fun c hc => ?_
    cases digits with
    | nil => exact absurd rfl hne
    | cons d ds =>
        obtain rfl : d = c := Option.some.inj hc
        exact hall d List.mem_cons_self
  rw [Numeral.exponent?_cons, if_pos (.inl rfl), Numeral.signed_append hmark hunsigned,
    Numeral.digitsOf_append hall hahead, if_neg hne]

/-! ## Reading a number -/

/-- The sign that a reader of numbers splits off. -/
def splitSign (cs : List Char) : Bool × List Char :=
  match cs with
  | '-' :: ahead => (true, ahead)
  | _ => (false, cs)

/-- The number of digits in front of a point and behind it, and of the exponent that stands ahead,
if one does. -/
def numberOf (negative : Bool) (whole fraction ahead : List Char) : Read Value :=
  let digits := numeralValue (whole ++ fraction)
  match exponent? ahead with
  | some (e, ahead) =>
    .ok (.double (Decimal.toDouble negative ⟨digits, e - fraction.length⟩), ahead)
  | none =>
    if !fraction.isEmpty then
      .ok (.double (Decimal.toDouble negative ⟨digits, -(fraction.length : Int)⟩), ahead)
    else if maxNumeralDigits < whole.length then .error (.numeralTooLong whole.length)
    else .ok (.int (withSign negative digits), ahead)

/-- A number is read part by part. -/
theorem readNumber_eq (cs : List Char) :
    readNumber cs =
      let (whole, ahead) := wholeDigits (splitSign cs).2
      if whole.isEmpty then .error (.wrong .expectedValue cs)
      else numberOf (splitSign cs).1 whole (fractionDigits ahead).1 (fractionDigits ahead).2 := rfl

theorem splitSign_append {cs : List Char} (h : cs.head? ≠ some '-') :
    splitSign (sign negative ++ cs) = (negative, cs) := by
  cases negative with
  | true => rfl
  | false =>
      show splitSign cs = _
      unfold splitSign
      split
      · exact absurd rfl h
      · rfl

theorem readNumber_append {ahead' : List Char} (hwhole : IsWhole whole) (hahead : NoDigit ahead)
    (hf : fractionDigits ahead = (fraction, ahead')) :
    readNumber (sign negative ++ (whole ++ ahead)) = numberOf negative whole fraction ahead' := by
  have hhead : (whole ++ ahead).head? ≠ some '-' := by
    rw [List.head?_append_of_ne_nil _ hwhole.nonempty]
    exact fun h => absurd (hwhole.allDigits '-' (List.mem_of_head? h)) (by decide)
  rw [readNumber_eq, splitSign_append hhead, wholeDigits_append hwhole hahead]
  dsimp only
  rw [if_neg fun h => hwhole.nonempty (List.isEmpty_iff.mp h), hf]

theorem readNumber_whole (hwhole : IsWhole whole) (hlength : whole.length ≤ maxNumeralDigits)
    (hahead : EndsNumber ahead) :
    readNumber (sign negative ++ (whole ++ ahead)) =
      .ok (.int (withSign negative (numeralValue whole)), ahead) := by
  have hpoint : ahead.head? ≠ some '.' := fun h => (hahead '.' h).2.1 rfl
  rw [readNumber_append hwhole hahead.noDigit (fractionDigits_of_head_ne hpoint), numberOf,
    exponent?_of_ends hahead]
  dsimp only
  rw [if_neg (by simp), if_neg (Nat.not_lt.mpr hlength), List.append_nil]

theorem readNumber_fraction (hwhole : IsWhole whole) (hfraction : AllDigits fraction)
    (hne : fraction ≠ []) (hahead : EndsNumber ahead) :
    readNumber (sign negative ++ (whole ++ '.' :: (fraction ++ ahead))) =
      .ok (.double (Decimal.toDouble negative
        ⟨numeralValue (whole ++ fraction), -(fraction.length : Int)⟩), ahead) := by
  have hpoint : NoDigit ('.' :: (fraction ++ ahead)) := fun c hc => by
    obtain rfl := Option.some.inj hc
    rfl
  rw [readNumber_append hwhole hpoint (fractionDigits_append hfraction hne hahead.noDigit),
    numberOf, exponent?_of_ends hahead]
  dsimp only
  rw [if_pos (by simpa using hne)]

/-- A point and the digits behind it, if there are any. -/
def pointed (fraction : List Char) : List Char := if fraction = [] then [] else '.' :: fraction

theorem readNumber_exponent {mark power : List Char} {below : Bool} (hwhole : IsWhole whole)
    (hfraction : AllDigits fraction) (hmark : Numeral.IsSign mark below) (hpower : AllDigits power)
    (hne : power ≠ []) (hahead : EndsNumber ahead) :
    readNumber (sign negative ++
        (whole ++ (pointed fraction ++ 'e' :: (mark ++ (power ++ ahead))))) =
      .ok (.double (Decimal.toDouble negative ⟨numeralValue (whole ++ fraction),
        withSign below (numeralValue power) - fraction.length⟩), ahead) := by
  have hletter (cs : List Char) : NoDigit ('e' :: cs) := fun c hc => by
    obtain rfl := Option.some.inj hc
    rfl
  have hread : NoDigit (pointed fraction ++ 'e' :: (mark ++ (power ++ ahead))) ∧
      fractionDigits (pointed fraction ++ 'e' :: (mark ++ (power ++ ahead))) =
        (fraction, 'e' :: (mark ++ (power ++ ahead))) := by
    cases fraction with
    | nil => exact ⟨hletter _, rfl⟩
    | cons d ds =>
        refine ⟨fun c hc => ?_, fractionDigits_append hfraction (List.cons_ne_nil _ _) (hletter _)⟩
        obtain rfl := Option.some.inj hc
        rfl
  rw [readNumber_append hwhole hread.1 hread.2, numberOf,
    exponent?_append hmark hpower hne hahead.noDigit]

/-! ## Written digits -/

theorem allDigits_toDigits (n : Nat) : AllDigits (Nat.toDigits 10 n) :=
  fun _ hc => Nat.isDigit_of_mem_toDigits (by decide) (by decide) hc

theorem numeralValue_toDigits (n : Nat) : numeralValue (Nat.toDigits 10 n) = n := by
  rw [numeralValue_eq_ofDigitChars (allDigits_toDigits n), Nat.ofDigitChars_ten_toDigits]

theorem length_toDigits_le {n k : Nat} (hk : 0 < k) (h : n < Nat.pow 10 k) :
    (Nat.toDigits 10 n).length ≤ k := (Nat.length_toDigits_le_iff (by omega) hk).mpr h

/-- Digits are written without needless zeros. -/
theorem head?_toDigits_ne {n : Nat} (h : n ≠ 0) : (Nat.toDigits 10 n).head? ≠ some '0' := by
  induction n using Nat.strong_induction_on with
  | _ n ih =>
      rcases Nat.lt_or_ge n 10 with hlt | hle
      · rw [Nat.toDigits_of_lt_base hlt]
        have hdigit : ∀ d < 10, d ≠ 0 → Nat.digitChar d ≠ '0' := by decide
        exact fun hhead => hdigit n hlt h (Option.some.inj hhead)
      · rw [Nat.toDigits_of_base_le (by omega) hle,
          List.head?_append_of_ne_nil _ Nat.toDigits_ne_nil]
        exact ih (n / 10) (by omega) (by omega)

theorem isWhole_toDigits (n : Nat) : IsWhole (Nat.toDigits 10 n) := by
  by_cases h : n = 0
  · subst h
    exact isWhole_zero
  · exact isWhole_of_head_ne (allDigits_toDigits n) Nat.toDigits_ne_nil (head?_toDigits_ne h)

theorem AllDigits.append {cs ds : List Char} (hcs : AllDigits cs) (hds : AllDigits ds) :
    AllDigits (cs ++ ds) :=
  fun c hc => (List.mem_append.mp hc).elim (hcs c) (hds c)

theorem allDigits_zeros (k : Nat) : AllDigits (List.replicate k '0') := by
  intro c hc
  rw [List.eq_of_mem_replicate hc]
  rfl

theorem numeralValue_zeros_append (k : Nat) (h : AllDigits digits) :
    numeralValue (List.replicate k '0' ++ digits) = numeralValue digits := by
  rw [numeralValue_eq_ofDigitChars (AllDigits.append (allDigits_zeros k) h),
    numeralValue_eq_ofDigitChars h, Nat.ofDigitChars_append, Nat.ofDigitChars_replicate_zero,
    Nat.mul_zero]

theorem numeralValue_append_zeros (k : Nat) (h : AllDigits digits) :
    numeralValue (digits ++ List.replicate k '0') = numeralValue digits * 10 ^ k := by
  rw [numeralValue_eq_ofDigitChars (AllDigits.append h (allDigits_zeros k)),
    numeralValue_eq_ofDigitChars h, Nat.ofDigitChars_append, Nat.ofDigitChars_replicate_zero,
    Nat.mul_comm]

/-! ## Written whole numbers -/

theorem withSign_natAbs (i : Int) : withSign (decide (i < 0)) i.natAbs = i := by
  unfold withSign
  by_cases h : i < 0
  · rw [decide_eq_true h, if_pos rfl]
    omega
  · rw [decide_eq_false h, if_neg (by simp)]
    omega

theorem toList_toString_int (i : Int) :
    (toString i).toList = sign (decide (i < 0)) ++ Nat.toDigits 10 i.natAbs := by
  cases i with
  | ofNat n =>
      have hnonneg : ¬ Int.ofNat n < 0 := Int.not_lt.mpr (Int.natCast_nonneg n)
      rw [decide_eq_false hnonneg]
      exact toList_toString n
  | negSucc n =>
      have hneg : Int.negSucc n < 0 := Int.negSucc_lt_zero n
      rw [decide_eq_true hneg]
      show ("-" ++ toString (n + 1)).toList = '-' :: Nat.toDigits 10 (n + 1)
      rw [String.toList_append, toList_toString]
      rfl

/-- **A whole number is read as it is written**, unless it is too long to be written. -/
theorem readNumber_toString {i : Int} (hi : (Atom.int i).tooLong = false)
    (hahead : EndsNumber ahead) :
    readNumber ((toString i).toList ++ ahead) = .ok (.int i, ahead) := by
  have hlength : (Nat.toDigits 10 i.natAbs).length ≤ maxNumeralDigits := by
    have hbound : decide (Nat.pow 10 maxNumeralDigits ≤ i.natAbs) = false := hi
    exact length_toDigits_le (by decide) (Nat.not_le.mp (decide_eq_false_iff_not.mp hbound))
  rw [toList_toString_int, List.append_assoc,
    readNumber_whole (isWhole_toDigits _) hlength hahead, numeralValue_toDigits, withSign_natAbs]

/-! ## Written doubles -/

section

variable {exponent : Int} {ahead : List Char}

/-- Digits that are cut behind at least one of them are those of a whole part. -/
theorem isWhole_take {n : Nat} (hall : AllDigits digits) (hne : digits ≠ [])
    (hhead : digits.head? ≠ some '0') (hn : 0 < n) : IsWhole (digits.take n) := by
  refine isWhole_of_head_ne (fun c hc => hall c (List.mem_of_mem_take hc)) ?_ ?_
  · rw [ne_eq, List.take_eq_nil_iff]
    exact not_or.mpr ⟨by omega, hne⟩
  · rw [List.head?_take, if_neg (by omega)]
    exact hhead

/-- Positional digits are those of a whole part and of a fraction, perhaps with zeros behind
them. -/
theorem exists_positional (hall : AllDigits digits) (hne : digits ≠ [])
    (hhead : digits.head? ≠ some '0') (exponent : Int) :
    ∃ (whole fraction : List Char) (zeros : Nat),
      NumberForm.positional digits exponent = whole ++ '.' :: fraction ∧
      IsWhole whole ∧ AllDigits fraction ∧ fraction ≠ [] ∧
      numeralValue (whole ++ fraction) = numeralValue digits * 10 ^ zeros ∧
      -(fraction.length : Int) + zeros = exponent - (digits.length - 1 : Nat) := by
  have hlength : 0 < digits.length := List.length_pos_iff.mpr hne
  unfold NumberForm.positional
  split
  · rename_i hneg
    refine ⟨['0'], List.replicate ((-exponent).toNat - 1) '0' ++ digits, 0, rfl, isWhole_zero,
      AllDigits.append (allDigits_zeros _) hall, by simp [hne], ?_, ?_⟩
    · rw [Nat.pow_zero, Nat.mul_one, ← numeralValue_zeros_append ((-exponent).toNat - 1 + 1) hall,
        List.replicate_succ]
      rfl
    · rw [List.length_append, List.length_replicate]
      omega
  · rename_i hnonneg
    dsimp only
    rcases Nat.lt_or_ge (exponent.toNat + 1) digits.length with hlt | hle
    · -- The point stands between two of the digits.
      have hpadding : exponent.toNat + 1 - digits.length = 0 := by omega
      have hdrop : digits.drop (exponent.toNat + 1) ≠ [] := by
        rw [ne_eq, List.drop_eq_nil_iff]
        omega
      rw [hpadding, List.replicate_zero, List.append_nil,
        if_neg fun h => hdrop (List.isEmpty_iff.mp h)]
      refine ⟨_, _, 0, rfl, isWhole_take hall hne hhead (Nat.succ_pos _),
        fun c hc => hall c (List.mem_of_mem_drop hc), hdrop, ?_, ?_⟩
      · rw [List.take_append_drop, Nat.pow_zero, Nat.mul_one]
      · rw [List.length_drop]
        omega
    · -- Zeros fill the places up to the point, and one stands behind it.
      obtain ⟨padding, hpadding⟩ : ∃ k, exponent.toNat + 1 = digits.length + k :=
        ⟨exponent.toNat + 1 - digits.length, by omega⟩
      have hpadded := AllDigits.append hall (allDigits_zeros padding)
      have hfull : (digits ++ List.replicate padding '0').length = digits.length + padding := by
        rw [List.length_append, List.length_replicate]
      have hwhole : IsWhole (digits ++ List.replicate padding '0') := by
        refine isWhole_of_head_ne hpadded (List.append_ne_nil_of_left_ne_nil hne _) ?_
        rwa [List.head?_append_of_ne_nil _ hne]
      rw [hpadding, Nat.add_sub_cancel_left, List.take_of_length_le hfull.le,
        List.drop_of_length_le hfull.le, if_pos List.isEmpty_nil]
      refine ⟨_, ['0'], padding + 1, rfl, hwhole, allDigits_zeros 1, List.cons_ne_nil _ _, ?_, ?_⟩
      · have hzeros : List.replicate padding '0' ++ ['0'] = List.replicate (padding + 1) '0' :=
          List.replicate_succ'.symm
        rw [List.append_assoc, hzeros, numeralValue_append_zeros _ hall]
      · rw [List.length_singleton]
        omega

/-- The digits of a decimal with the exponent of the leading one are that decimal. -/
theorem readNumber_positional (negative : Bool) {d : Decimal} (hd : d.digits ≠ 0)
    (hahead : EndsNumber ahead)
    (hexponent : d.exponent = exponent - ((Nat.toDigits 10 d.digits).length - 1 : Nat)) :
    ∃ e : Decimal, e.Same d ∧
      readNumber (sign negative ++
          (NumberForm.positional (Nat.toDigits 10 d.digits) exponent ++ ahead)) =
        .ok (.double (e.toDouble negative), ahead) := by
  obtain ⟨whole, fraction, zeros, hwritten, hwhole, hfraction, hne, hvalue, hlength⟩ :=
    exists_positional (allDigits_toDigits d.digits) Nat.toDigits_ne_nil (head?_toDigits_ne hd)
      exponent
  rw [numeralValue_toDigits] at hvalue
  rw [hwritten, List.append_assoc]
  refine ⟨_, ?_, readNumber_fraction hwhole hfraction hne hahead⟩
  have hshift := Decimal.same_shift d.digits (-(fraction.length : Int)) zeros
  rw [hlength, ← hexponent] at hshift
  rw [hvalue]
  exact hshift

/-- The scientific form has one digit in front of the point and the others behind it. -/
theorem scientific_cons (n : NumberForm) (c : Char) (cs : List Char) (exponent : Int) :
    ∃ mark zeros, Numeral.IsSign mark (decide (exponent < 0)) ∧
      n.scientific (c :: cs) exponent = [c] ++ (pointed cs ++ 'e' :: (mark ++
        (List.replicate zeros '0' ++ (toString exponent.natAbs).toList))) := by
  refine ⟨[if exponent < 0 then '-' else '+'],
    n.exponentWidth - (toString exponent.natAbs).toList.length, ?_, ?_⟩
  · by_cases h : exponent < 0
    · rw [decide_eq_true h, if_pos h]
      exact .minus
    · rw [decide_eq_false h, if_neg h]
      exact .plus
  · unfold NumberForm.scientific
    cases cs <;> simp [pointed]

theorem readNumber_scientific (n : NumberForm) {d : Decimal} (hd : d.digits ≠ 0)
    (hahead : EndsNumber ahead)
    (hexponent : d.exponent = exponent - ((Nat.toDigits 10 d.digits).length - 1 : Nat)) :
    readNumber (sign negative ++
        (n.scientific (Nat.toDigits 10 d.digits) exponent ++ ahead)) =
      .ok (.double (d.toDouble negative), ahead) := by
  have hall := allDigits_toDigits d.digits
  have hvalue := numeralValue_toDigits d.digits
  have hhead := head?_toDigits_ne hd
  cases hdigits : Nat.toDigits 10 d.digits with
  | nil => exact absurd hdigits Nat.toDigits_ne_nil
  | cons c cs =>
      rw [hdigits] at hall hvalue hhead hexponent
      obtain ⟨mark, zeros, hmark, hwritten⟩ := scientific_cons n c cs exponent
      obtain ⟨hc, hcs⟩ := List.forall_mem_cons.mp hall
      have hwhole : IsWhole [c] :=
        isWhole_of_head_ne (List.forall_mem_singleton.mpr hc) (List.cons_ne_nil _ _) hhead
      have hpower := allDigits_toDigits exponent.natAbs
      have hread : readNumber (sign negative ++ _) = _ := readNumber_exponent hwhole hcs hmark
        (AllDigits.append (allDigits_zeros zeros) hpower)
        (List.append_ne_nil_of_right_ne_nil _ Nat.toDigits_ne_nil) hahead
      have habs : withSign (decide (exponent < 0)) exponent.natAbs - cs.length = d.exponent := by
        rw [hexponent, withSign_natAbs]
        rfl
      have hdigits' : numeralValue ([c] ++ cs) = d.digits := hvalue
      rw [numeralValue_zeros_append _ hpower, numeralValue_toDigits, habs, hdigits'] at hread
      rw [hwritten, toList_toString]
      simpa only [List.append_assoc, List.cons_append] using hread

/-- A number is written with such characters only. -/
def IsNumeric (c : Char) : Prop := c.isDigit = true ∨ c ∈ ['-', '+', '.', 'e']

theorem AllDigits.isNumeric (h : AllDigits digits) : ∀ c ∈ digits, IsNumeric c :=
  fun c hc => .inl (h c hc)

theorem isNumeric_scientific (n : NumberForm) {c : Char} {cs : List Char}
    (hall : AllDigits (c :: cs)) (exponent : Int) :
    ∃ rest, n.scientific (c :: cs) exponent = c :: rest ∧ ∀ d ∈ rest, IsNumeric d := by
  obtain ⟨mark, zeros, hmark, hwritten⟩ := scientific_cons n c cs exponent
  refine ⟨pointed cs ++ 'e' :: (mark ++
    (List.replicate zeros '0' ++ (toString exponent.natAbs).toList)), hwritten, ?_⟩
  have hcs := (List.forall_mem_cons.mp hall).2
  have hpointed : ∀ d ∈ pointed cs, IsNumeric d := by
    unfold pointed
    split
    · exact List.forall_mem_nil _
    · exact List.forall_mem_cons.mpr ⟨.inr (by decide), AllDigits.isNumeric hcs⟩
  have hsign : ∀ d ∈ mark, IsNumeric d := by
    generalize decide (exponent < 0) = below at hmark
    cases hmark with
    | none => exact List.forall_mem_nil _
    | plus => exact List.forall_mem_singleton.mpr (.inr (by decide))
    | minus => exact List.forall_mem_singleton.mpr (.inr (by decide))
  have hpower : ∀ d ∈ List.replicate zeros '0' ++ (toString exponent.natAbs).toList,
      IsNumeric d := by
    rw [toList_toString]
    exact AllDigits.isNumeric (AllDigits.append (allDigits_zeros _) (allDigits_toDigits _))
  intro d hd
  rcases List.mem_append.mp hd with hd | hd
  · exact hpointed d hd
  · rcases List.mem_cons.mp hd with rfl | hd
    · exact .inr (by decide)
    · exact (List.mem_append.mp hd).elim (hsign d) (hpower d)

/-- A magnitude starts with a digit. -/
theorem exists_digit_magnitude (n : NumberForm) (rank : Nat) :
    ∃ c rest, n.magnitude rank = c :: rest ∧ c.isDigit = true ∧ ∀ d ∈ rest, IsNumeric d := by
  unfold NumberForm.magnitude
  split
  · exact ⟨_, _, rfl, rfl, List.forall_mem_cons.mpr ⟨.inr (by decide),
      List.forall_mem_singleton.mpr (.inl rfl)⟩⟩
  · rename_i hrank
    have hd := Decimal.digits_ofMagnitude_ne_zero hrank
    have hall := allDigits_toDigits (Decimal.ofMagnitude rank).digits
    dsimp only
    split
    · obtain ⟨whole, fraction, _, hwritten, hwhole, hfraction, -⟩ :=
        exists_positional hall Nat.toDigits_ne_nil (head?_toDigits_ne hd) _
      rw [hwritten]
      cases whole with
      | nil => exact absurd rfl hwhole.nonempty
      | cons c cs =>
          obtain ⟨hc, hcs⟩ := List.forall_mem_cons.mp hwhole.allDigits
          refine ⟨c, _, rfl, hc, fun d hd => ?_⟩
          rcases List.mem_append.mp hd with hd | hd
          · exact .inl (hcs d hd)
          · rcases List.mem_cons.mp hd with rfl | hd
            · exact .inr (by decide)
            · exact .inl (hfraction d hd)
    · cases hdigits : Nat.toDigits 10 (Decimal.ofMagnitude rank).digits with
      | nil => exact absurd hdigits Nat.toDigits_ne_nil
      | cons c cs =>
          rw [hdigits] at hall
          obtain ⟨rest, hwritten, hrest⟩ := isNumeric_scientific n hall _
          exact ⟨c, rest, hwritten, (List.forall_mem_cons.mp hall).1, hrest⟩

/-- **A double is read as it is written**, by whatever form its notation is chosen. -/
theorem readNumber_magnitude (n : NumberForm) (negative : Bool) (rank : Fin Double.rankCount)
    (hahead : EndsNumber ahead) :
    readNumber (sign negative ++ (n.magnitude rank ++ ahead)) =
      .ok (.double (.finite negative rank), ahead) := by
  unfold NumberForm.magnitude
  split
  -- Zero has a spelling of its own, since the search is for digits that do not start with one.
  · rename_i hzero
    have hread : readNumber (sign negative ++ _) = _ :=
      readNumber_fraction isWhole_zero (allDigits_zeros 1) (List.cons_ne_nil _ _) hahead
    have hdouble : Decimal.toDouble negative ⟨numeralValue (['0'] ++ List.replicate 1 '0'), -1⟩ =
        .finite negative rank := by
      rw [Decimal.toDouble_eq_ofRatio]
      refine Double.ofRatio_of_nearestRank_eq ?_ negative
      rw [hzero]
      exact Double.nearestRank_zero (Decimal.ratio_snd_pos _)
    rw [List.length_replicate, Nat.cast_one, hdouble] at hread
    exact hread
  · rename_i hrank
    have hd := Decimal.digits_ofMagnitude_ne_zero hrank
    have hexponent (e : Int) (k : Nat) : e = e + k - k := (Int.add_sub_cancel e k).symm
    dsimp only
    split
    · obtain ⟨e, hsame, hread⟩ := readNumber_positional negative hd hahead (hexponent _ _)
      rw [hread, Decimal.toDouble_of_same hsame]
    · rw [readNumber_scientific n hd hahead (hexponent _ _), Decimal.toDouble_of_same rfl]

end

end LooseData.Json
