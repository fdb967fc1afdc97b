import LooseData.Number.Coercion
import LooseData.Proofs.Layer.Index
import Mathlib.Data.List.Forall2
import Mathlib.Data.Nat.Digits.Defs
import Mathlib.Tactic.IntervalCases

set_option autoImplicit false

/-! # The grammar of numerals

A numeral is what a text can spell a number with: digits with an optional sign, a decimal with an
optional sign and exponent, the word `Infinity` with an optional sign, or digits of another base
behind a mark for the base (`Numeral.IsNumeral`). All of it is ASCII. Digits come with their values,
so that the number that they stand for is a sum of powers of the base (`Numeral.value`).
-/

namespace LooseData.Numeral

/-! ## Signs, digits and bases -/

/-- An optional sign, and whether it is a minus. -/
inductive IsSign : List Char → Bool → Prop where
  | none : IsSign [] false
  | plus : IsSign ['+'] false
  | minus : IsSign ['-'] true

/-- The character is the digit of a value, a letter in either case. -/
def IsDigit (d : Nat) (c : Char) : Prop := c = d.digitChar ∨ c = d.digitChar.toUpper

/-- Digits of a base with their values, at least one. -/
structure IsDigits (base : Nat) (cs : List Char) (ds : List Nat) : Prop where
  nonempty : ds ≠ []
  lt : ∀ d ∈ ds, d < base
  spelled : List.Forall₂ IsDigit ds cs

/-- The number that digits stand for, the most significant one first. -/
def value (base : Nat) (ds : List Nat) : Nat := Nat.ofDigits base ds.reverse

/-- The letter that marks a base, in either case. -/
inductive IsBase : Char → Nat → Prop where
  | hexadecimal {c : Char} (h : c = 'x' ∨ c = 'X') : IsBase c 16
  | octal {c : Char} (h : c = 'o' ∨ c = 'O') : IsBase c 8
  | binary {c : Char} (h : c = 'b' ∨ c = 'B') : IsBase c 2

/-! ## Decimals -/

/-- The text consists of decimal digits. -/
def AllDigits (cs : List Char) : Prop := ∀ c ∈ cs, c.isDigit = true

/-- Decimal digits with or without a point. A point has a digit before it or after it. -/
inductive IsMantissa : List Char → Prop where
  | whole {digits : List Char} (h : AllDigits digits) (hne : digits ≠ []) : IsMantissa digits
  | point {whole fraction : List Char} (hwhole : AllDigits whole) (hfraction : AllDigits fraction)
      (hne : whole ≠ [] ∨ fraction ≠ []) : IsMantissa (whole ++ '.' :: fraction)

/-- An optional exponent, with an optional sign of its own. -/
inductive IsExponent : List Char → Prop where
  | none : IsExponent []
  | power {mark : Char} {sign digits : List Char} {negative : Bool}
      (hmark : mark = 'e' ∨ mark = 'E') (hsign : IsSign sign negative)
      (hdigits : AllDigits digits) (hne : digits ≠ []) :
      IsExponent (mark :: (sign ++ digits))

/-- The spellings of numbers. -/
inductive IsNumeral : List Char → Prop where
  | integer {sign digits : List Char} {negative : Bool} {ds : List Nat}
      (hsign : IsSign sign negative) (hdigits : IsDigits 10 digits ds) : IsNumeral (sign ++ digits)
  | decimal {sign mantissa exponent : List Char} {negative : Bool} (hsign : IsSign sign negative)
      (hmantissa : IsMantissa mantissa) (hexponent : IsExponent exponent) :
      IsNumeral (sign ++ (mantissa ++ exponent))
  | infinity {sign : List Char} {negative : Bool} (hsign : IsSign sign negative) :
      IsNumeral (sign ++ "Infinity".toList)
  | based {mark : Char} {base : Nat} {digits : List Char} {ds : List Nat}
      (hbase : IsBase mark base) (hdigits : IsDigits base digits ds) :
      IsNumeral ('0' :: mark :: digits)

/-! ## Values of digits -/

variable {base d : Nat} {c : Char} {cs : List Char} {ds : List Nat}

theorem value_cons (base d : Nat) (ds : List Nat) :
    value base (d :: ds) = value base ds + base ^ ds.length * d := Nat.ofDigits_reverse_cons ds d

/-- Reading digits from the left adds each to the base times those before it. -/
theorem foldl_eq_value (base n : Nat) (ds : List Nat) :
    ds.foldl (fun n d => n * base + d) n = n * base ^ ds.length + value base ds := by
  induction ds generalizing n with
  | nil => simp [value]
  | cons d rest ih =>
      rw [List.foldl_cons, ih, value_cons, List.length_cons]
      ring

/-- The codes of the letters that are digits. -/
theorem toNat_digitChar_of_lt_sixteen (hten : 10 ≤ d) (hlt : d < 16) :
    d.digitChar.toNat = 87 + d ∧ d.digitChar.toUpper.toNat = 55 + d := by
  interval_cases d <;> exact ⟨rfl, rfl⟩

theorem toNat_bounds_of_le {low high c : Char} (h : low ≤ c ∧ c ≤ high) :
    low.toNat ≤ c.toNat ∧ c.toNat ≤ high.toNat :=
  ⟨UInt32.le_iff_toNat_le.mp (Char.le_def.mp h.1), UInt32.le_iff_toNat_le.mp (Char.le_def.mp h.2)⟩

/-- The digits up to fifteen are those that are read as hexadecimal. -/
theorem hexValue?_eq_some_iff : Json.hexValue? c = some d ↔ d < 16 ∧ IsDigit d c := by
  constructor
  · intro h
    -- Characters are the same if their codes are, and codes are a matter of arithmetic.
    have hcode : d < 16 ∧ (c.toNat = d.digitChar.toNat ∨ c.toNat = d.digitChar.toUpper.toNat) := by
      unfold Json.hexValue? at h
      split at h
      · rename_i hdigit
        obtain ⟨hlow, hhigh⟩ : 48 ≤ c.toNat ∧ c.toNat ≤ 57 := Char.isDigit_iff_toNat.mp hdigit
        obtain rfl : c.toNat - 48 = d := Option.some.inj h
        have hten : c.toNat - 48 < 10 := by omega
        exact ⟨by omega, .inl (by rw [Nat.toNat_digitChar_of_lt_ten hten]; omega)⟩
      · split at h
        · rename_i hletter
          obtain ⟨hlow, hhigh⟩ : 97 ≤ c.toNat ∧ c.toNat ≤ 102 := toNat_bounds_of_le hletter
          obtain rfl : c.toNat - 97 + 10 = d := Option.some.inj h
          have hsmall := (toNat_digitChar_of_lt_sixteen (d := c.toNat - 97 + 10)
            (by omega) (by omega)).1
          exact ⟨by omega, .inl (by omega)⟩
        · split at h
          · rename_i hletter
            obtain ⟨hlow, hhigh⟩ : 65 ≤ c.toNat ∧ c.toNat ≤ 70 := toNat_bounds_of_le hletter
            obtain rfl : c.toNat - 65 + 10 = d := Option.some.inj h
            have hcapital := (toNat_digitChar_of_lt_sixteen (d := c.toNat - 65 + 10)
              (by omega) (by omega)).2
            exact ⟨by omega, .inr (by omega)⟩
          · cases h
    exact ⟨hcode.1, hcode.2.imp Char.toNat_inj.mp Char.toNat_inj.mp⟩
  · rintro ⟨hlt, rfl | rfl⟩
    · interval_cases d <;> rfl
    · interval_cases d <;> rfl

/-- A digit below ten is a decimal digit, and its code tells its value. -/
theorem IsDigit.decimal (h : IsDigit d c) (hlt : d < 10) :
    c.isDigit = true ∧ c.toNat - 48 = d := by
  have hupper : d.digitChar.toUpper = d.digitChar := by interval_cases d <;> rfl
  obtain rfl : c = d.digitChar := by
    rcases h with rfl | rfl
    · rfl
    · exact hupper
  refine ⟨by rw [Nat.isDigit_digitChar, decide_eq_true hlt], ?_⟩
  rw [Nat.toNat_digitChar_of_lt_ten hlt, Nat.add_sub_cancel_left]

theorem isDigit_of_decimal (h : c.isDigit = true) :
    c.toNat - 48 < 10 ∧ IsDigit (c.toNat - 48) c := by
  obtain ⟨hlow, hhigh⟩ : 48 ≤ c.toNat ∧ c.toNat ≤ 57 := Char.isDigit_iff_toNat.mp h
  have hlt : c.toNat - 48 < 10 := by omega
  refine ⟨hlt, .inl (Char.toNat_inj.mp ?_)⟩
  rw [Nat.toNat_digitChar_of_lt_ten hlt]
  omega

theorem IsDigits.ne_nil (h : IsDigits base cs ds) : cs ≠ [] := by
  rintro rfl
  exact h.nonempty (List.forall₂_nil_right_iff.mp h.spelled)

/-- The values of decimal digits. -/
def decimalValues (cs : List Char) : List Nat := cs.map fun c => c.toNat - 48

/-- **Digits of the base ten** are decimal digits, and their codes tell their values. -/
theorem isDigits_ten_iff :
    IsDigits 10 cs ds ↔ cs ≠ [] ∧ AllDigits cs ∧ ds = decimalValues cs := by
  constructor
  · intro h
    refine ⟨h.ne_nil, ?_⟩
    -- The induction is on how the digits are spelled, and the bound on them goes along.
    have hlt := h.lt
    have hspelled := h.spelled
    clear h
    induction hspelled with
    | nil => exact ⟨nofun, rfl⟩
    | cons hdigit _ ih =>
        obtain ⟨hd, hrest⟩ := List.forall_mem_cons.mp hlt
        obtain ⟨hall, hvalues⟩ := ih hrest
        obtain ⟨hc, hvalue⟩ := hdigit.decimal hd
        refine ⟨List.forall_mem_cons.mpr ⟨hc, hall⟩, ?_⟩
        rw [hvalues, ← hvalue]
        rfl
  · rintro ⟨hne, hall, rfl⟩
    constructor
    · simpa [decimalValues] using hne
    · intro d hd
      obtain ⟨c, hc, rfl⟩ := List.mem_map.mp hd
      exact (isDigit_of_decimal (hall c hc)).1
    · rw [decimalValues, List.forall₂_map_left_iff, List.forall₂_same]
      exact fun c hc => (isDigit_of_decimal (hall c hc)).2

theorem numeralValue_eq_value (h : AllDigits cs) :
    numeralValue cs = value 10 (decimalValues cs) := by
  have hfold : numeralValue cs = (decimalValues cs).foldl (fun n d => n * 10 + d) 0 := by
    rw [numeralValue, decimalValues, List.foldl_map]
    apply List.foldl_ext
    intro n c hc
    rw [decimalValue?_of_isDigit (h c hc), Option.getD_some, Nat.mul_comm]
  rw [hfold, foldl_eq_value, Nat.zero_mul, Nat.zero_add]

end LooseData.Numeral
