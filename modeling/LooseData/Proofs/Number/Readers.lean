import LooseData.Proofs.Data
import LooseData.Proofs.Json.Ahead
import LooseData.Proofs.Number.Grammar

set_option autoImplicit false

/-! # Readers of numerals

Four readers accept one kind of numeral of the grammar each, except that the first refuses more
than `maxNumeralDigits` digits, which the last then reads as a decimal. So numerals are the texts
that one of them reads (`isNumeral_iff`), and the whole numbers are those that the digits stand for.
-/

namespace LooseData.Numeral

variable {cs ahead sign digits : List Char} {negative : Bool} {ds : List Nat} {d base : Nat}
  {c : Char}

/-! ## Signs -/

/-- The text does not start with a sign. -/
def Unsigned (cs : List Char) : Prop := ∀ c, cs.head? = some c → c ≠ '-' ∧ c ≠ '+'

/-- The reader of signs splits the text. -/
theorem exists_sign (cs : List Char) :
    ∃ sign, IsSign sign (signed cs).1 ∧ cs = sign ++ (signed cs).2 := by
  unfold signed
  split
  · exact ⟨_, .minus, rfl⟩
  · exact ⟨_, .plus, rfl⟩
  · exact ⟨_, .none, rfl⟩

theorem signed_append (hsign : IsSign sign negative) (h : Unsigned cs) :
    signed (sign ++ cs) = (negative, cs) := by
  cases hsign with
  | none =>
      rw [List.nil_append]
      unfold signed
      split
      · exact absurd rfl (h '-' rfl).1
      · exact absurd rfl (h '+' rfl).2
      · rfl
  | plus => rfl
  | minus => rfl

theorem unsigned_of_isDigit (h : ∀ c, cs.head? = some c → c.isDigit = true) : Unsigned cs := by
  intro c hc
  have hdigit := h c hc
  constructor
  · rintro rfl
    cases hdigit
  · rintro rfl
    cases hdigit

theorem AllDigits.unsigned (h : AllDigits cs) : Unsigned cs :=
  unsigned_of_isDigit fun c hc => h c (List.mem_of_head? hc)

/-! ## Whole numbers -/

theorem integer?_eq_some_iff_signed {i : Int} :
    integer? cs = some i ↔ ((signed cs).2 ≠ [] ∧ AllDigits (signed cs).2 ∧
      (signed cs).2.length ≤ maxNumeralDigits) ∧
      i = withSign (signed cs).1 (numeralValue (signed cs).2) := by
  unfold integer?
  generalize signed cs = read
  obtain ⟨negative, digits⟩ := read
  dsimp only
  have hrefused : (digits.isEmpty || !digits.all Char.isDigit ||
      decide (maxNumeralDigits < digits.length)) = true ↔
      ¬ (digits ≠ [] ∧ AllDigits digits ∧ digits.length ≤ maxNumeralDigits) := by
    simp only [AllDigits, Bool.or_eq_true, List.isEmpty_iff, Bool.not_eq_true', ← Bool.not_eq_true,
      List.all_eq_true, decide_eq_true_eq, not_and_or, ne_eq, not_not, Nat.not_le, or_assoc]
  split
  · rename_i h
    simp [hrefused.mp h]
  · rename_i h
    rw [hrefused, not_not] at h
    simp [h, eq_comm]

/-- **Whole numbers** that are read have digits with an optional sign, not too many. -/
theorem integer?_eq_some_iff {i : Int} :
    integer? cs = some i ↔ ∃ sign negative digits ds, IsSign sign negative ∧
      IsDigits 10 digits ds ∧ cs = sign ++ digits ∧ digits.length ≤ maxNumeralDigits ∧
      i = withSign negative (value 10 ds) := by
  rw [integer?_eq_some_iff_signed]
  constructor
  · rintro ⟨⟨hne, hall, hlength⟩, rfl⟩
    obtain ⟨sign, hsign, hcs⟩ := exists_sign cs
    refine ⟨sign, _, _, _, hsign, isDigits_ten_iff.mpr ⟨hne, hall, rfl⟩, hcs, hlength, ?_⟩
    rw [numeralValue_eq_value hall]
  · rintro ⟨sign, negative, digits, ds, hsign, hdigits, rfl, hlength, rfl⟩
    obtain ⟨hne, hall, rfl⟩ := isDigits_ten_iff.mp hdigits
    rw [signed_append hsign hall.unsigned]
    refine ⟨⟨hne, hall, hlength⟩, ?_⟩
    rw [numeralValue_eq_value hall]

/-! ## Literals with a mark for their base -/

theorem base?_eq_some_iff : base? c = some base ↔ IsBase c base := by
  constructor
  · intro h
    unfold base? at h
    split at h
    · rename_i hc
      obtain rfl := Option.some.inj h
      exact .hexadecimal hc
    · split at h
      · rename_i hc
        obtain rfl := Option.some.inj h
        exact .octal hc
      · split at h
        · rename_i hc
          obtain rfl := Option.some.inj h
          exact .binary hc
        · cases h
  · intro h
    cases h with
    | hexadecimal h => rcases h with rfl | rfl <;> rfl
    | octal h => rcases h with rfl | rfl <;> rfl
    | binary h => rcases h with rfl | rfl <;> rfl

theorem IsBase.le_sixteen (h : IsBase c base) : base ≤ 16 := by
  cases h <;> omega

/-- Reading digits one after another, behind those that make up a number already. -/
theorem foldlM_digits_eq_some_iff (hbase : base ≤ 16) {m n : Nat} :
    cs.foldlM (fun n c => do
        let d ← Json.hexValue? c
        if d < base then pure (n * base + d) else none) m = some n ↔
      ∃ ds, (∀ d ∈ ds, d < base) ∧ List.Forall₂ IsDigit ds cs ∧
        n = ds.foldl (fun n d => n * base + d) m := by
  -- Each step goes on with another number in place of `m`.
  induction cs generalizing m with
  | nil =>
      constructor
      · intro h
        exact ⟨[], nofun, .nil, (Option.some.inj h).symm⟩
      · rintro ⟨ds, -, hspelled, rfl⟩
        obtain rfl := List.forall₂_nil_right_iff.mp hspelled
        rfl
  | cons c rest ih =>
      rw [List.foldlM_cons]
      constructor
      · intro h
        obtain ⟨m', hstep, hrest⟩ := Option.bind_eq_some_iff.mp h
        obtain ⟨d, hd, hstep⟩ := Option.bind_eq_some_iff.mp hstep
        split at hstep
        · rename_i hlt
          obtain rfl := Option.some.inj hstep
          obtain ⟨ds, hds, hspelled, rfl⟩ := ih.mp hrest
          refine ⟨d :: ds, List.forall_mem_cons.mpr ⟨hlt, hds⟩, ?_, rfl⟩
          exact .cons (hexValue?_eq_some_iff.mp hd).2 hspelled
        · cases hstep
      · rintro ⟨ds, hds, hspelled, rfl⟩
        cases hspelled with
        | @cons d _ ds _ hdigit hspelled =>
            obtain ⟨hlt, hds⟩ := List.forall_mem_cons.mp hds
            have hd : Json.hexValue? c = some d :=
              hexValue?_eq_some_iff.mpr ⟨hlt.trans_le hbase, hdigit⟩
            refine Option.bind_eq_some_iff.mpr ⟨m * base + d, ?_, ih.mpr ⟨ds, hds, hspelled, rfl⟩⟩
            refine Option.bind_eq_some_iff.mpr ⟨d, hd, ?_⟩
            rw [if_pos hlt]
            rfl

theorem digitsInBase?_eq_some_iff (hbase : base ≤ 16) {n : Nat} :
    digitsInBase? base cs = some n ↔ ∃ ds, IsDigits base cs ds ∧ n = value base ds := by
  unfold digitsInBase?
  cases cs with
  | nil =>
      constructor
      · nofun
      · rintro ⟨ds, hdigits, -⟩
        exact absurd rfl hdigits.ne_nil
  | cons c rest =>
      rw [List.isEmpty_cons, if_neg Bool.false_ne_true, foldlM_digits_eq_some_iff hbase]
      constructor
      · rintro ⟨ds, hlt, hspelled, rfl⟩
        have hne : ds ≠ [] := by
          rintro rfl
          cases hspelled
        refine ⟨ds, ⟨hne, hlt, hspelled⟩, ?_⟩
        rw [foldl_eq_value, Nat.zero_mul, Nat.zero_add]
      · rintro ⟨ds, hdigits, rfl⟩
        refine ⟨ds, hdigits.lt, hdigits.spelled, ?_⟩
        rw [foldl_eq_value, Nat.zero_mul, Nat.zero_add]

/-- The whole number of a literal with a mark for its base. -/
def prefixed? : List Char → Option Nat
  | '0' :: c :: cs => (base? c).bind fun base => digitsInBase? base cs
  | _ => none

/-- **Literals with a mark for their base** that are read have digits of the base. -/
theorem prefixed?_eq_some_iff {n : Nat} :
    prefixed? cs = some n ↔ ∃ mark base digits ds, IsBase mark base ∧ IsDigits base digits ds ∧
      cs = '0' :: mark :: digits ∧ n = value base ds := by
  constructor
  · intro h
    unfold prefixed? at h
    split at h
    · obtain ⟨base, hbase, hdigits⟩ := Option.bind_eq_some_iff.mp h
      have hmark := base?_eq_some_iff.mp hbase
      obtain ⟨ds, hds, rfl⟩ := (digitsInBase?_eq_some_iff hmark.le_sixteen).mp hdigits
      exact ⟨_, base, _, ds, hmark, hds, rfl, rfl⟩
    · cases h
  · rintro ⟨mark, base, digits, ds, hmark, hds, rfl, rfl⟩
    refine Option.bind_eq_some_iff.mpr ⟨base, base?_eq_some_iff.mpr hmark, ?_⟩
    exact (digitsInBase?_eq_some_iff hmark.le_sixteen).mpr ⟨ds, hds, rfl⟩

/-! ## Infinities -/

/-- The infinity of its name with an optional sign. -/
def infinity? (cs : List Char) : Option Double :=
  let (negative, cs) := signed cs
  if cs = "Infinity".toList then some (.infinite negative) else none

/-- **Infinities** that are read are spelled out, with an optional sign. -/
theorem infinity?_eq_some_iff {x : Double} :
    infinity? cs = some x ↔ ∃ sign negative, IsSign sign negative ∧
      cs = sign ++ "Infinity".toList ∧ x = .infinite negative := by
  unfold infinity?
  dsimp only
  constructor
  · intro h
    split at h
    · rename_i hname
      obtain ⟨sign, hsign, hcs⟩ := exists_sign cs
      rw [hname] at hcs
      exact ⟨sign, _, hsign, hcs, (Option.some.inj h).symm⟩
    · cases h
  · rintro ⟨sign, negative, hsign, rfl, rfl⟩
    have hunsigned : Unsigned "Infinity".toList := by
      intro c hc
      obtain rfl : 'I' = c := Option.some.inj hc
      decide
    rw [signed_append hsign hunsigned]
    -- The word is compared with itself, whatever its letters are.
    generalize "Infinity".toList = name
    exact if_pos rfl

/-! ## Decimals -/

theorem digitsOf_append_self (cs : List Char) : (Json.digitsOf cs).1 ++ (Json.digitsOf cs).2 = cs :=
  List.takeWhile_append_dropWhile

theorem allDigits_digitsOf (cs : List Char) : AllDigits (Json.digitsOf cs).1 :=
  fun _ hc => List.mem_takeWhile_imp hc

/-- The text does not start with a digit. -/
def NoDigit (cs : List Char) : Prop := ∀ c, cs.head? = some c → c.isDigit = false

/-- Digits are read up to something else. -/
theorem digitsOf_append (hdigits : AllDigits digits) (h : NoDigit ahead) :
    Json.digitsOf (digits ++ ahead) = (digits, ahead) := by
  have htake : ahead.takeWhile Char.isDigit = [] ∧ ahead.dropWhile Char.isDigit = ahead := by
    cases ahead with
    | nil => exact ⟨rfl, rfl⟩
    | cons c rest => simp [h c rfl]
  rw [Json.digitsOf, List.takeWhile_append_of_pos hdigits, List.dropWhile_append_of_pos hdigits,
    htake.1, htake.2, List.append_nil]

theorem not_isEmpty_and_isEmpty {whole fraction : List Char} :
    ¬ (whole.isEmpty && fraction.isEmpty) = true ↔ whole ≠ [] ∨ fraction ≠ [] := by
  simp [imp_iff_not_or]

/-- What is read as a mantissa is one, and the rest of the text follows it. -/
theorem exists_mantissa {parts : List Char × List Char} (h : mantissa? cs = some (parts, ahead)) :
    ∃ mantissa, IsMantissa mantissa ∧ cs = mantissa ++ ahead := by
  have hwhole := allDigits_digitsOf cs
  have hcs := digitsOf_append_self cs
  unfold mantissa? at h
  generalize Json.digitsOf cs = read at h hwhole hcs
  obtain ⟨whole, behind⟩ := read
  subst hcs
  dsimp only at h hwhole ⊢
  split at h
  · -- Behind a point there is the fraction.
    rename_i rest
    have hfraction := allDigits_digitsOf rest
    have hrest := digitsOf_append_self rest
    generalize Json.digitsOf rest = read at h hfraction hrest
    obtain ⟨fraction, behind⟩ := read
    subst hrest
    dsimp only at h hfraction ⊢
    split at h
    · cases h
    · rename_i hne
      obtain ⟨-, rfl⟩ := Prod.mk.inj (Option.some.inj h)
      rw [not_isEmpty_and_isEmpty] at hne
      refine ⟨whole ++ '.' :: fraction, .point hwhole hfraction hne, ?_⟩
      rw [List.append_assoc, List.cons_append]
  · split at h
    · cases h
    · rename_i hne
      obtain ⟨-, rfl⟩ := Prod.mk.inj (Option.some.inj h)
      rw [not_isEmpty_and_isEmpty] at hne
      exact ⟨whole, .whole hwhole (hne.resolve_right fun hnil => hnil rfl), rfl⟩

/-- **A mantissa is read** as such if neither a digit nor a point follows it. -/
theorem exists_mantissa?_append {mantissa : List Char} (h : IsMantissa mantissa)
    (hahead : NoDigit ahead) (hpoint : ahead.head? ≠ some '.') :
    ∃ parts, mantissa? (mantissa ++ ahead) = some (parts, ahead) := by
  cases h with
  | whole hdigits hne =>
      refine ⟨(mantissa, []), ?_⟩
      unfold mantissa?
      rw [digitsOf_append hdigits hahead]
      dsimp only
      split
      · exact absurd rfl hpoint
      · exact if_neg (not_isEmpty_and_isEmpty.mpr (.inl hne))
  | @point whole fraction hwhole hfraction hne =>
      refine ⟨(whole, fraction), ?_⟩
      have hbehind : NoDigit ('.' :: (fraction ++ ahead)) := by
        intro c hc
        obtain rfl : '.' = c := Option.some.inj hc
        rfl
      unfold mantissa?
      rw [List.append_assoc, List.cons_append, digitsOf_append hwhole hbehind]
      show (if (whole.isEmpty && (Json.digitsOf (fraction ++ ahead)).1.isEmpty) = true then none
        else some ((whole, (Json.digitsOf (fraction ++ ahead)).1),
          (Json.digitsOf (fraction ++ ahead)).2)) = _
      rw [digitsOf_append hfraction hahead]
      exact if_neg (not_isEmpty_and_isEmpty.mpr hne)

/-! ## Exponents -/

/-- The reader of exponents reads the sign as the other readers do. -/
theorem exponent?_cons (mark : Char) (cs : List Char) :
    Json.exponent? (mark :: cs) =
      if mark = 'e' ∨ mark = 'E' then
        if (Json.digitsOf (signed cs).2).1 = [] then none
        else some (withSign (signed cs).1 (numeralValue (Json.digitsOf (signed cs).2).1),
          (Json.digitsOf (signed cs).2).2)
      else none := by
  -- The sign is split off in place there, in the cases that `signed` has.
  generalize htext : mark :: cs = text
  fun_cases Json.exponent? text with
  | case1 e ahead hmark negative digits hsign behind hnone =>
      obtain ⟨rfl, rfl⟩ := List.cons.inj htext
      have hread : signed cs = (negative, digits) := hsign
      rw [if_pos hmark, hread, hnone]
      rfl
  | case2 e ahead hmark negative digits hsign found behind hne hfound n =>
      obtain ⟨rfl, rfl⟩ := List.cons.inj htext
      have hread : signed cs = (negative, digits) := hsign
      rw [if_pos hmark, hread, hfound]
      exact (if_neg hne).symm
  | case3 e ahead hmark =>
      obtain ⟨rfl, rfl⟩ := List.cons.inj htext
      rw [if_neg hmark]
  | case4 => cases htext

/-- **Exponents**: nothing is left of a text behind the exponent that it starts with exactly if the
text is an exponent as a whole. -/
theorem exponent?_eq_nil_iff (cs : List Char) :
    ((Json.exponent? cs).getD (0, cs)).2 = [] ↔ IsExponent cs := by
  cases cs with
  | nil => exact ⟨fun _ => .none, fun _ => rfl⟩
  | cons mark cs =>
      rw [exponent?_cons]
      constructor
      · intro h
        split at h
        · rename_i hmark
          split at h
          · cases h
          · rename_i hne
            obtain ⟨sign, hsign, hcs⟩ := exists_sign cs
            have hdigits := digitsOf_append_self (signed cs).2
            rw [Option.getD_some] at h
            dsimp only at h
            rw [h, List.append_nil] at hdigits
            rw [hcs, ← hdigits]
            exact .power hmark hsign (allDigits_digitsOf _) hne
        · cases h
      · intro h
        cases h with
        | @power _ sign digits negative hmark hsign hdigits hne =>
            have hread : Json.digitsOf digits = (digits, []) := by
              have hnil : NoDigit [] := nofun
              have happend := digitsOf_append hdigits hnil
              rwa [List.append_nil] at happend
            rw [if_pos hmark, signed_append hsign hdigits.unsigned, hread, if_neg hne]
            rfl

/-! ## Decimals as doubles -/

theorem IsMantissa.unsigned {mantissa : List Char} (h : IsMantissa mantissa) (ahead : List Char) :
    Unsigned (mantissa ++ ahead) := by
  intro c hc
  cases h with
  | whole hdigits hne =>
      rw [List.head?_append_of_ne_nil _ hne] at hc
      exact hdigits.unsigned c hc
  | @point whole fraction hwhole hfraction hne =>
      cases whole with
      | nil =>
          obtain rfl : '.' = c := Option.some.inj hc
          decide
      | cons d rest =>
          obtain rfl : d = c := Option.some.inj hc
          exact hwhole.unsigned d rfl

/-- An exponent starts with the letter for it. -/
theorem IsExponent.ends {exponent : List Char} (h : IsExponent exponent) :
    NoDigit exponent ∧ exponent.head? ≠ some '.' := by
  cases h with
  | none => exact ⟨nofun, nofun⟩
  | @power mark sign digits negative hmark hsign hdigits hne =>
      constructor
      · intro c hc
        obtain rfl : mark = c := Option.some.inj hc
        rcases hmark with rfl | rfl <;> rfl
      · intro hpoint
        obtain rfl : mark = '.' := Option.some.inj hpoint
        rcases hmark with h | h <;> cases h

/-- A decimal is read up to the end of the text. -/
theorem exists_decimal?_iff_read :
    (∃ x, decimal? cs = some x) ↔ ∃ parts ahead, mantissa? (signed cs).2 = some (parts, ahead) ∧
      ((Json.exponent? ahead).getD (0, ahead)).2 = [] := by
  unfold decimal?
  generalize signed cs = read
  obtain ⟨negative, behind⟩ := read
  dsimp only
  constructor
  · rintro ⟨x, h⟩
    obtain ⟨⟨parts, ahead⟩, hparts, h⟩ := Option.bind_eq_some_iff.mp h
    refine ⟨parts, ahead, hparts, ?_⟩
    dsimp only at h
    split at h
    · rename_i hend
      exact List.isEmpty_iff.mp hend
    · cases h
  · rintro ⟨parts, ahead, hparts, hend⟩
    rw [hparts]
    exact ⟨_, if_pos (List.isEmpty_iff.mpr hend)⟩

/-- **Decimals** that are read have a mantissa with an optional sign and an optional exponent. -/
theorem exists_decimal?_iff :
    (∃ x, decimal? cs = some x) ↔ ∃ sign negative mantissa exponent, IsSign sign negative ∧
      IsMantissa mantissa ∧ IsExponent exponent ∧ cs = sign ++ (mantissa ++ exponent) := by
  rw [exists_decimal?_iff_read]
  constructor
  · rintro ⟨parts, exponent, hparts, hend⟩
    obtain ⟨sign, hsign, hcs⟩ := exists_sign cs
    obtain ⟨mantissa, hmantissa, hbehind⟩ := exists_mantissa hparts
    have hexponent := (exponent?_eq_nil_iff exponent).mp hend
    rw [hbehind] at hcs
    exact ⟨sign, _, mantissa, exponent, hsign, hmantissa, hexponent, hcs⟩
  · rintro ⟨sign, negative, mantissa, exponent, hsign, hmantissa, hexponent, rfl⟩
    obtain ⟨hdigit, hpoint⟩ := hexponent.ends
    obtain ⟨parts, hparts⟩ := exists_mantissa?_append hmantissa hdigit hpoint
    rw [signed_append hsign (hmantissa.unsigned exponent)]
    exact ⟨parts, exponent, hparts, (exponent?_eq_nil_iff exponent).mpr hexponent⟩

theorem isNaN_ofRatio (negative : Bool) (num den : Nat) :
    (Double.ofRatio negative num den).isNaN = false := by
  unfold Double.ofRatio
  split <;> rfl

/-- A decimal is no NaN. -/
theorem isNaN_of_decimal? {x : Double} (h : decimal? cs = some x) : x.isNaN = false := by
  obtain ⟨⟨parts, ahead⟩, -, h⟩ := Option.bind_eq_some_iff.mp h
  dsimp only at h
  split at h
  · obtain rfl := Option.some.inj h
    unfold Decimal.toDouble
    dsimp only
    split
    · exact isNaN_ofRatio _ _ _
    · split
      · rfl
      · exact isNaN_ofRatio _ _ _
  · cases h

/-! ## Numerals -/

/-- A numeral is what one of the readers reads. -/
theorem isNumeral_iff : IsNumeral cs ↔ (∃ i, integer? cs = some i) ∨ (∃ n, prefixed? cs = some n) ∨
    (∃ x, infinity? cs = some x) ∨ ∃ x, decimal? cs = some x := by
  constructor
  · intro h
    cases h with
    | @integer sign digits negative ds hsign hdigits =>
        -- Too many digits for a whole number are still a decimal.
        obtain ⟨hne, hall, -⟩ := isDigits_ten_iff.mp hdigits
        refine .inr (.inr (.inr (exists_decimal?_iff.mpr
          ⟨sign, negative, digits, [], hsign, .whole hall hne, .none, ?_⟩)))
        rw [List.append_nil]
    | decimal hsign hmantissa hexponent =>
        exact .inr (.inr (.inr (exists_decimal?_iff.mpr
          ⟨_, _, _, _, hsign, hmantissa, hexponent, rfl⟩)))
    | infinity hsign =>
        exact .inr (.inr (.inl ⟨_, infinity?_eq_some_iff.mpr ⟨_, _, hsign, rfl, rfl⟩⟩))
    | based hbase hdigits =>
        exact .inr (.inl ⟨_, prefixed?_eq_some_iff.mpr ⟨_, _, _, _, hbase, hdigits, rfl, rfl⟩⟩)
  · rintro (⟨i, h⟩ | ⟨n, h⟩ | ⟨x, h⟩ | h)
    · obtain ⟨sign, negative, digits, ds, hsign, hdigits, rfl, -⟩ := integer?_eq_some_iff.mp h
      exact .integer hsign hdigits
    · obtain ⟨mark, base, digits, ds, hbase, hdigits, rfl, -⟩ := prefixed?_eq_some_iff.mp h
      exact .based hbase hdigits
    · obtain ⟨sign, negative, hsign, rfl, -⟩ := infinity?_eq_some_iff.mp h
      exact .infinity hsign
    · obtain ⟨sign, negative, mantissa, exponent, hsign, hmantissa, hexponent, rfl⟩ :=
        exists_decimal?_iff.mp h
      exact .decimal hsign hmantissa hexponent

end LooseData.Numeral
