import LooseData.Proofs.Number.Readers
import LooseData.Proofs.Text.Lowercase

set_option autoImplicit false

/-! # What the attempts to read a number come to

A text between blanks is tried as a whole number, as a literal that tells its base and as a double,
with readers that accept more than numerals: low lines between digits, literals of other forms and
other names of infinities and NaNs. Tests in front of the attempts keep such texts from them.

What is left are the readers of numerals, the first of which that accepts the text decides
(`ofTrimmed_eq_firstRead`). For a text with a low line or a character outside ASCII all of them
fail, since no numeral has one (`IsNumeral.unmixed`). For any other text there is nothing to
separate, so each attempt is that of a reader.
-/

namespace LooseData.Numeral

variable {cs sign digits : List Char} {negative : Bool} {ds : List Nat} {base : Nat} {c : Char}

/-- The number of the first reader that accepts a text, or a NaN. -/
def firstRead (cs : List Char) : Value :=
  match integer? cs, prefixed? cs, infinity? cs, decimal? cs with
  | some i, _, _, _ => .int i
  | none, some n, _, _ => .int n
  | none, none, some d, _ => .double d
  | none, none, none, some d => .double d
  | none, none, none, none => .double Double.coercionNaN

theorem firstRead_of_not_isNumeral (h : ¬ IsNumeral cs) :
    firstRead cs = .double Double.coercionNaN := by
  simp only [isNumeral_iff, not_or, not_exists, ← Option.eq_none_iff_forall_ne_some] at h
  obtain ⟨hinteger, hprefixed, hinfinity, hdecimal⟩ := h
  rw [firstRead, hinteger, hprefixed, hinfinity, hdecimal]

/-! ## The characters of numerals -/

/-- The text is in ASCII and has no low line. -/
def Unmixed (cs : List Char) : Prop := ∀ c ∈ cs, c.toNat < 128 ∧ c ≠ '_'

theorem Unmixed.all_ascii (h : Unmixed cs) : (cs.all fun c => decide (c.toNat < 128)) = true :=
  List.all_eq_true.mpr fun c hc => decide_eq_true (h c hc).1

theorem Unmixed.not_mem (h : Unmixed cs) : '_' ∉ cs := fun hmem => (h _ hmem).2 rfl

theorem Unmixed.append {front back : List Char} (hfront : Unmixed front) (hback : Unmixed back) :
    Unmixed (front ++ back) :=
  List.forall_mem_append.mpr ⟨hfront, hback⟩

theorem IsSign.unmixed (h : IsSign sign negative) : Unmixed sign := by
  cases h with
  | none => exact List.forall_mem_nil _
  | plus => exact List.forall_mem_singleton.mpr (by decide)
  | minus => exact List.forall_mem_singleton.mpr (by decide)

theorem AllDigits.unmixed (h : AllDigits cs) : Unmixed cs := by
  intro c hc
  have hdigit := h c hc
  refine ⟨?_, by rintro rfl; cases hdigit⟩
  have hle : 48 ≤ c.toNat ∧ c.toNat ≤ 57 := Char.isDigit_iff_toNat.mp hdigit
  omega

theorem IsDigit.unmixed {d : Nat} (h : IsDigit d c) (hlt : d < 16) : c.toNat < 128 ∧ c ≠ '_' := by
  rcases h with rfl | rfl <;> interval_cases d <;> decide

theorem IsDigits.unmixed (h : IsDigits base digits ds) (hbase : base ≤ 16) : Unmixed digits := by
  have hlt := h.lt
  have hspelled := h.spelled
  clear h
  induction hspelled with
  | nil => exact List.forall_mem_nil _
  | cons hdigit _ ih =>
      obtain ⟨hd, hrest⟩ := List.forall_mem_cons.mp hlt
      exact List.forall_mem_cons.mpr ⟨hdigit.unmixed (hd.trans_le hbase), ih hrest⟩

theorem IsBase.unmixed (h : IsBase c base) : c.toNat < 128 ∧ c ≠ '_' := by
  cases h with
  | hexadecimal h => rcases h with rfl | rfl <;> decide
  | octal h => rcases h with rfl | rfl <;> decide
  | binary h => rcases h with rfl | rfl <;> decide

theorem IsMantissa.unmixed {mantissa : List Char} (h : IsMantissa mantissa) : Unmixed mantissa := by
  cases h with
  | whole hdigits _ => exact hdigits.unmixed
  | point hwhole hfraction _ =>
      exact hwhole.unmixed.append (List.forall_mem_cons.mpr ⟨by decide, hfraction.unmixed⟩)

theorem IsExponent.unmixed {exponent : List Char} (h : IsExponent exponent) : Unmixed exponent := by
  cases h with
  | none => exact List.forall_mem_nil _
  | power hmark hsign hdigits _ =>
      refine List.forall_mem_cons.mpr ⟨?_, hsign.unmixed.append hdigits.unmixed⟩
      rcases hmark with rfl | rfl <;> decide

/-- **Numerals are in ASCII**, and nothing separates their digits. -/
theorem IsNumeral.unmixed (h : IsNumeral cs) : Unmixed cs := by
  cases h with
  | integer hsign hdigits => exact hsign.unmixed.append (hdigits.unmixed (by decide))
  | decimal hsign hmantissa hexponent =>
      exact hsign.unmixed.append (hmantissa.unmixed.append hexponent.unmixed)
  | infinity hsign =>
      have hname : ∀ c ∈ "Infinity".toList, c.toNat < 128 ∧ c ≠ '_' := by simp
      exact hsign.unmixed.append hname
  | based hbase hdigits =>
      exact List.forall_mem_cons.mpr ⟨by decide, List.forall_mem_cons.mpr
        ⟨hbase.unmixed, hdigits.unmixed hbase.le_sixteen⟩⟩

/-! ## Separated digits -/

/-- Without a low line there is nothing to take out. -/
theorem unseparated?_of_not_mem (isDigit : Char → Bool) (h : '_' ∉ cs) (behind : Bool) :
    unseparated? isDigit behind cs = some cs := by
  induction cs generalizing behind with
  | nil => rfl
  | cons c cs ih =>
      obtain ⟨hne, hrest⟩ := not_or.mp (mt List.mem_cons.mpr h)
      rw [unseparated?, if_neg (Ne.symm hne), ih hrest]
      rfl

theorem wholeNumber?_of_not_mem (h : '_' ∉ cs) : wholeNumber? cs = integer? cs := by
  rw [wholeNumber?, unseparated?_of_not_mem _ h]
  rfl

/-! ## Literals that tell their base -/

theorem tellsBase_iff : tellsBase cs = true ↔ ∃ mark base digits, IsBase mark base ∧ digits ≠ [] ∧
    (∀ d ∈ digits, ∃ n, Json.hexValue? d = some n) ∧ cs = '0' :: mark :: digits := by
  constructor
  · intro h
    unfold tellsBase at h
    split at h
    · rename_i mark digits
      simp only [Bool.and_eq_true, Bool.not_eq_true', List.isEmpty_eq_false_iff, List.all_eq_true,
        Option.isSome_iff_exists] at h
      obtain ⟨⟨⟨base, hbase⟩, hne⟩, hdigits⟩ := h
      exact ⟨mark, base, digits, base?_eq_some_iff.mp hbase, hne, hdigits, rfl⟩
    · cases h
  · rintro ⟨mark, base, digits, hbase, hne, hdigits, rfl⟩
    simp only [tellsBase, base?_eq_some_iff.mpr hbase, Option.isSome_some, Bool.true_and,
      Bool.and_eq_true, Bool.not_eq_true', List.isEmpty_eq_false_iff, List.all_eq_true,
      Option.isSome_iff_exists]
    exact ⟨hne, hdigits⟩

/-- What a reader of literals with a mark for their base reads is tried as such a literal. -/
theorem tellsBase_of_prefixed? {n : Nat} (h : prefixed? cs = some n) : tellsBase cs = true := by
  obtain ⟨mark, base, digits, ds, hbase, hdigits, rfl, -⟩ := prefixed?_eq_some_iff.mp h
  refine tellsBase_iff.mpr ⟨mark, base, digits, hbase, hdigits.ne_nil, ?_, rfl⟩
  have hlt := hdigits.lt
  have hspelled := hdigits.spelled
  clear h hdigits
  induction hspelled with
  | nil => exact List.forall_mem_nil _
  | @cons d _ _ _ hdigit _ ih =>
      obtain ⟨hd, hrest⟩ := List.forall_mem_cons.mp hlt
      exact List.forall_mem_cons.mpr ⟨⟨d, hexValue?_eq_some_iff.mpr
        ⟨hd.trans_le hbase.le_sixteen, hdigit⟩⟩, ih hrest⟩

theorem not_mem_of_tellsBase (h : tellsBase cs = true) : '_' ∉ cs := by
  obtain ⟨mark, base, digits, hbase, -, hdigits, rfl⟩ := tellsBase_iff.mp h
  rw [List.mem_cons, List.mem_cons, not_or, not_or]
  refine ⟨by decide, hbase.unmixed.2.symm, fun hmem => ?_⟩
  obtain ⟨n, hn⟩ := hdigits _ hmem
  cases hn

/-- A literal that tells its base is read as one with a mark for its base. -/
theorem literal?_of_tellsBase (h : tellsBase cs = true) :
    literal? cs = (prefixed? cs).map Int.ofNat := by
  have hjoined := not_mem_of_tellsBase h
  obtain ⟨mark, base, digits, hbase, -, -, rfl⟩ := tellsBase_iff.mp h
  have hmark := base?_eq_some_iff.mpr hbase
  have hdigits : '_' ∉ digits := fun hmem => hjoined (by simp [hmem])
  have hbehind : behindBase? base digits = digitsInBase? base digits := by
    unfold behindBase?
    split
    · exact absurd List.mem_cons_self hdigits
    · dsimp only
      rw [unseparated?_of_not_mem _ hdigits]
      rfl
  have hsigned : signed ('0' :: mark :: digits) = (false, '0' :: mark :: digits) := rfl
  have hliteral : literal? ('0' :: mark :: digits) =
      (behindBase? base digits).map (withSign false) := by
    unfold literal?
    simp only [hsigned, hmark]
  have hprefixed : prefixed? ('0' :: mark :: digits) = digitsInBase? base digits := by
    rw [prefixed?, hmark, Option.bind_some]
  rw [hliteral, hprefixed, hbehind]
  rfl

/-- A literal that tells its base is neither an infinity nor a decimal: its mark stops both. -/
theorem not_double_of_tellsBase (h : tellsBase cs = true) :
    infinity? cs = none ∧ decimal? cs = none := by
  obtain ⟨mark, base, digits, hbase, -, -, rfl⟩ := tellsBase_iff.mp h
  have hmark : mark.isDigit = false ∧ mark ≠ '.' ∧ ¬ (mark = 'e' ∨ mark = 'E') := by
    cases hbase with
    | hexadecimal h => rcases h with rfl | rfl <;> decide
    | octal h => rcases h with rfl | rfl <;> decide
    | binary h => rcases h with rfl | rfl <;> decide
  refine ⟨rfl, Option.eq_none_iff_forall_ne_some.mpr fun x hx => ?_⟩
  obtain ⟨parts, ahead, hparts, hend⟩ := exists_decimal?_iff_read.mp ⟨x, hx⟩
  have hzero : IsMantissa ['0'] := .whole (List.forall_mem_singleton.mpr rfl) (List.cons_ne_nil _ _)
  have hbehind : NoDigit (mark :: digits) := by
    intro c hc
    obtain rfl : mark = c := Option.some.inj hc
    exact hmark.1
  obtain ⟨parts', hread⟩ := exists_mantissa?_append hzero hbehind
    fun hpoint => hmark.2.1 (Option.some.inj hpoint)
  obtain ⟨-, rfl⟩ := Prod.mk.inj (Option.some.inj (hread.symm.trans hparts))
  rw [exponent?_cons, if_neg hmark.2.2] at hend
  cases hend

/-! ## Names of infinities and NaNs -/

/-- The names of infinities and NaNs in lower case. -/
def specialNames : List String := ["inf", "infinity", "nan"]

/-- A name of an infinity or a NaN starts with one of two letters, in either case. -/
theorem exists_cons_of_lower_mem (hascii : ∀ c ∈ cs, c.toNat < 128)
    (h : Text.lower (String.ofList cs) ∈ specialNames) :
    ∃ c rest, cs = c :: rest ∧ (c.toLower = 'i' ∨ c.toLower = 'n') := by
  rw [Text.lower_of_ascii (by rwa [String.toList_ofList]), String.toList_ofList] at h
  have hlist {name : String} (hname : String.ofList (cs.map Char.toLower) = name) :
      cs.map Char.toLower = name.toList := by
    rw [← hname, String.toList_ofList]
  cases cs with
  | nil => exact absurd h (by decide)
  | cons c rest =>
      refine ⟨c, rest, rfl, ?_⟩
      simp only [specialNames, List.mem_cons, List.not_mem_nil, or_false] at h
      rcases h with h | h | h
      · exact .inl (List.cons.inj (hlist h)).1
      · exact .inl (List.cons.inj (hlist h)).1
      · exact .inr (List.cons.inj (hlist h)).1

theorem toLower_of_toNat_lt (h : c.toNat < 65) : c.toLower = c := by
  unfold Char.toLower
  split
  · rename_i hupper
    have hle : 65 ≤ c.toNat := hupper.1
    omega
  · rfl

/-- The text behind a sign is what is left when all signs are taken off. -/
theorem dropWhile_sign (hsign : IsSign sign negative) (h : Unsigned cs) :
    (sign ++ cs).dropWhile (fun c => c == '+' || c == '-') = cs := by
  have hcs : cs.dropWhile (fun c => c == '+' || c == '-') = cs := by
    cases cs with
    | nil => rfl
    | cons c rest =>
        obtain ⟨hminus, hplus⟩ := h c rfl
        exact List.dropWhile_cons_of_neg (by simp [hminus, hplus])
  cases hsign <;> exact hcs

theorem isDisregarded_append (hsign : IsSign sign negative) (h : Unsigned cs) :
    isDisregarded (sign ++ cs) = true ↔
      Text.lower (String.ofList cs) ∈ specialNames ∧ cs ≠ "Infinity".toList := by
  unfold isDisregarded
  rw [dropWhile_sign hsign h]
  have hname : String.ofList cs ≠ "Infinity" ↔ cs ≠ "Infinity".toList := by
    rw [not_iff_not, ← String.toList_inj, String.toList_ofList]
  simp only [Bool.and_eq_true, bne_iff_ne, hname, List.contains_iff_mem]
  rfl

theorem IsMantissa.exists_cons {mantissa : List Char} (h : IsMantissa mantissa) :
    ∃ c rest, mantissa = c :: rest ∧ c.toNat < 65 := by
  have hlt {digits : List Char} (hdigits : AllDigits digits) {c : Char} (hc : c ∈ digits) :
      c.toNat < 65 := by
    have hle : 48 ≤ c.toNat ∧ c.toNat ≤ 57 := Char.isDigit_iff_toNat.mp (hdigits c hc)
    omega
  cases h with
  | @whole digits hdigits hne =>
      obtain ⟨c, rest, rfl⟩ := List.exists_cons_of_ne_nil hne
      exact ⟨c, rest, rfl, hlt hdigits List.mem_cons_self⟩
  | @point whole fraction hwhole hfraction hne =>
      cases whole with
      | nil => exact ⟨'.', fraction, rfl, by decide⟩
      | cons c rest => exact ⟨c, rest ++ '.' :: fraction, rfl, hlt hwhole List.mem_cons_self⟩

/-- A name that does not count is read neither as an infinity nor as a decimal. -/
theorem not_double_of_isDisregarded (hascii : ∀ c ∈ cs, c.toNat < 128)
    (h : isDisregarded cs = true) : infinity? cs = none ∧ decimal? cs = none := by
  constructor
  · rw [Option.eq_none_iff_forall_ne_some]
    intro x hx
    obtain ⟨sign, negative, hsign, rfl, -⟩ := infinity?_eq_some_iff.mp hx
    have hunsigned : Unsigned "Infinity".toList := by
      intro c hc
      obtain rfl : 'I' = c := Option.some.inj hc
      decide
    exact ((isDisregarded_append hsign hunsigned).mp h).2 rfl
  · rw [Option.eq_none_iff_forall_ne_some]
    intro x hx
    obtain ⟨sign, negative, mantissa, exponent, hsign, hmantissa, -, rfl⟩ :=
      exists_decimal?_iff.mp ⟨x, hx⟩
    have hspecial := ((isDisregarded_append hsign (hmantissa.unsigned exponent)).mp h).1
    obtain ⟨c, rest, hcs, hc⟩ := exists_cons_of_lower_mem
      (fun c hc => hascii c (List.mem_append_right _ hc)) hspecial
    -- A decimal starts with a digit or a point, which are the same in lower case.
    obtain ⟨d, rest', rfl, hd⟩ := hmantissa.exists_cons
    obtain ⟨rfl, -⟩ := List.cons.inj hcs
    rw [toLower_of_toNat_lt hd] at hc
    rcases hc with rfl | rfl <;> exact absurd hd (by decide)

/-- What is read as a double, if it is no name that does not count. -/
theorem float?_of_unmixed (h : Unmixed cs) (hcounts : isDisregarded cs = false) :
    float? cs = (infinity? cs).or (decimal? cs) := by
  obtain ⟨sign, hsign, hcs⟩ := exists_sign cs
  show (unseparated? Char.isDigit false cs).bind _ = _
  rw [unseparated?_of_not_mem _ h.not_mem]
  show (if Text.lower (String.ofList (signed cs).2) = "inf" ∨
        Text.lower (String.ofList (signed cs).2) = "infinity" then some (.infinite (signed cs).1)
      else if Text.lower (String.ofList (signed cs).2) = "nan" then some (.nan 0)
      else decimal? cs) =
    (if (signed cs).2 = "Infinity".toList then some (.infinite (signed cs).1) else none).or
      (decimal? cs)
  by_cases hspecial : Text.lower (String.ofList (signed cs).2) ∈ specialNames
  · obtain ⟨c, rest, hname, hc⟩ := exists_cons_of_lower_mem
      (fun c hc => (h c (hcs ▸ List.mem_append_right _ hc)).1) hspecial
    have hunsigned : Unsigned (signed cs).2 := by
      intro d hd
      rw [hname] at hd
      obtain rfl : c = d := Option.some.inj hd
      constructor <;> rintro rfl <;> rcases hc with hc | hc <;> cases hc
    -- The one name that counts is the one of the infinity.
    have hinfinity : (signed cs).2 = "Infinity".toList := by
      by_contra hne
      have hdisregarded := (isDisregarded_append hsign hunsigned).mpr ⟨hspecial, hne⟩
      rw [← hcs, hcounts] at hdisregarded
      cases hdisregarded
    rw [hinfinity, if_pos (.inr (by decide)), if_pos rfl]
    rfl
  · have hnames := hspecial
    simp only [specialNames, List.mem_cons, List.not_mem_nil, or_false, not_or] at hnames
    obtain ⟨hinf, hinfinity, hnan⟩ := hnames
    have hne : (signed cs).2 ≠ "Infinity".toList := by
      intro hname
      rw [hname] at hinfinity
      exact hinfinity (by decide)
    rw [if_neg (not_or.mpr ⟨hinf, hinfinity⟩), if_neg hnan, if_neg hne]
    rfl

/-! ## All attempts -/

/-- A text with a character that no numeral has is refused. -/
theorem ofTrimmed_of_not_unmixed (h : ¬ Unmixed cs) :
    ofTrimmed cs = .double Double.coercionNaN := by
  unfold ofTrimmed
  dsimp only
  split
  · rfl
  · rename_i hascii
    -- All characters are in ASCII, so it is a low line that no numeral has.
    have hseparated : '_' ∈ cs := by
      by_contra hjoined
      refine h fun c hc => ⟨?_, fun heq => hjoined (heq ▸ hc)⟩
      have hall : (cs.all fun c => decide (c.toNat < 128)) = true := by simpa using hascii
      exact of_decide_eq_true (List.all_eq_true.mp hall c hc)
    have hcontains : cs.contains '_' = true := List.contains_iff_mem.mpr hseparated
    have hplain : tellsBase cs = false :=
      Bool.eq_false_iff.mpr fun htells => not_mem_of_tellsBase htells hseparated
    rw [hcontains, hplain]
    rfl

/-- **What the attempts come to**: the readers of numerals, one after another. -/
theorem ofTrimmed_eq_firstRead (cs : List Char) : ofTrimmed cs = firstRead cs := by
  by_cases hunmixed : Unmixed cs
  · have hjoined : cs.contains '_' = false :=
      Bool.eq_false_iff.mpr fun h => hunmixed.not_mem (List.contains_iff_mem.mp h)
    unfold ofTrimmed firstRead
    dsimp only
    rw [if_neg (by rw [hunmixed.all_ascii]; decide), hjoined, if_neg Bool.false_ne_true,
      wholeNumber?_of_not_mem hunmixed.not_mem, Bool.false_or]
    cases integer? cs with
    | some i => rfl
    | none =>
        cases htells : tellsBase cs with
        | true =>
            obtain ⟨hinfinity, hdecimal⟩ := not_double_of_tellsBase htells
            rw [literal?_of_tellsBase htells, hinfinity, hdecimal]
            cases prefixed? cs <;> rfl
        | false =>
            have hprefixed : prefixed? cs = none := by
              rw [Option.eq_none_iff_forall_ne_some]
              intro n hn
              cases (tellsBase_of_prefixed? hn).symm.trans htells
            rw [hprefixed]
            cases hdisregarded : isDisregarded cs with
            | true =>
                obtain ⟨hinfinity, hdecimal⟩ :=
                  not_double_of_isDisregarded (fun c hc => (hunmixed c hc).1) hdisregarded
                rw [hinfinity, hdecimal]
                rfl
            | false =>
                rw [float?_of_unmixed hunmixed hdisregarded]
                cases infinity? cs <;> cases decimal? cs <;> rfl
  · rw [ofTrimmed_of_not_unmixed hunmixed,
      firstRead_of_not_isNumeral (mt IsNumeral.unmixed hunmixed)]

end LooseData.Numeral
