import LooseData.Proofs.Json.Data
import Mathlib.Data.List.TakeWhile

set_option autoImplicit false

/-! # What a reader leaves ahead

The readers go forward only: what they leave ahead is an end of what was ahead before. So the one
number that they refuse for its length, rather than for its form, stands in the document with all
its digits (`exists_failure_of_ofText`).

A name or a number is passed over without meeting a colon (`passesTo_of_readScalar`). A colon in a
document stands in a text or between the name and the value of a member, behind a quote or a brace.
-/

namespace LooseData.Json

variable {α β : Type} {dialect : Dialect} {cs cs' ahead ahead' : List Char}

/-! ## Passing over characters -/

/-- Some characters, no colon among them, lead up to `ahead`. -/
def PassesTo (cs ahead : List Char) : Prop := ∃ passed, cs = passed ++ ahead ∧ ':' ∉ passed

theorem PassesTo.refl (cs : List Char) : PassesTo cs cs := ⟨[], rfl, List.not_mem_nil⟩

theorem PassesTo.cons {c : Char} (h : PassesTo cs ahead) (hc : c ≠ ':') :
    PassesTo (c :: cs) ahead := by
  obtain ⟨passed, rfl, hpassed⟩ := h
  exact ⟨c :: passed, rfl, List.not_mem_cons_of_ne_of_not_mem hc.symm hpassed⟩

theorem PassesTo.trans (h : PassesTo cs ahead) (h' : PassesTo ahead ahead') :
    PassesTo cs ahead' := by
  obtain ⟨passed, rfl, hpassed⟩ := h
  obtain ⟨passed', rfl, hpassed'⟩ := h'
  refine ⟨passed ++ passed', (List.append_assoc _ _ _).symm, fun hcolon => ?_⟩
  exact (List.mem_append.mp hcolon).elim hpassed hpassed'

theorem PassesTo.isSuffix (h : PassesTo cs ahead) : ahead <:+ cs := by
  obtain ⟨passed, rfl, -⟩ := h
  exact List.suffix_append _ _

/-- Where a colon stands ahead and none has been passed over. -/
theorem PassesTo.mem (h : PassesTo cs ahead) (hcolon : ':' ∈ cs) : ':' ∈ ahead := by
  obtain ⟨passed, rfl, hpassed⟩ := h
  exact (List.mem_append.mp hcolon).resolve_left hpassed

theorem passesTo_dropWhile {drops : Char → Bool} (h : drops ':' = false) (cs : List Char) :
    PassesTo cs (cs.dropWhile drops) := by
  refine ⟨cs.takeWhile drops, List.takeWhile_append_dropWhile.symm, fun hcolon => ?_⟩
  have hdrops := List.mem_takeWhile_imp hcolon
  rw [h] at hdrops
  cases hdrops

/-! ### Names -/

theorem after?_eq_some_iff {word : List Char} :
    after? word cs = some ahead ↔ cs = word ++ ahead := by
  induction word generalizing cs with
  | nil =>
      rw [after?, List.nil_append]
      exact Option.some_inj
  | cons w word ih =>
      cases cs with
      | nil =>
          rw [after?]
          exact ⟨nofun, nofun⟩
      | cons c cs =>
          rw [after?, List.cons_append, List.cons.injEq]
          split
          · rename_i heq
            rw [ih, eq_comm (a := c)]
            exact (and_iff_right heq).symm
          · rename_i hne
            exact ⟨nofun, fun h => absurd h.1.symm hne⟩

theorem passesTo_of_named? {entries : List (String × α)} {entry : String × α}
    (hentries : ∀ entry ∈ entries, ':' ∉ entry.1.toList)
    (h : named? entries cs = some (entry, ahead)) : PassesTo cs ahead := by
  obtain ⟨entry, hentry, hafter⟩ := List.exists_of_findSome?_eq_some h
  obtain ⟨rest, hrest, heq⟩ := Option.map_eq_some_iff.mp hafter
  obtain ⟨rfl, rfl⟩ := Prod.mk.inj heq
  exact ⟨_, after?_eq_some_iff.mp hrest, hentries entry hentry⟩

/-! ### Numbers -/

theorem passesTo_digitsOf (cs : List Char) : PassesTo cs (digitsOf cs).2 :=
  passesTo_dropWhile (by decide) cs

theorem passesTo_wholeDigits (cs : List Char) : PassesTo cs (wholeDigits cs).2 := by
  unfold wholeDigits
  split
  · exact (PassesTo.refl _).cons (by decide)
  · exact passesTo_digitsOf cs

theorem passesTo_fractionDigits (cs : List Char) : PassesTo cs (fractionDigits cs).2 := by
  unfold fractionDigits
  split
  · split
    · exact .refl _
    · exact (passesTo_digitsOf _).cons (by decide)
  · exact .refl _

theorem passesTo_of_exponent? {e : Int} (h : exponent? cs = some (e, ahead)) :
    PassesTo cs ahead := by
  revert h
  fun_cases exponent? cs with
  | case2 letter signed hletter negative digits hsign run rest _ hrun =>
      intro h
      obtain ⟨-, rfl⟩ := Prod.mk.inj (Option.some.inj h)
      have hdigits : PassesTo digits rest := by
        have hpasses := passesTo_digitsOf digits
        rwa [hrun] at hpasses
      have hsigned : PassesTo signed rest := by
        split at hsign
        · obtain ⟨-, rfl⟩ := Prod.mk.inj hsign
          exact hdigits.cons (by decide)
        · obtain ⟨-, rfl⟩ := Prod.mk.inj hsign
          exact hdigits.cons (by decide)
        · obtain ⟨-, rfl⟩ := Prod.mk.inj hsign
          exact hdigits
      exact hsigned.cons (by rcases hletter with rfl | rfl <;> decide)
  | _ => exact nofun

/-- The digits of a number begin behind its sign. -/
theorem passesTo_of_sign {negative : Bool} {unsigned : List Char}
    (h : (match cs with
      | '-' :: ahead => (true, ahead)
      | _ => (false, cs)) = (negative, unsigned)) : PassesTo cs unsigned := by
  split at h
  · obtain ⟨-, rfl⟩ := Prod.mk.inj h
    exact (PassesTo.refl _).cons (by decide)
  · obtain ⟨-, rfl⟩ := Prod.mk.inj h
    exact .refl _

/-- **A number is passed over without meeting a colon.** -/
theorem passesTo_of_readNumber {v : Value} (h : readNumber cs = .ok (v, ahead)) :
    PassesTo cs ahead := by
  have hwhole {unsigned whole rest : List Char} (h : wholeDigits unsigned = (whole, rest)) :
      PassesTo unsigned rest := by
    have hpasses := passesTo_wholeDigits unsigned
    rwa [h] at hpasses
  have hfraction {start fraction rest : List Char} (h : fractionDigits start = (fraction, rest)) :
      PassesTo start rest := by
    have hpasses := passesTo_fractionDigits start
    rwa [h] at hpasses
  revert h
  fun_cases readNumber cs with
  | case1 => rintro ⟨⟩
  | case2 negative unsigned hs whole rest hw _ fraction rest' hf _ e rest'' he =>
      intro h
      obtain ⟨-, rfl⟩ := Prod.mk.inj (Except.ok.inj h)
      exact (((passesTo_of_sign hs).trans (hwhole hw)).trans (hfraction hf)).trans
        (passesTo_of_exponent? he)
  | case3 negative unsigned hs whole rest hw _ fraction rest' hf =>
      intro h
      obtain ⟨-, rfl⟩ := Prod.mk.inj (Except.ok.inj h)
      exact ((passesTo_of_sign hs).trans (hwhole hw)).trans (hfraction hf)
  | case4 => rintro ⟨⟩
  | case5 negative unsigned hs whole rest hw _ fraction rest' hf =>
      intro h
      obtain ⟨-, rfl⟩ := Prod.mk.inj (Except.ok.inj h)
      exact ((passesTo_of_sign hs).trans (hwhole hw)).trans (hfraction hf)

theorem passesTo_of_readScalar {v : Value} (h : readScalar dialect cs = .ok (v, ahead)) :
    PassesTo cs ahead := by
  unfold readScalar at h
  split at h
  · rename_i hnamed
    obtain ⟨-, rfl⟩ := Prod.mk.inj (Except.ok.inj h)
    exact passesTo_of_named? (by decide) hnamed
  · rename_i hnamed
    split at h
    · cases h
    · obtain ⟨-, rfl⟩ := Prod.mk.inj (Except.ok.inj h)
      exact passesTo_of_named? (by decide) hnamed
  · exact passesTo_of_readNumber h

/-! ## Numbers with too many digits -/

/-- A run of digits that is too long to be read as a number stands in the text. -/
def HoldsOverlong (cs : List Char) : Prop :=
  ∃ digits, digits <:+: cs ∧ (∀ c ∈ digits, c.isDigit = true) ∧ maxNumeralDigits < digits.length

theorem HoldsOverlong.mono (h : HoldsOverlong ahead) (hahead : ahead <:+ cs) :
    HoldsOverlong cs := by
  obtain ⟨digits, hdigits, hall, hlong⟩ := h
  exact ⟨digits, hdigits.trans hahead.isInfix, hall, hlong⟩

/-- A reader goes forward: what it leaves ahead is an end of `cs`, and a number that is too long
stands in `cs`. -/
structure GoesForward (cs : List Char) (read : Read α) : Prop where
  isSuffix : ∀ a ahead, read = .ok (a, ahead) → ahead <:+ cs
  holdsOverlong : ∀ digits, read = .error (.numeralTooLong digits) → HoldsOverlong cs

theorem goesForward_ok {a : α} (h : ahead <:+ cs) : GoesForward cs (.ok (a, ahead)) := by
  refine ⟨?_, nofun⟩
  rintro _ _ ⟨⟩
  exact h

theorem goesForward_wrong (problem : Problem) (place : List Char) :
    GoesForward cs (.error (.wrong problem place) : Read α) := ⟨nofun, nofun⟩

theorem GoesForward.mono {read : Read α} (h : GoesForward ahead read) (hahead : ahead <:+ cs) :
    GoesForward cs read :=
  ⟨fun a rest hread => (h.isSuffix a rest hread).trans hahead,
    fun digits hread => (h.holdsOverlong digits hread).mono hahead⟩

theorem GoesForward.map {read : Read α} {f : α × List Char → β × List Char}
    (h : GoesForward cs read) (hf : ∀ p, (f p).2 = p.2) : GoesForward cs (read.map f) := by
  constructor
  · intro b rest hread
    obtain ⟨p, hp, heq⟩ := Except.map_eq_ok_iff.mp hread
    obtain rfl : p.2 = rest := (hf p).symm.trans (congrArg Prod.snd heq)
    exact h.isSuffix p.1 p.2 hp
  · intro digits hread
    exact h.holdsOverlong digits (Except.map_eq_error_iff.mp hread)

/-- One reader after another goes forward. -/
theorem GoesForward.bind {read : Read α} {next : α × List Char → Read β}
    (h : GoesForward cs read)
    (hnext : ∀ a ahead, GoesForward ahead (next (a, ahead))) :
    GoesForward cs (Except.bind read next) := by
  constructor
  · intro b rest hread
    obtain ⟨⟨a, ahead⟩, ha, hb⟩ := Except.bind_eq_ok_iff.mp hread
    exact ((hnext a ahead).isSuffix b rest hb).trans (h.isSuffix a ahead ha)
  · intro digits hread
    rcases Except.bind_eq_error_iff.mp hread with hread | ⟨⟨a, ahead⟩, ha, hb⟩
    · exact h.holdsOverlong digits hread
    · exact ((hnext a ahead).holdsOverlong digits hb).mono (h.isSuffix a ahead ha)

theorem isSuffix_skipBlanks (cs : List Char) : skipBlanks cs <:+ cs := List.dropWhile_suffix _

theorem isSuffix_of_skipBlanks {c : Char} (h : skipBlanks cs = c :: ahead) : ahead <:+ cs :=
  (List.suffix_cons c ahead).trans (h ▸ isSuffix_skipBlanks cs)

/-! ### Scalars -/

/-- What is wrong with an escape is not a number. -/
theorem escape_ne_numeralTooLong (start cs : List Char) (digits : Nat) :
    escape start cs ≠ .error (.numeralTooLong digits) := by
  have hunit {cs : List Char} {stop : Stop} (h : escapedUnit? cs = some (.error stop)) :
      stop ≠ .numeralTooLong digits := by
    unfold escapedUnit? at h
    split at h
    · split at h
      · cases h
      · cases h
        exact nofun
    · cases h
  unfold escape
  split
  · exact nofun
  · split
    · exact nofun
    · rename_i hstop
      exact fun h => hunit hstop (Except.error.inj h)
    · split
      · rename_i hstop
        split at hstop
        · exact fun h => hunit hstop (Except.error.inj h)
        · cases hstop
      · split <;> exact nofun
      · exact nofun
  · split <;> exact nofun

theorem goesForward_readString (start : List Char) (used : Nat) (cs : List Char) :
    GoesForward cs (readString start used cs) := by
  have hprecede {c c' : Char} {cs : List Char} {read : Read (List Char)}
      (h : GoesForward cs read) : GoesForward (c' :: cs) (precede c read) :=
    .mono (.map h fun _ => rfl) (List.suffix_cons c' cs)
  fun_induction readString start used cs with
  | case1 => exact goesForward_wrong _ _
  | case2 used c ahead ih => exact ih.mono (List.suffix_cons c ahead)
  | case3 ahead => exact goesForward_ok (List.suffix_cons _ _)
  | case4 ahead c used hescape ih => exact hprecede ih
  | case5 ahead stop hescape =>
      refine ⟨nofun, fun digits h => ?_⟩
      obtain rfl := Except.error.inj h
      exact absurd hescape (escape_ne_numeralTooLong start ahead digits)
  | case6 => exact goesForward_wrong _ _
  | case7 c ahead _ _ _ ih => exact hprecede ih

theorem goesForward_readNumber (cs : List Char) : GoesForward cs (readNumber cs) := by
  refine ⟨fun v ahead h => (passesTo_of_readNumber h).isSuffix, fun n => ?_⟩
  fun_cases readNumber cs with
  | case4 negative unsigned hs whole rest hw _ fraction rest' hf _ _ hlong =>
      rintro -
      have hdigits : whole = unsigned.takeWhile Char.isDigit := by
        unfold wholeDigits at hw
        split at hw
        · obtain ⟨rfl, -⟩ := Prod.mk.inj hw
          exact absurd hlong (by decide)
        · exact (Prod.mk.inj hw).1.symm
      obtain rfl := hdigits
      exact ⟨_, (List.takeWhile_prefix _).isInfix.trans (passesTo_of_sign hs).isSuffix.isInfix,
        fun c hc => List.mem_takeWhile_imp hc, hlong⟩
  | _ => rintro ⟨⟩

theorem goesForward_readScalar (cs : List Char) : GoesForward cs (readScalar dialect cs) := by
  refine ⟨fun v ahead h => (passesTo_of_readScalar h).isSuffix, fun n h => ?_⟩
  unfold readScalar at h
  split at h
  · cases h
  · split at h <;> cases h
  · exact (goesForward_readNumber cs).holdsOverlong n h

/-! ### Values -/

/-- The three readers at one depth go forward. -/
structure ReadersGoForward (dialect : Dialect) (depth : Nat) : Prop where
  value : ∀ cs, GoesForward cs (readValue dialect depth cs)
  items : ∀ cs, GoesForward cs (readItems dialect depth cs)
  members : ∀ cs, GoesForward cs (readMembers dialect depth cs)

theorem ReadersGoForward.value_succ {depth : Nat} (ih : ReadersGoForward dialect depth)
    (cs : List Char) : GoesForward cs (readValue dialect (depth + 1) cs) := by
  unfold readValue
  split
  · exact .mono (.map (goesForward_readString _ 0 _) fun _ => rfl) (List.suffix_cons _ _)
  · split
    · rename_i hclosed
      exact goesForward_ok ((isSuffix_of_skipBlanks hclosed).trans (List.suffix_cons _ _))
    · exact .mono (.map (ih.items _) fun _ => rfl)
        ((isSuffix_skipBlanks _).trans (List.suffix_cons _ _))
  · split
    · rename_i hclosed
      exact goesForward_ok ((isSuffix_of_skipBlanks hclosed).trans (List.suffix_cons _ _))
    · exact .mono (.map (ih.members _) fun _ => rfl)
        ((isSuffix_skipBlanks _).trans (List.suffix_cons _ _))
  · exact goesForward_readScalar _

theorem ReadersGoForward.items_succ {depth : Nat} (ih : ReadersGoForward dialect depth)
    (cs : List Char) : GoesForward cs (readItems dialect (depth + 1) cs) := by
  unfold readItems
  refine (ih.value cs).bind fun v ahead => ?_
  dsimp only
  split
  · rename_i hclosed
    exact goesForward_ok (isSuffix_of_skipBlanks hclosed)
  · rename_i hcomma
    have hnext := (isSuffix_skipBlanks _).trans (isSuffix_of_skipBlanks hcomma)
    exact ((ih.items _).mono hnext).bind fun items rest => goesForward_ok (List.suffix_refl rest)
  · exact goesForward_wrong _ _

theorem ReadersGoForward.members_succ {depth : Nat} (ih : ReadersGoForward dialect depth)
    (cs : List Char) : GoesForward cs (readMembers dialect (depth + 1) cs) := by
  unfold readMembers
  split
  · refine ((goesForward_readString _ 0 _).mono (List.suffix_cons _ _)).bind fun name ahead => ?_
    dsimp only
    split
    · rename_i hcolon
      have hnext := (isSuffix_skipBlanks _).trans (isSuffix_of_skipBlanks hcolon)
      refine ((ih.value _).mono hnext).bind fun v ahead => ?_
      dsimp only
      split
      · rename_i hclosed
        exact goesForward_ok (isSuffix_of_skipBlanks hclosed)
      · rename_i hcomma
        have hnext := (isSuffix_skipBlanks _).trans (isSuffix_of_skipBlanks hcomma)
        exact ((ih.members _).mono hnext).bind fun members rest =>
          goesForward_ok (List.suffix_refl rest)
      · exact goesForward_wrong _ _
    · exact goesForward_wrong _ _
  · exact goesForward_wrong _ _

theorem readersGoForward (dialect : Dialect) (depth : Nat) : ReadersGoForward dialect depth := by
  induction depth with
  | zero =>
      exact ⟨fun _ => goesForward_wrong _ _, fun _ => goesForward_wrong _ _,
        fun _ => goesForward_wrong _ _⟩
  | succ depth ih => exact ⟨ih.value_succ, ih.items_succ, ih.members_succ⟩

/-! ### Documents -/

theorem holdsOverlong_of_readDocument {digits : Nat}
    (h : readDocument dialect cs = .error (.numeralTooLong digits)) : HoldsOverlong cs := by
  rcases Except.bind_eq_error_iff.mp h with h | ⟨⟨v, ahead⟩, -, h⟩
  · have hforward := (readersGoForward dialect (2 * cs.length + 2)).value (skipBlanks cs)
    exact (hforward.holdsOverlong digits h).mono (isSuffix_skipBlanks cs)
  · dsimp only at h
    split at h <;> cases h

/-- **A text that is no document is malformed**, unless it holds a number with too many digits. -/
theorem exists_failure_of_ofText {s : String} {fault : Fault} (h : ofText s = .error fault)
    (hs : ¬ HoldsOverlong s.toList) : ∃ failure, fault = .json failure := by
  rcases fault_of_ofText h with hfailure | ⟨digits, rfl⟩
  · exact hfailure
  · exfalso
    unfold ofText ofTextIn at h
    split at h
    · cases h
    · unfold ofChars at h
      cases hread : readDocument .strict s.toList with
      | ok w =>
          rw [hread] at h
          cases h
      | error stop =>
          rw [hread] at h
          cases stop with
          | wrong problem place => cases h
          | constant name => cases h
          | numeralTooLong n => exact hs (holdsOverlong_of_readDocument hread)

end LooseData.Json
