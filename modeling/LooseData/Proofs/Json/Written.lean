import LooseData.Proofs.Json.Data
import LooseData.Proofs.Json.Numbers
import LooseData.Proofs.Json.Strings

set_option autoImplicit false

/-! # What is written for an atom

What is written for a value stands at the start of a text that the reader gives the value back from,
with anything behind it that a value can be followed by (`Written`). An atom is read by one of the
readers of atoms.

There are two exceptions. The writer has names for the infinities and for a NaN, and strict JSON does
not, so that reading stops at the first of them (`reading`). And two surrogates that stand next to each
other are read as the character that they make up (`Value.rejoined`).
-/

namespace LooseData

/-- The infinities and NaNs in a value, in the order in which they are written. -/
def Value.nonFinite : Value → List Double :=
  Value.fold (fun a => match a with
    | .double (.infinite negative) => [.infinite negative]
    | .double (.nan mark) => [.nan mark]
    | _ => []) fun n => n.children.flatten

/-- The texts in a key as it is written. -/
def Json.keyTexts : Key → List String
  | .atom (.text s) => [s]
  | _ => []

/-- The texts in a value, its keys included. -/
def Value.texts : Value → List String :=
  Value.fold (fun a => match a with
    | .text s => [s]
    | _ => []) fun n => match n with
    | .dict entries => entries.flatMap fun e => Json.keyTexts e.1 ++ e.2
    | n => n.children.flatten

/-- A text with pairs of surrogates joined. -/
def Json.rejoinedText (s : String) : String := String.ofList (Json.rejoined s.toList)

/-- A key with pairs of surrogates joined. -/
def Json.rejoinedKey : Key → Key
  | .atom (.text s) => .text (Json.rejoinedText s)
  | key => key

/-- The value with pairs of surrogates joined in its texts and its keys. Of several keys that become
one the last counts. -/
def Value.rejoined : Value → Value :=
  Value.fold (fun a => match a with
    | .text s => .text (Json.rejoinedText s)
    | a => .atom a) fun n => match n with
    | .dict entries => .dict (Table.ofList (entries.map fun e => (Json.rejoinedKey e.1, e.2)))
    | n => .node n

namespace Json

open Numeral (AllDigits)

variable {cs ahead : List Char} {depth level : Nat}

theorem nonFinite_list (items : List Value) :
    (Value.list items).nonFinite = items.flatMap Value.nonFinite := by
  show Value.fold _ _ (.node (.list items)) = _
  rw [Value.fold_node, List.flatMap_def]
  rfl

theorem nonFinite_dict (entries : Table Value) :
    (Value.dict entries).nonFinite = entries.flatMap fun e => e.2.nonFinite := by
  show Value.fold _ _ (.node (.dict entries)) = _
  rw [Value.fold_node, List.flatMap_def]
  show ((entries.map fun e => (e.1, Value.nonFinite e.2)).map Prod.snd).flatten = _
  rw [List.map_map]
  rfl

theorem texts_list (items : List Value) :
    (Value.list items).texts = items.flatMap Value.texts := by
  show Value.fold _ _ (.node (.list items)) = _
  rw [Value.fold_node, List.flatMap_def]
  rfl

theorem texts_dict (entries : Table Value) :
    (Value.dict entries).texts = entries.flatMap fun e => keyTexts e.1 ++ e.2.texts := by
  show Value.fold _ _ (.node (.dict entries)) = _
  rw [Value.fold_node]
  show (entries.map fun e => (e.1, Value.texts e.2)).flatMap _ = _
  rw [List.flatMap_map]

theorem rejoined_list (items : List Value) :
    (Value.list items).rejoined = .list (items.map Value.rejoined) := by
  show Value.fold _ _ (.node (.list items)) = _
  rw [Value.fold_node]
  rfl

theorem rejoined_dict (entries : Table Value) :
    (Value.dict entries).rejoined =
      .dict (Table.ofList (entries.map fun e => (rejoinedKey e.1, e.2.rejoined))) := by
  show Value.fold _ _ (.node (.dict entries)) = _
  rw [Value.fold_node]
  show Value.dict (Table.ofList ((entries.map fun e => (e.1, Value.rejoined e.2)).map _)) = _
  rw [List.map_map]
  rfl

/-! ## What is read -/

/-- What reading gives for something that holds the given infinities and NaNs. -/
def reading {α : Type} (a : α) : List Double → Except Stop α
  | [] => .ok a
  | d :: _ => .error (.constant (NumberForm.json.write d))

/-! ## Layout -/

theorem skipBlanks_of_head {c : Char} (h : isBlank c = false) : skipBlanks (c :: cs) = c :: cs := by
  rw [skipBlanks, List.dropWhile_cons_of_neg (by simp [h])]

theorem toList_newLine (level : Nat) :
    (newLine level).toList = '\n' :: List.replicate (2 * level) ' ' := by
  rw [newLine, String.toList_append]
  exact congrArg (['\n'] ++ ·) String.toList_ofList

/-- A line break and indentation are skipped. -/
theorem skipBlanks_newLine (level : Nat) (cs : List Char) :
    skipBlanks ((newLine level).toList ++ cs) = skipBlanks cs := by
  have hblanks : ∀ c ∈ (newLine level).toList, isBlank c = true := by
    rw [toList_newLine, List.forall_mem_cons]
    exact ⟨rfl, fun c hc => by rw [List.eq_of_mem_replicate hc]; rfl⟩
  exact List.dropWhile_append_of_pos hblanks

/-- A value is followed by the end, by a comma or by a line break. -/
def EndsValue (ahead : List Char) : Prop := ∀ c, ahead.head? = some c → c = ',' ∨ c = '\n'

theorem EndsValue.endsNumber (h : EndsValue ahead) : EndsNumber ahead := by
  intro c hc
  rcases h c hc with rfl | rfl <;> decide

theorem endsValue_newLine (level : Nat) (cs : List Char) :
    EndsValue ((newLine level).toList ++ cs) := by
  intro c hc
  rw [toList_newLine] at hc
  exact .inr (Option.some.inj hc).symm

theorem endsValue_comma (cs : List Char) : EndsValue (',' :: cs) :=
  fun _ hc => .inl (Option.some.inj hc).symm

/-! ## What is written for a value -/

/-- The characters are printable ASCII and line breaks. -/
def Printed (cs : List Char) : Prop := ∀ c ∈ cs, IsPlain c ∨ c = '\n'

instance (cs : List Char) : Decidable (Printed cs) :=
  List.decidableBAll (fun c => IsPlain c ∨ c = '\n') cs

theorem Printed.append {cs ds : List Char} (hcs : Printed cs) (hds : Printed ds) :
    Printed (cs ++ ds) := fun c hc => (List.mem_append.mp hc).elim (hcs c) (hds c)

/-- The characters are what a value is written as: printable ASCII and line breaks that start with
no blank and no closing bracket, and that are read as the value with pairs of surrogates joined. -/
structure Written (cs : List Char) (v : Value) : Prop where
  printed : Printed cs
  head : ∃ c rest, cs = c :: rest ∧ isBlank c = false ∧ c ≠ ']'
  read : ∀ depth ahead, cs.length ≤ depth → EndsValue ahead →
    readValue .strict depth (cs ++ ahead) =
      (reading v.rejoined v.nonFinite).map fun v => (v, ahead)

/-- The characters start a name or a number. -/
def StartsScalar (cs : List Char) : Prop :=
  ∃ c rest, cs = c :: rest ∧ isBlank c = false ∧ c ≠ '"' ∧ c ≠ '[' ∧ c ≠ '{' ∧ c ≠ ']'

/-- What is no text and no collection is read by the reader of scalars. -/
theorem Written.of_readScalar {v : Value} (hprinted : Printed cs)
    (hstart : StartsScalar cs)
    (hread : ∀ ahead, EndsValue ahead →
      readScalar .strict (cs ++ ahead) =
        (reading v.rejoined v.nonFinite).map fun v => (v, ahead)) :
    Written cs v := by
  obtain ⟨c, rest, rfl, hblank, hquote, hbracket, hbrace, hclosing⟩ := hstart
  refine ⟨hprinted, ⟨c, rest, rfl, hblank, hclosing⟩, fun depth ahead hdepth hahead => ?_⟩
  obtain ⟨depth, rfl⟩ : ∃ k, depth = k + 1 := ⟨depth - 1, by rw [List.length_cons] at hdepth; omega⟩
  rw [← hread ahead hahead, List.cons_append, readValue]
  · exact fun _ heq => hquote (List.cons.inj heq).1
  · exact fun _ heq => hbracket (List.cons.inj heq).1
  · exact fun _ heq => hbrace (List.cons.inj heq).1

/-! ## Atoms -/

theorem written_null : Written "null".toList .null :=
  .of_readScalar (by decide) ⟨_, _, rfl, by decide⟩ fun _ _ => rfl

theorem written_bool (b : Bool) : Written (if b then "true" else "false").toList (.bool b) := by
  cases b with
  | true => exact .of_readScalar (by decide) ⟨_, _, rfl, by decide⟩ fun _ _ => rfl
  | false => exact .of_readScalar (by decide) ⟨_, _, rfl, by decide⟩ fun _ _ => rfl

theorem named?_eq_none {α : Type} {entries : List (String × α)}
    (h : ∀ entry ∈ entries, after? entry.1.toList cs = none) : named? entries cs = none := by
  refine List.findSome?_eq_none_iff.mpr fun entry hentry => ?_
  rw [h entry hentry]
  rfl

theorem after?_cons_of_ne {w c : Char} (h : w ≠ c) (word cs : List Char) :
    after? (w :: word) (c :: cs) = none := if_neg h

/-- What starts with a sign and a digit starts with no name. -/
theorem readScalar_number {c : Char} (hc : c.isDigit = true) (negative : Bool) (cs : List Char) :
    readScalar .strict (sign negative ++ c :: cs) = readNumber (sign negative ++ c :: cs) := by
  have hne (w : Char) (hw : w.isDigit = false) : w ≠ c := by
    rintro rfl
    rw [hc] at hw
    cases hw
  have hnone : named? names (sign negative ++ c :: cs) = none ∧
      named? constants (sign negative ++ c :: cs) = none := by
    constructor
    · apply named?_eq_none
      simp only [names, List.forall_mem_cons]
      cases negative with
      | true => exact ⟨rfl, rfl, rfl, List.forall_mem_nil _⟩
      | false =>
          exact ⟨after?_cons_of_ne (hne 'n' rfl) _ _, after?_cons_of_ne (hne 't' rfl) _ _,
            after?_cons_of_ne (hne 'f' rfl) _ _, List.forall_mem_nil _⟩
    · apply named?_eq_none
      simp only [constants, List.forall_mem_cons]
      cases negative with
      | true => exact ⟨rfl, rfl, after?_cons_of_ne (hne 'I' rfl) _ _, List.forall_mem_nil _⟩
      | false =>
          exact ⟨after?_cons_of_ne (hne 'N' rfl) _ _, after?_cons_of_ne (hne 'I' rfl) _ _,
            after?_cons_of_ne (hne '-' rfl) _ _, List.forall_mem_nil _⟩
  unfold readScalar
  rw [hnone.1, hnone.2]

theorem IsNumeric.isPlain {c : Char} (h : IsNumeric c) : IsPlain c := by
  rcases h with h | h
  · obtain ⟨hlow, hhigh⟩ : 48 ≤ c.toNat ∧ c.toNat ≤ 57 := Char.isDigit_iff_toNat.mp h
    constructor <;> omega
  · have hmarks : ∀ d ∈ ['-', '+', '.', 'e'], IsPlain d := by
      simp only [List.forall_mem_cons]
      exact ⟨by decide, by decide, by decide, by decide, List.forall_mem_nil _⟩
    exact hmarks c h

theorem Written.of_number {c : Char} {rest : List Char} {negative : Bool} {v : Value}
    (hc : c.isDigit = true) (hrest : ∀ d ∈ rest, IsNumeric d) (hfinite : v.nonFinite = [])
    (hjoined : v.rejoined = v) (hread : ∀ ahead, EndsNumber ahead →
      readNumber (sign negative ++ (c :: rest ++ ahead)) = .ok (v, ahead)) :
    Written (sign negative ++ c :: rest) v := by
  have hnumeric : ∀ d ∈ sign negative ++ c :: rest, IsNumeric d := by
    intro d hd
    rcases List.mem_append.mp hd with hd | hd
    · cases negative with
      | true => exact .inr (by simp_all [sign])
      | false => cases hd
    · rcases List.mem_cons.mp hd with rfl | hd
      · exact .inl hc
      · exact hrest d hd
  have hdigit (d : Char) (hd : d.isDigit = false) : c ≠ d := by
    rintro rfl
    rw [hc] at hd
    cases hd
  refine .of_readScalar (fun d hd => .inl (hnumeric d hd).isPlain) ?_ fun ahead hahead => ?_
  · cases negative with
    | true => exact ⟨_, _, rfl, by decide⟩
    | false =>
        refine ⟨_, _, rfl, ?_, hdigit _ rfl, hdigit _ rfl, hdigit _ rfl, hdigit _ rfl⟩
        simp [isBlank, hdigit ' ' rfl, hdigit '\t' rfl, hdigit '\n' rfl, hdigit '\r' rfl]
  · rw [List.append_assoc, List.cons_append, readScalar_number hc, ← List.cons_append,
      hread ahead hahead.endsNumber, hfinite, hjoined]
    rfl

theorem written_int {i : Int} (hi : (Atom.int i).tooLong = false) :
    Written (toString i).toList (.int i) := by
  have hread (ahead : List Char) (hahead : EndsNumber ahead) := readNumber_toString hi hahead
  rw [toList_toString_int] at hread ⊢
  have hall := allDigits_toDigits i.natAbs
  cases hdigits : Nat.toDigits 10 i.natAbs with
  | nil => exact absurd hdigits Nat.toDigits_ne_nil
  | cons c rest =>
      rw [hdigits] at hall hread
      obtain ⟨hc, hrest⟩ := List.forall_mem_cons.mp hall
      refine .of_number hc (fun d hd => .inl (hrest d hd)) rfl rfl fun ahead hahead => ?_
      rw [← List.append_assoc]
      exact hread ahead hahead

/-- An infinity or a NaN is written by a name that strict JSON does not have. -/
theorem written_double (d : Double) : Written (NumberForm.json.write d).toList (.double d) := by
  cases d with
  | nan mark =>
      show Written "NaN".toList _
      exact .of_readScalar (by decide) ⟨_, _, rfl, by decide⟩ fun _ _ => rfl
  | infinite negative =>
      cases negative with
      | true =>
          show Written "-Infinity".toList _
          exact .of_readScalar (by decide) ⟨_, _, rfl, by decide⟩ fun _ _ => rfl
      | false =>
          show Written "Infinity".toList _
          exact .of_readScalar (by decide) ⟨_, _, rfl, by decide⟩ fun _ _ => rfl
  | finite negative rank =>
      have hwritten : (NumberForm.json.write (.finite negative rank)).toList =
          sign negative ++ NumberForm.json.magnitude rank := String.toList_ofList
      obtain ⟨c, rest, hmagnitude, hc, hrest⟩ := exists_digit_magnitude NumberForm.json rank
      rw [hwritten, hmagnitude]
      refine .of_number hc hrest rfl rfl fun ahead hahead => ?_
      rw [← hmagnitude]
      exact readNumber_magnitude NumberForm.json negative rank hahead

theorem written_text (s : String) : Written (quote s).toList (.text s) := by
  refine ⟨fun c hc => .inl (isPlain_of_mem_quote hc), ?_, fun depth ahead hdepth _ => ?_⟩
  · rw [toList_quote]
    exact ⟨_, _, rfl, by decide⟩
  · rw [toList_quote] at hdepth ⊢
    obtain ⟨depth, rfl⟩ : ∃ k, depth = k + 1 :=
      ⟨depth - 1, by rw [List.length_cons] at hdepth; omega⟩
    rw [List.cons_append, List.append_assoc, readValue]
    show ((readString _ 0 (s.toList.flatMap escapeChar ++ '"' :: ahead)).map _) = _
    rw [readString_quote]
    rfl

end Json

end LooseData
