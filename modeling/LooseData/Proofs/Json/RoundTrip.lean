import LooseData.Proofs.Json.Written

set_option autoImplicit false

/-! # Documents are read as they are written

The induction is on the value. An array or an object is read part by part, with line breaks and
blanks between the parts that the reader skips, and each part is what an item or an entry is
written as (`readItems_joined`, `readMembers_joined`). So a document is read exactly if its value
holds no infinity and no NaN, and otherwise the first of them in the order of the text is what it
is refused for (`ofText_of_write`).
-/

namespace LooseData

namespace Json

variable {cs ahead : List Char} {depth level : Nat}

/-! ## Collections -/

/-- What stands between two parts of a collection. -/
def separator (level : Nat) : List Char := ',' :: (newLine level).toList

/-- Parts on lines of their own. -/
def joined (level : Nat) (parts : List (List Char)) : List Char :=
  (separator level).intercalate parts

theorem joined_cons_cons (level : Nat) (part next : List Char) (parts : List (List Char)) :
    joined level (part :: next :: parts) =
      part ++ ',' :: ((newLine level).toList ++ joined level (next :: parts)) := by
  rw [joined, List.intercalate_cons_cons, List.append_assoc]
  rfl

theorem length_joined_cons_cons (level : Nat) (part next : List Char)
    (parts : List (List Char)) :
    part.length + (joined level (next :: parts)).length + 2 ≤
      (joined level (part :: next :: parts)).length := by
  rw [joined_cons_cons, toList_newLine]
  simp only [List.length_append, List.length_cons]
  omega

theorem joined_singleton (level : Nat) (part : List Char) : joined level [part] = part :=
  List.intercalate_singleton

/-- No blank stands before parts if none stands before the first. -/
theorem skipBlanks_joined {part : List Char} {c : Char} {rest : List Char}
    (hpart : part = c :: rest) (hc : isBlank c = false) (level : Nat) (parts : List (List Char))
    (ahead : List Char) :
    skipBlanks (joined level (part :: parts) ++ ahead) = joined level (part :: parts) ++ ahead := by
  subst hpart
  cases parts with
  | nil => exact skipBlanks_of_head hc
  | cons next parts =>
      rw [joined_cons_cons]
      exact skipBlanks_of_head hc

theorem readItems_error {stop : Stop} (h : readValue .strict depth cs = .error stop) :
    readItems .strict (depth + 1) cs = .error stop := by
  rw [readItems, h]
  rfl

/-- The last item of an array. -/
theorem readItems_last {v : Value} {rest : List Char}
    (h : readValue .strict depth cs = .ok (v, ahead)) (hclosing : skipBlanks ahead = ']' :: rest) :
    readItems .strict (depth + 1) cs = .ok ([v], rest) := by
  simp only [readItems, h, bind, Except.bind, hclosing]

/-- An item of an array that another one follows. -/
theorem readItems_next {v : Value} {rest : List Char}
    (h : readValue .strict depth cs = .ok (v, ahead)) (hcomma : skipBlanks ahead = ',' :: rest) :
    readItems .strict (depth + 1) cs =
      (readItems .strict depth (skipBlanks rest)).map fun (items, ahead) => (v :: items, ahead) := by
  simp only [readItems, h, bind, Except.bind, hcomma]
  cases readItems .strict depth (skipBlanks rest) <;> rfl

/-- The parts of an array are what its items are written as. -/
theorem readItems_joined {parts : List (List Char)} {items : List Value}
    (h : List.Forall₂ Written parts items) (hne : parts ≠ []) (outer : Nat) (ahead : List Char) :
    ∀ depth, (joined level parts).length < depth →
      readItems .strict depth (joined level parts ++ ((newLine outer).toList ++ ']' :: ahead)) =
        (reading (items.map Value.rejoined) (items.flatMap Value.nonFinite)).map
          fun items => (items, ahead) := by
  induction h with
  | nil => exact absurd rfl hne
  | @cons part v parts items hpart hparts ih =>
      intro depth hdepth
      obtain ⟨depth, rfl⟩ : ∃ k, depth = k + 1 := ⟨depth - 1, by omega⟩
      rw [List.flatMap_cons]
      -- The first infinity or NaN among the items ends the reading, whatever comes behind it.
      cases hparts with
      | nil =>
          have hclosing : skipBlanks ((newLine outer).toList ++ ']' :: ahead) = ']' :: ahead :=
            skipBlanks_newLine outer _
          rw [joined_singleton] at hdepth ⊢
          have hread := hpart.read depth _ (by omega) (endsValue_newLine outer (']' :: ahead))
          cases hfinite : v.nonFinite with
          | cons d ds =>
              rw [hfinite] at hread
              exact readItems_error hread
          | nil =>
              rw [hfinite] at hread
              exact readItems_last hread hclosing
      | @cons next w parts items hnext hparts =>
          obtain ⟨c, rest, hhead, hblank, -⟩ := hnext.head
          have hlength := length_joined_cons_cons level part next parts
          have hskip : skipBlanks ((newLine level).toList ++ (joined level (next :: parts) ++
              ((newLine outer).toList ++ ']' :: ahead))) =
                joined level (next :: parts) ++ ((newLine outer).toList ++ ']' :: ahead) :=
            (skipBlanks_newLine level _).trans (skipBlanks_joined hhead hblank _ _ _)
          rw [joined_cons_cons, List.append_assoc, List.cons_append, List.append_assoc]
          have hread := hpart.read depth _ (by omega) (endsValue_comma
            ((newLine level).toList ++ (joined level (next :: parts) ++
              ((newLine outer).toList ++ ']' :: ahead))))
          cases hfinite : v.nonFinite with
          | cons d ds =>
              rw [hfinite] at hread
              exact readItems_error hread
          | nil =>
              rw [hfinite] at hread
              rw [readItems_next hread rfl, hskip, ih (List.cons_ne_nil _ _) depth (by omega),
                List.nil_append]
              cases (w :: items).flatMap Value.nonFinite <;> rfl

/-- A text as the name of what is written behind it. -/
def member (name : String) (written : List Char) : List Char :=
  (quote name).toList ++ ':' :: ' ' :: written

/-- The characters are what an entry under a text is written as. -/
def WrittenMember (cs : List Char) (e : Key × Value) : Prop :=
  ∃ name written, cs = member name written ∧ e.1 = .text name ∧ Written written e.2

theorem member_append (name : String) (written ahead : List Char) :
    member name written ++ ahead =
      '"' :: (name.toList.flatMap escapeChar ++ '"' :: ':' :: ' ' :: (written ++ ahead)) := by
  rw [member, toList_quote]
  simp only [List.cons_append, List.append_assoc, List.nil_append]

/-- A member is read as its name and then its value. -/
theorem readMembers_member {name : String} {written : List Char} {v : Value}
    (h : Written written v) (hdepth : written.length ≤ depth) (hahead : EndsValue ahead) :
    readMembers .strict (depth + 1) (member name written ++ ahead) =
      (reading v.rejoined v.nonFinite).bind fun v => match skipBlanks ahead with
        | '}' :: ahead => .ok ([(.text (rejoinedText name), v)], ahead)
        | ',' :: ahead =>
          (readMembers .strict depth (skipBlanks ahead)).bind fun (members, ahead) =>
            .ok ((.text (rejoinedText name), v) :: members, ahead)
        | ahead => .error (.wrong .expectedComma ahead) := by
  obtain ⟨c, rest, hhead, hblank, -⟩ := h.head
  have hskip : skipBlanks (' ' :: (written ++ ahead)) = written ++ ahead := by
    rw [hhead]
    exact skipBlanks_of_head hblank
  rw [member_append, readMembers, readString_quote]
  show (readValue .strict depth (skipBlanks (' ' :: (written ++ ahead)))).bind _ = _
  rw [hskip, h.read depth ahead hdepth hahead]
  cases v.nonFinite <;> rfl

theorem length_member (name : String) (written : List Char) :
    written.length + 4 ≤ (member name written).length := by
  rw [member, toList_quote]
  simp only [List.length_append, List.length_cons]
  omega

/-- The parts of an object are what its entries are written as. -/
theorem readMembers_joined {parts : List (List Char)} {entries : List (Key × Value)}
    (h : List.Forall₂ WrittenMember parts entries) (hne : parts ≠ []) (outer : Nat)
    (ahead : List Char) :
    ∀ depth, (joined level parts).length < depth →
      readMembers .strict depth (joined level parts ++ ((newLine outer).toList ++ '}' :: ahead)) =
        (reading (entries.map fun e => (rejoinedKey e.1, e.2.rejoined))
          (entries.flatMap fun e => e.2.nonFinite)).map fun entries => (entries, ahead) := by
  induction h with
  | nil => exact absurd rfl hne
  | @cons part e parts entries hpart hparts ih =>
      intro depth hdepth
      obtain ⟨depth, rfl⟩ : ∃ k, depth = k + 1 := ⟨depth - 1, by omega⟩
      obtain ⟨name, written, rfl, hname, hwritten⟩ := hpart
      obtain ⟨key, v⟩ := e
      obtain rfl : key = .text name := hname
      have hmember := length_member name written
      rw [List.flatMap_cons]
      cases hparts with
      | nil =>
          have hclosing : skipBlanks ((newLine outer).toList ++ '}' :: ahead) = '}' :: ahead :=
            skipBlanks_newLine outer _
          rw [joined_singleton] at hdepth ⊢
          rw [readMembers_member hwritten (by omega) (endsValue_newLine _ _), hclosing]
          cases v.nonFinite <;> rfl
      | @cons next d parts entries hnext hparts =>
          obtain ⟨_, nextWritten, hhead, -⟩ := hnext
          have hlength := length_joined_cons_cons level (member name written) next parts
          have hskip : skipBlanks ((newLine level).toList ++ (joined level (next :: parts) ++
              ((newLine outer).toList ++ '}' :: ahead))) =
                joined level (next :: parts) ++ ((newLine outer).toList ++ '}' :: ahead) := by
            rw [member, toList_quote] at hhead
            exact (skipBlanks_newLine level _).trans (skipBlanks_joined hhead rfl _ _ _)
          rw [joined_cons_cons, List.append_assoc, List.cons_append, List.append_assoc,
            readMembers_member hwritten (by omega) (endsValue_comma _)]
          cases v.nonFinite with
          | cons d ds => rfl
          | nil =>
              show (readMembers .strict depth (skipBlanks _)).bind _ = _
              rw [hskip, ih (List.cons_ne_nil _ _) depth (by omega), List.nil_append]
              cases (d :: entries).flatMap fun e => e.2.nonFinite <;> rfl

theorem readValue_array {dialect : Dialect} {c : Char} {rest : List Char} (hcs : cs = c :: rest)
    (hblank : isBlank c = false) (hc : c ≠ ']') (level : Nat) :
    readValue dialect (depth + 1) ('[' :: ((newLine level).toList ++ cs)) =
      (readItems dialect depth cs).map fun (items, ahead) => (.list items, ahead) := by
  subst hcs
  rw [readValue, skipBlanks_newLine, skipBlanks_of_head hblank]
  split
  · rename_i heq
    exact absurd (List.cons.inj heq).1 hc
  · rfl

theorem readValue_object {dialect : Dialect} {rest : List Char} (hcs : cs = '"' :: rest)
    (level : Nat) :
    readValue dialect (depth + 1) ('{' :: ((newLine level).toList ++ cs)) =
      (readMembers dialect depth cs).map fun (members, ahead) =>
        (.dict (Table.ofList members), ahead) := by
  subst hcs
  rw [readValue, skipBlanks_newLine, skipBlanks_of_head rfl]
  rfl

/-- Written parts between brackets. -/
def enclosed (opening closing : Char) (level : Nat) (parts : List (List Char)) : List Char :=
  opening :: ((newLine (level + 1)).toList ++
    (joined (level + 1) parts ++ ((newLine level).toList ++ [closing])))

theorem toList_enclose {parts : List String} (hne : parts ≠ []) {opening closing : String}
    {o c : Char} (ho : opening.toList = [o]) (hc : closing.toList = [c]) (level : Nat) :
    (enclose opening closing level parts).toList =
      enclosed o c level (parts.map String.toList) := by
  have hseparator : ("," ++ newLine (level + 1)).toList = separator (level + 1) :=
    String.toList_append
  rw [enclose, if_neg (by simpa using hne)]
  simp only [String.toList_append, String.toList_intercalate, hseparator, ho, hc, enclosed, joined,
    List.append_assoc, List.cons_append, List.nil_append]

theorem printed_newLine (level : Nat) : Printed (newLine level).toList := by
  rw [toList_newLine]
  refine List.forall_mem_cons.mpr ⟨.inr rfl, fun c hc => .inl ?_⟩
  rw [List.eq_of_mem_replicate hc]
  decide

theorem printed_cons {c : Char} (hc : IsPlain c) (h : Printed cs) : Printed (c :: cs) :=
  List.forall_mem_cons.mpr ⟨.inl hc, h⟩

theorem printed_joined {parts : List (List Char)} (h : ∀ part ∈ parts, Printed part) :
    Printed (joined level parts) := by
  induction parts with
  | nil => exact List.forall_mem_nil _
  | cons part parts ih =>
      obtain ⟨hpart, hparts⟩ := List.forall_mem_cons.mp h
      cases parts with
      | nil =>
          rw [joined_singleton]
          exact hpart
      | cons next parts =>
          rw [joined_cons_cons]
          exact hpart.append (printed_cons (by decide) ((printed_newLine level).append (ih hparts)))

theorem printed_enclosed {opening closing : Char} (ho : IsPlain opening) (hc : IsPlain closing)
    {parts : List (List Char)} (h : ∀ part ∈ parts, Printed part) :
    Printed (enclosed opening closing level parts) :=
  printed_cons ho ((printed_newLine _).append ((printed_joined h).append
    ((printed_newLine _).append (printed_cons hc (List.forall_mem_nil _)))))

theorem forall₂_of_mem {α β : Type} {R S : α → β → Prop} {as : List α} {bs : List β}
    (h : List.Forall₂ R as bs) (hS : ∀ a, ∀ b ∈ bs, R a b → S a b) : List.Forall₂ S as bs :=
  List.forall₂_iff_zip.mpr ⟨h.length_eq, fun hzip =>
    hS _ _ (List.of_mem_zip hzip).2 (List.forall₂_zip h hzip)⟩

theorem written_list {parts : List (List Char)} {items : List Value}
    (h : List.Forall₂ Written parts items) (hne : parts ≠ []) :
    Written (enclosed '[' ']' level parts) (.list items) := by
  have hprinted : ∀ part ∈ parts, Printed part :=
    ((List.forall₂_and_left _ _).mp (h.imp fun _ _ hpart => ⟨hpart.printed, hpart⟩)).1
  refine ⟨printed_enclosed (by decide) (by decide) hprinted, ⟨_, _, rfl, by decide⟩,
    fun depth ahead hdepth _ => ?_⟩
  have hlength : (joined (level + 1) parts).length + 4 ≤ (enclosed '[' ']' level parts).length := by
    simp only [enclosed, toList_newLine, List.length_cons, List.length_append]
    omega
  obtain ⟨depth, rfl⟩ : ∃ k, depth = k + 1 := ⟨depth - 1, by omega⟩
  have hstart : ∃ c rest, joined (level + 1) parts ++ ((newLine level).toList ++ ']' :: ahead) =
      c :: rest ∧ isBlank c = false ∧ c ≠ ']' := by
    cases h with
    | nil => exact absurd rfl hne
    | @cons part v parts items hpart _ =>
        obtain ⟨c, rest, rfl, hblank, hc⟩ := hpart.head
        cases parts with
        | nil => exact ⟨c, _, rfl, hblank, hc⟩
        | cons next parts =>
            rw [joined_cons_cons]
            exact ⟨c, _, rfl, hblank, hc⟩
  obtain ⟨c, rest, hcs, hblank, hc⟩ := hstart
  simp only [enclosed, List.cons_append, List.append_assoc, List.nil_append]
  rw [readValue_array hcs hblank hc, readItems_joined h hne level ahead depth (by omega),
    nonFinite_list, rejoined_list]
  cases items.flatMap Value.nonFinite <;> rfl

theorem written_dict {parts : List (List Char)} {entries : Table Value}
    (h : List.Forall₂ WrittenMember parts entries) (hne : parts ≠ []) :
    Written (enclosed '{' '}' level parts) (.dict entries) := by
  have hprinted : ∀ part ∈ parts, Printed part := by
    refine ((List.forall₂_and_left _ _).mp (h.imp fun part e hpart => ⟨?_, hpart⟩)).1
    obtain ⟨name, written, rfl, -, hwritten⟩ := hpart
    exact .append (fun c hc => .inl (isPlain_of_mem_quote hc))
      (printed_cons (by decide) (printed_cons (by decide) hwritten.printed))
  refine ⟨printed_enclosed (by decide) (by decide) hprinted, ⟨_, _, rfl, by decide⟩,
    fun depth ahead hdepth _ => ?_⟩
  have hlength : (joined (level + 1) parts).length + 4 ≤ (enclosed '{' '}' level parts).length := by
    simp only [enclosed, toList_newLine, List.length_cons, List.length_append]
    omega
  obtain ⟨depth, rfl⟩ : ∃ k, depth = k + 1 := ⟨depth - 1, by omega⟩
  have hstart : ∃ rest, joined (level + 1) parts ++ ((newLine level).toList ++ '}' :: ahead) =
      '"' :: rest := by
    cases h with
    | nil => exact absurd rfl hne
    | @cons part e parts entries hpart _ =>
        obtain ⟨name, written, rfl, -⟩ := hpart
        cases parts with
        | nil =>
            rw [joined_singleton]
            exact ⟨_, member_append name written _⟩
        | cons next parts =>
            rw [joined_cons_cons, List.append_assoc]
            exact ⟨_, member_append name written _⟩
  obtain ⟨rest, hcs⟩ := hstart
  simp only [enclosed, List.cons_append, List.append_assoc, List.nil_append]
  rw [readValue_object hcs, readMembers_joined h hne level ahead depth (by omega), nonFinite_dict,
    rejoined_dict]
  cases entries.flatMap fun e => e.2.nonFinite <;> rfl

/-! ## Every value -/

theorem written_draft_list (items : List Value) (level : Nat) :
    (draft (.list items)).written level =
      (items.mapM fun v => (draft v).written (level + 1)).map (enclose "[" "]" level) := by
  have hdraft : draft (.list items) = ⟨_, writeNode (.list (items.map draft))⟩ :=
    Value.fold_node _ _ _
  rw [hdraft]
  show ((items.map draft).mapM fun (item : Draft) => item.written (level + 1)).map _ = _
  rw [List.mapM_map]
  rfl

theorem written_draft_dict (entries : Table Value) (level : Nat) :
    (draft (.dict entries)).written level =
      (List.mapM (fun (e : Key × Value) => do
        pure ((← memberName e.1) ++ ": " ++ (← (draft e.2).written (level + 1)))) entries).map
          (enclose "\x7b" "\x7d" level) := by
  have hdraft : draft (.dict entries) =
      ⟨_, writeNode (.dict (entries.map fun (e : Key × Value) => (e.1, draft e.2)))⟩ :=
    Value.fold_node _ _ _
  rw [hdraft]
  show (List.mapM (fun (e : Key × Draft) => do
    pure ((← memberName e.1) ++ ": " ++ (← e.2.written (level + 1))))
      (entries.map fun (e : Key × Value) => (e.1, draft e.2))).map _ = _
  rw [List.mapM_map]
  rfl

theorem written_draft_atom (a : Atom) (level : Nat) :
    (draft (.atom a)).written level = writeAtom a := by
  rw [draft, Value.fold_atom]

theorem written_emptyList : Written "[]".toList (.list []) := by
  refine ⟨by decide, ⟨_, _, rfl, by decide⟩, fun depth ahead hdepth _ => ?_⟩
  obtain ⟨depth, rfl⟩ : ∃ k, depth = k + 1 := ⟨depth - 1, by simp at hdepth; omega⟩
  rfl

theorem written_emptyDict : Written "\x7b\x7d".toList (.dict []) := by
  refine ⟨by decide, ⟨_, _, rfl, by decide⟩, fun depth ahead hdepth _ => ?_⟩
  obtain ⟨depth, rfl⟩ : ∃ k, depth = k + 1 := ⟨depth - 1, by simp at hdepth; omega⟩
  rfl

/-- **What is written for a value is read as the value** with pairs of surrogates joined, one case
for each kind of value. -/
theorem written_of_draft {v : Value} (h : v.IsJson) :
    ∀ level s, (draft v).written level = .ok s → Written s.toList v := by
  induction h with
  | null =>
      intro level s hs
      rw [Value.null, written_draft_atom] at hs
      obtain rfl := Except.ok.inj hs
      exact written_null
  | bool b =>
      intro level s hs
      rw [Value.bool, written_draft_atom] at hs
      obtain rfl := Except.ok.inj hs
      exact written_bool b
  | int i =>
      intro level s hs
      rw [Value.int, written_draft_atom, writeAtom] at hs
      split at hs
      · cases hs
      · rename_i hshort
        obtain rfl := Except.ok.inj hs
        exact written_int (Bool.eq_false_iff.mpr hshort)
  | double d =>
      intro level s hs
      rw [Value.double, written_draft_atom] at hs
      obtain rfl := Except.ok.inj hs
      exact written_double d
  | text t =>
      intro level s hs
      rw [Value.text, written_draft_atom] at hs
      obtain rfl := Except.ok.inj hs
      exact written_text t
  | @list items _ ih =>
      intro level s hs
      rw [written_draft_list] at hs
      obtain ⟨parts, hparts, rfl⟩ := Except.map_eq_ok_iff.mp hs
      cases parts with
      | nil =>
          obtain rfl := (List.forall₂_nil_left_iff.mp (Except.forall₂_of_mapM_eq_ok hparts))
          exact written_emptyList
      | cons part parts =>
          rw [toList_enclose (List.cons_ne_nil _ _) rfl rfl]
          refine written_list (List.forall₂_map_left_iff.mpr ?_) (List.cons_ne_nil _ _)
          exact forall₂_of_mem (Except.forall₂_of_mapM_eq_ok hparts)
            fun _ v hv hpart => ih v hv _ _ hpart
  | @dict entries _ hkeys _ ih =>
      intro level s hs
      rw [written_draft_dict] at hs
      obtain ⟨parts, hparts, rfl⟩ := Except.map_eq_ok_iff.mp hs
      cases parts with
      | nil =>
          obtain rfl := (List.forall₂_nil_left_iff.mp (Except.forall₂_of_mapM_eq_ok hparts))
          exact written_emptyDict
      | cons part parts =>
          rw [toList_enclose (List.cons_ne_nil _ _) rfl rfl]
          refine written_dict (List.forall₂_map_left_iff.mpr ?_) (List.cons_ne_nil _ _)
          refine forall₂_of_mem (Except.forall₂_of_mapM_eq_ok hparts) fun part e he hpart => ?_
          obtain ⟨name, hname, hpart⟩ := Except.bind_eq_ok_iff.mp hpart
          obtain ⟨written, hwritten, hpart⟩ := Except.bind_eq_ok_iff.mp hpart
          obtain rfl := Except.ok.inj hpart
          -- The name of a text is the text itself, so nothing is lost by writing keys as names.
          obtain ⟨key, hkey⟩ := hkeys e he
          rw [hkey] at hname
          obtain rfl := Except.ok.inj hname
          refine ⟨key, written.toList, ?_, hkey, ih _ (List.mem_map_of_mem he) _ _ hwritten⟩
          rw [String.toList_append, String.toList_append, List.append_assoc]
          rfl

/-! ## Texts without pairs of surrogates -/

/-- No stand-in for the first of a pair of surrogates is followed by one for the second. -/
def Unpaired (cs : List Char) : Prop :=
  cs.IsChain fun a b =>
    ¬ (Text.isHighSurrogate (Text.code a) && Text.isLowSurrogate (Text.code b)) = true

theorem rejoined_of_unpaired (h : Unpaired cs) : rejoined cs = cs := by
  induction cs using rejoined.induct with
  | case1 a b cs hpair ih => exact absurd hpair (List.isChain_cons_cons.mp h).1
  | case2 a b cs hpair ih => rw [rejoined, if_neg hpair, ih (List.isChain_cons_cons.mp h).2]
  | case3 cs hshort =>
      unfold rejoined
      split
      · exact (hshort _ _ _ rfl).elim
      · rfl

theorem rejoinedText_of_unpaired {s : String} (h : Unpaired s.toList) : rejoinedText s = s := by
  rw [rejoinedText, rejoined_of_unpaired h, String.ofList_toList]

/-- A value whose texts and keys hold no pairs of surrogates is left alone. -/
theorem rejoined_of_texts {v : Value} (hv : v.IsJson) (h : ∀ s ∈ v.texts, Unpaired s.toList) :
    v.rejoined = v := by
  induction hv with
  | text s =>
      show Value.text (rejoinedText s) = _
      rw [rejoinedText_of_unpaired (h s List.mem_cons_self)]
  | @list items _ ih =>
      rw [texts_list] at h
      rw [rejoined_list]
      refine congrArg Value.list ((List.map_congr_left fun v hv => ?_).trans (List.map_id _))
      exact ih v hv fun s hs => h s (List.mem_flatMap.mpr ⟨v, hv, hs⟩)
  | @dict entries hdistinct hkeys _ ih =>
      rw [texts_dict] at h
      have hsame : entries.map (fun e => (rejoinedKey e.1, e.2.rejoined)) = entries := by
        refine (List.map_congr_left fun e he => ?_).trans (List.map_id _)
        have htexts : ∀ s ∈ keyTexts e.1 ++ e.2.texts, Unpaired s.toList :=
          fun s hs => h s (List.mem_flatMap.mpr ⟨e, he, hs⟩)
        obtain ⟨hkey, hvalue⟩ := List.forall_mem_append.mp htexts
        obtain ⟨s, hs⟩ := hkeys e he
        obtain ⟨key, v⟩ := e
        obtain rfl : key = .text s := hs
        rw [ih v (List.mem_map_of_mem he) hvalue]
        show (Key.text (rejoinedText s), v) = _
        rw [rejoinedText_of_unpaired (hkey s List.mem_cons_self)]
        rfl
      rw [rejoined_dict, hsame, hdistinct.ofList_eq]
  | _ => rfl

/-! ## Documents -/

/-- The fault that a document with these infinities and NaNs is refused with. -/
def refusal? : List Double → Option Fault
  | [] => none
  | d :: _ => some (.json (.after (.constant (NumberForm.json.write d)) []))

theorem Written.ofChars {v : Value} (h : Written cs v) :
    ofChars .strict (cs ++ ['\n']) = match refusal? v.nonFinite with
      | none => .ok v.rejoined
      | some fault => .error fault := by
  obtain ⟨c, rest, hhead, hblank, -⟩ := h.head
  have hskip : skipBlanks (cs ++ ['\n']) = cs ++ ['\n'] := by
    rw [hhead]
    exact skipBlanks_of_head hblank
  have hend : EndsValue ['\n'] := fun _ hc => .inr (Option.some.inj hc).symm
  have hdepth : cs.length ≤ 2 * (cs ++ ['\n']).length + 2 := by
    rw [List.length_append]
    omega
  rw [Json.ofChars, readDocument, hskip, h.read _ _ hdepth hend]
  cases v.nonFinite <;> rfl

theorem printed_of_write {v : Value} (hv : v.IsJson) {s : String} (hs : write v = .ok s) :
    Printed (s ++ "\n").toList := by
  rw [String.toList_append]
  exact (written_of_draft hv 0 s hs).printed.append (by decide)

/-- **A document that is written is read as the value** with pairs of surrogates joined, unless the
value holds an infinity or a NaN: then the document is refused for the first of them. -/
theorem ofText_of_write {v : Value} (hv : v.IsJson) {s : String} (hs : write v = .ok s) :
    ofText (s ++ "\n") = match refusal? v.nonFinite with
      | none => .ok v.rejoined
      | some fault => .error fault := by
  have hwritten : Written s.toList v := written_of_draft hv 0 s hs
  have htext : (s ++ "\n").toList = s.toList ++ ['\n'] := String.toList_append
  rw [← hwritten.ofChars, ofText, ofTextIn, htext]
  split
  · rename_i cs heq
    obtain ⟨c, rest, hhead, -⟩ := hwritten.head
    rw [hhead] at heq
    obtain rfl : c = '\uFEFF' := (List.cons.inj heq).1
    have hmark : ¬ (IsPlain '\uFEFF' ∨ '\uFEFF' = '\n') := by decide
    exact absurd (hwritten.printed '\uFEFF' (by rw [hhead]; exact List.mem_cons_self)) hmark
  · rfl

end Json

end LooseData
