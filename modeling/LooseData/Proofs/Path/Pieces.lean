import LooseData.Path.Normal
import LooseData.Proofs.Outcome
import LooseData.Proofs.Text.Fields
import Mathlib.Data.List.TakeWhile

set_option autoImplicit false

/-! # The pieces of a plain path

A path that is to be followed plainly is rewritten: the keys of bracket groups are cut out and
joined with dots to what stands between them, and the result is cut at its dots. Neither joining nor
making one dot of two changes which fields there are (`keys_eq`), so the keys of a path are the
fields of its pieces.

No bracket group holds a dot. So a dot divides the keys of a path, whatever stands before and behind
it (`dividedBy_keyFields`), and no piece holds a group of its own, which might have come about where
another group was cut out (`pieces_of_mem_pieces`). Therefore a path is followed by following its
parts, and a path and its normal form lead to the same value (`Value.follow_dot_and_normalize`).
-/

namespace LooseData

namespace Path

variable {key group cs rest : List Char} {length : Nat}

/-! ## Bracket groups -/

/-- A bracket group as it is found: a number, or a word between two quotes, which may differ. -/
inductive FoundGroup (key : List Char) : List Char → Prop where
  | number (hne : key ≠ []) (h : ∀ c ∈ key, Text.isDecimal c = true) :
      FoundGroup key ('[' :: key ++ [']'])
  | word {opening closing : Char} (hopening : isQuote opening = true)
      (hclosing : isQuote closing = true) (hne : key ≠ [])
      (h : ∀ c ∈ key, Text.isWord c = true) :
      FoundGroup key ('[' :: opening :: key ++ [closing, ']'])

/-- A class of characters that leaves a mark out has no member that is the mark. -/
theorem notMem_of_forall {isKeyChar : Char → Bool} {mark : Char} (hmark : isKeyChar mark = false)
    (h : ∀ c ∈ key, isKeyChar c = true) : mark ∉ key := by
  intro hmem
  have hin := h mark hmem
  rw [hmark] at hin
  cases hin

theorem eq_or_eq_of_isQuote {c : Char} (h : isQuote c = true) : c = '\'' ∨ c = '"' := by
  simpa [isQuote] using h

/-- No key of a group holds a bracket. -/
theorem FoundGroup.open_notMem_key (h : FoundGroup key group) : '[' ∉ key := by
  cases h with
  | number _ h => exact notMem_of_forall (by decide) h
  | word _ _ _ h => exact notMem_of_forall (by decide) h

/-- No group holds a dot. -/
theorem FoundGroup.dot_notMem (h : FoundGroup key group) : '.' ∉ group := by
  cases h with
  | number _ h =>
      have hkey : '.' ∉ key := notMem_of_forall (by decide) h
      simp [hkey]
  | word hopening hclosing _ h =>
      have hkey : '.' ∉ key := notMem_of_forall (by decide) h
      rcases eq_or_eq_of_isQuote hopening with rfl | rfl <;>
        rcases eq_or_eq_of_isQuote hclosing with rfl | rfl <;> simp [hkey]

theorem FoundGroup.length_pos (h : FoundGroup key group) : 0 < group.length := by
  cases h with
  | number => simp
  | word => simp

/-- A group is found at the start of a text, with all of its characters. -/
theorem FoundGroup.group?_append (h : FoundGroup key group) (rest : List Char) :
    group? (group ++ rest) = some (key, group.length) := by
  cases h with
  | number hne h =>
      obtain ⟨digit, digits, rfl⟩ := List.exists_cons_of_ne_nil hne
      have hquote : isQuote digit = false := by
        have hdigit := h digit List.mem_cons_self
        rw [← Bool.not_eq_true]
        intro hquote
        rcases eq_or_eq_of_isQuote hquote with rfl | rfl <;> revert hdigit <;> decide
      have hclose : Text.isDecimal ']' = false := by decide
      have htake : (digit :: digits ++ ']' :: rest).takeWhile Text.isDecimal = digit :: digits := by
        rw [List.takeWhile_append_of_pos h, List.takeWhile_cons_of_neg (by simp [hclose]),
          List.append_nil]
      have hdrop : (digit :: digits ++ ']' :: rest).dropWhile Text.isDecimal = ']' :: rest := by
        rw [List.dropWhile_append_of_pos h, List.dropWhile_cons_of_neg (by simp [hclose])]
      simp only [List.cons_append, List.append_assoc, List.nil_append, group?] at htake hdrop ⊢
      rw [htake, hdrop]
      simp only [hquote, Bool.false_and, Bool.false_eq_true, if_false]
      -- No quote follows the bracket, so the key is not looked for in quotes.
      split
      · rename_i hfound
        split at hfound <;> cases hfound
      · simp
      · rename_i hclosed
        exact absurd rfl (hclosed rest)
  | @word opening closing hopening hclosing hne h =>
      have hword : Text.isWord closing = false := by
        rcases eq_or_eq_of_isQuote hclosing with rfl | rfl <;> decide
      have htake : (key ++ closing :: ']' :: rest).takeWhile Text.isWord = key := by
        rw [List.takeWhile_append_of_pos h, List.takeWhile_cons_of_neg (by simp [hword]),
          List.append_nil]
      have hdrop : (key ++ closing :: ']' :: rest).dropWhile Text.isWord =
          closing :: ']' :: rest := by
        rw [List.dropWhile_append_of_pos h, List.dropWhile_cons_of_neg (by simp [hword])]
      simp only [List.cons_append, List.append_assoc, List.nil_append, group?, htake, hdrop,
        hopening, hclosing, Bool.true_and]
      simp [hne]

/-- **What is found at the start of a text** is a group. -/
theorem exists_foundGroup_of_group? (h : group? cs = some (key, length)) :
    ∃ group rest, FoundGroup key group ∧ cs = group ++ rest ∧ length = group.length := by
  unfold group? at h
  split at h
  · rename_i inner
    dsimp only at h
    split at h
    · rename_i found _ _ hquoted
      obtain rfl := Option.some.inj h
      split at hquoted
      · rename_i opening body
        split at hquoted
        · rename_i closing rest hdrop
          split at hquoted
          · rename_i hquotes
            obtain ⟨rfl, rfl⟩ := Prod.mk.inj (Option.some.inj hquoted)
            simp only [Bool.and_eq_true, Bool.not_eq_true', List.isEmpty_eq_false_iff] at hquotes
            obtain ⟨⟨hopening, hclosing⟩, hne⟩ := hquotes
            have hbody := List.takeWhile_append_dropWhile (p := Text.isWord) (l := body)
            rw [hdrop] at hbody
            refine ⟨_, rest, .word hopening hclosing hne fun c => List.mem_takeWhile_imp, ?_, ?_⟩
            · simpa using hbody.symm
            · simp
          · cases hquoted
        · cases hquoted
      · cases hquoted
    · rename_i rest _ hdrop
      split at h
      · cases h
      · rename_i hne
        obtain ⟨rfl, rfl⟩ := Prod.mk.inj (Option.some.inj h)
        have hinner := List.takeWhile_append_dropWhile (p := Text.isDecimal) (l := inner)
        rw [hdrop] at hinner
        refine ⟨_, rest, .number (by simpa using hne) fun c => List.mem_takeWhile_imp, ?_, ?_⟩
        · simpa using hinner.symm
        · simp
    · cases h
  · cases h

theorem length_le_of_group? (h : group? cs = some (key, length)) :
    0 < length ∧ length ≤ cs.length := by
  obtain ⟨group, rest, hgroup, rfl, rfl⟩ := exists_foundGroup_of_group? h
  exact ⟨hgroup.length_pos, by simp⟩

/-- A group at the start of a text is one whatever follows. -/
theorem group?_append_of_eq_some (h : group? cs = some (key, length)) (rest : List Char) :
    group? (cs ++ rest) = some (key, length) := by
  obtain ⟨group, behind, hgroup, rfl, rfl⟩ := exists_foundGroup_of_group? h
  rw [List.append_assoc]
  exact hgroup.group?_append _

/-- **No group reaches over a dot.** -/
theorem group?_append_dot (cs rest : List Char) : group? (cs ++ '.' :: rest) = group? cs := by
  cases hwhole : group? (cs ++ '.' :: rest) with
  | none =>
      cases hfront : group? cs with
      | none => rfl
      | some found =>
          obtain ⟨key, length⟩ := found
          rw [group?_append_of_eq_some hfront] at hwhole
          cases hwhole
  | some found =>
      obtain ⟨key, length⟩ := found
      obtain ⟨group, behind, hgroup, heq, rfl⟩ := exists_foundGroup_of_group? hwhole
      have hcs : ∃ tail, cs = group ++ tail := by
        rcases List.append_eq_append_iff.mp heq with ⟨tail, hgroup', hdot⟩ | ⟨tail, hcs, -⟩
        · -- The group would end at the dot or reach over it, and it holds none.
          cases tail with
          | nil => exact ⟨[], by simpa using hgroup'.symm⟩
          | cons c tail =>
              obtain ⟨rfl, -⟩ := List.cons.inj hdot
              exact absurd (by simp [hgroup']) hgroup.dot_notMem
        · exact ⟨tail, hcs⟩
      obtain ⟨tail, rfl⟩ := hcs
      exact (hgroup.group?_append tail).symm

/-! ## Cutting a text into pieces -/

theorem pieces_ne_nil (used : Nat) (cs : List Char) : pieces used cs ≠ [] := by
  fun_induction pieces used cs with
  | case1 => exact nofun
  | case2 used c cs ih => exact ih
  | _ => exact nofun

/-- Characters that belong to a group are passed over. -/
theorem pieces_eq_pieces_drop (used : Nat) (cs : List Char) :
    pieces used cs = pieces 0 (cs.drop used) := by
  induction used generalizing cs with
  | zero => rfl
  | succ used ih =>
      cases cs with
      | nil => rfl
      | cons c cs => exact ih cs

/-- The key of a group is a piece of its own. -/
theorem FoundGroup.pieces_append (h : FoundGroup key group) (rest : List Char) :
    pieces 0 (group ++ rest) = [] :: key :: pieces 0 rest := by
  have hgroup := h.group?_append rest
  obtain ⟨c, tail, rfl⟩ := List.exists_cons_of_ne_nil (List.ne_nil_of_length_pos h.length_pos)
  rw [List.cons_append] at hgroup ⊢
  rw [pieces, hgroup]
  dsimp only
  rw [pieces_eq_pieces_drop, List.length_cons, Nat.add_sub_cancel, List.drop_left]

/-- A character at which no group starts belongs to the piece that follows. -/
theorem pieces_cons_of_eq_none {c : Char} (h : group? (c :: cs) = none) :
    pieces 0 (c :: cs) = (pieces 0 cs).modifyHead (c :: ·) := by
  obtain ⟨piece, others, hpieces⟩ := List.exists_cons_of_ne_nil (pieces_ne_nil 0 cs)
  rw [pieces, h, hpieces]
  rfl

/-- Characters that start no group belong to the piece that follows. -/
theorem pieces_append_of_not_mem {word : List Char} (h : '[' ∉ word) (rest : List Char) :
    pieces 0 (word ++ rest) = (pieces 0 rest).modifyHead (word ++ ·) := by
  induction word with
  | nil =>
      rw [List.nil_append]
      cases pieces 0 rest <;> rfl
  | cons c word ih =>
      obtain ⟨hc, hword⟩ := not_or.mp (fun hmem => h (List.mem_cons.mpr hmem))
      have hgroup : group? (c :: (word ++ rest)) = none := by
        unfold group?
        split
        · rename_i heq
          exact absurd (List.cons.inj heq).1.symm hc
        · rfl
      obtain ⟨piece, others, hpieces⟩ := List.exists_cons_of_ne_nil (pieces_ne_nil 0 rest)
      rw [List.cons_append, pieces_cons_of_eq_none hgroup, ih hword, hpieces]
      rfl

theorem pieces_dot (cs : List Char) :
    ∃ piece rest, pieces 0 cs = piece :: rest ∧ pieces 0 ('.' :: cs) = ('.' :: piece) :: rest := by
  obtain ⟨piece, rest, hpieces⟩ := List.exists_cons_of_ne_nil (pieces_ne_nil 0 cs)
  have hopen : '[' ∉ ['.'] := by decide
  have hdot := pieces_append_of_not_mem hopen cs
  rw [hpieces] at hdot
  exact ⟨piece, rest, hpieces, hdot⟩

/-- The first piece stands at the start of the text. -/
theorem isPrefix_of_pieces_eq_cons {piece : List Char} {others : List (List Char)}
    (h : pieces 0 cs = piece :: others) : piece <+: cs := by
  induction cs generalizing piece others with
  | nil =>
      obtain ⟨rfl, -⟩ := List.cons.inj h
      exact List.nil_prefix
  | cons c cs ih =>
      cases hgroup : group? (c :: cs) with
      | some found =>
          rw [pieces, hgroup] at h
          obtain ⟨rfl, -⟩ := List.cons.inj h
          exact List.nil_prefix
      | none =>
          obtain ⟨first, rest, hpieces⟩ := List.exists_cons_of_ne_nil (pieces_ne_nil 0 cs)
          rw [pieces_cons_of_eq_none hgroup, hpieces] at h
          obtain ⟨rfl, -⟩ := List.cons.inj h
          exact (List.prefix_cons_inj c).mpr (ih hpieces)

/-- **No piece holds a group**: a group in the text between two groups would have been found, and
the key of a group holds no bracket. -/
theorem pieces_of_mem_pieces {used : Nat} {piece : List Char} (h : piece ∈ pieces used cs) :
    pieces 0 piece = [piece] := by
  fun_induction pieces used cs generalizing piece with
  | case1 used =>
      obtain rfl := List.mem_singleton.mp h
      rfl
  | case2 used c cs ih => exact ih h
  | case3 c cs key length hgroup ih =>
      rcases List.mem_cons.mp h with rfl | h
      · rfl
      · rcases List.mem_cons.mp h with rfl | h
        · obtain ⟨group, rest, hfound, -, -⟩ := exists_foundGroup_of_group? hgroup
          have hkey := pieces_append_of_not_mem hfound.open_notMem_key []
          rw [List.append_nil] at hkey
          rw [hkey]
          show [piece ++ []] = _
          rw [List.append_nil]
        · exact ih h
  | case4 c cs hgroup hnil ih => exact absurd hnil (pieces_ne_nil 0 cs)
  | case5 c cs hgroup first rest hpieces ih =>
      rw [hpieces] at ih
      rcases List.mem_cons.mp h with rfl | h
      · obtain ⟨behind, rfl⟩ := isPrefix_of_pieces_eq_cons hpieces
        have hnone : group? (c :: first) = none := by
          cases hfirst : group? (c :: first) with
          | none => rfl
          | some found =>
              have hwhole := group?_append_of_eq_some hfirst behind
              rw [List.cons_append, hgroup] at hwhole
              cases hwhole
        rw [pieces_cons_of_eq_none hnone, ih List.mem_cons_self]
        rfl
      · exact ih (List.mem_cons_of_mem _ h)

/-- **A dot cuts no group in two**: the pieces of a text with a dot in it are those of what stands
before the dot and of what stands behind it, where the dot joins the last of the ones to the first
of the others. -/
theorem exists_pieces_append_dot {used : Nat} (hused : used ≤ cs.length) (rest : List Char) :
    ∃ front last first back, pieces used cs = front ++ [last] ∧ pieces 0 rest = first :: back ∧
      pieces used (cs ++ '.' :: rest) = front ++ (last ++ '.' :: first) :: back := by
  fun_induction pieces used cs with
  | case1 used =>
      obtain rfl : used = 0 := by simpa using hused
      obtain ⟨first, back, hrest, hdot⟩ := pieces_dot rest
      exact ⟨[], [], first, back, rfl, hrest, hdot⟩
  | case2 used c cs ih =>
      have hless : used ≤ cs.length := by simpa using hused
      exact ih hless
  | case3 c cs key length hgroup ih =>
      have hless : length - 1 ≤ cs.length := by
        have hlength := (length_le_of_group? hgroup).2
        rw [List.length_cons] at hlength
        omega
      obtain ⟨front, last, first, back, hcs, hrest, hwhole⟩ := ih hless
      refine ⟨[] :: key :: front, last, first, back, by rw [hcs]; rfl, hrest, ?_⟩
      have hgroup' : group? (c :: (cs ++ '.' :: rest)) = some (key, length) :=
        (group?_append_dot (c :: cs) rest).trans hgroup
      rw [List.cons_append, pieces, hgroup']
      dsimp only
      rw [hwhole]
      rfl
  | case4 c cs hgroup hnil ih => exact absurd hnil (pieces_ne_nil 0 cs)
  | case5 c cs hgroup piece others hpieces ih =>
      obtain ⟨front, last, first, back, hcs, hrest, hwhole⟩ := ih (Nat.zero_le _)
      have hgroup' : group? (c :: (cs ++ '.' :: rest)) = none :=
        (group?_append_dot (c :: cs) rest).trans hgroup
      rw [List.cons_append, pieces_cons_of_eq_none hgroup', hwhole]
      rw [hpieces] at hcs
      cases front with
      | nil =>
          obtain ⟨rfl, rfl⟩ := List.cons.inj hcs
          exact ⟨[], c :: piece, first, back, rfl, hrest, rfl⟩
      | cons piece' front =>
          obtain ⟨rfl, rfl⟩ := List.cons.inj hcs
          exact ⟨(c :: piece) :: front, last, first, back, rfl, hrest, rfl⟩

/-! ## The keys of a path -/

/-- A dot divides the fields of a text. -/
theorem dividedBy_fields_dot : Text.DividedBy '.' (Text.fields (· == '.')) :=
  Text.dividedBy_fields rfl

/-- A dot divides the keys. -/
theorem fields_dot (before after : List Char) : Text.fields (· == '.') (before ++ '.' :: after) =
    Text.fields (· == '.') before ++ Text.fields (· == '.') after :=
  dividedBy_fields_dot.append_cons before after

/-- The fields of the pieces of a text. -/
def keyFields (cs : List Char) : List (List Char) :=
  (pieces 0 cs).flatMap (Text.fields (· == '.'))

/-- **A dot divides the fields of the pieces**, also where it stands next to a bracket. -/
theorem dividedBy_keyFields : Text.DividedBy '.' keyFields := by
  refine ⟨rfl, fun before after => ?_⟩
  obtain ⟨front, last, first, back, hbefore, hafter, hwhole⟩ :=
    exists_pieces_append_dot (Nat.zero_le before.length) after
  calc keyFields (before ++ '.' :: after)
      = (front ++ (last ++ '.' :: first) :: back).flatMap (Text.fields (· == '.')) := by
        rw [keyFields, hwhole]
    _ = (front ++ [last]).flatMap (Text.fields (· == '.')) ++
          (first :: back).flatMap (Text.fields (· == '.')) := by
        simp [fields_dot]
    _ = keyFields before ++ keyFields after := by
        rw [keyFields, keyFields, hbefore, hafter]

theorem keyFields_dot (cs : List Char) : keyFields ('.' :: cs) = keyFields cs :=
  dividedBy_keyFields.append_cons [] cs

section

variable {β : Type} {find : List Char → List β} (h : Text.DividedBy '.' find)

include h

/-- One induction along the text, with anything in front of it: where two dots are made one, both
divide what stands in front from what follows. -/
theorem find_collapseDots (before cs : List Char) :
    find (before ++ collapseDots cs) = find (before ++ cs) := by
  fun_induction collapseDots cs generalizing before with
  | case1 cs ih =>
      have hcs : find (collapseDots cs) = find cs := ih []
      have hdots : find ('.' :: cs) = find [] ++ find cs := h.append_cons [] cs
      rw [h.append_cons, h.append_cons, hdots, h.nil, hcs, List.nil_append]
  | case2 c cs _ ih => simpa using ih (before ++ [c])
  | case3 => rfl

/-- **What is found in the normal form of a path** is what is found in its pieces. -/
theorem find_normalize (cs : List Char) :
    find (normalize cs) = (pieces 0 (dropDot cs)).flatMap find := by
  have hfilter (parts : List (List Char)) :
      (parts.filter fun piece => !piece.isEmpty).flatMap find = parts.flatMap find := by
    induction parts with
    | nil => rfl
    | cons part parts ih =>
        cases part with
        | nil =>
            rw [List.filter_cons_of_neg (by simp), List.flatMap_cons, h.nil, ih, List.nil_append]
        | cons c part =>
            rw [List.filter_cons_of_pos (by simp), List.flatMap_cons, List.flatMap_cons, ih]
  calc find (normalize cs)
      = find (Text.joinWith '.' ((pieces 0 (dropDot cs)).filter fun piece => !piece.isEmpty)) :=
        find_collapseDots h [] _
    _ = (pieces 0 (dropDot cs)).flatMap find := by rw [h.joinWith, hfilter]

end

theorem keyFields_dropDot (cs : List Char) : keyFields (dropDot cs) = keyFields cs := by
  unfold dropDot
  split
  · exact (keyFields_dot _).symm
  · rfl

/-- **The keys of a path are the fields of its pieces.** -/
theorem keys_eq (cs : List Char) : keys cs = (keyFields cs).map String.ofList := by
  rw [keys, find_normalize dividedBy_fields_dot, ← keyFields_dropDot, keyFields]

/-- **The normal form of a path** has no group, and the same fields. -/
theorem keyFields_normalize (cs : List Char) : keyFields (normalize cs) = keyFields cs := by
  have hpiece : ∀ piece ∈ pieces 0 (dropDot cs),
      keyFields piece = Text.fields (· == '.') piece := by
    intro piece hmem
    rw [keyFields, pieces_of_mem_pieces hmem, List.flatMap_singleton]
  calc keyFields (normalize cs)
      = (pieces 0 (dropDot cs)).flatMap keyFields := find_normalize dividedBy_keyFields cs
    _ = (pieces 0 (dropDot cs)).flatMap (Text.fields (· == '.')) := by
        rw [List.flatMap_def, List.map_congr_left hpiece, ← List.flatMap_def]
    _ = keyFields cs := keyFields_dropDot cs

theorem keys_normalize (cs : List Char) : keys (normalize cs) = keys cs := by
  rw [keys_eq, keys_eq, keyFields_normalize]

theorem keys_append_dot (before after : List Char) :
    keys (before ++ '.' :: after) = keys before ++ keys after := by
  rw [keys_eq, keys_eq, keys_eq, dividedBy_keyFields.append_cons, List.map_append]

end Path

namespace Value

theorem follow_text (v : Value) (path : String) :
    v.follow (.text path) = v.followKeys (Path.keys path.toList) := rfl

theorem followKeys_append (v : Value) (front back : List String) :
    v.followKeys (front ++ back) = (v.followKeys front).bind fun w => w.followKeys back := by
  unfold followKeys
  rw [List.foldlM_append]
  rfl

/-- **Following a path in parts, and in its normal form.** A path of two parts with a dot between
them is followed by following the first part and then, from what it comes to, the second; a fault of
the first part is the fault of the whole. Every path has a normal form, which leads to the same value
or to the same fault. -/
theorem follow_dot_and_normalize (v : Value) (p q : String) :
    v.follow (.text (p ++ "." ++ q)) =
        (v.follow (.text p)).bind (fun w => w.follow (.text q)) ∧
      ∃ normal, (text p).normalizePath = .ok normal ∧
        v.follow (.text normal) = v.follow (.text p) := by
  constructor
  · have hchars : (p ++ "." ++ q).toList = p.toList ++ '.' :: q.toList := by simp
    have hkeys : Path.keys (p ++ "." ++ q).toList =
        Path.keys p.toList ++ Path.keys q.toList := by
      rw [hchars, Path.keys_append_dot]
    simp only [follow_text]
    rw [hkeys, followKeys_append]
  · refine ⟨String.ofList (Path.normalize p.toList), rfl, ?_⟩
    rw [follow_text, follow_text, String.toList_ofList, Path.keys_normalize]

end Value

end LooseData
