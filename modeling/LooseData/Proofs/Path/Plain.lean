import LooseData.Proofs.Path.Notation
import LooseData.Proofs.Path.Pieces

set_option autoImplicit false

/-! # Plain paths

The keys of a path that is made of names and bracket groups, with a dot between any two steps, are
the keys of the steps (`keys_plainText`). The resolver goes to the same keys and decodes on the way.
So the two agree on a path where they meet no JSON (`Value.resolve_plainText_eq_follow`).
-/

namespace LooseData

open LooseData.Path

/-! ## Characters of keys -/

namespace Text

variable {c : Char} {ranges ranges' : List (Nat × Nat)} {n : Nat}

/-- A code point does not lie in two lists of ranges that stand apart. -/
theorem not_within_of_apart (happart : ∀ r ∈ ranges, ∀ r' ∈ ranges', r.2 < r'.1 ∨ r'.2 < r.1)
    (h : within ranges n = true) : within ranges' n = false := by
  rw [Bool.eq_false_iff]
  intro h'
  obtain ⟨r, hr, hle, hge⟩ := exists_range_of_within h
  obtain ⟨r', hr', hle', hge'⟩ := exists_range_of_within h'
  rcases happart r hr r' hr' with hlt | hlt <;> omega

theorem not_isBlank_of_isDecimal (h : isDecimal c = true) : isBlank c = false :=
  not_within_of_apart (by decide +kernel) h

theorem not_isBlank_of_isWord (h : isWord c = true) : isBlank c = false := by
  rcases Bool.or_eq_true_iff.mp h with hline | hletter
  · obtain rfl := eq_of_beq hline
    decide
  · exact not_within_of_apart (by decide +kernel) hletter

end Text

namespace Path

variable {key group : List Char} {step : Step} {cs rest : List Char}

/-! ## Writing steps plainly -/

/-- The bracket groups of a plain path: a number, or a word in quotes. -/
inductive KeyGroup (key : List Char) : List Char → Prop where
  | number (hne : key ≠ []) (h : ∀ c ∈ key, Text.isDecimal c = true) :
      KeyGroup key ('[' :: key ++ [']'])
  | word {quote : Char} (hquote : isIndexQuote quote = true) (hne : key ≠ [])
      (h : ∀ c ∈ key, Text.isWord c = true) : KeyGroup key ('[' :: quote :: key ++ [quote, ']'])

/-- A plain way of writing a step: its attribute and then its indices as bracket groups. -/
structure Step.PlainAs (step : Step) (cs : List Char) : Prop where
  nonempty : step.name ≠ none ∨ step.indices ≠ []
  isName : ∀ name ∈ step.name, IsName name.toList
  exists_groups : ∃ groups,
    List.Forall₂ (fun index group => KeyGroup index.toList group) step.indices groups ∧
      cs = step.nameChars ++ groups.flatten

/-- The keys that a step goes to. -/
def Step.keys (step : Step) : List String := step.name.toList ++ step.indices

/-- Characters that are neither brackets nor quotes, dots or blanks make an index. -/
theorem isIndex_of_forall {isKeyChar : Char → Bool}
    (hmarks : ['[', ']', '\'', '"', '.'].any isKeyChar = false)
    (hblank : ∀ c, isKeyChar c = true → Text.isBlank c = false) (hne : key ≠ [])
    (h : ∀ c ∈ key, isKeyChar c = true) : IsIndex key := by
  refine ⟨hne, fun c hc => ?_⟩
  have hmark (mark : Char) (hmark : mark ∈ ['[', ']', '\'', '"', '.']) : (c == mark) = false := by
    rw [beq_eq_false_iff_ne]
    rintro rfl
    exact List.any_eq_false.mp hmarks c hmark (h c hc)
  refine ⟨?_, ?_, ?_⟩
  · rw [isBracket, hmark '[' (by decide), hmark ']' (by decide)]
    rfl
  · rw [isIndexQuote, hmark '\'' (by decide), hmark '"' (by decide)]
    rfl
  · rw [separatesTokens, hblank c (h c hc), hmark '.' (by decide)]
    rfl

/-- The groups of a plain path are found, since the marks that quote an index quote a key. -/
theorem KeyGroup.foundGroup (h : KeyGroup key group) : FoundGroup key group := by
  cases h with
  | number hne h => exact .number hne h
  | word hquote hne h => exact .word hquote hquote hne h

theorem KeyGroup.isIndex (h : KeyGroup key group) : IsIndex key := by
  cases h with
  | number hne h =>
      exact isIndex_of_forall (by decide) (fun _ => Text.not_isBlank_of_isDecimal) hne h
  | word _ hne h =>
      exact isIndex_of_forall (by decide) (fun _ => Text.not_isBlank_of_isWord) hne h

theorem KeyGroup.bracketed (h : KeyGroup key group) : Bracketed key group := by
  cases h with
  | number => exact .bare
  | word hquote => exact .quoted hquote

theorem Step.PlainAs.writtenAs (h : step.PlainAs cs) : step.WrittenAs cs := by
  obtain ⟨groups, hgroups, hcs⟩ := h.exists_groups
  exact ⟨groups, hgroups.imp fun _ _ hgroup => hgroup.bracketed, hcs⟩

theorem Step.PlainAs.isWritable (h : step.PlainAs cs) : step.IsWritable := by
  refine ⟨h.nonempty, h.isName, ?_⟩
  obtain ⟨groups, hgroups, -⟩ := h.exists_groups
  generalize step.indices = indices at hgroups
  induction hgroups with
  | nil => exact List.forall_mem_nil _
  | cons hgroup _ ih => exact List.forall_mem_cons.mpr ⟨hgroup.isIndex, ih⟩

/-! ## The keys of a step -/

theorem IsIndex.fields_dot (h : IsIndex key) : Text.fields (· == '.') key = [key] := by
  refine Text.fields_of_forall_not h.1 fun c hc => ?_
  have htoken := (h.2 c hc).2.2
  simp only [separatesTokens, Bool.or_eq_false_iff] at htoken
  exact htoken.2

/-- **The key of a group** is a key of its own. -/
theorem KeyGroup.keyFields_append (h : KeyGroup key group) (rest : List Char) :
    keyFields (group ++ rest) = key :: keyFields rest := by
  rw [keyFields, h.foundGroup.pieces_append, List.flatMap_cons, List.flatMap_cons, h.isIndex.fields_dot]
  rfl

/-- The text ends a key in front of it: its first piece is empty or begins with a dot. -/
def EndsKey (cs : List Char) : Prop :=
  ∃ piece rest, pieces 0 cs = piece :: rest ∧ (piece = [] ∨ ∃ others, piece = '.' :: others)

theorem endsKey_nil : EndsKey [] := ⟨[], [], rfl, .inl rfl⟩

theorem endsKey_dot (cs : List Char) : EndsKey ('.' :: cs) := by
  obtain ⟨piece, rest, -, hdot⟩ := pieces_dot cs
  exact ⟨_, _, hdot, .inr ⟨piece, rfl⟩⟩

theorem KeyGroup.endsKey (h : KeyGroup key group) (rest : List Char) : EndsKey (group ++ rest) :=
  ⟨_, _, h.foundGroup.pieces_append rest, .inl rfl⟩

/-- **A name** is a key, where the text behind it ends it. -/
theorem keyFields_name_append {name : List Char} (hne : name ≠ []) (hopen : '[' ∉ name)
    (hdot : '.' ∉ name) (hrest : EndsKey rest) :
    keyFields (name ++ rest) = name :: keyFields rest := by
  obtain ⟨piece, others, hpieces, hpiece⟩ := hrest
  have hword : ∀ c ∈ name, (c == '.') = false := by
    intro c hc
    rw [beq_eq_false_iff_ne]
    rintro rfl
    exact hdot hc
  have hfields : Text.fields (· == '.') (name ++ piece) =
      name :: Text.fields (· == '.') piece := by
    rcases hpiece with rfl | ⟨others, rfl⟩
    · rw [List.append_nil, Text.fields_of_forall_not hne hword, Text.fields_nil]
    · have hbehind : Text.fields (· == '.') ('.' :: others) = Text.fields (· == '.') others :=
        fields_dot [] others
      rw [fields_dot, hbehind, Text.fields_of_forall_not hne hword]
      rfl
  rw [keyFields, keyFields, pieces_append_of_not_mem hopen, hpieces, List.modifyHead_cons,
    List.flatMap_cons, List.flatMap_cons, hfields, List.cons_append]

/-- The keys of groups, with what ends a key behind them. -/
theorem keyFields_groups_append {indices : List String} {groups : List (List Char)}
    (h : List.Forall₂ (fun index group => KeyGroup index.toList group) indices groups)
    (hrest : EndsKey rest) :
    EndsKey (groups.flatten ++ rest) ∧
      keyFields (groups.flatten ++ rest) = indices.map String.toList ++ keyFields rest := by
  induction h with
  | nil => exact ⟨hrest, rfl⟩
  | cons hgroup _ ih =>
      rw [List.flatten_cons, List.append_assoc]
      refine ⟨hgroup.endsKey _, ?_⟩
      rw [hgroup.keyFields_append, ih.2]
      rfl

/-- **The keys of a step, written plainly.** -/
theorem Step.PlainAs.keyFields_append (h : step.PlainAs cs) (hrest : EndsKey rest) :
    keyFields (cs ++ rest) = step.keys.map String.toList ++ keyFields rest := by
  obtain ⟨groups, hgroups, rfl⟩ := h.exists_groups
  obtain ⟨hends, hkeys⟩ := keyFields_groups_append hgroups hrest
  rw [List.append_assoc]
  cases hname : step.name with
  | none => simpa [nameChars, keys, hname] using hkeys
  | some name =>
      obtain ⟨hne, hall⟩ := h.isName name hname
      have hopen : '[' ∉ name.toList := fun hmem => absurd (hall _ hmem).1 (by decide)
      have hdot : '.' ∉ name.toList := fun hmem => absurd (hall _ hmem).2 (by decide)
      have hchars : step.nameChars = name.toList := by rw [nameChars, hname]; rfl
      rw [hchars, keyFields_name_append hne hopen hdot hends, hkeys]
      simp [keys, hname]

/-- The keys of steps with dots between them: a dot ends the last key in front of it. -/
theorem keyFields_joinWith {steps : List Step} {texts : List (List Char)}
    (h : List.Forall₂ Step.PlainAs steps texts) :
    keyFields (Text.joinWith '.' texts) = (steps.flatMap Step.keys).map String.toList := by
  induction h with
  | nil => rfl
  | @cons step text steps texts hstep htexts ih =>
      cases htexts with
      | nil =>
          have hkeys := hstep.keyFields_append endsKey_nil
          rw [List.append_nil] at hkeys
          rw [Text.joinWith, hkeys, List.flatMap_singleton]
          exact List.append_nil _
      | @cons step' text' steps texts hstep' htexts =>
          show keyFields (text ++ '.' :: Text.joinWith '.' (text' :: texts)) = _
          rw [hstep.keyFields_append (endsKey_dot _), keyFields_dot, ih, ← List.map_append,
            ← List.flatMap_cons]

/-- The text of a plain path: the texts of its steps with dots between them, and perhaps one at the
start. -/
def plainText (leading : Bool) (texts : List (List Char)) : String :=
  String.ofList ((if leading then ['.'] else []) ++ Text.joinWith '.' texts)

section

variable {steps : List Step} {texts : List (List Char)}
  (htexts : List.Forall₂ Step.PlainAs steps texts) (leading : Bool)

include htexts

/-- **The keys of a plain path** are those of its steps. -/
theorem keys_plainText : keys (plainText leading texts).toList = steps.flatMap Step.keys := by
  have hleading : keyFields (plainText leading texts).toList =
      keyFields (Text.joinWith '.' texts) := by
    rw [plainText, String.toList_ofList]
    cases leading with
    | false => rfl
    | true => exact keyFields_dot _
  rw [keys_eq, hleading, keyFields_joinWith htexts]
  simp [Function.comp_def]

/-! ## The moves along a plain path -/

/-- The resolver finds the same steps. -/
theorem tokensOfText_plainText :
    tokensOfText (plainText leading texts) = texts.map String.ofList := by
  have hdot : separatesTokens '.' = true := by decide
  have hjoined : Text.fields separatesTokens (Text.joinWith '.' texts) = texts := by
    rw [Text.fields_joinWith hdot]
    induction htexts with
    | nil => rfl
    | cons hstep _ ih =>
        have htext := Text.fields_of_forall_not 
          (hstep.writtenAs.ne_nil hstep.isWritable.isLegible hstep.nonempty)
          (hstep.writtenAs.not_separatesTokens hstep.isWritable)
        rw [List.flatMap_cons, htext, ih]
        rfl
  rw [plainText, tokensOfText_ofList]
  cases leading with
  | false => exact congrArg _ hjoined
  | true =>
      rw [if_pos rfl, List.singleton_append, Text.fields_cons hdot, hjoined]

end

/-- The key that a move goes to, if it goes to one. -/
def Move.key? : Move → Option String
  | .key name => some name
  | .decode => none

/-- A step goes to its keys, and decodes between its attribute and its indices. -/
theorem Step.PlainAs.keys_movesOfToken (h : step.PlainAs cs) :
    (movesOfToken (String.ofList cs)).filterMap Move.key? = step.keys := by
  have hkeys (names : List String) : (names.map Move.key).filterMap Move.key? = names := by
    rw [List.filterMap_map]
    exact List.filterMap_some
  have hname : (step.name.map Move.key).toList = step.name.toList.map Move.key := by
    cases step.name <;> rfl
  rw [h.writtenAs.movesOfToken_eq h.isWritable.isLegible, hname, List.filterMap_append, hkeys,
    List.filterMap_cons_none rfl, hkeys, Step.keys]

theorem keys_moves_plainText {steps : List Step} {texts : List (List Char)}
    (htexts : List.Forall₂ Step.PlainAs steps texts) (leading : Bool) :
    (moves (.text (plainText leading texts))).filterMap Move.key? = steps.flatMap Step.keys := by
  have htokens := tokensOfText_plainText htexts leading
  have hsteps : ((texts.map String.ofList).flatMap movesOfToken).filterMap Move.key? =
      steps.flatMap Step.keys := by
    clear htokens
    induction htexts with
    | nil => rfl
    | cons hstep _ ih =>
        rw [List.map_cons, List.flatMap_cons, List.filterMap_append, hstep.keys_movesOfToken, ih,
          List.flatMap_cons]
  rw [← hsteps, ← htokens]
  by_cases hnone : tokensOfText (plainText leading texts) = []
  · -- A path without steps decodes, which goes to no key.
    have hpath : tokens (.text (plainText leading texts)) = [] := hnone
    rw [moves, hpath, hnone]
    rfl
  · rw [moves_of_tokensOfText hnone]

/-- **Where no JSON is met, decoding makes no difference.** One induction over the moves, along
which the keys gone to so far grow. -/
theorem follow_eq_followKeys {v : Value} {moves : List Move}
    (h : ∀ front w, front <+: moves.filterMap Move.key? → v.followKeys front = .ok w →
      ¬ w.IsDocument) :
    follow v moves = v.followKeys (moves.filterMap Move.key?) := by
  induction moves generalizing v with
  | nil => rfl
  | cons move rest ih =>
      cases move with
      | decode =>
          have hv : Json.decodeText v = v :=
            Json.decodeText_eq_self_iff.mpr (h [] v List.nil_prefix rfl)
          show follow (Json.decodeText v) rest = v.followKeys (rest.filterMap Move.key?)
          rw [hv]
          exact ih h
      | key name =>
          show (v.access (.text name)).bind (fun u => follow u rest) =
            (v.access (.text name)).bind fun u => u.followKeys (rest.filterMap Move.key?)
          cases haccess : v.access (.text name) with
          | error fault => rfl
          | ok u =>
              refine ih fun front w hfront hw => h (name :: front) w ?_ ?_
              · exact List.prefix_cons_inj name |>.mpr hfront
              · rw [Value.followKeys, List.foldlM_cons, haccess]
                exact hw

end Path

namespace Value

/-- **The two ways of following a path agree** where neither the target nor a value on the way is
a text that holds JSON: they find the same value, or they stop with the same fault. -/
theorem resolve_plainText_eq_follow (target : Value) {steps : List Step}
    {texts : List (List Char)} (htexts : List.Forall₂ Step.PlainAs steps texts) (leading : Bool)
    (hread : ∀ front w, front <+: steps.flatMap Step.keys → target.followKeys front = .ok w →
      ¬ w.IsDocument) :
    (target.resolve (.text (plainText leading texts))).result =
      target.follow (.text (plainText leading texts)) := by
  have hfollow : target.follow (.text (plainText leading texts)) =
      target.followKeys (steps.flatMap Step.keys) := by
    rw [← keys_plainText htexts leading]
    rfl
  rw [← keys_moves_plainText htexts leading] at hread hfollow
  rw [resolve_eq_follow, follow_eq_followKeys hread, hfollow]

/-- A list of hosts, none of whose texts is JSON. -/
def namedHosts : Value :=
  .dict [(.text "env", .dict [(.text "hosts", .list [.dict [(.text "name", .text "web-1")]])])]

theorem resolve_namedHosts_eq_follow :
    (namedHosts.resolve (.text ".env['hosts'][0].name")).result =
        namedHosts.follow (.text ".env['hosts'][0].name") ∧
      namedHosts.follow (.text ".env['hosts'][0].name") = .ok (.text "web-1") := by
  have hhosts : KeyGroup "hosts".toList "['hosts']".toList := 
    .word rfl (by decide) (List.all_eq_true.mp rfl)
  have hzero : KeyGroup "0".toList "[0]".toList := .number (by decide) (List.all_eq_true.mp rfl)
  have hfirst : Step.PlainAs ⟨some "env", ["hosts", "0"]⟩ "env['hosts'][0]".toList :=
    ⟨by decide, by decide, ["['hosts']".toList, "[0]".toList], .cons hhosts (.cons hzero .nil), rfl⟩
  have hsecond : Step.PlainAs ⟨some "name", []⟩ "name".toList :=
    ⟨by decide, by decide, [], .nil, rfl⟩
  have hread : ∀ front w, front <+: ["env", "hosts", "0", "name"] →
      namedHosts.followKeys front = .ok w → ¬ w.IsDocument := by
    have hnode {n : Node Value} : ¬ (Value.node n).IsDocument := by
      rintro ⟨_, _, hn, -⟩
      cases hn
    have hname : ¬ (Value.text "web-1").IsDocument := by
      rintro ⟨_, v, hs, hv⟩
      cases hs
      have hbad : Json.ofText "web-1" = .error (.json ⟨.expectedValue, 1, 1, 0⟩) := by cbv
      cases hbad.symm.trans hv
    have hreached : ∀ front ∈ ["env", "hosts", "0", "name"].inits,
        ∃ w, namedHosts.followKeys front = .ok w ∧ ¬ w.IsDocument := by
      simp only [List.inits, List.map_cons, List.map_nil, List.forall_mem_cons]
      exact ⟨⟨_, rfl, hnode⟩, ⟨_, rfl, hnode⟩, ⟨_, rfl, hnode⟩, ⟨_, rfl, hnode⟩, ⟨_, rfl, hname⟩,
        List.forall_mem_nil _⟩
    intro front w hfront hw
    obtain ⟨w', hw', hdocument⟩ := hreached front ((List.mem_inits _ _).mpr hfront)
    obtain rfl : w' = w := Except.ok.inj (hw'.symm.trans hw)
    exact hdocument
  exact ⟨resolve_plainText_eq_follow namedHosts (.cons hfirst (.cons hsecond .nil)) true hread,
    by cbv⟩

end Value

end LooseData
