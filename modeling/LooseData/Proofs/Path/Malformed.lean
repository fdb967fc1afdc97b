import LooseData.Proofs.Path.Strict

set_option autoImplicit false

/-! # Malformed tokens

A token is read if it is an attribute, or if brackets with something in them end it, with or without
an attribute in front (`Path.ReadAs`). Whatever stands between the outermost brackets is cut into
indices, so that more is read than steps that are written out, like `a[b]c[d]`. A token of no such
form, like `a[` or `a[0]b`, has neither an attribute nor an index. Reading it leaves the value where
it is and decodes it if it is a text that holds JSON. So a malformed token does not make a path lead
to nothing: from a mapping or a list the path leads to where it leads without the token
(`Value.resolve_of_malformed`).
-/

namespace LooseData

open LooseData.Path

namespace Path

variable {token cs : List Char} {step : Step} {v : Value}

/-! ## The forms of a token -/

/-- What may stand behind the last bracket: nothing, or the end of the line. -/
def IsEnding (cs : List Char) : Prop := cs = [] ∨ cs = ['\n']

/-- The forms of a token that is read, each with the step that it is read as. -/
inductive ReadAs : List Char → Step → Prop where
  | name {name : List Char} (hne : name ≠ []) (hname : ∀ c ∈ name, isBracket c = false) :
      ReadAs name ⟨some (String.ofList name), []⟩
  | indexed {name inside ending : List Char} (hname : ∀ c ∈ name, isBracket c = false)
      (hinside : inside ≠ []) (hending : IsEnding ending) :
      ReadAs (name ++ '[' :: (inside ++ ']' :: ending))
        ⟨if name.isEmpty then none else some (String.ofList name),
          (Text.fields separatesIndices inside).map String.ofList⟩

/-- A token of none of the forms. -/
def IsMalformed (token : List Char) : Prop := ∀ step, ¬ ReadAs token step

/-- Dropping the end of a line leaves the text in front of an ending. -/
theorem exists_ending (cs : List Char) :
    ∃ ending, IsEnding ending ∧ cs = dropFinalNewline cs ++ ending := by
  unfold dropFinalNewline
  split
  · rename_i hlast
    exact ⟨['\n'], .inr rfl, (List.dropLast_append_getLast? '\n' hlast).symm⟩
  · exact ⟨[], .inl rfl, (List.append_nil cs).symm⟩

theorem dropFinalNewline_closed {ending : List Char} (hending : IsEnding ending)
    (inside : List Char) : dropFinalNewline (inside ++ ']' :: ending) = inside ++ [']'] := by
  rcases hending with rfl | rfl
  · simp [dropFinalNewline]
  · have hsplit : inside ++ [']', '\n'] = (inside ++ [']']) ++ ['\n'] := by simp
    rw [hsplit, dropFinalNewline, if_pos List.getLast?_concat, List.dropLast_concat]

/-- The expression in brackets that end a token. -/
theorem indexExpression?_closed {inside ending : List Char} (hinside : inside ≠ [])
    (hending : IsEnding ending) : indexExpression? (inside ++ ']' :: ending) =
      some (dropClosingQuote (dropOpeningQuote inside)) := by
  simp only [indexExpression?, dropFinalNewline_closed hending, List.getLast?_concat,
    List.dropLast_concat]

/-- **The brackets of an index expression** hold something and end the token. -/
theorem exists_inside_of_indexExpression? {expression : List Char}
    (h : indexExpression? cs = some expression) :
    ∃ inside ending, inside ≠ [] ∧ IsEnding ending ∧ cs = inside ++ ']' :: ending := by
  obtain ⟨ending, hending, hcs⟩ := exists_ending cs
  simp only [indexExpression?] at h
  split at h
  · cases h
  · rename_i hlast hne
    refine ⟨(dropFinalNewline cs).dropLast, ending, hne, hending, ?_⟩
    have hclosed := List.dropLast_append_getLast? ']' hlast
    calc cs = dropFinalNewline cs ++ ending := hcs
      _ = ((dropFinalNewline cs).dropLast ++ [']']) ++ ending := by rw [hclosed]
      _ = (dropFinalNewline cs).dropLast ++ ']' :: ending := by simp
  · cases h

/-! ## Reading a token -/

/-- The parts of a token are those of the step that it is read as. -/
theorem ReadAs.parts_eq (h : ReadAs token step) : ∃ expression : Option String,
    parts token = ⟨step.name, expression⟩ ∧ (step.name = none → expression ≠ none) ∧
      (expression.map Path.indices).getD [] = step.indices := by
  have hnot {name : List Char} (hname : ∀ c ∈ name, isBracket c = false) :
      ∀ c ∈ name, (!isBracket c) = true := fun c hc => by rw [hname c hc]; rfl
  cases h with
  | name hne hname =>
      have htake := List.takeWhile_eq_self_iff.mpr (hnot hname)
      have hdrop := List.dropWhile_eq_nil_iff.mpr (hnot hname)
      refine ⟨none, ?_, fun h => absurd h (Option.some_ne_none _), rfl⟩
      simp only [parts, htake, hdrop, List.isEmpty_iff, hne, if_false]
  | @indexed name inside ending hname hinside hending =>
      have hopen : isBracket '[' = true := by decide
      have hexpression := indexExpression?_closed hinside hending
      refine ⟨some (String.ofList (dropClosingQuote (dropOpeningQuote inside))), ?_,
        fun _ => Option.some_ne_none _, ?_⟩
      · simp only [parts, List.takeWhile_append_of_pos (hnot hname),
          List.dropWhile_append_of_pos (hnot hname), List.takeWhile_cons, List.dropWhile_cons,
          hopen, Bool.not_true, Bool.false_eq_true, if_false, List.append_nil, hexpression]
      · simp [Path.indices, fields_dropClosingQuote, fields_dropOpeningQuote]

/-- A token with a part is read as a step. -/
theorem exists_readAs_of_parts_ne (h : parts token ≠ ⟨none, none⟩) : ∃ step, ReadAs token step := by
  have hsplit := List.takeWhile_append_dropWhile (p := fun c => !isBracket c) (l := token)
  have hname : ∀ c ∈ token.takeWhile (fun c => !isBracket c), isBracket c = false := by
    intro c hc
    simpa using List.mem_takeWhile_imp hc
  cases hdrop : token.dropWhile (fun c => !isBracket c) with
  | nil =>
      rw [hdrop, List.append_nil] at hsplit
      rw [hsplit] at hname
      refine ⟨_, .name ?_ hname⟩
      rintro rfl
      exact h rfl
  | cons c rest =>
      have hbracket : isBracket c = true := by
        have hhead := List.head_dropWhile_not (fun c => !isBracket c)
          (l := token) (by simp [hdrop])
        simpa [hdrop] using hhead
      rw [isBracket, Bool.or_eq_true, beq_iff_eq, beq_iff_eq] at hbracket
      rcases hbracket with rfl | rfl
      · cases hexpression : indexExpression? rest with
        | none =>
            refine absurd ?_ h
            simp only [parts, hdrop, hexpression]
        | some expression =>
            obtain ⟨inside, ending, hinside, hending, rfl⟩ :=
              exists_inside_of_indexExpression? hexpression
            rw [← hsplit, hdrop]
            exact ⟨_, .indexed hname hinside hending⟩
      · refine absurd ?_ h
        simp only [parts, hdrop]
        rfl

/-- **A token is malformed** exactly if it has neither part. -/
theorem isMalformed_iff : IsMalformed token ↔ parts token = ⟨none, none⟩ := by
  constructor
  · intro h
    by_contra hparts
    obtain ⟨step, hstep⟩ := exists_readAs_of_parts_ne hparts
    exact h step hstep
  · rintro hparts step hstep
    obtain ⟨expression, heq, hsome, -⟩ := hstep.parts_eq
    obtain ⟨hname, hnone⟩ := Parts.mk.inj (heq.symm.trans hparts)
    exact hsome hname hnone

instance (token : List Char) : Decidable (IsMalformed token) :=
  decidable_of_iff _ isMalformed_iff.symm

/-- The text of a step: an attribute, indices in brackets, or both. -/
def IsWrittenOut (cs : List Char) : Prop :=
  ∃ step : Step, (step.name ≠ none ∨ step.indices ≠ []) ∧ step.IsLegible ∧ step.WrittenAs cs

/-- **A step that is written out** is read as itself. -/
theorem Step.WrittenAs.readAs (h : step.WrittenAs cs) (hstep : step.IsLegible)
    (hne : step.name ≠ none ∨ step.indices ≠ []) : ReadAs cs step := by
  obtain ⟨groups, hgroups, rfl⟩ := h
  have hname := Step.not_isBracket_of_mem_nameChars hstep
  obtain ⟨name?, indices⟩ := step
  cases indices with
  | nil =>
      obtain rfl := List.forall₂_nil_left_iff.mp hgroups
      obtain ⟨name, rfl⟩ := Option.ne_none_iff_exists'.mp (hne.resolve_right fun h => h rfl)
      have hread := ReadAs.name (hstep.isName name rfl).1 hname
      rw [String.ofList_toList] at hread
      rw [List.flatten_nil, List.append_nil]
      exact hread
  | cons index others =>
      obtain ⟨inside, hinside, hflatten⟩ :=
        exists_inside_groups hgroups fun i hi => (hstep.isIndex i hi).1
      have hread := ReadAs.indexed hname hinside (.inl rfl)
      have hfields := fields_groups hgroups hstep.isIndex
      rw [hflatten, List.cons_append, Text.fields_cons (by decide),
        Text.fields_concat (by decide)] at hfields
      rw [Step.nameChars_isEmpty hstep, hfields, List.map_map] at hread
      rw [hflatten]
      simpa [Function.comp_def] using hread

theorem IsWrittenOut.not_isMalformed (h : IsWrittenOut cs) : ¬ IsMalformed cs := by
  obtain ⟨step, hne, hstep, hwritten⟩ := h
  exact fun hmalformed => hmalformed step (hwritten.readAs hstep hne)

/-- **Reading a token** reads the step that it is read as. -/
theorem ReadAs.readToken_eq {token : String} (h : ReadAs token.toList step) (v : Value) :
    readToken v token = step.readFrom v := by
  obtain ⟨expression, hparts, -, hexpression⟩ := h.parts_eq
  exact readToken_of_parts_eq hparts hexpression v

/-- **Reading a malformed token** stays at the value, and decodes it. -/
theorem IsMalformed.readToken_eq {token : String} (h : IsMalformed token.toList) (v : Value) :
    readToken v token = .ok (Json.decodeText v) := by
  have hread : readToken v token = (⟨none, []⟩ : Step).readFrom v :=
    readToken_of_parts_eq (isMalformed_iff.mp h) rfl v
  rw [hread, Step.readFrom_eq]
  rfl

/-! ## Malformed tokens -/

/-- A bracket is left open, or something stands behind the last one. -/
theorem isMalformed_of_not_closed (hbracket : ∃ c ∈ token, isBracket c = true)
    (hlast : (dropFinalNewline token).getLast? ≠ some ']') : IsMalformed token := by
  rintro step (⟨-, hname⟩ | @⟨name, inside, ending, -, -, hending⟩)
  · obtain ⟨c, hc, hopen⟩ := hbracket
    rw [hname c hc] at hopen
    cases hopen
  · refine hlast ?_
    have hclosed := dropFinalNewline_closed hending (name ++ '[' :: inside)
    rw [List.append_assoc, List.cons_append] at hclosed
    rw [hclosed, List.getLast?_concat]

/-- A bracket is closed that has not been opened. -/
theorem isMalformed_of_not_opened (hclose : ']' ∈ token) (hopen : '[' ∉ token) :
    IsMalformed token := by
  rintro step (⟨-, hname⟩ | ⟨-, -, -⟩)
  · exact absurd (hname _ hclose) (by decide)
  · exact hopen (by simp)

/-- A key in quotes with a separator in it is cut there, and neither piece has a form. -/
theorem tokens_quotedKey {name left right : List Char} {quote separator : Char}
    (hname : ∀ c ∈ name, isBracket c = false ∧ separatesTokens c = false)
    (hquote : isIndexQuote quote = true)
    (hleft : ∀ c ∈ left, isBracket c = false ∧ separatesTokens c = false)
    (hseparator : separatesTokens separator = true)
    (hright : ∀ c ∈ right, isBracket c = false ∧ separatesTokens c = false) :
    ∃ first second, tokens (.text (String.ofList
        (name ++ '[' :: quote :: left ++ separator :: (right ++ [quote, ']'])))) = [first, second] ∧
      IsMalformed first.toList ∧ IsMalformed second.toList := by
  have hbracket : isBracket quote = false ∧ separatesTokens quote = false := by
    rw [isIndexQuote, Bool.or_eq_true, beq_iff_eq, beq_iff_eq] at hquote
    rcases hquote with rfl | rfl <;> decide
  have hfirst : ∀ c ∈ name ++ '[' :: quote :: left, separatesTokens c = false := by
    simp only [List.forall_mem_append, List.forall_mem_cons]
    exact ⟨fun c hc => (hname c hc).2, by decide, hbracket.2, fun c hc => (hleft c hc).2⟩
  have hsecond : ∀ c ∈ right ++ [quote, ']'], separatesTokens c = false := by
    simp only [List.forall_mem_append, List.forall_mem_cons]
    exact ⟨fun c hc => (hright c hc).2, hbracket.2, by decide, List.forall_mem_nil _⟩
  refine ⟨String.ofList (name ++ '[' :: quote :: left), String.ofList (right ++ [quote, ']']),
    ?_, ?_, ?_⟩
  · show tokensOfText _ = _
    rw [tokensOfText, String.toList_ofList, Text.fields_append_cons hseparator,
      Text.fields_of_forall_not (by simp) hfirst, Text.fields_of_forall_not (by simp) hsecond]
    rfl
  · rw [String.toList_ofList]
    have hnot : ∀ c ∈ name ++ quote :: left, isBracket c = false := by
      simp only [List.forall_mem_append, List.forall_mem_cons]
      exact ⟨fun c hc => (hname c hc).1, hbracket.1, fun c hc => (hleft c hc).1⟩
    refine isMalformed_of_not_closed ⟨'[', by simp, rfl⟩ fun hlast => ?_
    obtain ⟨ending, -, hcs⟩ := exists_ending (name ++ '[' :: quote :: left)
    have hmem : ']' ∈ name ++ '[' :: quote :: left := by
      rw [hcs]
      exact List.mem_append_left _ (List.mem_of_getLast? hlast)
    have hmem' : ']' ∈ name ++ quote :: left := by simpa using hmem
    exact absurd (hnot _ hmem') (by decide)
  · rw [String.toList_ofList]
    have hnot : ∀ c ∈ right ++ [quote], isBracket c = false := by
      simp only [List.forall_mem_append, List.forall_mem_singleton]
      exact ⟨fun c hc => (hright c hc).1, hbracket.1⟩
    refine isMalformed_of_not_opened (by simp) fun hopen => ?_
    have hopen' : '[' ∈ right ++ [quote] := by simpa using hopen
    exact absurd (hnot _ hopen') (by decide)

end Path

/-! ## Paths with malformed tokens -/

namespace Value

variable {target path : Value} {front back : List String} {token : String}

/-- A path that has a token is a walk over its tokens. -/
theorem resolve_eq_walk_append (htokens : tokens path = front ++ token :: back) :
    (target.resolve path).result =
      (walk target front).bind fun v => (readToken v token).bind fun w => walk w back := by
  have hwalk : (target.resolve path).result = walk target (front ++ token :: back) := by
    cases front with
    | nil => exact resolve_eq_walk htokens
    | cons first front => exact resolve_eq_walk htokens
  rw [hwalk, walk, List.foldlM_append]
  rfl

/-- A path is a walk over its tokens, even if it has none, unless the target is a document. -/
theorem resolve_eq_walk_of_tokens (htokens : tokens path = front ++ back)
    (hdocument : ∀ v, walk target front = .ok v → ¬ v.IsDocument) :
    (target.resolve path).result = (walk target front).bind fun v => walk v back := by
  have hwalk : (target.resolve path).result = walk target (front ++ back) := by
    cases hall : front ++ back with
    | nil =>
        obtain ⟨rfl, rfl⟩ := List.append_eq_nil_iff.mp hall
        rw [resolve_of_tokens_eq_nil htokens,
          Json.decodeText_eq_self_iff.mpr (hdocument target rfl)]
        rfl
    | cons first rest => exact resolve_eq_walk (htokens.trans hall)
  rw [hwalk, walk, List.foldlM_append]
  rfl

/-- **A malformed token in a path** leaves the value that the path has come to where it is, so that
the path does not lead to nothing for its sake: if the value is no text that holds JSON, the path
leads to where it leads without the token. Any other token is read as a step. -/
theorem resolve_of_malformed (target : Value) (htokens : tokens path = front ++ token :: back) :
    (IsMalformed token.toList →
        (target.resolve path).result =
          (walk target front).bind fun v => walk (Json.decodeText v) back) ∧
      (IsMalformed token.toList → (∀ v, walk target front = .ok v → ¬ v.IsDocument) →
        ∀ path', tokens path' = front ++ back →
          (target.resolve path).result = (target.resolve path').result) ∧
      (∀ step, ReadAs token.toList step →
        (target.resolve path).result =
          (walk target front).bind fun v => (step.readFrom v).bind fun w => walk w back) := by
  have hpassed (hmalformed : IsMalformed token.toList) : (target.resolve path).result =
      (walk target front).bind fun v => walk (Json.decodeText v) back := by
    rw [resolve_eq_walk_append htokens]
    congr 1
    funext v
    rw [hmalformed.readToken_eq]
    rfl
  refine ⟨hpassed, fun hmalformed hdocument path' htokens' => ?_, fun step hstep => ?_⟩
  · rw [hpassed hmalformed, resolve_eq_walk_of_tokens htokens' hdocument]
    cases hwalk : walk target front with
    | error fault => rfl
    | ok v =>
        show walk (Json.decodeText v) back = walk v back
        rw [Json.decodeText_eq_self_iff.mpr (hdocument v hwalk)]
  · rw [resolve_eq_walk_append htokens]
    congr 1
    funext v
    rw [hstep.readToken_eq]

/-- A mapping to be asked with a bracket that is left open. -/
def oneEntry : Value := .dict [(.text "a", .int 1)]

theorem isMalformed_open : IsMalformed "a[".toList := by decide

theorem tokens_open : tokens (.text "a[") = ["a["] := by cbv

/-- The bracket that is left open leads to the whole mapping. -/
theorem resolve_oneEntry_open : (oneEntry.resolve (.text "a[")).result = .ok oneEntry := by
  have htokens : tokens (.text "a[") = [] ++ "a[" :: [] := tokens_open
  obtain ⟨hpassed, -⟩ := resolve_of_malformed oneEntry htokens
  rw [hpassed isMalformed_open]
  exact congrArg Except.ok (Json.decodeText_of_isCollection rfl)

/-- A token that is no attribute and no index in brackets does not make a path lead to nothing. -/
theorem exists_resolve_malformed_ne_null :
    ¬ ∀ target path : Value, target.isCollection = true →
        (∃ token ∈ tokens path, ¬ IsWrittenOut token.toList) →
        (target.resolve path).result = .ok .null := by
  intro h
  have hopen : ¬ IsWrittenOut "a[".toList := fun hwritten =>
    hwritten.not_isMalformed isMalformed_open
  have hmem : "a[" ∈ tokens (.text "a[") := by
    rw [tokens_open]
    exact List.mem_singleton_self _
  have hnull := h oneEntry (.text "a[") rfl ⟨"a[", hmem, hopen⟩
  rw [resolve_eq_walk tokens_open, walk_cons, isMalformed_open.readToken_eq,
    Json.decodeText_of_isCollection rfl] at hnull
  cases hnull

/-- **A key in quotes with a dot or a blank in it** does not count: neither it nor the name in front
of it is looked up. -/
theorem resolve_quotedKey (hcollection : target.isCollection = true) {name left right : List Char}
    {quote separator : Char}
    (hname : ∀ c ∈ name, isBracket c = false ∧ separatesTokens c = false)
    (hquote : isIndexQuote quote = true)
    (hleft : ∀ c ∈ left, isBracket c = false ∧ separatesTokens c = false)
    (hseparator : separatesTokens separator = true)
    (hright : ∀ c ∈ right, isBracket c = false ∧ separatesTokens c = false) :
    (target.resolve (.text (String.ofList
      (name ++ '[' :: quote :: left ++ separator :: (right ++ [quote, ']']))))).result =
        .ok target := by
  obtain ⟨first, second, htokens, hfirst, hsecond⟩ :=
    tokens_quotedKey hname hquote hleft hseparator hright
  have hself : Json.decodeText target = target := Json.decodeText_of_isCollection hcollection
  rw [resolve_eq_walk htokens, walk_cons, hfirst.readToken_eq, hself]
  show walk target [second] = _
  rw [walk_cons, hsecond.readToken_eq, hself]
  rfl

end Value

end LooseData
