import LooseData.Proofs.Path.Walk
import LooseData.Proofs.Text.Fields
import Mathlib

set_option autoImplicit false

/-! # Every way of writing a path is read as its steps

A `Step` is what a path is meant to say: an attribute, if there is one, and the indices behind
it. There are many ways of writing steps as a text (`Path.Writes`): every index is bare or in
quotes of either sort, and any dots and blanks stand between the steps and around them. Each of
these ways is read as the same steps, in three stages.

* Cutting the text at dots and blanks gives the texts of the steps (`fields_of_writes`).
* The parts of the text of a step are its attribute and an expression for its indices, however they
  are quoted (`Step.WrittenAs.parts_eq`).
* Reading a step by its parts follows the attribute and the indices (`Step.WrittenAs.readToken_eq`).

So resolving the path goes from step to step (`resolve_eq_foldlM_readFrom`).
-/

namespace LooseData

open LooseData.Path

/-- A step along a path. -/
structure Path.Step where
  /-- The attribute, if the step has one. -/
  name : Option String
  indices : List String

namespace Path

/-- What a value holds at a step: the attribute, decoded if it is JSON, and in that one index after
another. Null holds null. -/
def Step.readFrom (step : Step) (v : Value) : Except Fault Value :=
  if v.isNull then .ok .null
  else do
    let property ← match step.name with
      | some name => (v.access (.text name)).map Json.decodeText
      | none => .ok (Json.decodeText v)
    step.indices.foldlM (fun w index => w.access (.text index)) property

/-! ## Writing steps -/

/-- A text that can be an attribute. -/
def IsName (cs : List Char) : Prop :=
  cs ≠ [] ∧ ∀ c ∈ cs, isBracket c = false ∧ separatesTokens c = false

/-- A text that can be an index. -/
def IsIndex (cs : List Char) : Prop :=
  cs ≠ [] ∧ ∀ c ∈ cs, isBracket c = false ∧ isIndexQuote c = false ∧ separatesTokens c = false

/-- A step that can be written: it has an attribute or an index. -/
structure Step.IsWritable (step : Step) : Prop where
  nonempty : step.name ≠ none ∨ step.indices ≠ []
  isName : ∀ name ∈ step.name, IsName name.toList
  isIndex : ∀ index ∈ step.indices, IsIndex index.toList

/-- A step whose text shows where its parts begin and end: no bracket stands in its attribute, and
nothing that separates indices stands in an index. -/
structure Step.IsLegible (step : Step) : Prop where
  isName : ∀ name ∈ step.name, name.toList ≠ [] ∧ ∀ c ∈ name.toList, isBracket c = false
  isIndex : ∀ index ∈ step.indices,
    index.toList ≠ [] ∧ ∀ c ∈ index.toList, separatesIndices c = false

-- Each instance names the way of deciding: through the characters of the text. There is another
-- that goes through all characters that there are.
instance (cs : List Char) : Decidable (IsName cs) :=
  @instDecidableAnd _ _ _ (List.decidableBAll _ cs)

instance (cs : List Char) : Decidable (IsIndex cs) :=
  @instDecidableAnd _ _ _ (List.decidableBAll _ cs)

instance (step : Step) : Decidable step.IsWritable :=
  decidable_of_iff ((step.name ≠ none ∨ step.indices ≠ []) ∧
      (∀ name ∈ step.name, IsName name.toList) ∧ ∀ index ∈ step.indices, IsIndex index.toList)
    ⟨fun ⟨h, hname, hindex⟩ => ⟨h, hname, hindex⟩, fun ⟨h, hname, hindex⟩ => ⟨h, hname, hindex⟩⟩

/-- The ways of putting an index into brackets. -/
inductive Bracketed (index : List Char) : List Char → Prop where
  | bare : Bracketed index ('[' :: index ++ [']'])
  | quoted {quote : Char} (h : isIndexQuote quote = true) :
      Bracketed index ('[' :: quote :: index ++ [quote, ']'])

/-- The characters of the attribute of a step. -/
def Step.nameChars (step : Step) : List Char := (step.name.map String.toList).getD []

/-- A way of writing a step: its attribute and then each of its indices in brackets. -/
def Step.WrittenAs (step : Step) (cs : List Char) : Prop :=
  ∃ groups, List.Forall₂ (fun index group => Bracketed index.toList group) step.indices groups ∧
    cs = step.nameChars ++ groups.flatten

/-- Dots and blanks, as they stand between steps. -/
def IsGap (cs : List Char) : Prop := ∀ c ∈ cs, separatesTokens c = true

instance (cs : List Char) : Decidable (IsGap cs) := List.decidableBAll _ cs

/-- The ways of writing steps one after another, with a gap between any two and perhaps one at the
end. -/
inductive Writes : List Step → List Char → Prop where
  | last {step : Step} {cs gap : List Char} (h : step.WrittenAs cs) (hgap : IsGap gap) :
      Writes [step] (cs ++ gap)
  | cons {step : Step} {steps : List Step} {cs gap rest : List Char} (h : step.WrittenAs cs)
      (hgap : IsGap gap) (hne : gap ≠ []) (hrest : Writes steps rest) :
      Writes (step :: steps) (cs ++ gap ++ rest)

/-! ## Reading the indices of a step -/

theorem separatesIndices_quote {c : Char} (h : isIndexQuote c = true) :
    separatesIndices c = true := by
  simp [separatesIndices, h]

theorem IsIndex.not_separatesIndices {index : List Char} (h : IsIndex index) :
    ∀ c ∈ index, separatesIndices c = false := by
  intro c hc
  obtain ⟨hbracket, hquote, htoken⟩ := h.2 c hc
  have hdot : (c == '.') = false := by
    simp only [separatesTokens, Bool.or_eq_false_iff] at htoken
    exact htoken.2
  simp [separatesIndices, hbracket, hquote, hdot]

theorem Step.IsWritable.isLegible {step : Step} (h : step.IsWritable) : step.IsLegible :=
  ⟨fun name hname => ⟨(h.isName name hname).1, fun c hc => ((h.isName name hname).2 c hc).1⟩,
    fun index hindex => ⟨(h.isIndex index hindex).1, (h.isIndex index hindex).not_separatesIndices⟩⟩

/-- An index in brackets, quoted or not, is a field between separators. -/
theorem Bracketed.fields_append {index group : List Char} (h : Bracketed index group)
    (hne : index ≠ []) (hword : ∀ c ∈ index, separatesIndices c = false) (rest : List Char) :
    Text.fields separatesIndices (group ++ rest) =
      index :: Text.fields separatesIndices rest := by
  have hbracket : separatesIndices '[' = true := by decide
  have hbracket' : separatesIndices ']' = true := by decide
  cases h with
  | bare =>
      have hgap : ∀ c ∈ [']'], separatesIndices c = true := List.forall_mem_singleton.mpr hbracket'
      rw [List.cons_append, List.cons_append, Text.fields_cons hbracket,
        Text.fields_word_append hne hword hgap nofun]
  | @quoted quote hquote =>
      have hsep := separatesIndices_quote hquote
      have hgap : ∀ c ∈ [quote, ']'], separatesIndices c = true :=
        List.forall_mem_cons.mpr ⟨hsep, List.forall_mem_singleton.mpr hbracket'⟩
      rw [List.cons_append, List.cons_append, List.cons_append, List.cons_append,
        Text.fields_cons hbracket, Text.fields_cons hsep,
        Text.fields_word_append hne hword hgap nofun]

theorem fields_groups {indices : List String} {groups : List (List Char)}
    (h : List.Forall₂ (fun index group => Bracketed index.toList group) indices groups)
    (hindices : ∀ index ∈ indices,
      index.toList ≠ [] ∧ ∀ c ∈ index.toList, separatesIndices c = false) :
    Text.fields separatesIndices groups.flatten = indices.map String.toList := by
  induction h with
  | nil => rfl
  | cons hgroup _ ih =>
      rw [List.forall_mem_cons] at hindices
      rw [List.flatten_cons, hgroup.fields_append hindices.1.1 hindices.1.2, ih hindices.2,
        List.map_cons]

/-! ## The parts of a step -/

theorem Bracketed.exists_inside {index group : List Char} (h : Bracketed index group)
    (hne : index ≠ []) : ∃ inside, inside ≠ [] ∧ group = '[' :: inside ++ [']'] := by
  cases h with
  | bare => exact ⟨index, hne, rfl⟩
  | @quoted quote _ => exact ⟨quote :: index ++ [quote], by simp, by simp⟩

/-- Some indices together begin and end with a bracket, too. -/
theorem exists_inside_groups {index : String} {indices : List String} {groups : List (List Char)}
    (h : List.Forall₂ (fun index group => Bracketed index.toList group) (index :: indices) groups)
    (hindices : ∀ i ∈ index :: indices, i.toList ≠ []) :
    ∃ inside, inside ≠ [] ∧ groups.flatten = '[' :: inside ++ [']'] := by
  induction indices generalizing index groups with
  | nil =>
      obtain ⟨group, _, hgroup, hnil, rfl⟩ := List.forall₂_cons_left_iff.mp h
      obtain rfl := List.forall₂_nil_left_iff.mp hnil
      rw [List.flatten_singleton]
      exact hgroup.exists_inside (hindices index List.mem_cons_self)
  | cons next indices ih =>
      obtain ⟨group, rest, hgroup, hrest, rfl⟩ := List.forall₂_cons_left_iff.mp h
      rw [List.forall_mem_cons] at hindices
      obtain ⟨first, _, hfirst⟩ := hgroup.exists_inside hindices.1
      obtain ⟨others, _, hothers⟩ := ih hrest hindices.2
      exact ⟨first ++ ']' :: '[' :: others, by simp, by
        rw [List.flatten_cons, hfirst, hothers]; simp⟩

theorem fields_dropOpeningQuote (cs : List Char) :
    Text.fields separatesIndices (dropOpeningQuote cs) = Text.fields separatesIndices cs := by
  unfold dropOpeningQuote
  split
  · rfl
  · split
    · rename_i hquote
      exact (Text.fields_cons (separatesIndices_quote hquote) _).symm
    · rfl
  · rfl

theorem fields_dropClosingQuote (cs : List Char) :
    Text.fields separatesIndices (dropClosingQuote cs) = Text.fields separatesIndices cs := by
  unfold dropClosingQuote
  split
  · rename_i h
    obtain ⟨quote, hlast, hquote⟩ := (Option.any_eq_true _ _).mp h.2
    have hcs : cs.dropLast ++ [quote] = cs := List.dropLast_append_getLast? quote hlast
    conv_rhs => rw [← hcs]
    exact (Text.fields_concat (separatesIndices_quote hquote) _).symm
  · rfl

/-- The brackets at the ends and the quotes just inside them take no index away. -/
theorem exists_indexExpression {inside : List Char} (hne : inside ≠ []) :
    ∃ expression, indexExpression? (inside ++ [']']) = some expression ∧
      Text.fields separatesIndices expression =
        Text.fields separatesIndices ('[' :: inside ++ [']']) := by
  refine ⟨dropClosingQuote (dropOpeningQuote inside), ?_, ?_⟩
  · have hline : dropFinalNewline (inside ++ [']']) = inside ++ [']'] := by
      simp [dropFinalNewline]
    simp only [indexExpression?, hline, List.getLast?_concat, List.dropLast_concat]
  · rw [fields_dropClosingQuote, fields_dropOpeningQuote, List.cons_append,
      Text.fields_cons (by decide), Text.fields_concat (by decide)]

theorem Step.nameChars_isEmpty {step : Step} (hstep : step.IsLegible) :
    (if step.nameChars.isEmpty then none else some (String.ofList step.nameChars)) = step.name := by
  cases hname : step.name with
  | none => simp [nameChars, hname]
  | some name =>
      have hne := (hstep.isName name hname).1
      simp [nameChars, hname, hne]

theorem Step.not_isBracket_of_mem_nameChars {step : Step} (hstep : step.IsLegible) :
    ∀ c ∈ step.nameChars, isBracket c = false := by
  intro c hc
  cases hname : step.name with
  | none => simp [nameChars, hname] at hc
  | some name => exact (hstep.isName name hname).2 c (by simpa [nameChars, hname] using hc)

/-- **The parts of a step, however it is written.** -/
theorem Step.WrittenAs.parts_eq {step : Step} {cs : List Char} (h : step.WrittenAs cs)
    (hstep : step.IsLegible) : ∃ expression : Option String,
      parts cs = ⟨step.name, expression⟩ ∧
        (expression.map Path.indices).getD [] = step.indices := by
  obtain ⟨groups, hgroups, rfl⟩ := h
  have hname : ∀ c ∈ step.nameChars, (!isBracket c) = true := fun c hc => by
    rw [Step.not_isBracket_of_mem_nameChars hstep c hc]; rfl
  cases hindices : step.indices with
  | nil =>
      rw [hindices, List.forall₂_nil_left_iff] at hgroups
      subst hgroups
      have htake := List.takeWhile_eq_self_iff.mpr hname
      have hdrop := List.dropWhile_eq_nil_iff.mpr hname
      refine ⟨none, ?_, rfl⟩
      simp only [List.flatten_nil, List.append_nil, parts, htake, hdrop,
        Step.nameChars_isEmpty hstep]
  | cons index others =>
      have hall := hstep.isIndex
      rw [hindices] at hgroups hall
      obtain ⟨inside, hne, hflatten⟩ := exists_inside_groups hgroups fun i hi => (hall i hi).1
      obtain ⟨expression, hexpression, hfields⟩ := exists_indexExpression hne
      have hopen : isBracket '[' = true := by decide
      refine ⟨some (String.ofList expression), ?_, ?_⟩
      · simp only [parts, List.takeWhile_append_of_pos hname, List.dropWhile_append_of_pos hname,
          hflatten, List.cons_append, List.takeWhile_cons, List.dropWhile_cons, hopen,
          Bool.not_true, Bool.false_eq_true, if_false, List.append_nil, hexpression,
          Step.nameChars_isEmpty hstep]
      · rw [← hflatten, fields_groups hgroups hall] at hfields
        simp [Path.indices, hfields, Function.comp_def]

/-- A token is read by its parts. -/
theorem readToken_of_parts_eq {step : Step} {token : String} {expression : Option String}
    (hparts : parts token.toList = ⟨step.name, expression⟩)
    (hexpression : (expression.map Path.indices).getD [] = step.indices) (v : Value) :
    readToken v token = step.readFrom v := by
  have hindex : ∀ w, Resolver.applyIndex w expression =
      step.indices.foldlM (fun w index => w.access (.text index)) w := by
    intro w
    rw [← hexpression]
    cases expression <;> rfl
  rw [readToken, Step.readFrom]
  cases hnull : v.isNull with
  | true => rw [if_pos rfl, if_pos rfl, Value.isNull_iff.mp hnull]
  | false =>
      simp only [Bool.false_eq_true, if_false, Resolver.propertyAtIndex, Resolver.propertyValue,
        Resolver.aim, hparts, hindex]
      cases step.name <;> rfl

theorem Step.WrittenAs.readToken_eq {step : Step} {token : String}
    (h : step.WrittenAs token.toList) (hstep : step.IsLegible) (v : Value) :
    readToken v token = step.readFrom v := by
  obtain ⟨expression, hparts, hexpression⟩ := h.parts_eq hstep
  exact readToken_of_parts_eq hparts hexpression v

/-! ## The tokens of a path -/

theorem Step.WrittenAs.ne_nil {step : Step} {cs : List Char} (h : step.WrittenAs cs)
    (hstep : step.IsLegible) (hne : step.name ≠ none ∨ step.indices ≠ []) : cs ≠ [] := by
  obtain ⟨groups, hgroups, rfl⟩ := h
  rw [Ne, List.append_eq_nil_iff, not_and_or]
  cases hindices : step.indices with
  | nil =>
      left
      obtain ⟨name, hname⟩ := Option.ne_none_iff_exists'.mp
        (hne.resolve_right (not_not.mpr hindices))
      simpa [nameChars, hname] using (hstep.isName name hname).1
  | cons index others =>
      right
      have hall := hstep.isIndex
      rw [hindices] at hgroups hall
      obtain ⟨inside, _, hflatten⟩ := exists_inside_groups hgroups fun i hi => (hall i hi).1
      rw [hflatten]
      exact nofun

theorem Bracketed.not_separatesTokens {index group : List Char} (h : Bracketed index group)
    (hindex : IsIndex index) : ∀ c ∈ group, separatesTokens c = false := by
  have hinside : ∀ c ∈ index, separatesTokens c = false := fun c hc => (hindex.2 c hc).2.2
  have hopen : separatesTokens '[' = false := by decide
  have hclose : separatesTokens ']' = false := by decide
  cases h with
  | bare => simpa [or_imp, forall_and, hopen, hclose] using hinside
  | @quoted quote hquote =>
      have hquote : separatesTokens quote = false := by
        simp only [isIndexQuote, Bool.or_eq_true, beq_iff_eq] at hquote
        rcases hquote with rfl | rfl <;> decide
      simpa [or_imp, forall_and, hopen, hclose, hquote] using hinside

theorem not_separatesTokens_groups {indices : List String} {groups : List (List Char)}
    (h : List.Forall₂ (fun index group => Bracketed index.toList group) indices groups)
    (hindices : ∀ index ∈ indices, IsIndex index.toList) :
    ∀ c ∈ groups.flatten, separatesTokens c = false := by
  induction h with
  | nil => exact nofun
  | cons hgroup _ ih =>
      rw [List.forall_mem_cons] at hindices
      rw [List.flatten_cons, List.forall_mem_append]
      exact ⟨hgroup.not_separatesTokens hindices.1, ih hindices.2⟩

theorem Step.WrittenAs.not_separatesTokens {step : Step} {cs : List Char} (h : step.WrittenAs cs)
    (hstep : step.IsWritable) : ∀ c ∈ cs, separatesTokens c = false := by
  obtain ⟨groups, hgroups, rfl⟩ := h
  intro c hc
  rcases List.mem_append.mp hc with hc | hc
  · cases hname : step.name with
    | none => simp [nameChars, hname] at hc
    | some name => exact ((hstep.isName name hname).2 c (by simpa [nameChars, hname] using hc)).2
  · exact not_separatesTokens_groups hgroups hstep.isIndex c hc

/-- **The tokens of a path are the texts of its steps.** -/
theorem fields_of_writes {steps : List Step} {cs : List Char} (h : Writes steps cs)
    (hsteps : ∀ step ∈ steps, step.IsWritable) :
    List.Forall₂ Step.WrittenAs steps (Text.fields separatesTokens cs) := by
  induction h with
  | @last step cs gap h hgap =>
      have hstep := hsteps step (List.mem_singleton_self step)
      rw [← List.append_nil (cs ++ gap),
        Text.fields_word_append (h.ne_nil hstep.isLegible hstep.nonempty)
        (h.not_separatesTokens hstep) hgap fun _ => rfl]
      exact .cons h .nil
  | @cons step steps cs gap rest h hgap hne _ ih =>
      rw [List.forall_mem_cons] at hsteps
      rw [Text.fields_word_append (h.ne_nil hsteps.1.isLegible hsteps.1.nonempty)
        (h.not_separatesTokens hsteps.1) hgap fun hnil => absurd hnil hne]
      exact .cons h (ih hsteps.2)

/-- Reading the texts of some steps reads the steps. -/
theorem walk_eq_foldlM_of_isLegible {steps : List Step} {texts : List (List Char)}
    (h : List.Forall₂ Step.WrittenAs steps texts) (hsteps : ∀ step ∈ steps, step.IsLegible)
    (v : Value) :
    walk v (texts.map String.ofList) = steps.foldlM (fun w step => step.readFrom w) v := by
  induction h generalizing v with
  | nil => rfl
  | @cons step text steps texts h _ ih =>
      rw [List.forall_mem_cons] at hsteps
      have hread : readToken v (String.ofList text) = step.readFrom v :=
        Step.WrittenAs.readToken_eq (by rwa [String.toList_ofList]) hsteps.1 v
      rw [List.map_cons, walk_cons, hread, List.foldlM_cons]
      exact congrArg _ (funext fun w => ih hsteps.2 w)

theorem walk_eq_foldlM_readFrom {steps : List Step} {texts : List (List Char)}
    (h : List.Forall₂ Step.WrittenAs steps texts) (hsteps : ∀ step ∈ steps, step.IsWritable)
    (v : Value) :
    walk v (texts.map String.ofList) = steps.foldlM (fun w step => step.readFrom w) v :=
  walk_eq_foldlM_of_isLegible h (fun step hstep => (hsteps step hstep).isLegible) v

end Path

/-- **Every way of writing a path is read as its steps.** -/
theorem Value.resolve_eq_foldlM_readFrom (target : Value) {steps : List Step}
    (hsteps : ∀ step ∈ steps, step.IsWritable) {before cs : List Char} (hbefore : IsGap before)
    (hcs : Writes steps cs) :
    (target.resolve (.text (String.ofList (before ++ cs)))).result =
      steps.foldlM (fun v step => step.readFrom v) target := by
  have hfields := fields_of_writes hcs hsteps
  have htokens : tokens (.text (String.ofList (before ++ cs))) =
      (Text.fields separatesTokens cs).map String.ofList := by
    show tokensOfText _ = _
    rw [tokensOfText, String.toList_ofList, Text.fields_append_of_forall hbefore]
  rw [← walk_eq_foldlM_readFrom hfields hsteps]
  generalize Text.fields separatesTokens cs = texts at hfields htokens
  cases hfields with
  | nil => cases hcs
  | cons _ _ => exact resolve_eq_walk htokens

/-- JSON in a text that is an item of JSON in a text. -/
def region : Value :=
  .dict [(.text "env", .text "\x7b\"region\": [\"eu\", \"\x7b\\\"b\\\": 2\x7d\"]\x7d")]

/-- Indices of all three sorts, with gaps everywhere. -/
theorem resolve_region_eq_foldlM_readFrom :
    (region.resolve (.text ". env['region'][1] ..[\"b\"].")).result =
      [⟨some "env", ["region", "1"]⟩, ⟨none, ["b"]⟩].foldlM
        (fun v (step : Step) => step.readFrom v) region ∧
    (region.resolve (.text ". env['region'][1] ..[\"b\"].")).result = .ok (.int 2) := by
  have hregion : Bracketed "region".toList "['region']".toList := .quoted (by decide)
  have hone : Bracketed "1".toList "[1]".toList := .bare
  have hb : Bracketed "b".toList "[\"b\"]".toList := .quoted (by decide)
  have hfirst : Step.WrittenAs ⟨some "env", ["region", "1"]⟩ "env['region'][1]".toList :=
    ⟨["['region']".toList, "[1]".toList], .cons hregion (.cons hone .nil), rfl⟩
  have hsecond : Step.WrittenAs ⟨none, ["b"]⟩ "[\"b\"]".toList :=
    ⟨["[\"b\"]".toList], .cons hb .nil, rfl⟩
  have hgap : IsGap ". ".toList ∧ IsGap " ..".toList ∧ IsGap ".".toList := by decide
  have hcs : Writes [⟨some "env", ["region", "1"]⟩, ⟨none, ["b"]⟩]
      ("env['region'][1]".toList ++ " ..".toList ++ ("[\"b\"]".toList ++ ".".toList)) :=
    .cons hfirst hgap.2.1 (by decide) (.last hsecond hgap.2.2)
  have hpath : ". env['region'][1] ..[\"b\"]." = String.ofList (". ".toList ++
      ("env['region'][1]".toList ++ " ..".toList ++ ("[\"b\"]".toList ++ ".".toList))) := by
    decide
  have hresolve := region.resolve_eq_foldlM_readFrom (by decide) hgap.1 hcs
  rw [← hpath] at hresolve
  exact ⟨hresolve, by cbv⟩

end LooseData
