import LooseData.Proofs.Json.Length
import LooseData.Proofs.Path.Moves
import LooseData.Proofs.Path.Spelling

set_option autoImplicit false

/-! # An index in brackets and an index behind a dot

An index can be written behind its attribute in brackets, as in `a[i]`, or as a token of its own,
as in `a.i`. Both read the attribute, decode what it holds and go on to the index. The second then
decodes what it has come to, and the first does not (`resolvedTo_dotted`). So the two ways of
writing part where a text that holds JSON stands under the index: in brackets the path stays at the
text, and what follows in the path is looked up in the text and not in what it holds
(`resolve_bracketed_eq_dotted_iff`).
-/

namespace LooseData

open LooseData.Path

namespace Path

/-! ## The moves of a written path -/

/-- An attribute with an index in brackets. -/
def bracketed (name index : List Char) : List Char := name ++ '[' :: index ++ [']']

/-- An attribute and an index with a dot between them. -/
def dotted (name index : List Char) : List Char := name ++ '.' :: index

/-- A path and, behind a dot, what follows in it. -/
def further (path rest : List Char) : List Char := path ++ '.' :: rest

theorem tokensOfText_ofList (cs : List Char) :
    tokensOfText (String.ofList cs) = (Text.fields separatesTokens cs).map String.ofList := by
  rw [tokensOfText, String.toList_ofList]

/-- A dot divides the tokens of a path. -/
theorem tokensOfText_further (path rest : List Char) :
    tokensOfText (String.ofList (further path rest)) =
      tokensOfText (String.ofList path) ++ tokensOfText (String.ofList rest) := by
  have hdot : separatesTokens '.' = true := by decide
  simp only [tokensOfText_ofList, further]
  rw [Text.fields_append_cons hdot, List.map_append]

theorem moves_of_tokensOfText {s : String} (h : tokensOfText s ≠ []) :
    moves (.text s) = (tokensOfText s).flatMap movesOfToken := by
  have htokens : tokens (.text s) = tokensOfText s := rfl
  unfold moves
  rw [htokens]
  split
  · contradiction
  · rfl

/-- The moves of the text of a step. -/
theorem Step.WrittenAs.movesOfToken_eq {step : Step} {cs : List Char} (h : step.WrittenAs cs)
    (hstep : step.IsLegible) :
    movesOfToken (String.ofList cs) =
      (step.name.map Move.key).toList ++ .decode :: step.indices.map .key := by
  obtain ⟨expression, hparts, hexpression⟩ := h.parts_eq hstep
  rw [movesOfToken, String.toList_ofList, hparts, hexpression]

/-- What can be an index can be an attribute. -/
theorem IsIndex.isName {cs : List Char} (h : IsIndex cs) : IsName cs :=
  ⟨h.1, fun c hc => ⟨(h.2 c hc).1, (h.2 c hc).2.2⟩⟩

theorem tokensOfText_of_isName {name : List Char} (h : IsName name) :
    tokensOfText (String.ofList name) = [String.ofList name] := by
  have hword : Text.fields separatesTokens name = [name] :=
    Text.fields_of_forall_not h.1 fun c hc => (h.2 c hc).2
  rw [tokensOfText_ofList, hword, List.map_singleton]

/-- An attribute alone: it is read, and what it holds is decoded. -/
theorem movesOfToken_name {name : List Char} (h : IsName name) :
    movesOfToken (String.ofList name) = [.key (String.ofList name), .decode] := by
  have hwritten : Step.WrittenAs ⟨some (String.ofList name), []⟩ name :=
    ⟨[], .nil, by simp [Step.nameChars]⟩
  refine hwritten.movesOfToken_eq (Step.IsWritable.isLegible
    ⟨.inl (Option.some_ne_none _), ?_, List.forall_mem_nil _⟩)
  rintro _ ⟨⟩
  rwa [String.toList_ofList]

theorem moves_name {name : List Char} (h : IsName name) :
    moves (.text (String.ofList name)) = [.key (String.ofList name), .decode] := by
  have htokens := tokensOfText_of_isName h
  rw [moves_of_tokensOfText (by simp [htokens]), htokens, List.flatMap_singleton,
    movesOfToken_name h]

section

variable {name index : List Char} (hname : IsName name) (hindex : IsIndex index)

include hname hindex

theorem tokensOfText_bracketed :
    tokensOfText (String.ofList (bracketed name index)) =
      [String.ofList (bracketed name index)] := by
  have hopen : separatesTokens '[' = false := by decide
  have hclose : separatesTokens ']' = false := by decide
  have hne : bracketed name index ≠ [] := by simp [bracketed]
  have hword : ∀ c ∈ bracketed name index, separatesTokens c = false := by
    intro c hc
    simp only [bracketed, List.mem_append, List.mem_cons, List.not_mem_nil, or_false] at hc
    rcases hc with (hc | rfl | hc) | rfl
    · exact (hname.2 c hc).2
    · exact hopen
    · exact (hindex.2 c hc).2.2
    · exact hclose
  rw [tokensOfText_ofList, Text.fields_of_forall_not hne hword, List.map_singleton]

theorem moves_bracketed :
    moves (.text (String.ofList (bracketed name index))) =
      [.key (String.ofList name), .decode, .key (String.ofList index)] := by
  have hgroup : Bracketed (String.ofList index).toList ('[' :: index ++ [']']) := by
    rw [String.toList_ofList]
    exact .bare
  have hwritten : Step.WrittenAs ⟨some (String.ofList name), [String.ofList index]⟩
      (bracketed name index) :=
    ⟨[_], .cons hgroup .nil, by simp [Step.nameChars, bracketed]⟩
  have hstep : Step.IsWritable ⟨some (String.ofList name), [String.ofList index]⟩ := by
    refine ⟨.inl (Option.some_ne_none _), ?_, ?_⟩
    · rintro _ ⟨⟩
      rwa [String.toList_ofList]
    · rw [List.forall_mem_singleton, String.toList_ofList]
      exact hindex
  have htokens := tokensOfText_bracketed hname hindex
  rw [moves_of_tokensOfText (by simp [htokens]), htokens, List.flatMap_singleton,
    hwritten.movesOfToken_eq hstep.isLegible]
  rfl

theorem tokensOfText_dotted :
    tokensOfText (String.ofList (dotted name index)) =
      [String.ofList name, String.ofList index] := by
  show tokensOfText (String.ofList (further name index)) = _
  rw [tokensOfText_further, tokensOfText_of_isName hname, tokensOfText_of_isName hindex.isName]
  rfl

/-- **Behind a dot** the index is decoded as well. -/
theorem moves_dotted :
    moves (.text (String.ofList (dotted name index))) =
      moves (.text (String.ofList (bracketed name index))) ++ [.decode] := by
  have htokens := tokensOfText_dotted hname hindex
  rw [moves_of_tokensOfText (by simp [htokens]), htokens, moves_bracketed hname hindex]
  simp only [List.flatMap_cons, List.flatMap_nil, movesOfToken_name hname,
    movesOfToken_name hindex.isName]
  rfl

end

end Path

/-! ## What the two ways of writing come to -/

namespace Value

variable {target : Value}

/-- What a path that is given by its characters comes to. -/
def resolvedTo (target : Value) (path : List Char) : Except Fault Value :=
  (target.resolve (.text (String.ofList path))).result

/-- **What follows in a path** is read from what the path before it has come to. -/
theorem resolvedTo_further {path : List Char} (h : tokensOfText (String.ofList path) ≠ [])
    (rest : List Char) :
    target.resolvedTo (further path rest) =
      (target.resolvedTo path).bind fun w => walk w (tokensOfText (String.ofList rest)) := by
  have hne : tokensOfText (String.ofList (further path rest)) ≠ [] := by
    rw [tokensOfText_further]
    exact List.append_ne_nil_of_left_ne_nil h _
  simp only [resolvedTo, resolve_eq_follow, moves_of_tokensOfText hne, moves_of_tokensOfText h,
    walk_eq_follow]
  rw [tokensOfText_further, List.flatMap_append, follow_append]

variable {name index : List Char} (hname : IsName name) (hindex : IsIndex index)

include hname hindex

/-- **An index behind a dot** comes to what the index in brackets does, decoded. -/
theorem resolvedTo_dotted :
    target.resolvedTo (dotted name index) =
      (target.resolvedTo (bracketed name index)).map Json.decodeText := by
  simp only [resolvedTo, resolve_eq_follow, moves_dotted hname hindex, follow_append]
  cases Path.follow target (moves (.text (String.ofList (bracketed name index)))) <;> rfl

theorem resolvedTo_bracketed_further (rest : List Char) :
    target.resolvedTo (further (bracketed name index) rest) =
      (target.resolvedTo (bracketed name index)).bind fun w =>
        walk w (tokensOfText (String.ofList rest)) := by
  have htokens := tokensOfText_bracketed hname hindex
  exact resolvedTo_further (by simp [htokens]) rest

theorem resolvedTo_dotted_further (rest : List Char) :
    target.resolvedTo (further (dotted name index) rest) =
      (target.resolvedTo (bracketed name index)).bind fun w =>
        walk (Json.decodeText w) (tokensOfText (String.ofList rest)) := by
  have htokens := tokensOfText_dotted hname hindex
  rw [resolvedTo_further (by simp [htokens]) rest, resolvedTo_dotted hname hindex]
  cases target.resolvedTo (bracketed name index) <;> rfl

/-- The two ways of writing agree exactly if no document stands under the index. -/
theorem resolvedTo_bracketed_eq_dotted_iff :
    target.resolvedTo (bracketed name index) = target.resolvedTo (dotted name index) ↔
      ∀ w, target.resolvedTo (bracketed name index) = .ok w → ¬ w.IsDocument := by
  rw [resolvedTo_dotted hname hindex]
  cases target.resolvedTo (bracketed name index) with
  | error fault =>
      refine ⟨fun _ w hw => ?_, fun _ => rfl⟩
      cases hw
  | ok w =>
      constructor
      · rintro h _ ⟨⟩
        exact Json.decodeText_eq_self_iff.mp (Except.ok.inj h).symm
      · intro h
        exact congrArg Except.ok (Json.decodeText_eq_self_iff.mpr (h w rfl)).symm

/-- **When an index in brackets and one behind a dot mean the same.** They do, whatever follows in
the path, exactly if what stands under the index is no text that holds JSON. Such a text is what the
path in brackets comes to and where it goes on, and the path with the dot comes to what the text
holds and goes on there. -/
theorem resolve_bracketed_eq_dotted_iff (target : Value) :
    (target.resolvedTo (dotted name index) =
        (target.resolvedTo (bracketed name index)).map Json.decodeText) ∧
    (∀ rest, target.resolvedTo (further (bracketed name index) rest) =
        (target.resolvedTo (bracketed name index)).bind fun w =>
          walk w (tokensOfText (String.ofList rest))) ∧
    (∀ rest, target.resolvedTo (further (dotted name index) rest) =
        (target.resolvedTo (bracketed name index)).bind fun w =>
          walk (Json.decodeText w) (tokensOfText (String.ofList rest))) ∧
    (target.resolvedTo (bracketed name index) = target.resolvedTo (dotted name index) ↔
      ∀ w, target.resolvedTo (bracketed name index) = .ok w → ¬ w.IsDocument) ∧
    ((∀ rest, target.resolvedTo (further (bracketed name index) rest) =
        target.resolvedTo (further (dotted name index) rest)) ↔
      ∀ w, target.resolvedTo (bracketed name index) = .ok w → ¬ w.IsDocument) := by
  refine ⟨resolvedTo_dotted hname hindex, resolvedTo_bracketed_further hname hindex,
    resolvedTo_dotted_further hname hindex, resolvedTo_bracketed_eq_dotted_iff hname hindex, ?_⟩
  simp only [resolvedTo_bracketed_further hname hindex, resolvedTo_dotted_further hname hindex]
  cases hreached : target.resolvedTo (bracketed name index) with
  | error fault =>
      refine ⟨fun _ w hw => ?_, fun _ _ => rfl⟩
      cases hw
  | ok w =>
      constructor
      · rintro h _ ⟨⟩
        -- Nothing need follow: the two have come to different places already.
        exact Json.decodeText_eq_self_iff.mp (Except.ok.inj (h [])).symm
      · intro h rest
        show walk w _ = walk (Json.decodeText w) _
        rw [Json.decodeText_eq_self_iff.mpr (h w rfl)]

omit hname hindex

/-- JSON in a text that is an item of a list. -/
def packed : Value := .dict [(.text "a", .list [.text "\x7b\"b\": 1\x7d"])]

theorem ofText_packed :
    Json.ofText "\x7b\"b\": 1\x7d" = .ok (.dict [(.text "b", .int 1)]) := by
  cbv

/-- The item of the list is JSON, so the two ways of writing its place differ. -/
theorem resolve_packed_bracketed_ne_dotted :
    IsName "a".toList ∧ IsIndex "0".toList ∧
      packed.resolvedTo (bracketed "a".toList "0".toList) ≠
        packed.resolvedTo (dotted "a".toList "0".toList) := by
  have hname : IsName "a".toList := by decide
  have hindex : IsIndex "0".toList := by decide
  refine ⟨hname, hindex, fun heq => ?_⟩
  obtain ⟨-, -, -, hiff, -⟩ := resolve_bracketed_eq_dotted_iff hname hindex packed
  have hreached : packed.resolvedTo (bracketed "a".toList "0".toList) =
      .ok (.text "\x7b\"b\": 1\x7d") := by cbv
  exact hiff.mp heq _ hreached ⟨_, _, rfl, ofText_packed⟩

theorem resolvedTo_packed_dotted :
    packed.resolvedTo (further (dotted "a".toList "0".toList) "b".toList) = .ok (.int 1) := by
  cbv

/-- The path `a[0].b` finds nothing where `a.0.b` finds what the text holds. -/
theorem exists_resolve_bracketed_ne_dotted :
    ¬ ∀ (target : Value) (name index rest : List Char), IsIndex name → IsIndex index →
        target.resolvedTo (further (bracketed name index) rest) =
          target.resolvedTo (further (dotted name index) rest) := by
  intro h
  have heq := h packed "a".toList "0".toList "b".toList (by decide) (by decide)
  have hbracketed : packed.resolvedTo (further (bracketed "a".toList "0".toList) "b".toList) =
      .ok .null := by cbv
  cases hbracketed.symm.trans (heq.trans resolvedTo_packed_dotted)

end Value

end LooseData
