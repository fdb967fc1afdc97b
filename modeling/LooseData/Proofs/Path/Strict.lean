import LooseData.Path.Traversal
import LooseData.Proofs.Json.Ahead
import LooseData.Proofs.Path.Composition
import LooseData.Proofs.Path.Plain

set_option autoImplicit false

/-! # Strict traversal

A traversal and the resolver take the same steps, and part where a text is met that is no JSON: the
resolver keeps the text, and the traversal stops with the fault of decoding it. A single step of the
two agrees on everything else (`Step.readStrictly_eq_readFrom`). So the traversal agrees with the
resolver as long as every text that an attribute holds is a document, and otherwise stops at the
first one that is none (`Value.traverse_eq_resolve_or_stops`).
-/

namespace LooseData

open LooseData.Path

namespace Path

variable {step : Step} {cs index group : List Char} {v : Value}

/-! ## Segments -/

/-- A text that can be the name in a segment: without brackets and dots. -/
def IsSegmentName (cs : List Char) : Prop := cs ≠ [] ∧ ∀ c ∈ cs, isBracket c = false ∧ c ≠ '.'

/-- A text that can be the index in a segment: without brackets, dots and quotes. -/
def IsSegmentIndex (cs : List Char) : Prop := cs ≠ [] ∧ ∀ c ∈ cs, separatesIndices c = false

/-- A step that can be a segment: a name, an index in brackets, or a name with one index. -/
structure Step.IsSegment (step : Step) : Prop where
  nonempty : step.name ≠ none ∨ step.indices ≠ []
  isName : ∀ name ∈ step.name, IsSegmentName name.toList
  isIndex : ∀ index ∈ step.indices, IsSegmentIndex index.toList
  atMostOne : step.indices.length ≤ 1

instance (cs : List Char) : Decidable (IsSegmentName cs) :=
  @instDecidableAnd _ _ _ (List.decidableBAll _ cs)

instance (cs : List Char) : Decidable (IsSegmentIndex cs) :=
  @instDecidableAnd _ _ _ (List.decidableBAll _ cs)

instance (step : Step) : Decidable step.IsSegment :=
  decidable_of_iff ((step.name ≠ none ∨ step.indices ≠ []) ∧
      (∀ name ∈ step.name, IsSegmentName name.toList) ∧
      (∀ index ∈ step.indices, IsSegmentIndex index.toList) ∧ step.indices.length ≤ 1)
    ⟨fun ⟨h, hname, hindex, hone⟩ => ⟨h, hname, hindex, hone⟩,
      fun ⟨h, hname, hindex, hone⟩ => ⟨h, hname, hindex, hone⟩⟩

theorem Step.IsSegment.isLegible (h : step.IsSegment) : step.IsLegible :=
  ⟨fun name hname => ⟨(h.isName name hname).1, fun c hc => ((h.isName name hname).2 c hc).1⟩,
    h.isIndex⟩

/-- A segment has no index or one. -/
theorem Step.IsSegment.indices_eq (h : step.IsSegment) :
    step.indices = [] ∨ ∃ index, step.indices = [index] ∧ IsSegmentIndex index.toList := by
  have hone := h.atMostOne
  have hall := h.isIndex
  cases hindices : step.indices with
  | nil => exact .inl rfl
  | cons index others =>
      rw [hindices] at hone hall
      obtain rfl : others = [] := by simpa using hone
      exact .inr ⟨index, rfl, hall index List.mem_cons_self⟩

theorem not_isQuote_of_not_separatesIndices {c : Char} (h : separatesIndices c = false) :
    isQuote c = false ∧ (c == ']') = false := by
  simp only [separatesIndices, isBracket, Bool.or_eq_false_iff] at h
  exact ⟨h.2, h.1.1.2⟩

/-- An index does not begin with a quote that could be dropped. -/
theorem dropOne_index (h : IsSegmentIndex index) {quote : Char} (hquote : isQuote quote = true)
    (rest : List Char) : segmentIndex?.dropOne quote (index ++ rest) = index ++ rest := by
  obtain ⟨c, index, rfl⟩ := List.exists_cons_of_ne_nil h.1
  have hc := (not_isQuote_of_not_separatesIndices (h.2 c List.mem_cons_self)).1
  rw [List.cons_append, segmentIndex?.dropOne, if_neg]
  rintro rfl
  exact absurd hc (by simp [hquote])

/-- An index is read up to the quote or the bracket behind it, if a closing bracket is all that is
left. -/
theorem segmentIndex?_of_dropOne {close : Char} {cs rest : List Char}
    (h : IsSegmentIndex index) (hclose : isQuote close ∨ close = ']')
    (hopened : segmentIndex?.dropOne '"' (segmentIndex?.dropOne '\'' cs) = index ++ close :: rest)
    (hclosed : segmentIndex?.dropOne '"' (segmentIndex?.dropOne '\'' (close :: rest)) = [']']) :
    segmentIndex? cs = some index := by
  have hinner : ∀ c ∈ index, (!(isQuote c || c == ']')) = true := by
    intro c hc
    obtain ⟨hquote, hbracket⟩ := not_isQuote_of_not_separatesIndices (h.2 c hc)
    rw [hquote, hbracket]
    rfl
  have houter : (isQuote close || close == ']') = true := by
    rcases hclose with hclose | rfl
    · rw [hclose, Bool.true_or]
    · decide
  have htake : (index ++ close :: rest).takeWhile (fun c => !(isQuote c || c == ']')) = index := by
    rw [List.takeWhile_append_of_pos hinner,
      List.takeWhile_cons_of_neg (by simp [houter]), List.append_nil]
  have hdrop : (index ++ close :: rest).dropWhile (fun c => !(isQuote c || c == ']')) =
      close :: rest := by
    rw [List.dropWhile_append_of_pos hinner,
      List.dropWhile_cons_of_neg (by simp [houter])]
  simp only [segmentIndex?, hopened, htake, hdrop, hclosed]
  simp [h.1]

/-- **The index of a segment**, bare or in quotes. -/
theorem Bracketed.exists_segmentIndex (h : Bracketed index group) (hindex : IsSegmentIndex index) :
    ∃ inside, group = '[' :: inside ∧ segmentIndex? inside = some index := by
  have hsingle : isQuote '\'' = true := rfl
  have hdouble : isQuote '"' = true := rfl
  cases h with
  | bare =>
      refine ⟨index ++ [']'], rfl, segmentIndex?_of_dropOne hindex (.inr rfl) ?_ rfl⟩
      rw [dropOne_index hindex hsingle, dropOne_index hindex hdouble]
  | @quoted quote hquote =>
      refine ⟨quote :: index ++ [quote, ']'], rfl, ?_⟩
      simp only [isIndexQuote, Bool.or_eq_true, beq_iff_eq] at hquote
      rcases hquote with rfl | rfl
      · have hopened : segmentIndex?.dropOne '"' (index ++ ['\'', ']']) = index ++ ['\'', ']'] :=
          dropOne_index hindex hdouble _
        exact segmentIndex?_of_dropOne hindex (.inl hsingle) hopened rfl
      · exact segmentIndex?_of_dropOne hindex (.inl hdouble) rfl rfl

/-- **The parts of a segment.** -/
theorem Step.WrittenAs.segment_eq (h : step.WrittenAs cs) (hstep : step.IsSegment) :
    segment cs = (step.name, step.indices.head?) := by
  obtain ⟨groups, hgroups, rfl⟩ := h
  have hname : ∀ c ∈ step.nameChars, decide (c ≠ '[') = true := by
    intro c hc
    have hbracket := Step.not_isBracket_of_mem_nameChars hstep.isLegible c hc
    rw [decide_eq_true_eq]
    rintro rfl
    exact absurd hbracket (by decide)
  rcases hstep.indices_eq with hindices | ⟨index, hindices, hindex⟩
  · rw [hindices, List.forall₂_nil_left_iff] at hgroups
    subst hgroups
    have htake := List.takeWhile_eq_self_iff.mpr hname
    have hdrop := List.dropWhile_eq_nil_iff.mpr hname
    simp only [List.flatten_nil, List.append_nil, segment, htake, hdrop, hindices,
      Step.nameChars_isEmpty hstep.isLegible, List.head?_nil]
  · rw [hindices] at hgroups
    obtain ⟨group, _, hgroup, hnil, rfl⟩ := List.forall₂_cons_left_iff.mp hgroups
    obtain rfl := List.forall₂_nil_left_iff.mp hnil
    obtain ⟨inside, rfl, hinside⟩ := hgroup.exists_segmentIndex hindex
    have htake : (step.nameChars ++ '[' :: inside).takeWhile (· ≠ '[') = step.nameChars := by
      rw [List.takeWhile_append_of_pos hname, List.takeWhile_cons_of_neg (by simp),
        List.append_nil]
    have hdrop : (step.nameChars ++ '[' :: inside).dropWhile (· ≠ '[') = '[' :: inside := by
      rw [List.dropWhile_append_of_pos hname, List.dropWhile_cons_of_neg (by simp)]
    simp only [List.flatten_singleton, segment, htake, hdrop, hinside, hindices,
      Step.nameChars_isEmpty hstep.isLegible, String.ofList_toList, List.head?_cons]

/-! ## One step -/

/-- What the attribute of a step holds; without one, the value itself. -/
def Step.attribute (step : Step) (v : Value) : Except Fault Value :=
  match step.name with
  | some name => v.access (.text name)
  | none => .ok v

/-- What a value holds at the indices of a step. -/
def Step.atIndices (step : Step) (v : Value) : Except Fault Value :=
  step.indices.foldlM (fun w index => w.access (.text index)) v

/-- What a value holds at a step, where a text that the attribute holds must be a document. -/
def Step.readStrictly (step : Step) (v : Value) : Except Fault Value :=
  (step.attribute v).bind fun u => u.decodeStrictly.bind step.atIndices

/-- What can be an index can be a name. -/
theorem IsSegmentIndex.isSegmentName (h : IsSegmentIndex cs) : IsSegmentName cs := by
  refine ⟨h.1, fun c hc => ?_⟩
  have hindex := h.2 c hc
  simp only [separatesIndices, Bool.or_eq_false_iff] at hindex
  exact ⟨hindex.1.1, by simpa using hindex.1.2⟩

/-- A plain path that is one name goes to one key. -/
theorem follow_name {name : String} (h : IsSegmentName name.toList) (v : Value) :
    v.follow (.text name) = v.access (.text name) := by
  have hopen : '[' ∉ name.toList := fun hmem => absurd (h.2 _ hmem).1 (by decide)
  have hdot : '.' ∉ name.toList := fun hmem => (h.2 _ hmem).2 rfl
  have hfields := keyFields_name_append h.1 hopen hdot endsKey_nil
  rw [List.append_nil] at hfields
  have hkeys : keys name.toList = [name] := by
    rw [keys_eq, hfields]
    exact congrArg (· :: []) String.ofList_toList
  show v.followKeys (keys name.toList) = _
  rw [hkeys, Value.followKeys, List.foldlM_cons]
  cases v.access (.text name) <;> rfl

/-- **A traversal reads a segment strictly.** -/
theorem Step.WrittenAs.traverseSegment_eq (h : step.WrittenAs cs) (hstep : step.IsSegment)
    (v : Value) : v.traverseSegment (.text (String.ofList cs)) = step.readStrictly v := by
  have hname (u : Value) : u.followOptional step.name = step.attribute u := by
    rw [Step.attribute]
    cases hname : step.name with
    | none => rfl
    | some name => exact follow_name (hstep.isName name hname) u
  have hindices (w : Value) : w.followOptional step.indices.head? = step.atIndices w := by
    rcases hstep.indices_eq with hindices | ⟨index, hindices, hindex⟩
    · rw [Step.atIndices, hindices]
      rfl
    · rw [Step.atIndices, hindices, List.head?_cons]
      show w.follow (.text index) = _
      rw [follow_name hindex.isSegmentName, List.foldlM_cons]
      cases w.access (.text index) <;> rfl
  show (v.followOptional (segment (String.ofList cs).toList).1).bind (fun u =>
    u.decodeStrictly.bind fun w => w.followOptional (segment (String.ofList cs).toList).2) = _
  rw [String.toList_ofList, h.segment_eq hstep, hname, Step.readStrictly]
  congr 1
  funext u
  congr 1
  funext w
  exact hindices w

/-- **The resolver reads a step leniently**: a text that is no document is kept. -/
theorem Step.readFrom_eq (step : Step) (v : Value) :
    step.readFrom v = (step.attribute v).bind fun u => step.atIndices (Json.decodeText u) := by
  rw [Step.readFrom, Step.attribute]
  cases hnull : v.isNull with
  | true =>
      -- Null holds null, so the steps from it need not be left out.
      obtain rfl := Value.isNull_iff.mp hnull
      have hindices : step.atIndices .null = .ok .null := by
        rw [atIndices]
        induction step.indices with
        | nil => rfl
        | cons index rest ih =>
            rw [List.foldlM_cons, access_null]
            exact ih
      rw [if_pos rfl]
      cases step.name with
      | none => exact hindices.symm
      | some name =>
          dsimp only
          rw [access_null]
          exact hindices.symm
  | false =>
      rw [if_neg (by simp)]
      cases step.name with
      | none => rfl
      | some name =>
          show ((v.access (.text name)).map Json.decodeText).bind step.atIndices =
            (v.access (.text name)).bind fun u => step.atIndices (Json.decodeText u)
          cases v.access (.text name) <;> rfl

/-- No text, or one that holds JSON. -/
def IsReadable (v : Value) : Prop := ∀ s, v = .text s → v.IsDocument

theorem decodeStrictly_of_isReadable {u : Value} (h : IsReadable u) :
    u.decodeStrictly = .ok (Json.decodeText u) := by
  unfold Value.decodeStrictly
  split
  · rename_i s
    obtain ⟨_, w, htext, hw⟩ := h s rfl
    cases htext
    rw [hw]
    exact congrArg Except.ok (Json.decodeText_of_ofText hw).symm
  · rename_i htext
    have hself : Json.decodeText u = u := by
      rw [Json.decodeText_eq_self_iff]
      rintro ⟨s, _, rfl, -⟩
      exact htext s rfl
    rw [hself]

/-- **A step is read strictly as it is leniently**, unless the attribute holds a text that is no
JSON. -/
theorem Step.readStrictly_eq_readFrom (h : ∀ u, step.attribute v = .ok u → IsReadable u) :
    step.readStrictly v = step.readFrom v := by
  rw [readStrictly, readFrom_eq]
  cases hattribute : step.attribute v with
  | error fault => rfl
  | ok u =>
      show u.decodeStrictly.bind step.atIndices = step.atIndices (Json.decodeText u)
      rw [decodeStrictly_of_isReadable (h u hattribute)]
      rfl

/-! ## A walk -/

/-- Reading steps leniently, one after another. -/
def readAll (steps : List Step) (v : Value) : Except Fault Value :=
  steps.foldlM (fun w step => step.readFrom w) v

/-- Reading steps strictly, one after another. -/
def readAllStrictly (steps : List Step) (v : Value) : Except Fault Value :=
  steps.foldlM (fun w step => step.readStrictly w) v

/-- Along the steps, and after those in `front`, the attribute of the next step holds a value. -/
def AttributeHolds (target : Value) (steps front : List Step) (u : Value) : Prop :=
  ∃ step back w, steps = front ++ step :: back ∧ readAll front target = .ok w ∧
    step.attribute w = .ok u

/-- The first text along the steps that an attribute holds and that is no JSON. -/
def FirstUnreadable (target : Value) (steps : List Step) (s : String) : Prop :=
  ∃ front, AttributeHolds target steps front (.text s) ∧ ¬ (Value.text s).IsDocument ∧
    ∀ front' u, front'.length < front.length → AttributeHolds target steps front' u → IsReadable u

section

variable {target u : Value} {steps front : List Step}

theorem AttributeHolds.cons {w : Value} (hread : step.readFrom target = .ok w)
    (h : AttributeHolds w steps front u) :
    AttributeHolds target (step :: steps) (step :: front) u := by
  obtain ⟨next, back, w', rfl, hfront, hattribute⟩ := h
  refine ⟨next, back, w', rfl, ?_, hattribute⟩
  rw [readAll, List.foldlM_cons, hread]
  exact hfront

theorem AttributeHolds.append (h : AttributeHolds target steps front u) (back : List Step) :
    front.length < steps.length ∧ AttributeHolds target (steps ++ back) front u := by
  obtain ⟨next, others, w, rfl, hfront, hattribute⟩ := h
  refine ⟨by simp, next, others ++ back, w, by simp, hfront, hattribute⟩

/-- **Steps are read strictly as they are leniently**, as long as what the attributes hold is
readable. One induction over the steps. -/
theorem readAllStrictly_eq_readAll
    (h : ∀ front u, AttributeHolds target steps front u → IsReadable u) :
    readAllStrictly steps target = readAll steps target := by
  induction steps generalizing target with
  | nil => rfl
  | cons step steps ih =>
      have hstep : step.readStrictly target = step.readFrom target :=
        Step.readStrictly_eq_readFrom fun u hu => h [] u ⟨step, steps, target, rfl, rfl, hu⟩
      rw [readAll, readAllStrictly, List.foldlM_cons, List.foldlM_cons, hstep]
      cases hread : step.readFrom target with
      | error fault => rfl
      | ok w => exact ih fun front u hu => h (step :: front) u (hu.cons hread)

/-- Of the texts that are no JSON one is the first. -/
theorem exists_firstUnreadable (h : AttributeHolds target steps front u) (hu : ¬ IsReadable u) :
    ∃ s, FirstUnreadable target steps s := by
  induction hn : front.length using Nat.strong_induction_on generalizing front u with
  | _ n ih =>
      by_cases hfirst : ∀ front' u', front'.length < n → AttributeHolds target steps front' u' →
          IsReadable u'
      · obtain ⟨s, hs⟩ := not_forall.mp hu
        obtain ⟨rfl, hdocument⟩ := Classical.not_imp.mp hs
        exact ⟨s, front, h, hdocument, by rwa [hn]⟩
      · push Not at hfirst
        obtain ⟨front', u', hlt, h', hu'⟩ := hfirst
        exact ih _ hlt h' hu' rfl

/-- The first text that is no JSON stops the steps. -/
theorem readAllStrictly_of_firstUnreadable {s : String} (h : FirstUnreadable target steps s) :
    ∃ fault, Json.ofText s = .error fault ∧ readAllStrictly steps target = .error fault := by
  obtain ⟨front, ⟨step, back, w, rfl, hfront, hattribute⟩, hdocument, hfirst⟩ := h
  cases hs : Json.ofText s with
  | ok v => exact absurd ⟨s, v, rfl, hs⟩ hdocument
  | error fault =>
      refine ⟨fault, rfl, ?_⟩
      have hbefore : front.foldlM (fun w step => step.readStrictly w) target = .ok w := by
        rw [← hfront]
        refine readAllStrictly_eq_readAll fun front' u hu => ?_
        obtain ⟨hlt, hu⟩ := hu.append (step :: back)
        exact hfirst front' u hlt hu
      have hstep : step.readStrictly w = .error fault := by
        rw [Step.readStrictly, hattribute]
        show (Json.ofText s).bind step.atIndices = _
        rw [hs]
        rfl
      rw [readAllStrictly, List.foldlM_append, hbefore]
      show (step :: back).foldlM (fun w step => step.readStrictly w) w = _
      rw [List.foldlM_cons, hstep]
      rfl

end

/-- Segments given as a list of texts. -/
def segmentList (texts : List (List Char)) : Value :=
  .list (texts.map fun text => .text (String.ofList text))

end Path

namespace Value

variable {target : Value} {steps : List Step} {texts : List (List Char)}

/-- A traversal reads its segments strictly, one after another. -/
theorem traverse_segmentList (htexts : List.Forall₂ Step.WrittenAs steps texts)
    (hsteps : ∀ step ∈ steps, step.IsSegment) (target : Value) :
    target.traverse (segmentList texts) = readAllStrictly steps target := by
  show (texts.map fun text => Value.text (String.ofList text)).foldlM traverseSegment target = _
  rw [List.foldlM_map]
  induction htexts generalizing target with
  | nil => rfl
  | cons htext _ ih =>
      rw [List.forall_mem_cons] at hsteps
      rw [readAllStrictly, List.foldlM_cons, List.foldlM_cons, htext.traverseSegment_eq hsteps.1]
      exact congrArg _ (funext fun w => ih hsteps.2 w)

/-- The resolver reads the segments leniently. -/
theorem resolve_segmentList (htexts : List.Forall₂ Step.WrittenAs steps texts)
    (hsteps : ∀ step ∈ steps, step.IsSegment) (hne : steps ≠ []) (target : Value) :
    (target.resolve (segmentList texts)).result = readAll steps target := by
  have hnonempty : ∀ text ∈ texts.map String.ofList, text ≠ "" := by
    clear hne
    induction htexts with
    | nil => exact List.forall_mem_nil _
    | cons htext _ ih =>
        rw [List.forall_mem_cons] at hsteps
        have htext := htext.ne_nil hsteps.1.isLegible hsteps.1.nonempty
        rw [List.map_cons, List.forall_mem_cons]
        exact ⟨by simpa using htext, ih hsteps.2⟩
  have htokens : tokens (segmentList texts) = texts.map String.ofList := by
    have hlist := tokens_list_map_text hnonempty
    rwa [List.map_map] at hlist
  have hsome : tokens (segmentList texts) ≠ [] := by
    rw [htokens]
    cases htexts with
    | nil => exact absurd rfl hne
    | cons _ _ => simp
  rw [resolve_eq_walk_tokens _ _ hsome, htokens]
  exact walk_eq_foldlM_of_isLegible htexts (fun step hstep => (hsteps step hstep).isLegible) target

/-- **A traversal is the strict twin of resolving.** It goes through segments as the resolver does
if every text that an attribute holds on the way is a document. Otherwise the first one that is none
stops it with the fault of decoding that text, which is malformed unless a number in it has too many
digits. In no other case does a traversal stop where the resolver does not. -/
theorem traverse_eq_resolve_or_stops (target : Value)
    (htexts : List.Forall₂ Step.WrittenAs steps texts) (hsteps : ∀ step ∈ steps, step.IsSegment)
    (hne : steps ≠ []) :
    ((∀ front u, AttributeHolds target steps front u → IsReadable u) →
      target.traverse (segmentList texts) = (target.resolve (segmentList texts)).result) ∧
    (∀ s, FirstUnreadable target steps s → ∃ fault, Json.ofText s = .error fault ∧
      target.traverse (segmentList texts) = .error fault ∧
      (¬ Json.HoldsOverlong s.toList → ∃ failure, fault = .json failure)) ∧
    ∀ fault, target.traverse (segmentList texts) = .error fault →
      (target.resolve (segmentList texts)).result = .error fault ∨
        ∃ s, FirstUnreadable target steps s ∧ Json.ofText s = .error fault := by
  rw [traverse_segmentList htexts hsteps, resolve_segmentList htexts hsteps hne]
  refine ⟨readAllStrictly_eq_readAll, fun s hs => ?_, fun fault hfault => ?_⟩
  · obtain ⟨fault, hdecode, hstops⟩ := readAllStrictly_of_firstUnreadable hs
    exact ⟨fault, hdecode, hstops, Json.exists_failure_of_ofText hdecode⟩
  · by_cases hall : ∀ front u, AttributeHolds target steps front u → IsReadable u
    · left
      rw [← readAllStrictly_eq_readAll hall, hfault]
    · right
      push Not at hall
      obtain ⟨front, u, hholds, hu⟩ := hall
      obtain ⟨s, hs⟩ := exists_firstUnreadable hholds hu
      obtain ⟨fault', hdecode, hstops⟩ := readAllStrictly_of_firstUnreadable hs
      obtain rfl : fault = fault' := Except.error.inj (hfault.symm.trans hstops)
      exact ⟨s, hs, hdecode⟩

/-- A message whose body is JSON and whose note is none. -/
def message : Value :=
  .dict [(.text "body", .text "\x7b\"items\": [7]\x7d"), (.text "note", .text "[1")]

theorem traverse_message :
    message.traverse (segmentList ["body['items']".toList, "0".toList]) =
        (message.resolve (segmentList ["body['items']".toList, "0".toList])).result ∧
      message.traverse (segmentList ["body['items']".toList, "0".toList]) = .ok (.int 7) ∧
      ∃ failure, message.traverse (segmentList ["note".toList]) = .error (.json failure) := by
  have hitems : Bracketed "items".toList "['items']".toList := .quoted rfl
  have hbody : Step.WrittenAs ⟨some "body", ["items"]⟩ "body['items']".toList :=
    ⟨["['items']".toList], .cons hitems .nil, rfl⟩
  have hzero : Step.WrittenAs ⟨some "0", []⟩ "0".toList := ⟨[], .nil, rfl⟩
  have hnote : Step.WrittenAs ⟨some "note", []⟩ "note".toList := ⟨[], .nil, rfl⟩
  have hsegments :
      ∀ step ∈ [(⟨some "body", ["items"]⟩ : Step), ⟨some "0", []⟩], step.IsSegment := by
    simp only [List.forall_mem_cons]
    exact ⟨by decide, by decide, List.forall_mem_nil _⟩
  have hsegment : ∀ step ∈ [(⟨some "note", []⟩ : Step)], step.IsSegment :=
    List.forall_mem_singleton.mpr (by decide)
  have hread : Json.ofText "\x7b\"items\": [7]\x7d" =
      .ok (.dict [(.text "items", .list [.int 7])]) := by cbv
  have hbad : Json.ofText "[1" = .error (.json ⟨.expectedComma, 1, 3, 2⟩) := by cbv
  have hreadable : ∀ front u, AttributeHolds message
      [⟨some "body", ["items"]⟩, ⟨some "0", []⟩] front u → IsReadable u := by
    rintro front u ⟨step, back, w, hsteps, hfront, hattribute⟩
    cases front with
    | nil =>
        obtain ⟨rfl, -⟩ := List.cons.inj hsteps
        obtain rfl := Except.ok.inj hfront
        obtain rfl := Except.ok.inj hattribute
        rintro s ⟨⟩
        exact ⟨_, _, rfl, hread⟩
    | cons first front =>
        obtain ⟨rfl, hbehind⟩ := List.cons.inj hsteps
        cases front with
        | nil =>
            obtain ⟨rfl, -⟩ := List.cons.inj hbehind
            have hitems : readAll [⟨some "body", ["items"]⟩] message = .ok (.list [.int 7]) := by
              cbv
            obtain rfl := Except.ok.inj (hitems.symm.trans hfront)
            obtain rfl := Except.ok.inj hattribute
            rintro s ⟨⟩
        | cons second front =>
            cases front <;> cases (List.cons.inj hbehind).2
  have hfirst : FirstUnreadable message [⟨some "note", []⟩] "[1" := by
    refine ⟨[], ⟨_, [], message, rfl, rfl, rfl⟩, ?_, fun _ _ hlt => absurd hlt (Nat.not_lt_zero _)⟩
    rintro ⟨_, v, hs, hv⟩
    cases hs
    cases hbad.symm.trans hv
  have hshort : ¬ Json.HoldsOverlong "[1".toList := by
    rintro ⟨digits, hdigits, -, hlong⟩
    exact absurd (hlong.trans_le hdigits.length_le) (by decide)
  obtain ⟨hagree, -⟩ := traverse_eq_resolve_or_stops message (.cons hbody (.cons hzero .nil))
    hsegments (by simp)
  obtain ⟨-, hstops, -⟩ := traverse_eq_resolve_or_stops message (.cons hnote .nil) hsegment
    (by simp)
  obtain ⟨fault, -, hfault, hmalformed⟩ := hstops "[1" hfirst
  obtain ⟨failure, rfl⟩ := hmalformed hshort
  exact ⟨hagree hreadable, by cbv, failure, hfault⟩

end Value

end LooseData
