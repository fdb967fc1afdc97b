import LooseData.Proofs.Tag.StoredDocument

set_option autoImplicit false

/-! # Looking up what a lookup has not found

A lookup that finds nothing gives null. When another lookup stands around it, that null is its path:
a path without tokens, as the empty path is, and such a path leads nowhere but to the collection
itself. So a name that is missing in one collection comes out as the whole of the other one
(`Tag.Parser.around_of_missing`), decoded if it is a text that holds JSON. Without a state the outer
lookup does not look at its path at all, and its text stands for itself.
-/

namespace LooseData.Tag.Parser

variable {p : Parser} {b b' : Builtin} {collection searched : Value}

/-- A handler that looks paths up, unless it is asked for a state that is not there. -/
theorem result_apply_of_searchedBy? (hb : p.searchedBy? b = some collection)
    (hpresent : b = .state → collection.isNull = false) (tag source : String) (path : Value) :
    (b.apply ⟨tag, path, source, p.config, p.state⟩).result = (collection.resolve path).result := by
  cases b with
  | config =>
      obtain rfl := Option.some.inj hb
      rfl
  | state =>
      obtain rfl := Option.some.inj hb
      have hnull : ¬ p.state.isNull = true := Bool.eq_false_iff.mp (hpresent rfl)
      rw [Builtin.result_apply_state, if_neg hnull]
  | _ => cases hb

section

variable {tag lookup path : List Char}

-- A lookup stands around the lookup of a path that leads to nothing.
variable (hd : p.maxDepth = none) (htag : IsTag tag) (hlookup : IsTag lookup)
  (hb : Registry.builtin? (String.ofList tag) = some b)
  (hb' : Registry.builtin? (String.ofList lookup) = some b')
  (hsearched : p.searchedBy? b = some collection) (hsearched' : p.searchedBy? b' = some searched)
  (hpresent' : b' = .state → searched.isNull = false) (huntagged : ¬ HasTag path)
  (hmissing : (searched.resolve (.text (String.ofList path))).result = .ok .null)

include hd htag hlookup hb hb' hsearched' hpresent' huntagged hmissing

/-- The outer handler is given null for a path. -/
theorem around_eq_apply_null (functions : Functions) :
    p.around functions tag lookup path =
      (b.apply ⟨String.ofList tag, .null, String.ofList (written [tag, lookup] path), p.config,
        p.state⟩).result := by
  have hsplits : Splits (written [tag, lookup] path) [tag, lookup] path := by
    refine ⟨rfl, ?_, huntagged⟩
    simp [htag, hlookup]
  have hinner : p.rightFold functions .standard [lookup] path = .ok .null := by
    show p.tagValue functions .standard (String.ofList lookup) _ _ = .ok .null
    rw [tagValue_standard, hb']
    exact (result_apply_of_searchedBy? hsearched' hpresent' _ _ _).trans hmissing
  rw [around, result_evaluate hd Registry.reachable_standard, String.toList_ofList,
    splits_iff_spine.mp hsplits, rightFold_cons, hinner]
  show p.tagValue functions .standard (String.ofList tag) _ .null = _
  rw [tagValue_standard, hb]

include hsearched

/-- Unless there is no state to look in, the collection comes out. -/
theorem around_eq_decodeText (functions : Functions)
    (hpresent : b = .state → collection.isNull = false) :
    p.around functions tag lookup path = .ok (Json.decodeText collection) := by
  rw [around_eq_apply_null hd htag hlookup hb hb' hsearched' hpresent' huntagged hmissing,
    result_apply_of_searchedBy? hsearched hpresent]
  exact Value.resolve_of_tokens_eq_nil rfl

/-- **Looking up what a lookup has not found** gives the whole collection that the outer tag looks
in: a mapping or a list as it is, a text that holds JSON as what it holds. So null comes out only if
null is what the collection holds as a whole. Where a state is asked for that is not there, the text
comes out as it was written. -/
theorem around_of_missing (functions : Functions) :
    ((b = .state → collection.isNull = false) →
        p.around functions tag lookup path = .ok (Json.decodeText collection) ∧
        (p.around functions tag lookup path = .ok .null ↔ Json.decodeText collection = .null) ∧
        (collection.isCollection = true → p.around functions tag lookup path = .ok collection)) ∧
      (b = .state → collection.isNull = true →
        p.around functions tag lookup path =
          .ok (.text (String.ofList (written [tag, lookup] path)))) := by
  constructor
  · intro hpresent
    have hall := around_eq_decodeText hd htag hlookup hb hb' hsearched hsearched' hpresent'
      huntagged hmissing functions hpresent
    refine ⟨hall, ?_, fun hcollection => ?_⟩
    · rw [hall]
      exact ⟨Except.ok.inj, congrArg Except.ok⟩
    · rw [hall, Json.decodeText_of_isCollection hcollection]
  · rintro rfl hnull
    obtain rfl := Option.some.inj hsearched
    rw [around_eq_apply_null hd htag hlookup hb hb' hsearched' hpresent' huntagged hmissing,
      Builtin.result_apply_state, if_pos hnull]

end

/-- A configuration with one name in it. -/
def oneName : Value := .dict [(.text "a", .int 1)]

theorem resolve_oneName :
    (oneName.resolve (.text (String.ofList "b".toList))).result = .ok .null := by
  have hname : Path.IsName "b".toList := by decide
  have hheld : oneName.access (.text (String.ofList "b".toList)) = .ok .null := by cbv
  rw [Value.resolve_eq_follow, Path.moves_name hname]
  show (oneName.access (.text (String.ofList "b".toList))).bind
    (fun held => .ok (Json.decodeText held)) = .ok .null
  rw [hheld]
  rfl

theorem not_hasTag_b : ¬ HasTag "b".toList := by
  rw [← isTagged_iff]
  decide

/-- The whole configuration comes out for a name that it does not hold. -/
theorem around_oneName :
    (⟨.null, oneName, none⟩ : Parser).around (fun _ _ => .fail .notCallable) "config".toList
      "config".toList "b".toList = .ok oneName := by
  have htag : IsTag "config".toList := by decide
  have hb : Registry.builtin? (String.ofList "config".toList) = some .config := rfl
  have hall := around_of_missing (p := ⟨.null, oneName, none⟩) rfl htag htag hb hb rfl rfl nofun
    not_hasTag_b resolve_oneName (fun _ _ => .fail .notCallable)
  obtain ⟨-, -, hcollection⟩ := hall.1 nofun
  exact hcollection rfl

/-- A lookup through a missing name is not always missing. -/
theorem exists_around_missing_ne_null :
    ¬ ∀ (config state : Value) (path : List Char), ¬ HasTag path →
        (config.resolve (.text (String.ofList path))).result = .ok .null →
        ∀ tag ∈ ["config".toList, "state".toList],
          (⟨state, config, none⟩ : Parser).around (fun _ _ => .fail .notCallable) tag
            "config".toList path = .ok .null := by
  intro h
  have hnull := h oneName .null "b".toList not_hasTag_b resolve_oneName
    "config".toList List.mem_cons_self
  have htag : IsTag "config".toList := by decide
  have hb : Registry.builtin? (String.ofList "config".toList) = some .config := rfl
  have hall := around_eq_decodeText (p := ⟨.null, oneName, none⟩) rfl htag htag hb hb rfl rfl nofun
    not_hasTag_b resolve_oneName (fun _ _ => .fail .notCallable) nofun
  have hwhole : Json.decodeText oneName = oneName := Json.decodeText_of_isCollection rfl
  cases (hall.symm.trans hnull).symm.trans (congrArg Except.ok hwhole)

end LooseData.Tag.Parser
