import LooseData.Proofs.Path.Notation
import LooseData.Proofs.Tag.Standard

set_option autoImplicit false

/-! # Documents that are looked up and then decoded

A lookup decodes a text that holds JSON. A decoding tag around the lookup gets what the text holds,
and passes on only mappings and lists as decoded already. So under such a tag a stored document that
holds a mapping or a list comes out as what it holds, one that holds a text is decoded once more,
and one that holds anything else is refused (`Tag.Parser.evaluate_stored_document`).
-/

namespace LooseData

open Tag

namespace Json

variable {s : String} {v : Value}

/-- **Decoding a payload that has been decoded**, by what it is. -/
theorem decodePayload_of_ofText (h : ofText s = .ok v) :
    (v.isCollection = true ∧ decodePayload v = .ok v) ∨
      (∃ t, v = .text t ∧ decodePayload v = ofText t) ∨
      (v.isCollection = false ∧ (∀ t, v ≠ .text t) ∧ decodePayload v = .error .notJsonText) := by
  cases isData_ofText h with
  | text t => exact .inr (.inl ⟨t, rfl, rfl⟩)
  | list _ => exact .inl ⟨rfl, rfl⟩
  | dict _ => exact .inl ⟨rfl, rfl⟩
  | _ =>
      refine .inr (.inr ⟨rfl, ?_, rfl⟩)
      rintro t ⟨⟩

/-- What a document holds is decoded already only if it is a mapping or a list: a text is never the
document of itself. -/
theorem decodePayload_eq_self_iff (h : ofText s = .ok v) :
    decodePayload v = .ok v ↔ v.isCollection = true := by
  rcases decodePayload_of_ofText h with ⟨hcollection, hpayload⟩ | ⟨t, rfl, hpayload⟩ |
    ⟨hcollection, -, hpayload⟩
  · exact ⟨fun _ => hcollection, fun _ => hpayload⟩
  · rw [hpayload]
    refine ⟨fun hself => absurd hself (ofText_ne_self t), ?_⟩
    rintro ⟨⟩
  · rw [hpayload, hcollection]
    constructor <;> rintro ⟨⟩

end Json

/-! ## Looking up a name -/

/-- The collection that a handler looks things up in. -/
def Tag.Parser.searchedBy? (p : Parser) : Builtin → Option Value
  | .config => some p.config
  | .state => some p.state
  | _ => none

/-- **A document under a name** is looked up as what it holds. -/
theorem Value.resolve_name {v w : Value} {name : List Char} {s : String} (hname : Path.IsName name)
    (hheld : v.access (.text (String.ofList name)) = .ok (.text s)) (hs : Json.ofText s = .ok w) :
    (v.resolve (.text (String.ofList name))).result = .ok w := by
  rw [Value.resolve_eq_follow, Path.moves_name hname]
  show (v.access (.text (String.ofList name))).bind (fun held => .ok (Json.decodeText held)) = .ok w
  rw [hheld]
  exact congrArg Except.ok (Json.decodeText_of_ofText hs)

namespace Tag.Parser

variable {p : Parser} {functions : Functions} {tag lookup name : List Char} {b b' : Builtin}
  {collection v : Value} {s : String}

/-- What a handler that looks things up makes of the name of a document. -/
theorem result_apply_name (hb : p.searchedBy? b = some collection) (hname : Path.IsName name)
    (hheld : collection.access (.text (String.ofList name)) = .ok (.text s))
    (hs : Json.ofText s = .ok v) (tag source : String) :
    (b.apply ⟨tag, .text (String.ofList name), source, p.config, p.state⟩).result = .ok v := by
  cases b with
  | config =>
      obtain rfl := Option.some.inj hb
      exact Value.resolve_name hname hheld hs
  | state =>
      obtain rfl := Option.some.inj hb
      have hnull : p.state.isNull = false := by
        rw [Bool.eq_false_iff]
        intro hnull
        -- Null holds nothing, so no document either.
        rw [Value.isNull_iff.mp hnull] at hheld
        cases (Path.access_null _).symm.trans hheld
      rw [Builtin.result_apply_state, if_neg (by simp [hnull])]
      exact Value.resolve_name hname hheld hs
  | _ => cases hb

/-- What a text of two tags and a name evaluates to, with the handlers of the library. -/
def around (p : Parser) (functions : Functions) (tag lookup name : List Char) :
    Except Fault Value :=
  (p.evaluate functions .standard (.text (String.ofList (written [tag, lookup] name)))).result

section

-- A decoding tag stands around a lookup of a name, under which there is a document.
variable (hd : p.maxDepth = none) (htag : IsTag tag) (hlookup : IsTag lookup)
  (hb : Registry.builtin? (String.ofList tag) = some b) (hdecodes : b.decodes = true)
  (hb' : Registry.builtin? (String.ofList lookup) = some b')
  (hsearched : p.searchedBy? b' = some collection) (hname : Path.IsName name)
  (huntagged : ¬ HasTag name)
  (hheld : collection.access (.text (String.ofList name)) = .ok (.text s))
  (hs : Json.ofText s = .ok v)

include hd htag hlookup hb hdecodes hb' hsearched hname huntagged hheld hs

/-- The outer tag gets what the document holds, and decodes that. -/
theorem around_eq_decodePayload :
    p.around functions tag lookup name = decodePayload v := by
  have hsplits : Splits (written [tag, lookup] name) [tag, lookup] name := by
    refine ⟨rfl, ?_, huntagged⟩
    simp [htag, hlookup]
  have hinner : p.rightFold functions .standard [lookup] name = .ok v := by
    show p.tagValue functions .standard (String.ofList lookup) _ _ = .ok v
    rw [tagValue_standard, hb']
    exact result_apply_name hsearched hname hheld hs _ _
  rw [around, result_evaluate hd Registry.reachable_standard, String.toList_ofList,
    splits_iff_spine.mp hsplits, rightFold_cons, hinner]
  show p.tagValue functions .standard (String.ofList tag) _ v = _
  rw [tagValue_standard, hb]
  cases b with
  | array => rfl
  | json => rfl
  | _ => cases hdecodes

/-- **What a decoding tag makes of a document that is looked up.** It gives what the document holds
exactly if that is a mapping or a list. A text that it holds is decoded as a document of its own,
and that never gives the text back; a number, a truth value and null are refused. -/
theorem evaluate_stored_document (functions : Functions) :
    (p.around functions tag lookup name = .ok v ↔ v.isCollection = true) ∧
      ((v.isCollection = true ∧ p.around functions tag lookup name = .ok v) ∨
        (∃ t, v = .text t ∧ p.around functions tag lookup name = Json.ofText t) ∨
        (v.isCollection = false ∧ (∀ t, v ≠ .text t) ∧
          p.around functions tag lookup name = .error .notJsonText)) := by
  rw [around_eq_decodePayload hd htag hlookup hb hdecodes hb' hsearched hname huntagged hheld hs]
  exact ⟨Json.decodePayload_eq_self_iff hs, Json.decodePayload_of_ofText hs⟩

end

/-- A document that holds a text, which is a document again. -/
def storedTwice : Value := .dict [(.text "k", .text "\"[1]\"")]

theorem access_storedTwice :
    storedTwice.access (.text (String.ofList "k".toList)) = .ok (.text "\"[1]\"") := by
  cbv

theorem ofText_storedTwice : Json.ofText "\"[1]\"" = .ok (.text "[1]") := by cbv

/-- The array in the inner document comes out, and not the text that the outer one holds. -/
theorem evaluate_stored_twice :
    (⟨.null, storedTwice, none⟩ : Parser).around (fun _ _ => .fail .notCallable) "json".toList
        "config".toList "k".toList = Json.ofText "[1]" := by
  have htag : IsTag "json".toList := by decide
  have hlookup : IsTag "config".toList := by decide
  have hb : Registry.builtin? (String.ofList "json".toList) = some .json := rfl
  have hb' : Registry.builtin? (String.ofList "config".toList) = some .config := rfl
  have hname : Path.IsName "k".toList := by decide
  have huntagged : ¬ HasTag "k".toList := by
    rw [← isTagged_iff]
    decide
  have hall := evaluate_stored_document (p := ⟨.null, storedTwice, none⟩) rfl htag hlookup hb rfl
    hb' rfl hname huntagged access_storedTwice ofText_storedTwice (fun _ _ => .fail .notCallable)
  obtain ⟨-, ⟨hcollection, -⟩ | ⟨t, ht, hresult⟩ | ⟨-, htext, -⟩⟩ := hall
  · cases hcollection
  · cases ht
    exact hresult
  · exact absurd rfl (htext "[1]")

theorem around_five :
    (⟨.null, .dict [(.text "k", .text "5")], none⟩ : Parser).around (fun _ _ => .fail .notCallable)
      "json".toList "config".toList "k".toList = .error .notJsonText := by
  cbv

/-- What a stored document holds need not come out. -/
theorem exists_around_refused :
    ¬ ∀ (s : String) (v : Value), Json.ofText s = .ok v →
        (⟨.null, .dict [(.text "k", .text s)], none⟩ : Parser).around
          (fun _ _ => .fail .notCallable) "json".toList "config".toList "k".toList = .ok v := by
  intro h
  have hfive : Json.ofText "5" = .ok (.int 5) := by cbv
  cases around_five.symm.trans (h "5" _ hfive)

end Tag.Parser

end LooseData
