import LooseData.Proofs.Json.Ahead
import LooseData.Proofs.Tag.Standard
import LooseData.Proofs.Text.Lowercase

set_option autoImplicit false

/-! # A document is never read as a tagged text

A JSON document may start with a word and hold colons, and so may a tagged text. But a word at the
start of a document is a name or a number, which takes up the whole of it, so no colon follows
(`Json.not_hasTag_of_ofText`). So a decoding tag in front of a text that is not tagged decodes that
text, in whatever letter case the tag is written (`Tag.Parser.evaluate_decodingTag`).
-/

namespace LooseData

open Tag

/-! ## Documents -/

namespace Json

variable {cs ahead : List Char} {c : Char} {v : Value}

/-- A value that starts with a word is a name or a number. -/
theorem readValue_of_isAsciiWord (hc : Text.isAsciiWord c = true) {depth : Nat}
    (h : readValue .strict depth (c :: cs) = .ok (v, ahead)) :
    readScalar .strict (c :: cs) = .ok (v, ahead) := by
  cases depth with
  | zero => cases h
  | succ depth =>
      unfold readValue at h
      split at h
      · rename_i heq
        obtain ⟨rfl, -⟩ := List.cons.inj heq
        exact absurd hc (by decide)
      · rename_i heq
        obtain ⟨rfl, -⟩ := List.cons.inj heq
        exact absurd hc (by decide)
      · rename_i heq
        obtain ⟨rfl, -⟩ := List.cons.inj heq
        exact absurd hc (by decide)
      · exact h

theorem isBlank_of_isAsciiWord (hc : Text.isAsciiWord c = true) : isBlank c = false := by
  rw [Bool.eq_false_iff]
  intro hblank
  simp only [isBlank, Bool.or_eq_true, beq_iff_eq] at hblank
  rcases hblank with ((rfl | rfl) | rfl) | rfl <;> exact absurd hc (by decide)

/-- **A document is not tagged.** The colon behind a tag would still be ahead where the value ends,
and only blanks are. -/
theorem not_hasTag_of_ofText {s : String} (h : ofText s = .ok v) : ¬ HasTag s.toList := by
  rintro ⟨tag, payload, htag, hs⟩
  obtain ⟨ahead, hvalue, hblanks⟩ := exists_ahead_of_ofTextIn h
  obtain ⟨c, tag, rfl⟩ := List.exists_cons_of_ne_nil htag.1
  have hc : Text.isAsciiWord c = true := htag.2 c List.mem_cons_self
  have hstart : skipBlanks s.toList = s.toList := by
    rw [hs]
    exact List.dropWhile_cons_of_neg (by simp [isBlank_of_isAsciiWord hc])
  rw [hstart, hs, List.cons_append] at hvalue
  have hpasses := passesTo_of_readScalar (readValue_of_isAsciiWord hc hvalue)
  have hcolon : ':' ∈ ahead := hpasses.mem (by simp)
  exact absurd (List.dropWhile_eq_nil_iff.mp hblanks ':' hcolon) (by decide)

end Json

/-! ## Decoding tags -/

theorem Builtin.result_apply_of_decodes {b : Builtin} (hb : b.decodes = true) (context : Context) :
    (b.apply context).result = decodePayload context.payload := by
  cases b with
  | array => rfl
  | json => rfl
  | _ => cases hb

namespace Tag

/-- The tags of the library under which a payload is decoded, in lower case. -/
def decodingTags : List String := ["json", "object", "arr", "array", "list"]

/-- The tag is the given one up to the letter case of its characters. -/
def IsCaseOf (tag name : String) : Prop := tag.toList.map Char.toLower = name.toList

variable {tag name : String}

/-- A tag and the same tag in another letter case consist of ASCII characters. -/
theorem IsCaseOf.ascii (h : IsCaseOf tag name) (hname : IsTag name.toList) :
    ∀ c ∈ tag.toList, c.toLower ∈ name.toList ∧ c.toNat < 128 := by
  intro c hc
  have hlower : c.toLower ∈ name.toList := by
    rw [← h]
    exact List.mem_map_of_mem hc
  exact ⟨hlower, Text.ascii_of_toLower (Text.ascii_of_isAsciiWord (hname.2 _ hlower))⟩

theorem IsCaseOf.isTag (h : IsCaseOf tag name) (hname : IsTag name.toList) :
    IsTag tag.toList := by
  constructor
  · intro hempty
    rw [IsCaseOf, hempty] at h
    exact hname.1 h.symm
  · intro c hc
    obtain ⟨hlower, hascii⟩ := h.ascii hname c hc
    rw [← Text.isAsciiWord_toLower hascii]
    exact hname.2 _ hlower

/-- Letter case makes no difference to the handler. -/
theorem Registry.builtin?_of_isCaseOf (h : IsCaseOf tag name) (hname : IsTag name.toList)
    (hlower : Text.lower name = name) : builtin? tag = builtin? name := by
  have htag : Text.lower tag = name := by
    rw [Text.lower_of_ascii fun c hc => (h.ascii hname c hc).2, h, String.ofList_toList]
  rw [builtin?, builtin?, Label.fold, Label.fold, htag, hlower]

theorem decodingTags_spec : ∀ name ∈ decodingTags, IsTag name.toList ∧ Text.lower name = name ∧
    ∃ b, Registry.builtin? name = some b ∧ b.decodes = true := by
  simp only [decodingTags, List.forall_mem_cons]
  exact ⟨⟨by decide, by decide, .json, rfl, rfl⟩, ⟨by decide, by decide, .json, rfl, rfl⟩,
    ⟨by decide, by decide, .array, rfl, rfl⟩, ⟨by decide, by decide, .array, rfl, rfl⟩,
    ⟨by decide, by decide, .array, rfl, rfl⟩, nofun⟩

namespace Parser

variable {p : Parser} {s : String}

/-- **A decoding tag decodes a text that is not tagged**, and the fault of decoding is its fault. -/
theorem evaluate_decodingTag (hp : ∀ limit ∈ p.maxDepth, 0 ≤ limit) (functions : Functions)
    (hname : name ∈ decodingTags) (htag : IsCaseOf tag name) (hs : ¬ HasTag s.toList) :
    (p.evaluate functions .standard (.text (tag ++ ":" ++ s))).result = Json.ofText s := by
  obtain ⟨hisTag, hlower, b, hb, hdecodes⟩ := decodingTags_spec name hname
  have hsplits : Splits (tag ++ ":" ++ s).toList [tag.toList] s.toList := by
    refine ⟨by simp [written], ?_, hs⟩
    exact List.forall_mem_singleton.mpr (htag.isTag hisTag)
  have hshallow : p.tooDeep 0 = false := by
    unfold tooDeep
    cases hlimit : p.maxDepth with
    | none => rfl
    | some limit => simpa using hp limit hlimit
  have hpayload : (p.evaluateFrom functions .standard 1 [] s.toList).result = .ok (.text s) := by
    rw [evaluateFrom, String.ofList_toList]
    rfl
  have hdispatch (source : String) :
      (p.dispatch functions .standard tag source (.text s)).result = Json.ofText s := by
    rw [result_dispatch Registry.reachable_standard.coherent, tagValue_standard,
      Registry.builtin?_of_isCaseOf htag hisTag hlower, hb]
    exact Builtin.result_apply_of_decodes hdecodes _
  rw [evaluate_of_splits p functions _ hsplits, evaluateFrom_of_not_tooDeep hshallow,
    String.ofList_toList, Logged.preceded, Logged.result_bind, hpayload]
  exact hdispatch _

/-- **Tags and documents.** A text that is a document is not tagged, so with a decoding tag in front
of it, in any letter case, it evaluates to what it holds. A text that is neither tagged nor a
document is refused with the fault of decoding it: it is malformed, unless a number in it has too
many digits. -/
theorem isTagged_and_evaluate_decodingTag (hp : ∀ limit ∈ p.maxDepth, 0 ≤ limit)
    (functions : Functions) (s : String) :
    (∀ v, Json.ofText s = .ok v → (Value.text s).isTagged = false) ∧
      ∀ name ∈ decodingTags, ∀ tag, IsCaseOf tag name →
        (∀ v, Json.ofText s = .ok v →
          (p.evaluate functions .standard (.text (tag ++ ":" ++ s))).result = .ok v) ∧
        ((Value.text s).isTagged = false → (∀ v, Json.ofText s ≠ .ok v) →
          ∃ fault, Json.ofText s = .error fault ∧
            (p.evaluate functions .standard (.text (tag ++ ":" ++ s))).result = .error fault ∧
            (¬ Json.HoldsOverlong s.toList → ∃ failure, fault = .json failure)) := by
  have huntagged : (Value.text s).isTagged = false ↔ ¬ HasTag s.toList := by
    rw [← isTagged_iff, Bool.not_eq_true]
    rfl
  refine ⟨fun v hv => huntagged.mpr (Json.not_hasTag_of_ofText hv), ?_⟩
  intro name hname tag htag
  constructor
  · intro v hv
    rw [evaluate_decodingTag hp functions hname htag (Json.not_hasTag_of_ofText hv), hv]
  · intro hs hrefused
    rw [evaluate_decodingTag hp functions hname htag (huntagged.mp hs)]
    cases hread : Json.ofText s with
    | ok v => exact absurd hread (hrefused v)
    | error fault => exact ⟨fault, rfl, rfl, Json.exists_failure_of_ofText hread⟩

/-- An object with a colon in a name, and the start of an array. -/
theorem isTagged_and_evaluate_capitals :
    (Value.text "\x7b\"a:b\": [1, null]\x7d").isTagged = false ∧
      ((⟨.null, .dict [], some 0⟩ : Parser).evaluate (fun _ _ => .fail .notCallable) .standard
        (.text ("JSON" ++ ":" ++ "\x7b\"a:b\": [1, null]\x7d"))).result =
          .ok (.dict [(.text "a:b", .list [.int 1, .null])]) ∧
      ∃ failure, ((⟨.null, .dict [], some 0⟩ : Parser).evaluate (fun _ _ => .fail .notCallable)
        .standard (.text ("Array" ++ ":" ++ "[12"))).result = .error (.json failure) := by
  have hp : ∀ limit ∈ (⟨.null, .dict [], some 0⟩ : Parser).maxDepth, 0 ≤ limit := by simp
  have hobject : Json.ofText "\x7b\"a:b\": [1, null]\x7d" =
      .ok (.dict [(.text "a:b", .list [.int 1, .null])]) := by cbv
  have harray : Json.ofText "[12" = .error (.json ⟨.expectedComma, 1, 4, 3⟩) := by cbv
  have hshort : ¬ Json.HoldsOverlong "[12".toList := by
    rintro ⟨digits, hdigits, -, hlong⟩
    exact absurd (hlong.trans_le hdigits.length_le) (by decide)
  have hrefused : ∀ v, Json.ofText "[12" ≠ .ok v := by
    intro v hv
    cases harray.symm.trans hv
  obtain ⟨huntagged, hdecode⟩ := isTagged_and_evaluate_decodingTag hp
    (fun _ _ => .fail .notCallable) "\x7b\"a:b\": [1, null]\x7d"
  obtain ⟨-, hrefuse⟩ := isTagged_and_evaluate_decodingTag hp (fun _ _ => .fail .notCallable) "[12"
  obtain ⟨fault, -, hfault, hmalformed⟩ :=
    (hrefuse "array" (by decide) "Array" rfl).2 (by decide) hrefused
  obtain ⟨failure, rfl⟩ := hmalformed hshort
  exact ⟨huntagged _ hobject, (hdecode "json" (by decide) "JSON" rfl).1 _ hobject, failure, hfault⟩

end Parser

end Tag

end LooseData
