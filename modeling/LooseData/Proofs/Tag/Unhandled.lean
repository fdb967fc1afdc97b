import LooseData.Proofs.Tag.Evaluation
import Mathlib

set_option autoImplicit false

/-! # Tags without a handler

A tag without a handler makes the text that it heads stand for itself. Its payload is evaluated all
the same, before the handler is looked for. So the text comes back as it is if the payload has a
value, which is then dropped; if evaluating the payload ends with a fault, so does evaluating the
text (`evaluate_unhandled`). Where no tag of a text has a handler nothing can go wrong, and the
text is its own value (`evaluate_of_forall_unhandled`).
-/

namespace LooseData.Tag.Parser

variable {p : Parser} {functions : Functions} {registry : Registry}

theorem tagValue_of_unhandled {tag : String} (h : registry.handler? functions tag = none)
    (source : String) (inner : Value) :
    p.tagValue functions registry tag source inner = .ok (.text source) := by
  rw [tagValue, h]

/-- The value of a text is the fold over the tags that are taken off it. -/
theorem result_evaluate (hd : p.maxDepth = none) (hr : registry.Reachable) (s : String) :
    (p.evaluate functions registry (.text s)).result =
      p.rightFold functions registry (spine s.toList).1 (spine s.toList).2 :=
  result_evaluateAt hr.coherent hd (splits_spine s.toList) 0

/-- One induction over the tags: the text that the outermost tag heads is what is left. -/
theorem rightFold_of_forall_unhandled {tags : List (List Char)}
    (h : ∀ tag ∈ tags, registry.handler? functions (String.ofList tag) = none)
    (payload : List Char) :
    p.rightFold functions registry tags payload =
      .ok (.text (String.ofList (written tags payload))) := by
  induction tags with
  | nil => rfl
  | cons tag tags ih =>
      rw [List.forall_mem_cons] at h
      rw [rightFold_cons, ih h.2]
      exact tagValue_of_unhandled h.1 _ _

/-- A text is its own value if none of its tags has a handler. -/
theorem evaluate_of_forall_unhandled (hd : p.maxDepth = none) (hr : registry.Reachable) {s : String}
    (h : ∀ tag ∈ (spine s.toList).1, registry.handler? functions (String.ofList tag) = none) :
    (p.evaluate functions registry (.text s)).result = .ok (.text s) := by
  rw [result_evaluate hd hr, rightFold_of_forall_unhandled h, (splits_spine s.toList).written_eq,
    String.ofList_toList]

/-- **A tag without a handler keeps the text, but not from the faults of its payload.** The text
comes back exactly if evaluating the payload gives a value. -/
theorem evaluate_unhandled (hd : p.maxDepth = none) (hr : registry.Reachable)
    {tag : List Char} (htag : IsTag tag)
    (hnone : registry.handler? functions (String.ofList tag) = none) (payload : List Char) :
    (p.evaluate functions registry (.text (String.ofList (tag ++ ':' :: payload)))).result =
      (p.evaluate functions registry (.text (String.ofList payload))).result.map
        fun _ => .text (String.ofList (tag ++ ':' :: payload)) := by
  have hspine : spine (tag ++ ':' :: payload) = (tag :: (spine payload).1, (spine payload).2) :=
    spine_of_split (split?_eq_some_iff.mpr ⟨htag, rfl⟩)
  have hwritten : written (tag :: (spine payload).1) (spine payload).2 = tag ++ ':' :: payload := by
    rw [written, (splits_spine payload).written_eq]
  rw [result_evaluate hd hr, result_evaluate hd hr, String.toList_ofList, String.toList_ofList,
    hspine, rightFold_cons, hwritten]
  -- Whatever value the payload has, the tag makes the text of it.
  cases p.rightFold functions registry (spine payload).1 (spine payload).2 with
  | error fault => rfl
  | ok v => exact tagValue_of_unhandled hnone _ v

/-- The payload is no JSON, and the tag around it does not help. -/
theorem evaluate_unknown_json :
    ((⟨.null, .dict [], none⟩ : Parser).evaluate (fun _ _ => .fail .notCallable) .standard
      (.text "unknown:json:[1")).result =
        .error (.json ⟨.expectedComma, 1, 3, 2⟩) := by
  have hunknown : IsTag "unknown".toList := by decide
  have hnone : Registry.standard.handler? (fun _ _ => .fail .notCallable)
      (String.ofList "unknown".toList) = none := rfl
  have hevaluate := evaluate_unhandled (p := ⟨.null, .dict [], none⟩) rfl
    Registry.reachable_standard hunknown hnone "json:[1".toList
  refine hevaluate.trans ?_
  cbv

/-- Without regard to the payload the text need not come back. -/
theorem exists_unhandled_fault :
    ¬ ∀ (p : Parser) (functions : Functions) (registry : Registry), p.maxDepth = none →
        registry.Reachable → ∀ tag payload : List Char, IsTag tag →
          registry.handler? functions (String.ofList tag) = none →
          (p.evaluate functions registry (.text (String.ofList (tag ++ ':' :: payload)))).result =
            .ok (.text (String.ofList (tag ++ ':' :: payload))) := by
  intro h
  have hunknown : IsTag "unknown".toList := by decide
  have hvalue := h ⟨.null, .dict [], none⟩ (fun _ _ => .fail .notCallable) .standard rfl
    Registry.reachable_standard "unknown".toList "json:\x7bbad".toList hunknown rfl
  have hfault : ((⟨.null, .dict [], none⟩ : Parser).evaluate (fun _ _ => .fail .notCallable)
      .standard (.text "unknown:json:\x7bbad")).result =
        .error (.json ⟨.expectedName, 1, 2, 1⟩) := by cbv
  cases hvalue.symm.trans hfault

end LooseData.Tag.Parser
