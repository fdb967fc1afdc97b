import LooseData.Proofs.Tag.Registry
import LooseData.Proofs.Tag.Spine
import LooseData.Tag.Parser

set_option autoImplicit false

/-! # The value of a tagged text is a right fold over its tags

For a text `t₁:…:tₙ:p` let `v` be the payload `p` at first. The tags are gone through from the
last to the first: each replaces `v` by what its handler makes of it, or by the text that the tag
heads if it has no handler. What is left is the value of the text (`evaluate_eq_rightFold`).

The fold goes over the tags of the text alone. So a value that a handler returns reaches the next
handler as it is, even where it is a text with a tag.
-/

namespace LooseData

/-- The computation with some records in front of its own. -/
def Logged.preceded {α : Type} (records : List Record) (x : Logged α) : Logged α :=
  ⟨x.result, records ++ x.records⟩

namespace Tag

/-- The handler for a tag: the function that is registered for it. Null counts as no handler, and
to call anything else is a fault. -/
def Registry.handler? (r : Registry) (functions : Functions) (tag : String) : Option Handler :=
  match r.held tag with
  | none | some (.atom .null) => none
  | some (.atom (.function f)) => some (f.apply functions)
  | some _ => some fun _ => .fail .notCallable

namespace Parser

variable (p : Parser) (functions : Functions) (registry : Registry)

/-- What a tag makes of the value `inner` of its payload, where `source` is the text that the tag
heads. -/
def tagValue (tag source : String) (inner : Value) : Except Fault Value :=
  match registry.handler? functions tag with
  | some handler => (handler ⟨tag, inner, source, p.config, p.state⟩).result
  | none => .ok (.text source)

/-- Tags, each with the text that it heads in front of the payload. -/
def levels : (tags : List (List Char)) → (payload : List Char) → List (String × String)
  | [], _ => []
  | tag :: tags, payload =>
    (String.ofList tag, String.ofList (written (tag :: tags) payload)) :: levels tags payload

/-- The right fold of `tagValue` over the tags of a text, from its payload on. -/
def rightFold (tags : List (List Char)) (payload : List Char) : Except Fault Value :=
  (levels tags payload).foldr
    (fun level inner => inner.bind (p.tagValue functions registry level.1 level.2))
    (.ok (.text (String.ofList payload)))

variable {p functions registry}

theorem rightFold_cons (tag : List Char) (tags : List (List Char)) (payload : List Char) :
    p.rightFold functions registry (tag :: tags) payload =
      (p.rightFold functions registry tags payload).bind
        (p.tagValue functions registry (String.ofList tag)
          (String.ofList (written (tag :: tags) payload))) := rfl

/-- A fold that stops with a fault stops with that of the innermost tag that raises one: all tags
inside it have given a value. -/
theorem rightFold_eq_error_iff (tags : List (List Char)) (payload : List Char) (fault : Fault) :
    p.rightFold functions registry tags payload = .error fault ↔
      ∃ outer tag inner v, tags = outer ++ tag :: inner ∧
        p.rightFold functions registry inner payload = .ok v ∧
        p.tagValue functions registry (String.ofList tag)
          (String.ofList (written (tag :: inner) payload)) v = .error fault := by
  induction tags with
  | nil =>
      constructor
      · intro h
        cases h
      · rintro ⟨outer, tag, inner, v, htags, -⟩
        cases outer <;> cases htags
  | cons tag tags ih =>
      rw [rightFold_cons]
      cases hin : p.rightFold functions registry tags payload with
      | error fault' =>
          -- The handler of `tag` is not called: the fault is one from further inside.
          rw [hin] at ih
          constructor
          · intro h
            obtain ⟨outer, t, inner, v, rfl, hv⟩ := ih.mp h
            exact ⟨tag :: outer, t, inner, v, rfl, hv⟩
          · rintro ⟨outer, t, inner, v, htags, hv, hfault⟩
            cases outer with
            | nil =>
                obtain ⟨rfl, rfl⟩ := List.cons.inj htags
                rw [hin] at hv
                cases hv
            | cons o outer =>
                obtain ⟨rfl, rfl⟩ := List.cons.inj htags
                exact ih.mpr ⟨outer, t, inner, v, rfl, hv, hfault⟩
      | ok w =>
          -- All tags further inside have given values, so only `tag` can raise the fault.
          rw [hin] at ih
          constructor
          · intro h
            exact ⟨[], tag, tags, w, rfl, hin, h⟩
          · rintro ⟨outer, t, inner, v, htags, hv, hfault⟩
            cases outer with
            | nil =>
                obtain ⟨rfl, rfl⟩ := List.cons.inj htags
                obtain rfl : w = v := Except.ok.inj (hin.symm.trans hv)
                exact hfault
            | cons o outer =>
                obtain ⟨rfl, rfl⟩ := List.cons.inj htags
                have herror := ih.mpr ⟨outer, t, inner, v, rfl, hv, hfault⟩
                cases herror

/-- What a tag is dispatched to, apart from the log. -/
theorem result_dispatch (hr : registry.Coherent) (tag source : String) (inner : Value) :
    (p.dispatch functions registry tag source inner).result =
      p.tagValue functions registry tag source inner := by
  have hfind := Registry.find?_eq_held hr tag
  unfold dispatch tagValue Registry.handler?
  rw [Logged.result_bind]
  show (registry.find? (.text tag)).bind _ = _
  rw [hfind]
  -- The two sides match on what is held; nothing else of the registry matters from here on.
  generalize registry.held tag = held
  rcases held with _ | v
  · rfl
  · cases v with
    | atom a => cases a <;> rfl
    | node n => rfl

/-! ## Entering tags -/

/-- What is written into the log when a tag is entered. -/
def entry (tag : List Char) (tags : List (List Char)) (payload : List Char) : List Record :=
  let inner := String.ofList (written tags payload)
  ⟨.debug, "Resolved arg (" ++ String.ofList tag ++ ") => " ++ inner⟩ ::
    if tags.isEmpty then [] else [⟨.trace, "Payload \"" ++ inner ++ "\" is a nested parse target"⟩]

/-- A tag that is not too deep is entered, and its handler gets what is inside it. -/
theorem evaluateFrom_of_not_tooDeep {depth : Nat} (h : p.tooDeep depth = false) (tag : List Char)
    (tags : List (List Char)) (payload : List Char) :
    p.evaluateFrom functions registry depth (tag :: tags) payload =
      (p.evaluateFrom functions registry (depth + 1) tags payload >>=
        p.dispatch functions registry (String.ofList tag)
          (String.ofList (written (tag :: tags) payload))).preceded (entry tag tags payload) := by
  rw [evaluateFrom]
  simp only [h, Bool.false_eq_true, if_false]
  -- The log has one record more where another tag stands inside.
  cases tags <;> rfl

theorem tooDeep_of_unlimited (hd : p.maxDepth = none) (depth : Nat) : p.tooDeep depth = false := by
  rw [tooDeep, hd]
  rfl

/-! ## A whole text -/

/-- **How a text is evaluated.** A text without a tag stands for itself. One with a tag that is not
too deep is evaluated by its payload, one level deeper, and what comes out goes to what is held for
the tag. -/
theorem evaluateAt_eq (depth : Nat) (cs : List Char) :
    p.evaluateAt functions registry depth cs =
      match split? cs with
      | none => pure (.text (String.ofList cs))
      | some (tag, payload) =>
        if p.tooDeep depth then .fail (.tooDeep (String.ofList cs) (p.maxDepth.getD 0))
        else (do
          Logged.debug ("Resolved arg (" ++ String.ofList tag ++ ") => " ++ String.ofList payload)
          if isTagged payload then
            Logged.trace ("Payload \"" ++ String.ofList payload ++ "\" is a nested parse target")
          let value ← p.evaluateAt functions registry (depth + 1) payload
          p.dispatch functions registry (String.ofList tag) (String.ofList cs) value) := by
  unfold evaluateAt
  cases hsplit : split? cs with
  | none =>
      rw [spine_of_not_hasTag (split?_eq_none_iff.mp hsplit)]
      rfl
  | some part =>
      obtain ⟨tag, payload⟩ := part
      obtain ⟨-, rfl⟩ := split?_eq_some_iff.mp hsplit
      have hpayload := (splits_spine payload).written_eq
      -- The payload has a tag exactly if tags are left when the first one is taken off.
      have htagged : (!(spine payload).1.isEmpty) = isTagged payload := by
        rw [isTagged]
        cases hinner : split? payload with
        | none =>
            rw [spine_of_not_hasTag (split?_eq_none_iff.mp hinner)]
            rfl
        | some inner =>
            rw [spine_of_split hinner]
            rfl
      rw [spine_of_split hsplit]
      dsimp only
      rw [evaluateFrom, htagged, written, hpayload]

/-- One induction over the tags, from the outermost on: without a limit the depth at which the
first of them stands makes no difference. -/
theorem result_evaluateAt (hr : registry.Coherent) (hd : p.maxDepth = none) {cs payload : List Char}
    {tags : List (List Char)} (hs : Splits cs tags payload) (depth : Nat) :
    (p.evaluateAt functions registry depth cs).result =
      p.rightFold functions registry tags payload := by
  induction tags generalizing cs depth with
  | nil =>
      obtain ⟨hnone, rfl⟩ := hs.split?_eq_none
      rw [evaluateAt_eq, hnone]
      rfl
  | cons tag tags ih =>
      obtain ⟨hsplit, hrest⟩ := hs.split?_cons
      rw [evaluateAt_eq, hsplit, rightFold_cons, ← ih hrest (depth + 1), hs.written_eq]
      dsimp only
      rw [if_neg (by rw [tooDeep_of_unlimited hd]; exact Bool.false_ne_true)]
      -- The records that are logged before make no difference to the result.
      have hdispatch (inner : Value) :
          (p.dispatch functions registry (String.ofList tag) (String.ofList cs) inner).result =
            p.tagValue functions registry (String.ofList tag) (String.ofList cs) inner :=
        result_dispatch hr _ _ inner
      cases isTagged (written tags payload) <;>
        simp only [Bool.false_eq_true, if_true, if_false, Logged.result_bind, hdispatch] <;> rfl

theorem evaluate_of_splits (p : Parser) (functions : Functions) (registry : Registry) {s : String}
    {tags : List (List Char)} {payload : List Char} (hs : Splits s.toList tags payload) :
    p.evaluate functions registry (.text s) =
      p.evaluateFrom functions registry 0 tags payload := by
  show p.evaluateText functions registry s = _
  rw [evaluateText, evaluateAt, splits_iff_spine.mp hs]

/-- **A text has one reading, and its value is the right fold over its tags.** It splits in
exactly one way into tags and a payload without a tag. Without a limit on the depth its value is
the fold of what the handlers make of the values inside them, and the fault, if any, is that of
the innermost tag that raises one. -/
theorem evaluate_eq_rightFold (p : Parser) (hd : p.maxDepth = none) (functions : Functions)
    (registry : Registry) (hr : registry.Reachable) (s : String) :
    (∃! split : List (List Char) × List Char, Splits s.toList split.1 split.2) ∧
      ∀ tags payload, Splits s.toList tags payload →
        (p.evaluate functions registry (.text s)).result =
            p.rightFold functions registry tags payload ∧
          ∀ fault, (p.evaluate functions registry (.text s)).result = .error fault ↔
            ∃ outer tag inner v, tags = outer ++ tag :: inner ∧
              p.rightFold functions registry inner payload = .ok v ∧
              p.tagValue functions registry (String.ofList tag)
                (String.ofList (written (tag :: inner) payload)) v = .error fault := by
  refine ⟨⟨spine s.toList, splits_spine _, ?_⟩, ?_⟩
  · rintro ⟨tags, payload⟩ hsplits
    exact (splits_iff_spine.mp hsplits).symm
  · intro tags payload hsplits
    have hvalue : (p.evaluate functions registry (.text s)).result =
        p.rightFold functions registry tags payload := result_evaluateAt hr.coherent hd hsplits 0
    refine ⟨hvalue, fun fault => ?_⟩
    rw [hvalue]
    exact rightFold_eq_error_iff tags payload fault

/-- The library's registry with one more function, under the tag `Again`. -/
def withAgain : Registry :=
  ((Registry.Operation.register (.text "Again")
    (.atom (.function (.custom "again")))).perform.effect Registry.standard).2

/-- The function makes a text of its payload that has a tag itself; it is not read again. -/
theorem evaluate_again_eq_rightFold :
    ((⟨.dict [], .dict [], none⟩ : Parser).evaluate
        (fun _ context => pure (.text ("int:" ++ context.tag))) withAgain
        (.text "AGAIN:int:7")).result =
      (⟨.dict [], .dict [], none⟩ : Parser).rightFold
        (fun _ context => pure (.text ("int:" ++ context.tag))) withAgain
        ["AGAIN".toList, "int".toList] "7".toList ∧
    (⟨.dict [], .dict [], none⟩ : Parser).rightFold
        (fun _ context => pure (.text ("int:" ++ context.tag))) withAgain
        ["AGAIN".toList, "int".toList] "7".toList = .ok (.text "int:AGAIN") := by
  constructor
  · have hsplits : Splits "AGAIN:int:7".toList ["AGAIN".toList, "int".toList] "7".toList :=
      splits_iff_spine.mpr (by decide)
    exact ((evaluate_eq_rightFold ⟨.dict [], .dict [], none⟩ rfl _ withAgain
      (.step Registry.reachable_standard _) "AGAIN:int:7").2 _ _ hsplits).1
  · rfl

end Parser

end Tag

end LooseData
