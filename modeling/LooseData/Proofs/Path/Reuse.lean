import LooseData.Proofs.Path.Composition

set_option autoImplicit false

/-! # Using a resolver again

A resolver that is used for one path after another is pointed at each of them anew, and nothing of
an earlier path is left. So looking a path up with a resolver that has been used gives what looking
it up gives, in its log too.

Reading the result moves the resolver: it stays at the last token that was read, whether none was
left after it, it came to null, or it failed. Reading the result there reads that token again, from
the same target. So reading makes no difference to what is read later (`effect_result_again`).
-/

namespace LooseData

open Edit
open LooseData.Path

namespace Resolver

/-- A call of a resolver. -/
inductive Call where
  /-- Point the resolver at a target and a path. -/
  | reset (target path : Value)
  /-- Read the result. -/
  | result
  /-- Follow an index expression from some target. -/
  | resolveIndex (target index : Value)
  /-- Look up a path in a target. -/
  | resolve (target path : Value)

/-- What a call does. -/
def Call.perform : Call → Edit Resolver Value
  | .reset target path => do
    .become (ofPath target path)
    pure .null
  | .result => Resolver.result
  | .resolveIndex target index => do
    let expression ← indexOf? index
    applyIndex target expression
  | .resolve target path => resolveFrom target path

/-- The resolver after calls, whether they ended with a value or with a fault. -/
def afterCalls (r : Resolver) (calls : List Call) : Resolver :=
  calls.foldl (fun r call => (call.perform.effect r).2) r

theorem afterCalls_cons (r : Resolver) (call : Call) (calls : List Call) :
    afterCalls r (call :: calls) = afterCalls (call.perform.effect r).2 calls := rfl

/-- A call that points the resolver at another path. -/
def Call.Repoints : Call → Prop
  | .reset .. | .resolve .. => True
  | .result | .resolveIndex .. => False

/-! ## Reading the result -/

theorem effect_result (r : Resolver) : Resolver.result.effect r = (readOn r.rest).effect r := by
  unfold Resolver.result
  exact effect_bind_ok (effect_get r) _

/-- The resolver moves on where it has read a value other than null; where it stops, it stays. -/
theorem effect_readOn_cons (token : String) (rest : List String) (r : Resolver) :
    (readOn (token :: rest)).effect r = match r.propertyAtIndex with
      | .error fault => (.error fault, r)
      | .ok v => if v.isNull then (.ok v, r) else (readOn rest).effect (aim v (token :: rest)) := by
  rw [readOn, effect_bind, effect_readToken]
  cases r.propertyAtIndex with
  | error fault => rfl
  | ok v =>
      by_cases hnull : v.isNull = true
      · simp [hnull]
      · simp [hnull]

/-- One induction over the tokens that are left: the resolver has moved on, or it has stayed and
reads the same token again. -/
theorem effect_result_after_readOn (rest : List String) (r : Resolver) (hrest : r.rest = rest) :
    Resolver.result.effect ((readOn rest).effect r).2 = (readOn rest).effect r := by
  induction rest generalizing r with
  | nil =>
      have hstays : (readOn []).effect r = (r.propertyAtIndex, r) := effect_readToken r
      rw [hstays, effect_result, hrest, hstays]
  | cons token rest ih =>
      have hagain : Resolver.result.effect r = (readOn (token :: rest)).effect r := by
        rw [effect_result, hrest]
      rw [effect_readOn_cons] at hagain ⊢
      cases hread : r.propertyAtIndex with
      | error fault => simpa only [hread] using hagain
      | ok v =>
          simp only [hread] at hagain ⊢
          by_cases hnull : v.isNull = true
          · simpa only [hnull, if_true] using hagain
          · simp only [hnull]
            exact ih (aim v (token :: rest)) rfl

/-- **Reading the result again** gives the same, and leaves the resolver in the same place. -/
theorem effect_result_again (r : Resolver) :
    Resolver.result.effect (Resolver.result.effect r).2 = Resolver.result.effect r := by
  rw [effect_result r]
  exact effect_result_after_readOn r.rest r rfl

/-- Following an index expression leaves the resolver alone. -/
theorem effect_perform_resolveIndex (target index : Value) (r : Resolver) :
    ((Call.resolveIndex target index).perform.effect r).2 = r := by
  unfold Call.perform
  rw [effect_bind, effect_liftExcept]
  cases indexOf? index <;> rfl

/-- What is read from a resolver is not changed by calls that do not point it elsewhere. -/
theorem effect_result_afterCalls (r : Resolver) {calls : List Call}
    (hcalls : ∀ call ∈ calls, ¬ call.Repoints) :
    Resolver.result.effect (afterCalls r calls) = Resolver.result.effect r := by
  induction calls generalizing r with
  | nil => rfl
  | cons call calls ih =>
      rw [List.forall_mem_cons] at hcalls
      have hcall : Resolver.result.effect (call.perform.effect r).2 = Resolver.result.effect r := by
        cases call with
        | result => exact effect_result_again r
        | resolveIndex target index => rw [effect_perform_resolveIndex]
        | reset => exact absurd trivial hcalls.1
        | resolve => exact absurd trivial hcalls.1
      rw [afterCalls_cons, ih _ hcalls.2, hcall]

/-! ## The places that a resolver comes to -/

/-- The resolver stands before the first of some tokens, none of which is empty. -/
def Aimed (r : Resolver) : Prop :=
  ∃ target tokens, (∀ token ∈ tokens, token ≠ "") ∧ r = aim target tokens

theorem aimed_ofPath (target path : Value) : Aimed (ofPath target path) :=
  ⟨target, tokens path, fun _ => ne_empty_of_mem_tokens, rfl⟩

theorem Aimed.ne_empty_of_mem_rest {r : Resolver} (h : Aimed r) {token : String}
    (hmem : token ∈ r.rest) : token ≠ "" := by
  obtain ⟨target, tokens, hne, rfl⟩ := h
  cases tokens with
  | nil => cases hmem
  | cons first rest => exact hne token (List.mem_cons_of_mem _ hmem)

theorem keeps_aimed_readToken : Keeps Aimed readToken := by
  intro r hr
  rwa [effect_readToken]

theorem keeps_aimed_readOn {rest : List String} (hrest : ∀ token ∈ rest, token ≠ "") :
    Keeps Aimed (readOn rest) := by
  induction rest with
  | nil => exact keeps_aimed_readToken
  | cons token rest ih =>
      intro r hr
      have hmoved (v : Value) : Aimed (aim v (token :: rest)) := ⟨v, token :: rest, hrest, rfl⟩
      rw [effect_readOn_cons]
      cases r.propertyAtIndex with
      | error fault => exact hr
      | ok v =>
          by_cases hnull : v.isNull = true
          · simpa [hnull] using hr
          · simp only [hnull]
            exact ih (List.forall_mem_cons.mp hrest).2 _ (hmoved v)

theorem keeps_aimed_result : Keeps Aimed Resolver.result := by
  intro r hr
  rw [effect_result]
  exact keeps_aimed_readOn (fun _ => hr.ne_empty_of_mem_rest) r hr

/-- Pointing a resolver at a path and reading it. -/
theorem effect_resolveFrom (target path : Value) (r : Resolver) :
    (resolveFrom target path).effect r =
      if target.isNull then (.ok target, r) else Resolver.result.effect (ofPath target path) := by
  unfold resolveFrom
  by_cases hnull : target.isNull = true
  · simp [hnull]
  · simp [hnull]

/-- **Every call leaves the resolver before tokens.** -/
theorem Call.keeps_aimed (call : Call) : Keeps Aimed call.perform := by
  intro r hr
  cases call with
  | reset target path => exact aimed_ofPath target path
  | result => exact keeps_aimed_result r hr
  | resolveIndex target index => rwa [effect_perform_resolveIndex]
  | resolve target path =>
      show Aimed ((resolveFrom target path).effect r).2
      rw [effect_resolveFrom]
      by_cases hnull : target.isNull = true
      · simpa [hnull] using hr
      · simp only [hnull]
        exact keeps_aimed_result _ (aimed_ofPath target path)

theorem aimed_afterCalls {r : Resolver} (hr : Aimed r) (calls : List Call) :
    Aimed (afterCalls r calls) := by
  induction calls generalizing r with
  | nil => exact hr
  | cons call calls ih => exact ih (call.keeps_aimed r hr)

/-- What is read before some tokens is what looking them up as a path gives. -/
theorem effect_result_aim (target : Value) {tokens : List String}
    (htokens : ∀ token ∈ tokens, token ≠ "") :
    (Resolver.result.effect (aim target tokens)).1 =
      (target.resolve (.list (tokens.map .text))).result := by
  have hpath : Path.tokens (.list (tokens.map .text)) = tokens := tokens_list_map_text htokens
  rw [effect_result, effect_readOn]
  cases tokens with
  | nil =>
      rw [Value.resolve_of_tokens_eq_nil hpath]
      rfl
  | cons token rest =>
      rw [Value.resolve_eq_walk hpath, walk_cons, readToken_eq_follow, propertyAtIndex_aim]
      rfl

/-! ## No history -/

theorem resolveFrom_run_eq_resolve (target path : Value) (r : Resolver) :
    ((resolveFrom target path).run r).1 = target.resolve path := by
  unfold resolveFrom Value.resolve
  by_cases hnull : target.isNull = true
  · simp only [hnull, if_true]
    rfl
  · simp only [hnull]
    rfl

/-- **A resolver carries no history.** Whatever calls it has seen, looking up a path with it gives
what looking up the path gives, with the same log. What is read from it is what the tokens that it
stands before lead to, and is read again as often as it is asked for, until the resolver is pointed
elsewhere. -/
theorem resolve_and_result_afterCalls (start route : Value) (calls : List Call) :
    (∀ target path : Value,
      ((resolveFrom target path).run (afterCalls (ofPath start route) calls)).1 =
        target.resolve path) ∧
    (∃ (target : Value) (tokens : List String),
      afterCalls (ofPath start route) calls = aim target tokens ∧
        (Resolver.result.effect (aim target tokens)).1 =
          (target.resolve (.list (tokens.map .text))).result) ∧
    ∀ further : List Call, (∀ call ∈ further, ¬ call.Repoints) →
      (Resolver.result.effect (afterCalls (ofPath start route) (calls ++ further))).1 =
        (Resolver.result.effect (afterCalls (ofPath start route) calls)).1 := by
  refine ⟨fun target path => resolveFrom_run_eq_resolve target path _, ?_, ?_⟩
  · obtain ⟨target, tokens, hne, hr⟩ := aimed_afterCalls (aimed_ofPath start route) calls
    exact ⟨target, tokens, hr, effect_result_aim target hne⟩
  · intro further hfurther
    have hsplit : afterCalls (ofPath start route) (calls ++ further) =
        afterCalls (afterCalls (ofPath start route) calls) further := List.foldl_append
    rw [hsplit, effect_result_afterCalls _ hfurther]

end Resolver

end LooseData
