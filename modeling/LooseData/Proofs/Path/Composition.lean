import LooseData.Proofs.Path.Notation

set_option autoImplicit false

/-! # Resolving a path in parts

A path of two parts with a dot between them is resolved by resolving the first part and then, from
what it comes to, the second (`Value.resolve_dot_eq_bind`). The tokens need not have the form of an
attribute with indices: whatever a token is, reading it depends on the value that has been reached
and on nothing else that happened on the way.

The resolver itself goes on by pointing itself at the value reached and at the tokens that are left,
which it cuts into tokens anew (`Resolver.step`). A token is never empty, so cutting tokens again
leaves them as they are, and every step leaves one token less (`Resolver.within_aim`).
-/

namespace LooseData

open LooseData.Path

namespace Path

/-! ## Tokens that are cut again -/

/-- No token is empty. -/
theorem ne_empty_of_mem_tokens {path : Value} {token : String} (h : token ∈ tokens path) :
    token ≠ "" := by
  have hitems {items : List Value} (h : token ∈ tokensOfItems items) : token ≠ "" := by
    obtain ⟨item, -, hitem⟩ := List.mem_filterMap.mp h
    split at hitem
    · split at hitem
      · cases hitem
      · rename_i hne
        obtain rfl := Option.some.inj hitem
        simpa using hne
    · cases hitem
  unfold tokens at h
  split at h
  · obtain ⟨piece, hpiece, rfl⟩ := List.mem_map.mp h
    have hne := (List.mem_filter.mp hpiece).2
    simpa using hne
  · exact hitems h
  · exact hitems h
  · cases h

/-- Tokens given as a list are the tokens of the list. -/
theorem tokens_list_map_text {texts : List String} (h : ∀ text ∈ texts, text ≠ "") :
    tokens (.list (texts.map .text)) = texts := by
  show tokensOfItems (texts.map .text) = texts
  induction texts with
  | nil => rfl
  | cons text rest ih =>
      rw [List.forall_mem_cons] at h
      have hne : text.isEmpty = false := by simpa using h.1
      have hrest := ih h.2
      rw [tokensOfItems] at hrest ⊢
      rw [List.map_cons, List.filterMap_cons_some (b := text), hrest]
      simp only [Value.text, hne]
      rfl

/-- A walk over tokens in two parts. -/
theorem walk_append (v : Value) (front back : List String) :
    walk v (front ++ back) = (walk v front).bind fun w => walk w back := by
  unfold walk
  rw [List.foldlM_append]
  rfl

theorem tokensOfText_dot (p q : String) :
    tokensOfText (p ++ "." ++ q) = tokensOfText p ++ tokensOfText q := by
  have hchars : p ++ "." ++ q = String.ofList (further p.toList q.toList) := by
    apply String.toList_injective
    simp [further]
  rw [hchars, tokensOfText_further, String.ofList_toList, String.ofList_toList]

end Path

namespace Resolver

/-! ## The steps of a resolver -/

/-- One step: the present token is read, and that is the result if no token is left or nothing was
found. Otherwise the resolver is pointed at what was found and at the tokens that are left. -/
def step (r : Resolver) : Except Fault (Value ⊕ Resolver) :=
  r.propertyAtIndex.map fun v =>
    if r.complete || v.isNull then .inl v else .inr (.ofPath v (.list (r.rest.map .text)))

/-- What the steps of a resolver end with, if no more of them are needed than a number says. -/
def within : (steps : Nat) → Resolver → Option (Except Fault Value)
  | 0, _ => none
  | steps + 1, r => match r.step with
    | .error fault => some (.error fault)
    | .ok (.inl v) => some (.ok v)
    | .ok (.inr next) => within steps next

/-- A step reads the first token, whatever its form. -/
theorem step_aim (target : Value) (token : String) (rest : List String) :
    (aim target (token :: rest)).step = (Path.readToken target token).map fun v =>
      if rest.isEmpty || v.isNull then .inl v else .inr (ofPath v (.list (rest.map .text))) := by
  rw [step, Path.propertyAtIndex_aim, Path.readToken_eq_follow]
  rfl

/-- One induction over the tokens that are left: a step leaves one less of them, and the walk over
the others is what the next resolver ends with. -/
theorem within_aim (target : Value) (token : String) {rest : List String}
    (hrest : ∀ t ∈ rest, t ≠ "") {steps : Nat} (hsteps : rest.length < steps) :
    within steps (aim target (token :: rest)) = some (walk target (token :: rest)) := by
  induction rest generalizing target token steps with
  | nil =>
      obtain ⟨steps, rfl⟩ := Nat.exists_eq_succ_of_ne_zero (Nat.ne_of_gt hsteps)
      rw [within, step_aim, walk_cons]
      cases Path.readToken target token <;> rfl
  | cons next rest ih =>
      obtain ⟨steps, rfl⟩ := Nat.exists_eq_succ_of_ne_zero (Nat.ne_zero_of_lt hsteps)
      have htokens := tokens_list_map_text hrest
      rw [List.forall_mem_cons] at hrest
      rw [within, step_aim, walk_cons]
      cases Path.readToken target token with
      | error fault => rfl
      | ok v =>
          show _ = some (walk v (next :: rest))
          cases hnull : v.isNull with
          | true =>
              rw [walk_of_isNull hnull]
              simp [Except.map, hnull]
          | false =>
              have hfewer : rest.length < steps := Nat.lt_of_succ_lt_succ hsteps
              have hnext : ofPath v (.list ((next :: rest).map .text)) = aim v (next :: rest) := by
                rw [ofPath, htokens]
              rw [← ih v next hrest.2 hfewer, ← hnext]
              simp [Except.map, hnull]

/-- **The steps of a resolver come to an end**, at the latest with the last token, and with what
resolving the path gives. A path without tokens takes one step. -/
theorem within_ofPath (target path : Value) {steps : Nat}
    (hsteps : max 1 (tokens path).length ≤ steps) :
    within steps (ofPath target path) = some (target.resolve path).result := by
  unfold ofPath
  cases htokens : tokens path with
  | nil =>
      rw [htokens] at hsteps
      obtain ⟨steps, rfl⟩ := Nat.exists_eq_succ_of_ne_zero (Nat.ne_of_gt hsteps)
      rw [Value.resolve_of_tokens_eq_nil htokens]
      rfl
  | cons token rest =>
      rw [Value.resolve_eq_walk htokens]
      have hnonempty : ∀ t ∈ tokens path, t ≠ "" := fun t ht => ne_empty_of_mem_tokens ht
      rw [htokens] at hsteps hnonempty
      exact within_aim target token (List.forall_mem_cons.mp hnonempty).2
        (lt_of_lt_of_le (Nat.lt_succ_self _) (le_of_max_le_right hsteps))

end Resolver

namespace Value

theorem resolve_eq_walk_tokens (path target : Value) (h : tokens path ≠ []) :
    (target.resolve path).result = walk target (tokens path) := by
  obtain ⟨token, rest, htokens⟩ := List.exists_cons_of_ne_nil h
  rw [resolve_eq_walk htokens, htokens]

/-- **Resolving a path in parts.** The second part is resolved from what the first comes to, and a
fault of the first is the fault of the whole. Resolving any path ends: the resolver takes at most as
many steps as the path has tokens, and one if it has none. -/
theorem resolve_dot_eq_bind {p q : String} (hp : tokensOfText p ≠ []) (hq : tokensOfText q ≠ []) :
    (∀ target : Value, (target.resolve (.text (p ++ "." ++ q))).result =
      (target.resolve (.text p)).result.bind fun v => (v.resolve (.text q)).result) ∧
    ∀ (target path : Value) (steps : Nat), max 1 (tokens path).length ≤ steps →
      Resolver.within steps (Resolver.ofPath target path) = some (target.resolve path).result := by
  refine ⟨fun target => ?_, fun target path steps => Resolver.within_ofPath target path⟩
  have hpath : tokens (.text (p ++ "." ++ q)) = tokensOfText p ++ tokensOfText q :=
    tokensOfText_dot p q
  have hne : tokens (.text (p ++ "." ++ q)) ≠ [] := by
    rw [hpath]
    exact List.append_ne_nil_of_left_ne_nil hp _
  have hfirst : (target.resolve (.text p)).result = walk target (tokensOfText p) :=
    resolve_eq_walk_tokens (.text p) target hp
  have hsecond : (fun v : Value => (v.resolve (.text q)).result) =
      fun v => walk v (tokensOfText q) :=
    funext fun v => resolve_eq_walk_tokens (.text q) v hq
  rw [resolve_eq_walk_tokens _ _ hne, hpath, walk_append, hfirst, hsecond]

/-- A bracket that is never closed, and JSON within JSON on the other side of the dot. -/
theorem resolve_region_dot_eq_bind :
    tokensOfText "env [unclosed" ≠ [] ∧ tokensOfText "region.1.b" ≠ [] ∧
      ((region.resolve (.text "env [unclosed")).result.bind
        fun v => (v.resolve (.text "region.1.b")).result) = .ok (.int 2) ∧
      Resolver.within 5 (.ofPath region (.text ("env [unclosed" ++ "." ++ "region.1.b"))) =
        some (.ok (.int 2)) := by
  have hp : tokensOfText "env [unclosed" ≠ [] := by decide
  have hq : tokensOfText "region.1.b" ≠ [] := by decide
  have hwhole : (region.resolve (.text ("env [unclosed" ++ "." ++ "region.1.b"))).result =
      .ok (.int 2) := by cbv
  obtain ⟨hbind, hends⟩ := resolve_dot_eq_bind hp hq
  refine ⟨hp, hq, (hbind region).symm.trans hwhole, ?_⟩
  rw [hends region _ 5 (by decide), hwhole]

end Value

end LooseData
